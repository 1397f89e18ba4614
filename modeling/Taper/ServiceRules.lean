import Taper.Services
import Taper.OrderSteps

set_option autoImplicit false

/-!
# Rules for the handlers

For each handler, what has to be known of the operations it can perform for the
handler to perform no bad one, or to have a property that is kept by
composition.
-/
namespace Taper.ServiceRules
open Messages Platform ReservationTables OrderTables Program ServiceStack Services

def special : Op → Bool
  | .transition _ _ _ _ _ _ | .releaseStock _ _ | .insertReservations _ _ _ | .beginRelease _ _
  | .commitRelease _ _ _ | .allocate _ _ | .markExpired _ | .createOrderRow _ _ _
  | .charge _ => true
  | _ => false

variable {α : Type} {rt : Runtime} {ok : (o : Op) → Resp o → Prop} {bad : Op → Prop}

/-- A handler that reads the tenant first either refuses or knows it. -/
theorem of_parse {R : Code (Except Failure α) → Prop} {text : String} {wrap : Failure → Failure}
    {body : UUID → Code (Except Failure α)} (refused : ∀ e, R (pure (.error e)))
    (rest : ∀ t, rt.scan text = some t → R (body t)) :
    R (match parseUUID rt text with
      | .error e => pure (.error (wrap e))
      | .ok t => body t) := by
  cases parsed : parseUUID rt text with
  | error e => exact refused _
  | ok t => exact rest t (parse_scan parsed)

theorem safe_ask {o : Op} {Q : Resp o → Prop} (good : ¬bad o) (h : ∀ r, ok o r → Q r) :
    Safe ok bad Q (ask o) := safe_perform good h

theorem safe_done {a : α} : Safe ok bad (fun _ => True) (pure a : Code α) := trivial

theorem safe_then {o : Op} {f : Resp o → Code α} {Q : α → Prop} (good : ¬bad o)
    (rest : ∀ r, ok o r → Safe ok bad Q (f r)) : Safe ok bad Q (ask o >>= f) :=
  safe_bind (safe_ask good fun _ h => h) rest

def compensation (tenantID orderID reason : String) : ReleaseRequest :=
  ⟨tenantID, "", orderID, reason, compensationKey tenantID orderID⟩

def releaseOf (req : ReleaseRequest) (rows : List Reservation) : ReleaseStockRequest :=
  ⟨req.tenantId, req.orderId, req.reason, req.idempotencyKey, rows.map rowLine⟩

structure ReleaseSafe (rt : Runtime) (ok : (o : Op) → Resp o → Prop) (bad : Op → Prop)
    (req : ReleaseRequest) : Prop where
  claim : ∀ t, rt.scan req.tenantId = some t → ¬bad (.beginRelease t req)
  rows : ∀ t rows, rt.scan req.tenantId = some t → ok (.beginRelease t req) (.ok rows) →
    ¬bad (.releaseStock (releaseOf req rows) rows) ∧ ¬bad (.commitRelease t req rows)

def Stored (answer : Except Failure (Option ℕ)) : Prop :=
  (∃ id, answer = .ok id) ∨ answer = .error .alreadyProcessed

/-- The release by which a reservation that could not be stored is undone. -/
def undoOf (req : ReserveRequest) : ReleaseStockRequest :=
  ⟨req.tenantId, req.orderId, "reserve_failure", compensationKey req.tenantId req.orderId,
    req.items.map itemLine⟩

def Inserted (ok : (o : Op) → Resp o → Prop) (t : UUID) (req : ReserveRequest) : Prop :=
  ∃ expiresAt answer, ok (.insertReservations t req expiresAt) answer ∧ Stored answer

def Allocated (ok : (o : Op) → Resp o → Prop) (t : UUID) (req : AllocateReservationRequest) :
    Prop := ∃ count, ok (.allocate t req) (.ok count)

def chargeRequest (input : SagaInput) : ChargeRequest :=
  ⟨input.orderID, input.tenantID, orderTotal input.lines, "USD", input.idemKey ++ ":charge"⟩

def reserveRequest (input : SagaInput) : ReserveRequest :=
  ⟨input.tenantID, input.orderID, input.idemKey ++ ":reserve", reserveItems input.lines, input.ttl⟩

def allocateRequest (input : SagaInput) : AllocateReservationRequest :=
  ⟨input.tenantID, input.orderID, input.idemKey ++ ":allocate"⟩

def createInput (req : CreateOrderRequest) (t : UUID) : SagaInput :=
  ⟨req.tenantId, t, req.orderId, req.lines, req.idempotencyKey, ttlOrDefault req.ttlSeconds,
    req.forcePaymentFailure⟩

variable {input : SagaInput}

/-- Operations that neither hold, return nor mark a reservation row. -/
def ordinary : Op → Bool
  | .releaseStock _ _ | .beginRelease _ _ | .commitRelease _ _ _ | .markExpired _ => false
  | _ => true

/-- Operations that neither pay for an order nor work on reservation rows. -/
def calling : Op → Bool
  | .charge _ | .recordTransaction _ _ _ _ => false
  | op => ordinary op

/-- Operations that read, or leave to the environment what happens. -/
def neutral : Op → Bool
  | .allow _ | .send _ | .answer _ | .timeNow | .rangeOver _ | .firstReservationID _ _ | .endTx
  | .getExpiredReservations _ _ | .getSagaInstance _ _ _ | .getResumableSagas _ => true
  | _ => false

/-- A property of programs that is kept by composition and holds of the operations
that are fine. -/
structure Walks (fine : Op → Prop) (P : (α : Type) → Code α → Prop) : Prop where
  pure : ∀ {α : Type} (a : α), P α (Prog.pure a)
  bind : ∀ {α β : Type} {p : Code α} {f : α → Code β}, P α p → (∀ a, P β (f a)) → P β (p >>= f)
  ask : ∀ op, fine op → P (Resp op) (ServiceStack.ask op)
  neutral : ∀ op, neutral op = true → fine op

/-- The transitions by which a saga is given up. -/
def Moves (rt : Runtime) (fine : Op → Prop) (tenantID orderID : String) : Prop :=
  ∀ t state step msg, rt.scan tenantID = some t → state = .failed ∨ state = .compensated →
    fine (.transition tenantID t orderID state step msg)

/-- The operations of a saga between its reservation and its payment. -/
structure SagaFine (rt : Runtime) (fine : Op → Prop) (input : SagaInput) : Prop where
  fail : Moves rt fine input.tenantID input.orderID
  moves : ∀ state step msg,
    fine (.transition input.tenantID input.tenantUUID input.orderID state step msg)
  allocate : ∀ t, rt.scan input.tenantID = some t → fine (.allocate t (allocateRequest input))
  confirm : ∀ key, fine (.confirmStockAllocation
    ⟨input.tenantID, input.orderID, key, stockLines input.lines⟩)

namespace Walks

variable {fine : Op → Prop} {P : (α : Type) → Code α → Prop} (h : Walks fine P)

include h

theorem plain (op : Op) (idle : ServiceRules.neutral op = true) :
    P (Resp op) (ServiceStack.ask op) := h.ask op (h.neutral op idle)

theorem rpc {site : Site} {body : Code (Except Failure α)} (inner : P _ body) :
    P _ (Services.rpc site body) := by
  refine h.bind (h.plain _ rfl) fun sent => ?_
  cases sent with
  | false => exact h.pure _
  | true =>
    refine h.bind inner fun res => h.bind (h.plain _ rfl) fun answered => ?_
    cases answered with
    | false => exact h.pure _
    | true => exact h.pure _

theorem reserve {req : ReserveRequest}
    (hold : ∀ lines, fine (.reserveStock ⟨req.tenantId, req.orderId, req.idempotencyKey, lines⟩))
    (insert : ∀ t expiresAt, rt.scan req.tenantId = some t →
      fine (.insertReservations t req expiresAt))
    (undo : P _ (ServiceStack.ask (.releaseStock (undoOf req) []))) :
    P _ (Services.reserve rt req) := by
  unfold Services.reserve
  refine of_parse (fun _ => h.pure _) fun t parse => ?_
  split
  · exact h.pure _
  · refine h.bind (h.rpc (h.ask _ (hold _))) fun answer => ?_
    cases answer with
    | error e => exact h.pure _
    | ok stockResp =>
      dsimp only
      split
      · exact h.pure _
      · refine h.bind (h.plain _ rfl) fun now =>
          h.bind (h.ask _ (insert t _ parse)) fun inserted => ?_
        split
        · exact h.pure _
        · exact h.bind (h.plain _ rfl) fun _ => h.bind (h.plain .endTx rfl) fun _ => h.pure _
        · exact h.bind (h.rpc undo) fun _ => h.pure _

theorem allocateReservation {req : AllocateReservationRequest}
    (allocate : ∀ t, rt.scan req.tenantId = some t → fine (.allocate t req)) :
    P _ (Services.allocateReservation rt req) := by
  unfold Services.allocateReservation
  refine of_parse (fun _ => h.pure _) fun t parse => ?_
  refine h.bind (h.ask _ (allocate t parse)) fun answer => ?_
  cases answer with
  | error e => exact h.pure _
  | ok count => exact h.pure _

theorem failSaga {tenantID orderID : String} (moves : Moves rt fine tenantID orderID)
    (msg : String) : P _ (Services.failSaga rt tenantID orderID msg) := by
  unfold Services.failSaga
  refine of_parse (fun _ => h.pure _) fun t parse => ?_
  exact h.ask _ (moves t _ _ _ parse (.inl rfl))

theorem compensate {tenantID orderID reason : String} (moves : Moves rt fine tenantID orderID)
    (release : P _ (Services.release rt (compensation tenantID orderID reason))) :
    P _ (Services.compensate rt tenantID orderID reason) := by
  unfold Services.compensate
  refine of_parse (fun _ => h.pure _) fun t parse => ?_
  refine h.bind (h.rpc release) fun answer => ?_
  cases answer with
  | error e => exact h.pure _
  | ok resp => exact h.ask _ (moves t _ _ _ parse (.inr rfl))

theorem confirmSteps (saga : SagaFine rt fine input) (txnID : String) :
    P _ (Services.confirmSteps rt input txnID) := by
  refine h.bind (h.rpc (h.allocateReservation saga.allocate)) fun answer => ?_
  cases answer with
  | error e => exact h.bind (h.failSaga saga.fail _) fun _ => h.pure _
  | ok resp =>
    refine h.bind (h.plain _ rfl) fun allowed => ?_
    cases allowed with
    | false => exact h.pure _
    | true =>
      refine h.bind (h.rpc (h.ask _ (saga.confirm _))) fun answer => ?_
      cases answer with
      | error e => exact h.bind (h.failSaga saga.fail _) fun _ => h.pure _
      | ok resp =>
        refine h.bind (h.ask _ (saga.moves _ _ _)) fun moved => ?_
        cases moved with
        | error e => exact h.pure _
        | ok u => exact h.pure _

theorem chargeStep (charge : fine (.charge (chargeRequest input))) :
    P _ (Services.chargeStep input) := by
  unfold Services.chargeStep
  split
  · exact h.pure _
  · refine h.bind (h.plain _ rfl) fun allowed => ?_
    cases allowed with
    | false => exact h.pure _
    | true => exact h.bind (h.ask _ charge) fun _ => h.pure _

theorem paySteps (saga : SagaFine rt fine input)
    (release : P _ (Services.release rt
      (compensation input.tenantID input.orderID "payment_failed")))
    (charge : fine (.charge (chargeRequest input)))
    (record : ∀ txn, fine (.recordTransaction input.tenantID input.tenantUUID input.orderID txn)) :
    P _ (Services.paySteps rt input) := by
  refine h.bind (h.chargeStep charge) fun charged => ?_
  split
  · exact h.pure _
  · refine h.bind (h.compensate saga.fail release) fun compensated => ?_
    cases compensated with
    | error e => exact h.bind (h.failSaga saga.fail _) fun _ => h.pure _
    | ok u => exact h.pure _
  · refine h.bind (h.ask _ (record _)) fun recorded => ?_
    cases recorded with
    | error e => exact h.pure _
    | ok u => exact h.confirmSteps saga _

theorem runSaga (saga : SagaFine rt fine input)
    (reserve : P _ (Services.reserve rt (reserveRequest input)))
    (pay : P _ (Services.paySteps rt input)) : P _ (Services.runSaga rt input) := by
  refine h.bind (h.plain _ rfl) fun allowed => ?_
  cases allowed with
  | false => exact h.pure _
  | true =>
    refine h.bind (h.rpc reserve) fun answer => ?_
    cases answer with
    | error e => exact h.bind (h.failSaga saga.fail _) fun _ => h.pure _
    | ok resp =>
      dsimp only
      split
      · exact h.bind (h.failSaga saga.fail _) fun _ => h.pure _
      · refine h.bind (h.ask _ (saga.moves _ _ _)) fun moved => ?_
        cases moved with
        | error e => exact h.pure _
        | ok u => exact pay

theorem release (rows : ∀ op, ordinary op = false → P (Resp op) (ServiceStack.ask op))
    (req : ReleaseRequest) : P _ (Services.release rt req) := by
  unfold Services.release
  split
  · exact h.pure _
  · refine h.bind (rows (.beginRelease _ _) rfl) fun claim => ?_
    split
    · exact h.pure _
    · exact h.pure _
    · exact h.pure _
    · refine h.bind (h.rpc (rows (.releaseStock _ _) rfl)) fun answer => ?_
      cases answer with
      | error e => exact h.bind (h.plain .endTx rfl) fun _ => h.pure _
      | ok resp =>
        refine h.bind (rows (.commitRelease _ _ _) rfl) fun committed => ?_
        cases committed with
        | error e => exact h.pure _
        | ok u => exact h.pure _

theorem createOrder {req : CreateOrderRequest}
    (create : ∀ t total, rt.scan req.tenantId = some t → fine (.createOrderRow t req total))
    (drive : ∀ t, rt.scan req.tenantId = some t → P _ (Services.runSaga rt (createInput req t))) :
    P _ (Services.createOrder rt req) := by
  unfold Services.createOrder
  refine of_parse (fun _ => h.pure _) fun t parse => ?_
  split
  · exact h.pure _
  · split
    · exact h.pure _
    · split
      · exact h.pure _
      · refine h.bind (h.ask _ (create t _ parse)) fun created => ?_
        split
        · refine h.bind (h.plain _ rfl) fun found => ?_
          cases found with
          | error e => exact h.pure _
          | ok saga => exact h.pure _
        · exact h.pure _
        · exact drive t parse

theorem cancelOrder {req : CancelOrderRequest} (moves : Moves rt fine req.tenantId req.orderId)
    (release : P _ (Services.release rt
      (compensation req.tenantId req.orderId (cancelReason req.reason)))) :
    P _ (Services.cancelOrder rt req) := by
  unfold Services.cancelOrder
  split
  · exact h.pure _
  · refine h.bind (h.plain _ rfl) fun found => ?_
    cases found with
    | error e => exact h.pure _
    | ok saga =>
      dsimp only
      split
      · exact h.pure _
      · split
        · exact h.pure _
        · refine h.bind (h.compensate moves release) fun compensated => ?_
          cases compensated with
          | error e => exact h.pure _
          | ok u => exact h.pure _

theorem resumeEach (lines : ∀ tenantID t o, fine (.getOrderLines tenantID t o))
    (drive : ∀ input, P _ (Services.runSaga rt input)) (sagas : List SagaInstance) :
    P _ (Services.resumeEach rt sagas) := by
  induction sagas with
  | nil => exact h.pure _
  | cons saga rest ih =>
    refine h.bind (h.ask _ (lines _ _ _)) fun found => ?_
    cases found with
    | error e => exact h.pure _
    | ok lines => exact h.bind (drive _) fun _ => ih

theorem forEach {β : Type} {body : β → Code Unit} (items : List β) (each : ∀ b, P _ (body b)) :
    P _ (Prog.forEach body items) := by
  induction items with
  | nil => exact h.pure _
  | cons b rest ih => exact h.bind (each b) fun _ => ih

theorem markExpired {row : Reservation} (mark : P _ (ServiceStack.ask (.markExpired row)))
    (note : fine (.expiredEvent row)) : P _ (Services.markExpired row) := by
  refine h.bind mark fun marked => ?_
  cases marked with
  | error e => exact h.pure _
  | ok u => exact h.bind (h.ask _ note) fun _ => h.pure _

theorem sweepGroup (rows : ∀ op, ordinary op = false → P (Resp op) (ServiceStack.ask op))
    (note : ∀ row, fine (.expiredEvent row)) (k : GroupKey) (held : List Reservation) :
    P _ (Services.sweepGroup k held) := by
  refine h.bind (h.rpc (rows (.releaseStock _ _) rfl)) fun answer => ?_
  cases answer with
  | error e => exact h.pure _
  | ok resp =>
    exact h.forEach held fun row => h.markExpired (rows (.markExpired row) rfl) (note row)

theorem sweepOnce (group : ∀ k rows, P _ (Services.sweepGroup k rows)) (batch : Int32) :
    P _ (Services.sweepOnce batch) := by
  refine h.bind (h.plain _ rfl) fun now => h.bind (h.plain _ rfl) fun answer => ?_
  cases answer with
  | error e => exact h.pure _
  | ok rows =>
    refine h.bind (h.plain _ rfl) fun keys => ?_
    exact h.forEach keys fun k => group k _

omit h in
theorem saga_of_calling (calls : ∀ op, calling op = true → fine op) : SagaFine rt fine input :=
  ⟨fun _ _ _ _ _ _ => calls _ rfl, fun _ _ _ => calls _ rfl, fun _ _ => calls _ rfl,
    fun _ => calls _ rfl⟩

theorem handler (calls : ∀ op, calling op = true → fine op)
    (reserve : ∀ req, P _ (Services.reserve rt req))
    (pay : ∀ input, P _ (Services.paySteps rt input))
    (release : ∀ req, P _ (Services.release rt req))
    (group : ∀ k rows, P _ (Services.sweepGroup k rows)) (x : Handler) :
    P _ (x.code rt) := by
  have served : ∀ {β : Type} {p : Code β}, P β p → P Unit (serve p) :=
    fun inner => h.bind inner fun _ => h.pure _
  have drive : ∀ input, P _ (Services.runSaga rt input) := fun input =>
    h.runSaga (saga_of_calling calls) (reserve _) (pay input)
  cases x with
  | createOrder req => exact served (h.createOrder (fun _ _ _ => calls _ rfl) fun _ _ => drive _)
  | cancelOrder req => exact served (h.cancelOrder (fun _ _ _ _ _ _ => calls _ rfl) (release _))
  | resumePendingSagas limit =>
    refine served (h.bind (h.plain _ rfl) fun found => ?_)
    cases found with
    | error e => exact h.pure _
    | ok sagas => exact h.resumeEach (fun _ _ _ => calls _ rfl) drive sagas
  | reserve req => exact served (reserve req)
  | release req => exact served (release req)
  | allocateReservation req => exact served (h.allocateReservation fun _ _ => calls _ rfl)
  | sweepOnce batch => exact served (h.sweepOnce group batch)

end Walks

section Plain

variable (plain : ∀ op, special op = false → ¬bad op)

include plain

theorem safe_walks : Walks (fun op => ¬bad op) fun _ p => Safe ok bad (fun _ => True) p where
  pure _ := safe_done
  bind first rest := safe_bind first fun a _ => rest a
  ask _ good := safe_ask good fun _ _ => trivial
  neutral op idle := plain op (by cases op <;> first | rfl | cases idle)

theorem safe_rpc {site : Site} {body : Code (Except Failure α)} {Q : Except Failure α → Prop}
    (lost : Q (.error .transport)) (inner : Safe ok bad Q body) :
    Safe ok bad Q (rpc site body) := by
  refine safe_then (plain _ rfl) fun sent _ => ?_
  cases sent with
  | false => exact lost
  | true =>
    refine safe_bind inner fun res h => safe_then (plain _ rfl) fun answered _ => ?_
    cases answered with
    | false => exact lost
    | true => exact h

/-- A success is answered only once the reservation is stored. -/
theorem reserve_safe {req : ReserveRequest}
    (undo : ∀ t expiresAt answer, rt.scan req.tenantId = some t →
      ok (.insertReservations t req expiresAt) answer → ¬Stored answer →
        ¬bad (.releaseStock (undoOf req) []))
    (insert : ∀ t expiresAt, rt.scan req.tenantId = some t → req.items ≠ [] →
      ¬bad (.insertReservations t req expiresAt)) :
    Safe ok bad (fun answer => ∀ resp, answer = .ok resp → resp.success = true →
      ∃ t, rt.scan req.tenantId = some t ∧ Inserted ok t req) (reserve rt req) := by
  have failed : ∀ e : Failure, ∀ resp : ReserveResponse, Except.error e = Except.ok resp →
      resp.success = true → ∃ t, rt.scan req.tenantId = some t ∧ Inserted ok t req :=
    fun _ _ eq => by cases eq
  unfold reserve
  refine of_parse failed fun t parse => ?_
  split
  · exact failed _
  · rename_i items
    refine safe_bind (safe_rpc plain trivial (safe_ask (plain _ rfl) fun _ _ => trivial)) ?_
    intro answer _
    cases answer with
    | error e => exact failed _
    | ok stockResp =>
      dsimp only
      split
      · rintro resp ⟨⟩ success
        cases success
      · refine safe_then (plain _ rfl) fun now _ =>
          safe_then (insert t _ parse items) fun inserted given => ?_
        split
        · exact fun _ _ _ => ⟨t, parse, _, _, given, .inl ⟨_, rfl⟩⟩
        · refine safe_then (plain _ rfl) fun _ _ => safe_then (plain _ rfl) fun _ _ _ _ _ => ?_
          exact ⟨t, parse, _, _, given, .inr rfl⟩
        · rename_i e other
          have lost := undo t _ _ parse given (by
            rintro (⟨_, eq⟩ | eq)
            · cases eq
            · exact other (Except.error.inj eq))
          refine safe_bind (safe_rpc plain trivial (safe_ask lost fun _ _ => trivial)) ?_
          exact fun _ _ => failed _

theorem release_safe {req : ReleaseRequest} (rows : ReleaseSafe rt ok bad req) :
    Safe ok bad (fun _ => True) (release rt req) := by
  unfold release
  refine of_parse (fun _ => safe_done) fun t parse => ?_
  refine safe_then (rows.claim t parse) fun claim given => ?_
  split
  · exact safe_done
  · exact safe_done
  · exact safe_done
  · rename_i held _
    have good := rows.rows t held parse given
    refine safe_bind (safe_rpc plain trivial (safe_ask good.1 fun _ _ => trivial)) ?_
    intro answer _
    cases answer with
    | error e => exact safe_then (plain _ rfl) fun _ _ => safe_done
    | ok stockResp =>
      refine safe_then good.2 fun done _ => ?_
      cases done with
      | error e => exact safe_done
      | ok u => exact safe_done

omit plain in
theorem allocateReservation_safe {req : AllocateReservationRequest}
    (allocate : ∀ t, rt.scan req.tenantId = some t → ¬bad (.allocate t req)) :
    Safe ok bad (fun answer => ∀ resp, answer = .ok resp →
      ∃ t, rt.scan req.tenantId = some t ∧ Allocated ok t req) (allocateReservation rt req) := by
  unfold allocateReservation
  refine of_parse (fun e resp eq => by cases eq) fun t parse => ?_
  refine safe_then (allocate t parse) fun answer given => ?_
  cases answer with
  | error e => exact fun resp eq => by cases eq
  | ok count => exact fun _ _ => ⟨t, parse, count, given⟩

theorem markExpired_safe {row : Reservation} (good : ¬bad (.markExpired row)) :
    Safe ok bad (fun _ => True) (markExpired row) :=
  (safe_walks plain).markExpired (safe_ask good fun _ _ => trivial) (plain _ rfl)

theorem sweepGroup_safe {k : GroupKey} {rows : List Reservation}
    (release : ¬bad (.releaseStock (releaseRequest k.tenant k.orderID rows) rows))
    (mark : ∀ row ∈ rows, ¬bad (.markExpired row)) :
    Safe ok bad (fun _ => True) (sweepGroup k rows) := by
  refine safe_bind (safe_rpc plain trivial (safe_ask release fun _ _ => trivial)) ?_
  intro answer _
  cases answer with
  | error e => exact safe_done
  | ok stockResp => exact safe_forEach fun row member => markExpired_safe plain (mark row member)

theorem sweepOnce_safe {batch : Int32}
    (group : ∀ now rows, ok (.getExpiredReservations now batch) (.ok rows) →
      (∀ k : GroupKey, ¬bad (.releaseStock
        (releaseRequest k.tenant k.orderID (rows.filter fun r => groupKey r = k))
        (rows.filter fun r => groupKey r = k))) ∧
      ∀ row ∈ rows, ¬bad (.markExpired row)) :
    Safe ok bad (fun _ => True) (sweepOnce batch) := by
  refine safe_then (plain _ rfl) fun now _ => safe_then (plain _ rfl) fun answer given => ?_
  cases answer with
  | error e => exact safe_done
  | ok rows =>
    have good := group now rows given
    refine safe_then (plain _ rfl) fun keys _ => safe_forEach fun k _ => ?_
    exact sweepGroup_safe plain (good.1 k) fun row member =>
      good.2 row (List.mem_filter.1 member).1

omit plain in
theorem failSaga_safe {tenantID orderID : String}
    (good : Moves rt (fun op => ¬bad op) tenantID orderID) (msg : String) :
    Safe ok bad (fun _ => True) (failSaga rt tenantID orderID msg) := by
  unfold failSaga
  refine of_parse (fun _ => safe_done) fun t parse => ?_
  exact safe_ask (good t _ _ _ parse (.inl rfl)) fun _ _ => trivial

theorem compensate_safe {tenantID orderID reason : String}
    (good : Moves rt (fun op => ¬bad op) tenantID orderID)
    (rows : ReleaseSafe rt ok bad (compensation tenantID orderID reason)) :
    Safe ok bad (fun _ => True) (compensate rt tenantID orderID reason) :=
  (safe_walks plain).compensate good (release_safe plain rows)

theorem chargeStep_safe (good : ¬bad (.charge (chargeRequest input))) :
    Safe ok bad (fun _ => True) (chargeStep input) := (safe_walks plain).chargeStep good

theorem confirm_safe (req : ConfirmStockAllocationRequest) :
    Safe ok bad (fun _ => True) (ask (.confirmStockAllocation req)) :=
  safe_ask (plain _ rfl) fun _ _ => trivial

/-- What the saga of an input may do: it charges after it has moved to
`RESERVED`, allocates after it has reserved, and confirms after it has allocated. -/
structure SagaSafe (rt : Runtime) (ok : (o : Op) → Resp o → Prop) (bad : Op → Prop)
    (input : SagaInput) : Prop where
  coherent : rt.scan input.tenantID = some input.tenantUUID
  undo : ∀ expiresAt answer,
    ok (.insertReservations input.tenantUUID (reserveRequest input) expiresAt) answer →
      ¬Stored answer → ¬bad (.releaseStock (undoOf (reserveRequest input)) [])
  insert : ∀ expiresAt, reserveItems input.lines ≠ [] →
    ¬bad (.insertReservations input.tenantUUID (reserveRequest input) expiresAt)
  transition : ∀ state step msg, state ≠ .confirmed → state ≠ .pendingPayment →
    ¬bad (.transition input.tenantID input.tenantUUID input.orderID state step msg)
  rows : ReleaseSafe rt ok bad (compensation input.tenantID input.orderID "payment_failed")
  allocate : Inserted ok input.tenantUUID (reserveRequest input) →
    ok (.transition input.tenantID input.tenantUUID input.orderID .reserved 1 "") (.ok ()) →
      ¬bad (.allocate input.tenantUUID (allocateRequest input))
  confirm : Allocated ok input.tenantUUID (allocateRequest input) → ∀ step msg,
    ¬bad (.transition input.tenantID input.tenantUUID input.orderID .confirmed step msg)
  charge : ok (.transition input.tenantID input.tenantUUID input.orderID .reserved 1 "") (.ok ()) →
    ¬bad (.charge (chargeRequest input))

/-- What the saga of an input may do once it has been charged. -/
structure SettleSafe (rt : Runtime) (ok : (o : Op) → Resp o → Prop) (bad : Op → Prop)
    (input : SagaInput) : Prop where
  coherent : rt.scan input.tenantID = some input.tenantUUID
  transition : ∀ state step msg, state ≠ .confirmed → state ≠ .pendingPayment →
    ¬bad (.transition input.tenantID input.tenantUUID input.orderID state step msg)
  rows : ReleaseSafe rt ok bad (compensation input.tenantID input.orderID "payment_failed")
  allocate : ¬bad (.allocate input.tenantUUID (allocateRequest input))
  confirm : Allocated ok input.tenantUUID (allocateRequest input) → ∀ step msg,
    ¬bad (.transition input.tenantID input.tenantUUID input.orderID .confirmed step msg)

omit plain in
theorem SagaSafe.settle (h : SagaSafe rt ok bad input)
    (reserved : Inserted ok input.tenantUUID (reserveRequest input))
    (moved : ok (.transition input.tenantID input.tenantUUID input.orderID .reserved 1 "")
      (.ok ())) : SettleSafe rt ok bad input :=
  ⟨h.coherent, h.transition, h.rows, h.allocate reserved moved, h.confirm⟩

omit plain in
theorem moves_of_coherent {tenantID orderID : String} {u : UUID}
    (coherent : rt.scan tenantID = some u)
    (good : ∀ state step msg, state ≠ .confirmed → state ≠ .pendingPayment →
      ¬bad (.transition tenantID u orderID state step msg)) :
    Moves rt (fun op => ¬bad op) tenantID orderID := by
  intro t state step msg parse gone
  cases coherent.symm.trans parse
  rcases gone with rfl | rfl
  · exact good _ step msg SagaState.noConfusion SagaState.noConfusion
  · exact good _ step msg SagaState.noConfusion SagaState.noConfusion

omit plain in
theorem SagaSafe.fail (h : SagaSafe rt ok bad input) :
    Moves rt (fun op => ¬bad op) input.tenantID input.orderID :=
  moves_of_coherent h.coherent h.transition

omit plain in
theorem SettleSafe.fail (h : SettleSafe rt ok bad input) :
    Moves rt (fun op => ¬bad op) input.tenantID input.orderID :=
  moves_of_coherent h.coherent h.transition

theorem confirmSteps_safe (h : SettleSafe rt ok bad input) (txnID : String) :
    Safe ok bad (fun _ => True) (confirmSteps rt input txnID) := by
  have allocate : ∀ t, rt.scan input.tenantID = some t →
      ¬bad (.allocate t (allocateRequest input)) := by
    intro t parse
    cases h.coherent.symm.trans parse
    exact h.allocate
  refine safe_bind (safe_rpc plain (fun _ eq => by cases eq) (allocateReservation_safe
    allocate)) fun answer given => ?_
  cases answer with
  | error e => exact safe_bind (failSaga_safe h.fail _) fun _ _ => safe_done
  | ok resp =>
    obtain ⟨t, parse, allocated⟩ := given resp rfl
    cases h.coherent.symm.trans parse
    refine safe_then (plain _ rfl) fun allowed _ => ?_
    cases allowed with
    | false => exact safe_done
    | true =>
      refine safe_bind (safe_rpc plain trivial (confirm_safe plain _)) fun answer _ => ?_
      cases answer with
      | error e => exact safe_bind (failSaga_safe h.fail _) fun _ _ => safe_done
      | ok resp =>
        refine safe_then (h.confirm allocated _ _) fun done _ => ?_
        cases done with
        | error e => exact safe_done
        | ok u => exact safe_done

/-- After the payment step: whatever the gateway says, the rest is safe. -/
theorem paySteps_rest {P : Code (Except Failure CreateOrderResponse) → Prop}
    (h : SettleSafe rt ok bad input)
    (rest : ∀ f : Except Failure (Except Failure String) →
        Code (Except Failure CreateOrderResponse),
      (∀ charged, Safe ok bad (fun _ => True) (f charged)) → P (chargeStep input >>= f)) :
    P (paySteps rt input) := by
  refine rest _ fun charged => ?_
  split
  · exact safe_done
  · refine safe_bind (compensate_safe plain h.fail h.rows) fun compensated _ => ?_
    cases compensated with
    | error e => exact safe_bind (failSaga_safe h.fail _) fun _ _ => safe_done
    | ok u => exact safe_done
  · refine safe_then (plain _ rfl) fun recorded _ => ?_
    cases recorded with
    | error e => exact safe_done
    | ok u => exact confirmSteps_safe plain h _

theorem paySteps_safe (h : SagaSafe rt ok bad input)
    (reserved : Inserted ok input.tenantUUID (reserveRequest input))
    (moved : ok (.transition input.tenantID input.tenantUUID input.orderID .reserved 1 "")
      (.ok ())) : Safe ok bad (fun _ => True) (paySteps rt input) :=
  paySteps_rest plain (h.settle reserved moved) fun _ rest =>
    safe_bind (chargeStep_safe plain (h.charge moved)) fun charged _ => rest charged

theorem runSaga_safe (h : SagaSafe rt ok bad input) :
    Safe ok bad (fun _ => True) (runSaga rt input) := by
  have insert : ∀ t expiresAt, rt.scan input.tenantID = some t → reserveItems input.lines ≠ [] →
      ¬bad (.insertReservations t (reserveRequest input) expiresAt) := by
    intro t expiresAt parse
    cases h.coherent.symm.trans parse
    exact h.insert expiresAt
  have undo : ∀ t expiresAt answer, rt.scan input.tenantID = some t →
      ok (.insertReservations t (reserveRequest input) expiresAt) answer → ¬Stored answer →
        ¬bad (.releaseStock (undoOf (reserveRequest input)) []) := by
    intro t expiresAt answer parse
    cases h.coherent.symm.trans parse
    exact h.undo expiresAt answer
  refine safe_then (plain _ rfl) fun allowed _ => ?_
  cases allowed with
  | false => exact safe_done
  | true =>
    refine safe_bind (safe_rpc plain (fun _ eq => by cases eq) (reserve_safe plain undo
      insert)) fun answer given => ?_
    cases answer with
    | error e => exact safe_bind (failSaga_safe h.fail _) fun _ _ => safe_done
    | ok resp =>
      dsimp only
      split
      · exact safe_bind (failSaga_safe h.fail _) fun _ _ => safe_done
      · rename_i success
        obtain ⟨t, parse, reserved⟩ := given resp rfl (Bool.eq_true_of_not_eq_false success)
        cases h.coherent.symm.trans parse
        have good := h.transition .reserved 1 "" SagaState.noConfusion SagaState.noConfusion
        refine safe_then good fun answer moved => ?_
        cases answer with
        | error e => exact safe_done
        | ok u => exact paySteps_safe plain h reserved moved

theorem createOrder_safe {req : CreateOrderRequest}
    (create : ∀ t, rt.scan req.tenantId = some t →
      ¬bad (.createOrderRow t req (orderTotal req.lines)))
    (saga : ∀ t, rt.scan req.tenantId = some t →
      ok (.createOrderRow t req (orderTotal req.lines)) (.ok ()) →
        SagaSafe rt ok bad (createInput req t)) :
    Safe ok bad (fun _ => True) (createOrder rt req) := by
  unfold createOrder
  refine of_parse (fun _ => safe_done) fun t parse => ?_
  split
  · exact safe_done
  · split
    · exact safe_done
    · split
      · exact safe_done
      · refine safe_then (create t parse) fun created given => ?_
        split
        · refine safe_then (plain _ rfl) fun found _ => ?_
          cases found with
          | error e => exact safe_done
          | ok saga => exact safe_done
        · exact safe_done
        · exact runSaga_safe plain (saga t parse given)

theorem cancelOrder_safe {req : CancelOrderRequest}
    (open_ : ∀ t saga, rt.scan req.tenantId = some t →
      ok (.getSagaInstance req.tenantId t req.orderId) (.ok saga) →
      saga.state = .pendingPayment ∨ saga.state = .reserved →
      (∀ state step msg, state ≠ .confirmed → state ≠ .pendingPayment →
        ¬bad (.transition req.tenantId t req.orderId state step msg)) ∧
        ReleaseSafe rt ok bad (compensation req.tenantId req.orderId (cancelReason req.reason))) :
    Safe ok bad (fun _ => True) (cancelOrder rt req) := by
  unfold cancelOrder
  refine of_parse (fun _ => safe_done) fun t parse => ?_
  refine safe_then (plain _ rfl) fun found given => ?_
  cases found with
  | error e => exact safe_done
  | ok saga =>
    dsimp only
    split
    · exact safe_done
    · split
      · exact safe_done
      · rename_i early late
        have state : saga.state = .pendingPayment ∨ saga.state = .reserved := by
          cases at_ : saga.state <;> simp_all
        have good := open_ t saga parse given state
        refine safe_bind (compensate_safe plain (moves_of_coherent parse good.1) good.2)
          fun done _ => ?_
        cases done with
        | error e => exact safe_done
        | ok u => exact safe_done

theorem resumeEach_safe {sagas : List SagaInstance}
    (each : ∀ saga ∈ sagas, ∀ lines,
      ok (.getOrderLines saga.tenantID.text saga.tenantID saga.orderID) (.ok lines) →
        Safe ok bad (fun _ => True) (runSaga rt (resumeInput saga lines))) :
    Safe ok bad (fun _ => True) (resumeEach rt sagas) := by
  induction sagas with
  | nil => exact safe_done
  | cons saga rest ih =>
    refine safe_then (plain _ rfl) fun found given => ?_
    cases found with
    | error e => exact safe_done
    | ok lines =>
      refine safe_bind (each saga List.mem_cons_self lines given) fun _ _ => ?_
      exact ih fun other member => each other (List.mem_cons_of_mem _ member)

theorem resumePendingSagas_safe {limit : Int32}
    (each : ∀ sagas, ok (.getResumableSagas limit) (.ok sagas) →
      ∀ saga ∈ sagas, ∀ lines,
        ok (.getOrderLines saga.tenantID.text saga.tenantID saga.orderID) (.ok lines) →
          SagaSafe rt ok bad (resumeInput saga lines)) :
    Safe ok bad (fun _ => True) (resumePendingSagas rt limit) := by
  refine safe_then (plain _ rfl) fun found given => ?_
  cases found with
  | error e => exact safe_done
  | ok sagas =>
    refine resumeEach_safe plain fun saga member lines answer => ?_
    exact runSaga_safe plain (each sagas given saga member lines answer)

omit plain in
theorem serve_safe {p : Code α} {Q : α → Prop} (h : Safe ok bad Q p) :
    Safe ok bad (fun _ => True) (serve p) := safe_bind h fun _ _ => safe_done

end Plain

structure HandlersSafe (rt : Runtime) (ok : (o : Op) → Resp o → Prop) (bad : Op → Prop) : Prop where
  plain : ∀ op, special op = false → ¬bad op
  undo : ∀ t req expiresAt answer, rt.scan req.tenantId = some t →
    ok (.insertReservations t req expiresAt) answer → ¬Stored answer →
      ¬bad (.releaseStock (undoOf req) [])
  insert : ∀ t req expiresAt, ¬bad (.insertReservations t req expiresAt)
  release : ∀ req, ReleaseSafe rt ok bad req
  allocate : ∀ t req, ¬bad (.allocate t req)
  sweep : ∀ now batch rows, ok (.getExpiredReservations now batch) (.ok rows) →
    (∀ k : GroupKey, ¬bad (.releaseStock
      (releaseRequest k.tenant k.orderID (rows.filter fun r => groupKey r = k))
      (rows.filter fun r => groupKey r = k))) ∧ ∀ row ∈ rows, ¬bad (.markExpired row)
  create : ∀ t req total, ¬bad (.createOrderRow t req total)
  created : ∀ t req total, rt.scan req.tenantId = some t →
    ok (.createOrderRow t req total) (.ok ()) → SagaSafe rt ok bad (createInput req t)
  cancel : ∀ tenantID t orderID saga, rt.scan tenantID = some t →
    ok (.getSagaInstance tenantID t orderID) (.ok saga) →
    saga.state = .pendingPayment ∨ saga.state = .reserved → ∀ state step msg, state ≠ .confirmed →
      state ≠ .pendingPayment → ¬bad (.transition tenantID t orderID state step msg)
  resumed : ∀ limit sagas, ok (.getResumableSagas limit) (.ok sagas) → ∀ saga ∈ sagas, ∀ lines,
    ok (.getOrderLines saga.tenantID.text saga.tenantID saga.orderID) (.ok lines) →
      SagaSafe rt ok bad (resumeInput saga lines)

theorem HandlersSafe.safe (h : HandlersSafe rt ok bad) (x : Handler) :
    Safe ok bad (fun _ => True) (x.code rt) := by
  cases x with
  | createOrder req =>
    exact serve_safe (createOrder_safe h.plain (fun t _ => h.create t req _)
      fun t parse given => h.created t req _ parse given)
  | cancelOrder req =>
    exact serve_safe (cancelOrder_safe h.plain fun t saga parse given open_ =>
      ⟨h.cancel req.tenantId t req.orderId saga parse given open_, h.release _⟩)
  | resumePendingSagas limit =>
    exact serve_safe (resumePendingSagas_safe h.plain fun sagas given =>
      h.resumed limit sagas given)
  | reserve req =>
    exact serve_safe (reserve_safe h.plain (fun t e answer => h.undo t req e answer)
      fun t e _ _ => h.insert t req e)
  | release req => exact serve_safe (release_safe h.plain (h.release req))
  | allocateReservation req =>
    exact serve_safe (allocateReservation_safe fun t _ => h.allocate t req)
  | sweepOnce batch =>
    exact serve_safe (sweepOnce_safe h.plain fun now rows given => h.sweep now batch rows given)

section After

variable {fair mark : (o : Op) → Resp o → Prop}

theorem createOrder_after {req : CreateOrderRequest}
    (quiet : ∀ op, special op = false → ¬∃ r, mark op r)
    (create : ∀ t total, ¬∃ r, mark (.createOrderRow t req total) r)
    (saga : ∀ t, rt.scan req.tenantId = some t →
      SafeAfter fair mark ok bad (fun _ => True) (runSaga rt (createInput req t))) :
    SafeAfter fair mark ok bad (fun _ => True) (createOrder rt req) := by
  unfold createOrder
  refine of_parse (fun _ => trivial) fun t parse => ?_
  split
  · trivial
  · split
    · trivial
    · split
      · trivial
      · refine safeAfter_unmarked (safe_ask (create _ _) fun _ _ => trivial) fun created _ => ?_
        split
        · refine safeAfter_unmarked (safe_ask (quiet _ rfl) fun _ _ => trivial) fun found _ => ?_
          cases found with
          | error e => trivial
          | ok saga => trivial
        · trivial
        · exact saga t parse

/-- The loop over the listed sagas: the one that is marked does not come again,
and the others are not marked. -/
theorem resumeEach_after (key : UUID × String) {sagas : List SagaInstance}
    (quiet : ∀ op, special op = false → ¬∃ r, mark op r)
    (plain : ∀ op, special op = false → ¬bad op)
    (once : (sagas.map OrderSteps.sagaKey).Nodup)
    (own : ∀ saga lines, SafeAfter fair mark ok bad (fun _ => True)
      (runSaga rt (resumeInput saga lines)))
    (other : ∀ saga lines, OrderSteps.sagaKey saga ≠ key →
      SagaSafe rt fair (fun op => ∃ r, mark op r) (resumeInput saga lines) ∧
      SagaSafe rt ok bad (resumeInput saga lines)) :
    SafeAfter fair mark ok bad (fun _ => True) (resumeEach rt sagas) := by
  induction sagas with
  | nil => trivial
  | cons saga rest ih =>
    rw [List.map_cons, List.nodup_cons] at once
    refine safeAfter_unmarked (safe_ask (quiet _ rfl) fun _ _ => trivial) fun found _ => ?_
    cases found with
    | error e => trivial
    | ok lines =>
      have tail := ih once.2
      by_cases same : OrderSteps.sagaKey saga = key
      · refine safeAfter_bind (own saga lines) (fun _ _ => ?_) fun _ => tail
        refine resumeEach_safe plain fun next member lines _ =>
          runSaga_safe plain (other next lines fun equal => ?_).2
        exact once.1 (List.mem_map.2 ⟨next, member, equal.trans same.symm⟩)
      · exact safeAfter_unmarked (runSaga_safe quiet (other saga lines same).1) fun _ _ => tail

end After

/-- A property of programs that is kept by composition and holds of the blocks
that work on reservation rows. -/
structure Composes (rt : Runtime) (P : (α : Type) → Code α → Prop) : Prop where
  pure : ∀ {α : Type} (a : α), P α (Prog.pure a)
  bind : ∀ {α β : Type} {p : Code α} {f : α → Code β}, P α p → (∀ a, P β (f a)) → P β (p >>= f)
  ask : ∀ op, ordinary op = true → P (Resp op) (ServiceStack.ask op)
  reserve : ∀ req, P _ (Services.reserve rt req)
  release : ∀ req, P _ (Services.release rt req)
  sweepGroup : ∀ k rows, P _ (Services.sweepGroup k rows)

theorem Composes.handler {P : (α : Type) → Code α → Prop} (h : Composes rt P) (x : Handler) :
    P _ (x.code rt) := by
  have walks : Walks (fun op => ordinary op = true) P := ⟨h.pure, h.bind, h.ask, fun op idle => by
    cases op <;> first | rfl | cases idle⟩
  have calls : ∀ op, calling op = true → ordinary op = true := fun op call => by
    cases op <;> first | rfl | cases call
  exact walks.handler calls h.reserve (fun input => walks.paySteps (Walks.saga_of_calling calls)
    (h.release _) rfl fun _ => rfl) h.release h.sweepGroup x

end Taper.ServiceRules
