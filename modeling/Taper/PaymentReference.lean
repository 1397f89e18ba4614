import Taper.FulfilledOnce
import Taper.HandlerRuns
import Taper.ServiceRules

set_option autoImplicit false

/-!
# The payment reference of an order

A charge leaves its transaction id on the order's row. The row keeps it until a
handler that the outcome of a call has turned moves the saga to `COMPENSATED` or
to `FAILED`.
-/
namespace Taper.PaymentReference
open Messages Platform OrderTables OrderSteps Program ServiceStack Services ServiceRules StackSteps
open HandlerRuns Fulfillment FulfilledOnce

def Referenced (t : UUID) (o : String) (s : Stack) : Prop :=
  ∃ row, s.order.orders t o = some row ∧ row.transactionID ≠ ""

def Drops (state : SagaState) : Prop := state = .compensated ∨ state = .failed

instance (state : SagaState) : Decidable (Drops state) := inferInstanceAs (Decidable (_ ∨ _))

section Recording

def Named : (op : Op) → Resp op → Prop
  | .charge _, r => ∀ txn, r = .ok txn → txn ≠ ""
  | _, _ => True

def RecordsNothing : Op → Prop
  | .recordTransaction _ _ _ txn => txn = ""
  | _ => False

def RecordsCharge {α : Type} (p : Code α) : Prop :=
  Safe Named RecordsNothing (fun _ => True) p

variable {rt : Runtime}

theorem recordsCharge_rows (op : Op) (rows : ordinary op = false) : RecordsCharge (ask op) := by
  refine safe_ask ?_ fun _ _ => trivial
  cases op <;> first | exact id | cases rows

theorem recordsCharge_walks :
    Walks (fun op => ¬RecordsNothing op) fun _ p => RecordsCharge p where
  pure _ := trivial
  bind first rest := safe_bind first fun a _ => rest a
  ask _ good := safe_ask good fun _ _ => trivial
  neutral op idle := by cases op <;> first | exact id | cases idle

theorem calling_records (op : Op) (call : calling op = true) : ¬RecordsNothing op := by
  cases op <;> first | exact id | cases call

theorem chargeStep_named (input : SagaInput) :
    Safe Named RecordsNothing (fun charged => ∀ txn, charged = .ok (.ok txn) → txn ≠ "")
      (chargeStep input) := by
  unfold chargeStep
  split
  · exact fun _ eq => by cases eq
  · refine safe_then id fun allowed _ => ?_
    cases allowed with
    | false => exact fun _ eq => by cases eq
    | true =>
      refine safe_then id fun res named txn eq => ?_
      exact named txn (Except.ok.inj eq)

theorem release_recordsCharge (req : ReleaseRequest) : RecordsCharge (release rt req) :=
  recordsCharge_walks.release recordsCharge_rows req

theorem paySteps_recordsCharge (input : SagaInput) : RecordsCharge (paySteps rt input) := by
  have walks := recordsCharge_walks
  have saga : SagaFine rt _ input := Walks.saga_of_calling calling_records
  refine safe_bind (chargeStep_named input) fun charged named => ?_
  split
  · exact safe_done
  · refine walks.bind (walks.compensate saga.fail (release_recordsCharge _)) fun compensated => ?_
    cases compensated with
    | error e => exact walks.bind (walks.failSaga saga.fail _) fun _ => safe_done
    | ok u => exact safe_done
  · rename_i txn
    refine safe_then (fun empty => named txn rfl empty) fun recorded _ => ?_
    cases recorded with
    | error e => exact safe_done
    | ok u => exact walks.confirmSteps saga txn

theorem handler_recordsCharge (x : Handler) : RecordsCharge (x.code rt) := by
  have walks := recordsCharge_walks
  exact walks.handler calling_records
    (fun req => walks.reserve (fun _ => id) (fun _ _ _ => id) (recordsCharge_rows _ rfl))
    paySteps_recordsCharge release_recordsCharge
    (walks.sweepGroup recordsCharge_rows fun _ => id) x

end Recording

variable {u : UUID} {state : SagaState}

section Course

/-- Where a handler stands with the order: it works on something else, it runs
the order's saga and each of its calls has come out well so far, it is a
cancellation that has not found the saga open, or the outcome of a call has
turned it towards `FAILED` or `COMPENSATED`. -/
inductive Course where
  | elsewhere
  | forward (forced : Bool)
  | cancelling
  | turned
  deriving DecidableEq

/-- The calls that the saga cannot do without, and the one inside `Reserve`. -/
def awaited : Site → Bool
  | .sagaReserve | .reserveStock | .sagaAllocate | .sagaConfirm => true
  | _ => false

def failed {α : Type} : Except Failure α → Bool
  | .ok _ => false
  | .error _ => true

def refused : Except Failure ReserveResponse → Bool
  | .ok resp => !resp.success
  | .error _ => true

def declined : Except Failure ReserveStockResponse → Bool
  | .ok resp => !resp.success
  | .error _ => true

def unstored : Except Failure (Option ℕ) → Bool
  | .ok _ | .error .alreadyProcessed => false
  | .error _ => true

/-- The outcome makes a call of the saga fail: it is lost on the way, or the
service refuses it. -/
def fails : (op : Op) → Resp op → Bool
  | .send site, passed | .answer site, passed => awaited site && !passed
  | .reserveStock _, answer => declined answer
  | .insertReservations _ _ _, answer => unstored answer
  | .charge _, answer => failed answer
  | .allocate _ _, answer => failed answer
  | .confirmStockAllocation _, answer => failed answer
  | _, _ => false

def cancellable (saga : SagaInstance) : Bool :=
  decide (saga.state = .pendingPayment ∨ saga.state = .reserved)

/-- A resumed saga begins with the lines of its order, and has nothing to reserve
without any. A payment that is forced to fail does so once the order is
reserved. -/
def Course.after (t : UUID) (o : String) : Course → (op : Op) → Resp op → Course
  | _, .getOrderLines _ u orderID, answer =>
    if u = t ∧ orderID = o then
      match answer with
      | .ok [] => .turned
      | _ => .forward false
    else .elsewhere
  | .cancelling, .getSagaInstance _ _ _, .ok saga =>
    if cancellable saga then .turned else .cancelling
  | .forward true, .transition _ _ _ _ _ _, .ok () => .turned
  | .forward forced, op, answer => if fails op answer then .turned else .forward forced
  | course, _, _ => course

def Course.start (rt : Runtime) (t : UUID) (o : String) : Handler → Course
  | .createOrder req =>
    if rt.scan req.tenantId = some t ∧ req.orderId = o then .forward req.forcePaymentFailure
    else .elsewhere
  | .cancelOrder req =>
    if rt.scan req.tenantId = some t ∧ req.orderId = o then .cancelling else .elsewhere
  | _ => .elsewhere

/-- The transitions of a handler that is turned are those that drop the order's
reference, and those of all others are not. -/
def Fits (t : UUID) (o : String) (course : Course) : Op → Prop
  | .transition _ u orderID state _ _ =>
    course = .turned ↔ u = t ∧ orderID = o ∧ Drops state
  | _ => True

def Follows {α : Type} (t : UUID) (o : String) (Q : Course → α → Prop) (p : Code α)
    (course : Course) : Prop := Watched (Course.after t o) (Fits t o) Q p course

def lane (own forced lost : Bool) : Course :=
  if own then if lost then .turned else .forward forced else .elsewhere

def steers : Op → Bool
  | .getOrderLines _ _ _ | .transition _ _ _ _ _ _ => true
  | _ => false

variable {α β : Type} {rt : Runtime} {t : UUID} {o : String} {own forced lost : Bool}
  {course : Course}

theorem fits_other {op : Op} (other : steers op = false) : Fits t o course op := by
  cases op with
  | transition id u orderID state step msg => cases other
  | _ => trivial

theorem lane_after {op : Op} (other : steers op = false) (r : Resp op) :
    (lane own forced lost).after t o op r = lane own forced (lost || fails op r) := by
  cases own with
  | false => cases op <;> first | rfl | cases other
  | true =>
    cases lost with
    | true => cases op <;> first | rfl | cases other
    | false => cases forced <;> cases op <;> first | rfl | cases other

/-- Nothing but the next saga changes the course of a handler that is turned or
works on something else. -/
theorem steady_after (steady : course = .elsewhere ∨ course = .turned) {op : Op}
    (other : steers op = false) (r : Resp op) : course.after t o op r = course := by
  rcases steady with rfl | rfl
  · cases op <;> first | rfl | cases other
  · cases op <;> first | rfl | cases other

theorem lane_lost (own forced : Bool) :
    lane own forced true = .elsewhere ∨ lane own forced true = .turned := by
  cases own with
  | false => exact .inl rfl
  | true => exact .inr rfl

theorem fits_drop {id orderID msg : String} {step : Int32}
    (mine : own = decide (u = t ∧ orderID = o)) (drops : Drops state) :
    Fits t o (lane own forced true) (.transition id u orderID state step msg) := by
  subst mine
  by_cases same : u = t ∧ orderID = o
  · simp [Fits, lane, same, drops]
  · simp only [Fits, lane, same, decide_false, Bool.false_eq_true, if_false, reduceCtorEq,
      false_iff]
    exact fun all => same ⟨all.1, all.2.1⟩

theorem fits_keep {id orderID msg : String} {step : Int32} (keeps : ¬Drops state) :
    Fits t o (lane own forced false) (.transition id u orderID state step msg) := by
  refine iff_of_false ?_ fun all => keeps all.2.2
  cases own with
  | false => exact Course.noConfusion
  | true => exact Course.noConfusion

variable {Q : Course → α → Prop}

theorem follows_done {a : α} (h : Q course a) :
    Follows t o Q (pure a : Code α) course := h

theorem follows_then {op : Op} {f : Resp op → Code α} (fits : Fits t o course op)
    (rest : ∀ r, Follows t o Q (f r) (course.after t o op r)) :
    Follows t o Q (ask op >>= f) course := ⟨fits, rest⟩

theorem follows_lane {op : Op} {f : Resp op → Code α} (other : steers op = false)
    (rest : ∀ r, Follows t o Q (f r) (lane own forced (lost || fails op r))) :
    Follows t o Q (ask op >>= f) (lane own forced lost) :=
  follows_then (fits_other other) fun r => by
    rw [lane_after other]
    exact rest r

/-- A call of the saga: lost or refused, it turns the handler. -/
theorem rpc_follows {site : Site} {body : Code (Except Failure α)} (bad : Except Failure α → Bool)
    (needed : awaited site = true) (error : bad (.error .transport) = true)
    (inner : Follows t o (fun course res => course = lane own forced (bad res)) body
      (lane own forced lost)) :
    Follows t o (fun course res => course = lane own forced (bad res)) (rpc site body)
      (lane own forced lost) := by
  refine follows_lane rfl fun sent => ?_
  cases sent with
  | false => simp [fails, needed, Follows, Watched, error, pure]
  | true =>
    rw [show fails (.send site) true = false by simp [fails], Bool.or_false]
    refine watched_bind inner fun course res here => ?_
    subst here
    refine follows_lane rfl fun answered => ?_
    cases answered with
    | false => simp [fails, needed, Follows, Watched, error, pure]
    | true => simp [fails, Follows, Watched, pure]

theorem steady_walks (steady : course = .elsewhere ∨ course = .turned) :
    Walks (fun op => steers op = false)
      fun _ p => Follows t o (fun course' _ => course' = course) p course where
  pure _ := rfl
  bind first rest := watched_bind first fun _ a same => same ▸ rest a
  ask _ other := ⟨fits_other other, fun r => steady_after steady other r⟩
  neutral op idle := by cases op <;> first | rfl | cases idle

theorem release_steady (steady : course = .elsewhere ∨ course = .turned) (req : ReleaseRequest) :
    Follows t o (fun course' _ => course' = course) (release rt req) course :=
  (steady_walks steady).release (fun op rows => (steady_walks steady).ask op (by
    cases op <;> first | rfl | cases rows)) req

theorem reserve_follows {req : ReserveRequest}
    (ready : own = true → (∃ u, rt.scan req.tenantId = some u) ∧ (req.items = [] → lost = true))
    (before : lost = true → req.items = []) :
    Follows t o (fun course res => course = lane own forced (refused res)) (reserve rt req)
      (lane own forced lost) := by
  have early (e : Failure) (turned : own = true → lost = true) :
      lane own forced lost = lane own forced (refused (.error e)) := by
    cases own with
    | false => rfl
    | true => rw [turned rfl, refused]
  unfold reserve
  cases parse : rt.scan req.tenantId with
  | none =>
    simp only [parseUUID, parse]
    refine follows_done (early _ fun mine => ?_)
    obtain ⟨⟨u, found⟩, -⟩ := ready mine
    rw [parse] at found
    cases found
  | some u =>
    simp only [parseUUID, parse]
    split
    · rename_i none
      exact follows_done (early _ fun mine => (ready mine).2 none)
    · rename_i items
      obtain rfl : lost = false := by
        cases lost with
        | false => rfl
        | true => exact absurd (before rfl) items
      refine watched_bind (rpc_follows declined rfl rfl ⟨trivial, fun r => ?_⟩)
        fun course answer here => ?_
      · exact lane_after rfl r
      · subst here
        cases answer with
        | error e => exact rfl
        | ok resp =>
          dsimp only
          split
          · rename_i refusal
            exact follows_done (by rw [declined, refusal, refused])
          · rename_i granted
            rw [declined, Bool.eq_true_of_not_eq_false granted]
            refine follows_lane rfl fun now => follows_lane rfl fun inserted => ?_
            split
            · exact rfl
            · exact follows_lane rfl fun _ => follows_lane rfl fun _ => rfl
            · rename_i e other
              have turned : unstored (.error e) = true := by
                unfold unstored
                split
                · rename_i eq
                  cases eq
                · rename_i eq
                  exact absurd (Except.error.inj eq) other
                · rfl
              rw [show fails (.insertReservations u req _) (.error e) = true from turned,
                Bool.or_true]
              have walks := steady_walks (t := t) (o := o) (lane_lost own forced)
              refine watched_bind (walks.rpc (walks.ask _ rfl)) fun course res same => ?_
              subst same
              exact rfl

theorem allocateReservation_follows {req : AllocateReservationRequest}
    (parse : own = true → rt.scan req.tenantId = some u) :
    Follows t o (fun course res => course = lane own forced (failed res))
      (allocateReservation rt req) (lane own forced false) := by
  unfold allocateReservation
  cases scan : rt.scan req.tenantId with
  | none =>
    simp only [parseUUID, scan]
    cases own with
    | false => exact rfl
    | true =>
      rw [parse rfl] at scan
      cases scan
  | some v =>
    simp only [parseUUID, scan]
    refine follows_lane rfl fun answer => ?_
    cases answer with
    | error e => exact rfl
    | ok count => exact rfl

section Saga

variable {input : SagaInput} (coherent : rt.scan input.tenantID = some input.tenantUUID)
  (mine : own = decide (input.tenantUUID = t ∧ input.orderID = o))

include coherent mine

theorem failSaga_follows (msg : String) :
    Follows t o (fun _ _ => True) (failSaga rt input.tenantID input.orderID msg)
      (lane own forced true) := by
  unfold failSaga
  simp only [parseUUID, coherent]
  exact ⟨fits_drop mine (.inr rfl), fun _ => trivial⟩

/-- Whatever becomes of it, a handler that compensates stays turned. -/
theorem compensate_follows (reason : String) :
    Follows t o (fun course _ => course = lane own forced true) (compensate rt
      input.tenantID input.orderID reason) (lane own forced true) := by
  have steady := lane_lost own forced
  unfold compensate
  simp only [parseUUID, coherent]
  refine watched_bind ((steady_walks steady).rpc (release_steady steady _))
    fun course answer same => ?_
  subst same
  cases answer with
  | error e => exact rfl
  | ok resp =>
    refine ⟨fits_drop mine (.inl rfl), fun r => ?_⟩
    rcases steady with here | here
    · rw [here]
      rfl
    · rw [here]
      rfl

theorem confirmSteps_follows (txnID : String) :
    Follows t o (fun _ _ => True) (confirmSteps rt input txnID)
      (lane own forced false) := by
  have lost (res : Except Failure CreateOrderResponse) (msg : String) :
      Follows t o (fun _ _ => True)
        (failSaga rt input.tenantID input.orderID msg >>= fun _ => pure res)
        (lane own forced true) :=
    watched_bind (failSaga_follows coherent mine msg) fun _ _ _ => trivial
  refine watched_bind (rpc_follows failed rfl rfl
    (allocateReservation_follows fun _ => coherent)) fun course answer here => ?_
  subst here
  cases answer with
  | error e => exact lost _ _
  | ok resp =>
    refine follows_lane rfl fun allowed => ?_
    cases allowed with
    | false => trivial
    | true =>
      refine watched_bind (rpc_follows failed rfl rfl ⟨trivial, fun r => ?_⟩)
        fun course answer here => ?_
      · exact lane_after rfl r
      · subst here
        cases answer with
        | error e => exact lost _ _
        | ok resp =>
          refine follows_then (fits_keep (by decide)) fun moved => ?_
          cases moved with
          | error e => trivial
          | ok u => trivial

theorem paySteps_follows :
    Follows t o (fun _ _ => True) (paySteps rt input)
      (lane own input.forcePaymentFailure
        input.forcePaymentFailure) := by
  have charges : Follows t o (fun course charged =>
      (∀ e, charged = .ok (.error e) → course = lane own input.forcePaymentFailure true) ∧
      (∀ txn, charged = .ok (.ok txn) → course = lane own input.forcePaymentFailure false))
      (chargeStep input)
      (lane own input.forcePaymentFailure
        input.forcePaymentFailure) := by
    unfold chargeStep
    split
    · rename_i forced
      rw [forced]
      exact ⟨fun _ _ => rfl, nofun⟩
    · rename_i free
      rw [Bool.eq_false_of_not_eq_true free]
      refine follows_lane rfl fun allowed => ?_
      cases allowed with
      | false => exact ⟨nofun, nofun⟩
      | true =>
        refine follows_lane rfl fun res => ?_
        cases res with
        | error e => exact ⟨fun _ _ => rfl, nofun⟩
        | ok txn => exact ⟨nofun, fun _ _ => rfl⟩
  refine watched_bind charges fun course charged here => ?_
  split
  · trivial
  · rw [here.1 _ rfl]
    refine watched_bind (compensate_follows coherent mine _) fun course done same => ?_
    subst same
    cases done with
    | error e => exact watched_bind (failSaga_follows coherent mine _) fun _ _ _ => trivial
    | ok u => trivial
  · rename_i txn
    rw [here.2 _ rfl]
    refine follows_lane rfl fun recorded => ?_
    cases recorded with
    | error e => trivial
    | ok u => exact confirmSteps_follows coherent mine txn

theorem runSaga_follows :
    Follows t o (fun _ _ => True) (runSaga rt input)
      (lane own input.forcePaymentFailure
        (decide (input.lines = []))) := by
  have items : reserveItems input.lines = [] ↔ input.lines = [] := List.map_eq_nil_iff
  refine follows_lane rfl fun allowed => ?_
  rw [show fails (.allow .reservations) allowed = false from rfl, Bool.or_false]
  cases allowed with
  | false => trivial
  | true =>
    refine watched_bind (rpc_follows refused rfl rfl (reserve_follows
      (fun _ => ⟨⟨_, coherent⟩, fun none => decide_eq_true (items.1 none)⟩)
      fun none => items.2 (of_decide_eq_true none))) fun course answer here => ?_
    subst here
    cases answer with
    | error e => exact watched_bind (failSaga_follows coherent mine _) fun _ _ _ => trivial
    | ok resp =>
      dsimp only
      split
      · rename_i refusal
        rw [refused, refusal]
        exact watched_bind (failSaga_follows coherent mine _) fun _ _ _ => trivial
      · rename_i granted
        rw [refused, Bool.eq_true_of_not_eq_false granted]
        refine follows_then (fits_keep (by decide)) fun moved => ?_
        cases moved with
        | error e => trivial
        | ok u =>
          have reserved : (lane own
              input.forcePaymentFailure false).after t o
                (.transition input.tenantID input.tenantUUID input.orderID .reserved 1 "")
                (.ok ()) = lane own
                  input.forcePaymentFailure input.forcePaymentFailure := by
            cases own with
            | false => rfl
            | true => cases input.forcePaymentFailure <;> rfl
          rw [Bool.not_true, reserved]
          exact paySteps_follows coherent mine

end Saga

theorem serve_follows {p : Code α} (h : Follows t o Q p course) :
    Follows t o (fun _ _ => True) (serve p) course :=
  watched_bind h fun _ _ _ => trivial

theorem createOrder_follows (req : CreateOrderRequest) :
    Follows t o (fun _ _ => True) (createOrder rt req) (.start rt t o (.createOrder req)) := by
  unfold createOrder
  cases parse : rt.scan req.tenantId with
  | none =>
    simp only [parseUUID, parse]
    trivial
  | some u =>
    have begins : Course.start rt t o (.createOrder req) =
        lane (decide (u = t ∧ req.orderId = o)) req.forcePaymentFailure false := by
      simp [Course.start, lane, parse]
    simp only [parseUUID, parse, begins]
    split
    · trivial
    · split
      · trivial
      · rename_i lines
        split
        · trivial
        · refine follows_lane rfl fun created => ?_
          split
          · refine follows_lane rfl fun found => ?_
            cases found with
            | error e => trivial
            | ok saga => trivial
          · trivial
          · have parsed : rt.scan (createInput req u).tenantID =
                some (createInput req u).tenantUUID := parse
            have saga := runSaga_follows (t := t) (o := o) parsed rfl
            rwa [show decide ((createInput req u).lines = []) = false from decide_eq_false lines]
              at saga

theorem cancelOrder_follows (req : CancelOrderRequest) :
    Follows t o (fun _ _ => True) (cancelOrder rt req) (.start rt t o (.cancelOrder req)) := by
  unfold cancelOrder
  cases parse : rt.scan req.tenantId with
  | none =>
    simp only [parseUUID, parse]
    trivial
  | some u =>
    simp only [parseUUID, parse]
    refine follows_then trivial fun found => ?_
    cases found with
    | error e => trivial
    | ok saga =>
      dsimp only
      split
      · trivial
      · split
        · trivial
        · rename_i early late
          have open_ : cancellable saga = true := by
            unfold cancellable
            cases at_ : saga.state <;> simp_all
          have turns : (Course.start rt t o (.cancelOrder req)).after t o
              (.getSagaInstance req.tenantId u req.orderId) (.ok saga) =
                lane (decide (u = t ∧ req.orderId = o)) false true := by
            by_cases same : u = t ∧ req.orderId = o
            · simp [Course.start, parse, same, Course.after, open_, lane]
            · simp [Course.start, parse, same, Course.after, lane]
          rw [turns]
          have parsed : rt.scan (SagaInput.tenantID ⟨req.tenantId, u, req.orderId, [], "", 0,
            false⟩) = some u := parse
          refine watched_bind (compensate_follows parsed rfl _) fun course done _ => ?_
          cases done with
          | error e => trivial
          | ok v => trivial

theorem resumeEach_follows (sagas : List SagaInstance) (course : Course) :
    Follows t o (fun _ _ => True) (resumeEach rt sagas) course := by
  induction sagas generalizing course with
  | nil => trivial
  | cons saga rest ih =>
    refine follows_then trivial fun found => ?_
    cases found with
    | error e => trivial
    | ok lines =>
      have begins : course.after t o (.getOrderLines saga.tenantID.text saga.tenantID saga.orderID)
          (.ok lines) = lane (decide (saga.tenantID = t ∧ saga.orderID = o)) false
            (decide (lines = [])) := by
        unfold Course.after lane
        by_cases same : saga.tenantID = t ∧ saga.orderID = o
        · cases lines with
          | nil => simp [same]
          | cons l rest => simp [same]
        · simp [same]
      rw [begins]
      have parsed : rt.scan (resumeInput saga lines).tenantID =
          some (resumeInput saga lines).tenantUUID := rt.scan_text _
      exact watched_bind (runSaga_follows parsed rfl) fun course _ _ => ih course

theorem handler_follows (x : Handler) :
    Follows t o (fun _ _ => True) (x.code rt) (.start rt t o x) := by
  cases x with
  | createOrder req => exact serve_follows (createOrder_follows req)
  | cancelOrder req => exact serve_follows (cancelOrder_follows req)
  | resumePendingSagas limit =>
    refine serve_follows (Q := fun _ _ => True) (follows_then trivial fun found => ?_)
    cases found with
    | error e => trivial
    | ok sagas => exact resumeEach_follows sagas _
  | reserve req =>
    have aside : Follows t o (fun course res => course = lane false false (refused res))
        (reserve rt req) (lane false false false) := reserve_follows nofun nofun
    exact serve_follows aside
  | release req => exact serve_follows (release_steady (.inl rfl) req)
  | allocateReservation req =>
    have aside : Follows t o (fun course res => course = lane false false (failed res))
        (allocateReservation rt req) (lane false false false) :=
      allocateReservation_follows (u := t) nofun
    exact serve_follows aside
  | sweepOnce batch =>
    have walks : Walks (fun op => steers op = false)
        fun _ p => Follows t o (fun course _ => course = .elsewhere) p .elsewhere :=
      steady_walks (.inl rfl)
    exact serve_follows (walks.sweepOnce (walks.sweepGroup (fun op rows => walks.ask op (by
      cases op <;> first | rfl | cases rows)) fun _ => rfl) batch)

end Course

section Steps

variable {rt : Runtime} {me : ℕ} {op : Op} {c : Choice} {s s' : Stack} {r : Resp op} {t : UUID}
  {o : String}

def commits : (op : Op) → Resp op → Bool
  | .transition _ _ _ _ _ _, .ok () => true
  | _, _ => false

theorem mirror_keeps {row : OrderRow} (keeps : ¬Drops state) (kept : row.transactionID ≠ "") :
    (mirror row state).transactionID ≠ "" := by
  cases state with
  | compensated => exact absurd (.inl rfl) keeps
  | failed => exact absurd (.inr rfl) keeps
  | confirmed => exact column_ne_empty kept
  | _ => exact kept

theorem mirror_drops {row : OrderRow} (drops : Drops state) :
    (mirror row state).transactionID = "" := by
  rcases drops with rfl | rfl
  · rfl
  · rfl

theorem referenced_written {o' : String} {new : OrderRow}
    (written : s'.order.orders = setCell s.order.orders u o' (some new))
    (kept : t = u → o = o' → new.transactionID ≠ "") (before : Referenced t o s) :
    Referenced t o s' := by
  unfold Referenced
  rw [written]
  by_cases same : t = u ∧ o = o'
  · obtain ⟨rfl, rfl⟩ := same
    exact ⟨new, setCell_self _ _ _ _, kept rfl rfl⟩
  · rw [setCell_other _ _ same]
    exact before

/-- The reference is dropped by the transition that a turned handler commits,
and by nothing else. -/
theorem exec_referenced {course : Course} (h : exec rt me op c s = some (r, s'))
    (named : ¬RecordsNothing op) (fits : Fits t o course op) (before : Referenced t o s) :
    Referenced t o s' ↔ ¬(course = .turned ∧ commits op r = true) := by
  have unchanged (same : s'.order = s.order) : Referenced t o s' := by
    unfold Referenced
    rw [same]
    exact before
  cases op with
  | transition tenantID u orderID state step msg =>
    rcases exec_transition h with ⟨row, saga, rfl, found, -, -, rfl⟩ | ⟨⟨e, rfl⟩, rfl⟩
    · rw [show commits (.transition tenantID u orderID state step msg) (.ok ()) = true from rfl,
        eq_self, and_true,
        show course = .turned ↔ u = t ∧ orderID = o ∧ Drops state from fits]
      constructor
      · rintro ⟨row', after, kept⟩ ⟨rfl, rfl, drops⟩
        have stored := (setCell_self _ _ _ _).symm.trans after
        cases stored
        exact kept (mirror_drops drops)
      · intro other
        refine referenced_written rfl ?_ before
        rintro rfl rfl
        obtain ⟨row', found', kept⟩ := before
        rw [found] at found'
        cases found'
        exact mirror_keeps (fun drops => other ⟨rfl, rfl, drops⟩) kept
    · exact iff_of_true before fun both => by cases both.2
  | recordTransaction tenantID u orderID txn =>
    refine iff_of_true ?_ fun both => by cases both.2
    rcases exec_record h with ⟨row, -, -, -, found, rfl⟩ | ⟨-, rfl⟩
    · exact referenced_written rfl (fun _ _ => column_ne_empty named) before
    · exact before
  | createOrderRow u req total =>
    refine iff_of_true ?_ fun both => by cases both.2
    rcases exec_createOrderRow h with ⟨-, -, ok, rfl⟩ | ⟨-, rfl⟩
    · refine referenced_written rfl ?_ before
      rintro rfl rfl
      obtain ⟨row, found, -⟩ := before
      rw [ok.noOrder] at found
      cases found
    · exact before
  | _ => exact iff_of_true (unchanged ((exec_frame h).order rfl)) fun both => by cases both.2

theorem fulfillOrder_referenced (rt : Runtime) (req : FulfillOrderRequest)
    (before : Referenced t o s) :
    Referenced t o { s with order := (fulfillOrder rt req s.order).2 } := by
  unfold fulfillOrder
  split
  · exact before
  · rename_i u parse
    rcases execTx_cases rt req.tenantId (fulfillOrderTx rt u req) s.order with
      ⟨resp, db, eq, run⟩ | ⟨e, eq⟩
    · rw [eq]
      rcases fulfillOrderTx_ok run with rfl | ⟨row, found, -, rfl⟩
      · exact before
      · refine referenced_written rfl ?_ before
        rintro rfl rfl
        obtain ⟨row', found', kept⟩ := before
        rw [found] at found'
        cases found'
        exact column_ne_empty kept
    · rw [eq]
      exact before

end Steps

/-- What can happen to the orders: a move of a handler, or a `FulfillOrder`. -/
inductive Event where
  | move (m : Move Handler Choice)
  | fulfill (req : FulfillOrderRequest)

def Event.next (rt : Runtime) : Event → StackPool → Option StackPool
  | .move m, pool => pool.next (machine rt) (Handler.code rt) m
  | .fulfill req, pool =>
    some ⟨pool.threads, { pool.state with order := (fulfillOrder rt req pool.state.order).2 }⟩

def live (rt : Runtime) : List Event → StackPool → Option StackPool
  | [], pool => some pool
  | e :: rest, pool =>
    match e.next rt pool with
    | some after => live rt rest after
    | none => none

def Event.answered (rt : Runtime) : Event → StackPool → Option (ℕ × (op : Op) × Resp op)
  | .move (.step i c), pool =>
    match pool.threads i with
    | some (.step op _) => (exec rt i op c pool.state).map fun out => (i, ⟨op, out.1⟩)
    | _ => none
  | _, _ => none

def Event.steer (rt : Runtime) (t : UUID) (o : String) (e : Event) (pool : StackPool)
    (courses : ℕ → Course) : ℕ → Course :=
  match e with
  | .move (.spawn i x) => Function.update courses i (.start rt t o x)
  | e =>
    match e.answered rt pool with
    | some (i, ⟨op, r⟩) => Function.update courses i ((courses i).after t o op r)
    | none => courses

def steered (rt : Runtime) (t : UUID) (o : String) :
    List Event → StackPool → (ℕ → Course) → ℕ → Course
  | [], _, courses => courses
  | e :: rest, pool, courses =>
    match e.next rt pool with
    | some after => steered rt t o rest after (e.steer rt t o pool courses)
    | none => courses

def Event.settles (rt : Runtime) (e : Event) (pool : StackPool) (courses : ℕ → Course) : Bool :=
  match e.answered rt pool with
  | some (i, ⟨op, r⟩) => decide (courses i = .turned) && commits op r
  | none => false

def spared (rt : Runtime) (t : UUID) (o : String) :
    List Event → StackPool → (ℕ → Course) → Bool
  | [], _, _ => true
  | e :: rest, pool, courses =>
    match e.next rt pool with
    | some after => !e.settles rt pool courses &&
      spared rt t o rest after (e.steer rt t o pool courses)
    | none => true

def Calm (rt : Runtime) (t : UUID) (o : String) : List Event → StackPool → (ℕ → Course) → Prop
  | [], _, _ => True
  | e :: rest, pool, courses =>
    (∀ i op k, pool.threads i = some (.step op k) → courses i ≠ .turned) ∧
      ∀ after, e.next rt pool = some after → Calm rt t o rest after (e.steer rt t o pool courses)

/-- Every committed state of the run is as `P` says. -/
def Throughout (rt : Runtime) (P : Stack → Prop) : List Event → StackPool → Prop
  | [], pool => P pool.state
  | e :: rest, pool => P pool.state ∧ ∀ after, e.next rt pool = some after →
    Throughout rt P rest after

section Runs

variable {rt : Runtime} {t : UUID} {o : String} {pool after : StackPool} {e : Event}

theorem exec_named {me : ℕ} {op : Op} {c : Choice} {s s' : Stack} {r : Resp op}
    (h : exec rt me op c s = some (r, s')) : Named op r := by
  cases op with
  | charge req =>
    rintro txn rfl empty
    have answered := congrArg Prod.fst (Option.some.inj h)
    unfold charge at answered
    split at answered
    · cases answered
    · split at answered
      · cases answered
      · have id := Except.ok.inj answered
        rw [empty] at id
        have length := congrArg String.length id
        simp [String.length_append] at length
  | _ => trivial

/-- What is known of the handlers in flight: they record only what was charged,
and keep to their courses. -/
structure Tracked (t : UUID) (o : String) (courses : ℕ → Course) (pool : StackPool) : Prop where
  records : ∀ i p, pool.threads i = some p → RecordsCharge p
  follows : ∀ i p, pool.threads i = some p → Follows t o (fun _ _ => True) p (courses i)

theorem idle_tracked (start : Stack) : Tracked t o (fun _ => .elsewhere) (idle start) :=
  ⟨nofun, nofun⟩

theorem answered_step {i : ℕ} {c : Choice} {op : Op} {k : Resp op → Code Unit} {r : Resp op}
    {s' : Stack} (at_ : pool.threads i = some (.step op k))
    (run : exec rt i op c pool.state = some (r, s')) :
    Event.answered rt (.move (.step i c)) pool = some (i, ⟨op, r⟩) := by
  simp only [Event.answered, at_]
  rw [run]
  rfl

variable {courses : ℕ → Course} {events : List Event}

theorem next_tracked (tracked : Tracked t o courses pool) (next : e.next rt pool = some after) :
    Tracked t o (e.steer rt t o pool courses) after := by
  cases e with
  | fulfill req =>
    cases next
    exact ⟨tracked.records, tracked.follows⟩
  | move m =>
    rcases Pool.next_cases next with ⟨i, x, rfl, -, rfl⟩ |
      ⟨i, c, op, k, r, s', rfl, at_, run, rfl⟩ |
        ⟨i, rfl, -, rfl⟩
    · refine ⟨Pool.set_some (handler_recordsCharge x) tracked.records,
        Pool.set_threads (fun q new => ?_) fun j q other old => ?_⟩
      · cases new
        simp only [Event.steer, Function.update_self]
        exact handler_follows x
      · simp only [Event.steer, Function.update_of_ne other]
        exact tracked.follows j q old
    · have steers : Event.steer rt t o (.move (.step i c)) pool courses =
          Function.update courses i ((courses i).after t o op r) := by
        simp only [Event.steer, answered_step at_ run]
      rw [steers]
      refine ⟨Pool.set_some ((tracked.records i _ at_).2 r (exec_named run)) tracked.records,
        Pool.set_threads (fun q new => ?_) fun j q other old => ?_⟩
      · cases new
        rw [Function.update_self]
        exact (tracked.follows i _ at_).2 r
      · rw [Function.update_of_ne other]
        exact tracked.follows j q old
    · exact ⟨Pool.set_none tracked.records, Pool.set_none tracked.follows⟩

theorem live_tracked (tracked : Tracked t o courses pool) (run : live rt events pool = some after) :
    Tracked t o (steered rt t o events pool courses) after := by
  induction events generalizing pool courses with
  | nil =>
    cases run
    exact tracked
  | cons e rest ih =>
    rw [live] at run
    rw [steered]
    split at run
    · rename_i mid next
      exact ih (next_tracked tracked next) run
    · cases run

theorem next_referenced (tracked : Tracked t o courses pool) (before : Referenced t o pool.state)
    (next : e.next rt pool = some after) :
    Referenced t o after.state ↔ e.settles rt pool courses = false := by
  cases e with
  | fulfill req =>
    cases next
    exact iff_of_true (fulfillOrder_referenced rt req before) rfl
  | move m =>
    rcases Pool.next_cases next with ⟨i, x, rfl, -, rfl⟩ |
      ⟨i, c, op, k, r, s', rfl, at_, run, rfl⟩ |
        ⟨i, rfl, -, rfl⟩
    · exact iff_of_true before rfl
    · have told : Event.settles rt (.move (.step i c)) pool courses =
          (decide (courses i = .turned) && commits op r) := by
        simp only [Event.settles, answered_step at_ run]
      rw [told, ← Bool.not_eq_true, Bool.and_eq_true, decide_eq_true_eq]
      exact exec_referenced run (tracked.records i _ at_).1 (tracked.follows i _ at_).1 before
    · exact iff_of_true before rfl

theorem throughout_head {P : Stack → Prop} (h : Throughout rt P events pool) : P pool.state := by
  cases events with
  | nil => exact h
  | cons e rest => exact h.1

theorem throughout_iff (events : List Event) (tracked : Tracked t o courses pool)
    (before : Referenced t o pool.state) :
    Throughout rt (Referenced t o) events pool ↔ spared rt t o events pool courses = true := by
  induction events generalizing pool courses with
  | nil => exact iff_of_true before rfl
  | cons e rest ih =>
    rw [Throughout, spared, and_iff_right before]
    cases next : e.next rt pool with
    | none => exact iff_of_true nofun rfl
    | some after =>
      have kept := next_referenced tracked before next
      dsimp only
      rw [Bool.and_eq_true, Bool.not_eq_true', ← kept]
      constructor
      · intro all
        have here := throughout_head (all after rfl)
        exact ⟨here, (ih (next_tracked tracked next) here).1 (all after rfl)⟩
      · rintro ⟨here, rest⟩ _ ⟨⟩
        exact (ih (next_tracked tracked next) here).2 rest

theorem spared_of_calm (calm : Calm rt t o events pool courses) :
    spared rt t o events pool courses = true := by
  induction events generalizing pool courses with
  | nil => rfl
  | cons e rest ih =>
    rw [spared]
    cases next : e.next rt pool with
    | none => rfl
    | some after =>
      dsimp only
      rw [ih (calm.2 after next), Bool.and_true, Bool.not_eq_true']
      cases e with
      | fulfill req => rfl
      | move m =>
        rcases Pool.next_cases next with ⟨i, x, rfl, -, -⟩ |
          ⟨i, c, op, k, r, s', rfl, at_, run, -⟩ |
            ⟨i, rfl, -, -⟩
        · rfl
        · simp only [Event.settles, answered_step at_ run]
          simp [calm.1 i op k at_]
        · rfl

end Runs

/-- Once a reference is stored, every later state of the row has one exactly as
long as no handler that the outcome of a call has turned commits its transition,
whatever else the handlers and `FulfillOrder` do. So it is kept while every call
of every run of the order's saga, resumed ones included, comes out well and no
cancellation finds the saga open. -/
theorem reference_kept_iff (rt : Runtime) (t : UUID) (o : String) (start : Stack)
    (before later : List Event) (pool : StackPool) (run : live rt before (idle start) = some pool)
    (referenced : Referenced t o pool.state) :
    let courses := steered rt t o before (idle start) fun _ => .elsewhere
    (Throughout rt (Referenced t o) later pool ↔ spared rt t o later pool courses = true) ∧
      (Calm rt t o later pool courses → Throughout rt (Referenced t o) later pool) := by
  intro courses
  have exactly : Throughout rt (Referenced t o) later pool ↔
      spared rt t o later pool courses = true :=
    throughout_iff later (live_tracked (idle_tracked start) run) referenced
  exact ⟨exactly, fun calm => exactly.2 (spared_of_calm calm)⟩

def paidMoves : List Event :=
  .move (.spawn 0 (.createOrder (sampleOrder "ord-1" "key-1"))) ::
    List.replicate 13 (.move (.step 0 .healthy))

def confirmedMoves : List Event :=
  List.replicate 8 (.move (.step 0 .healthy)) ++ [.fulfill ⟨sampleTenant.text, "ord-1", "key-2"⟩]

def lostMoves : List Event :=
  [.move (.step 0 { Choice.healthy with pass := false }), .move (.step 0 .healthy)]

def paidRow (events : List Event) : Option OrderRow :=
  (live (reference []) events (idle sampleStack)).bind fun pool =>
    pool.state.order.orders sampleTenant "ord-1"

theorem reference_kept_confirmed :
    (paidRow (paidMoves ++ confirmedMoves)).map (·.status) = some .fulfilled ∧
      ∃ pool, live (reference []) paidMoves (idle sampleStack) = some pool ∧
        Throughout (reference []) (Referenced sampleTenant "ord-1") confirmedMoves pool := by
  have ends : (paidRow (paidMoves ++ confirmedMoves)).map (·.status) = some .fulfilled ∧
      ((live (reference []) paidMoves (idle sampleStack)).bind fun pool =>
        (pool.state.order.orders sampleTenant "ord-1").map (·.transactionID)) = some "sbx_tx" ∧
      ((live (reference []) paidMoves (idle sampleStack)).map fun pool =>
        spared (reference []) sampleTenant "ord-1" confirmedMoves pool (steered (reference [])
          sampleTenant "ord-1" paidMoves (idle sampleStack) fun _ => .elsewhere)) = some true := by
    rw [paidRow, reference_recognizing]
    decide +kernel
  obtain ⟨fulfilled, paid, kept⟩ := ends
  obtain ⟨pool, run, found⟩ := Option.bind_eq_some_iff.1 paid
  obtain ⟨row, order, txn⟩ := Option.map_eq_some_iff.1 found
  rw [run] at kept
  have referenced : Referenced sampleTenant "ord-1" pool.state :=
    ⟨row, order, by rw [txn]; decide⟩
  exact ⟨fulfilled, pool, run,
    (reference_kept_iff (reference []) sampleTenant "ord-1" sampleStack paidMoves confirmedMoves
      pool run referenced).1.2 (Option.some.inj kept)⟩

/-- The payment is recorded, the next call is lost, and the failed order has no
reference left. -/
theorem reference_erased :
    (paidRow paidMoves).map (·.transactionID) = some "sbx_tx" ∧
      (paidRow (paidMoves ++ lostMoves)).map (fun row => (row.status, row.transactionID)) =
        some (.failed, "") := by
  simp only [paidRow, reference_recognizing]
  decide +kernel

end Taper.PaymentReference
