import Taper.OrderPhases

set_option autoImplicit false

/-!
# Where an order can be while its saga runs

A phase is the state of the saga, what has become of the lines in stock, and the
status of the reservation rows.
-/
namespace Taper.SagaPhases
open Messages Platform Ledger StockTables StockHandlers StockConservation
open StockRuns ReservationTables ReservationSteps OrderTables Program ServiceStack Services
open StackSteps HandlerRuns OrderRows OrderPhases
open StockSteps (Seen)

structure At (x : Order) (state : SagaState) (hold : Hold) (status : Option ReservationStatus)
    (s : Stack) : Prop where
  filed : Filed x state s.order
  stock : StockAt x hold s.stock
  rows : RowsAt x status s
  unlocked : s.openTxs = []

def stored (rt : Runtime) (x : Order) : Bool :=
  (reserveItems x.lines).all (itemFits rt x.tenant x.id)

def paid (rt : Runtime) (x : Order) : Bool := !rt.sandboxFailListed x.id

def opens (paid stored : Bool) : Hold → Option ReservationStatus → Bool
  | .free, none | .held, none => true
  | .held, some .active => stored
  | .held, some .allocated | .allocated, some .allocated => stored && paid
  | .returned, some .active | .returned, some .released => stored && !paid
  | .returned, none => !stored
  | _, _ => false

theorem orderTotal_perm {a b : List OrderLine} (lines : a.Perm b) :
    orderTotal a = orderTotal b := by
  unfold orderTotal
  refine List.Perm.foldl_eq' lines (fun x _ y _ z => ?_) 0
  rw [Int64.add_assoc, Int64.add_assoc, Int64.add_comm (x.quantity.toInt64 * x.unitPrice)]

theorem orderTotal_stored (lines : List OrderLine) :
    orderTotal (lines.map storedLine) = orderTotal lines := List.foldl_map

section Frames

variable {x : Order} {state next : SagaState} {hold hold' : Hold}
  {status status' : Option ReservationStatus} {s : Stack}

theorem RowsAt.congr {s' : Stack} (h : RowsAt x status s) (same : s'.reservation = s.reservation) :
    RowsAt x status s' := by
  have rows : rowsOf s' x.tenant x.id = rowsOf s x.tenant x.id := by
    unfold rowsOf
    rw [same]
  refine ⟨same ▸ h.numbered, ?_, ?_, same ▸ h.foreign, same ▸ h.reserved, same ▸ h.allocated,
    same ▸ h.released⟩
  · rw [rows]
    exact h.lines
  · rw [rows]
    exact h.uniform

theorem At.withStock {db : StockDb} (h : At x state hold status s) (stock : StockAt x hold' db) :
    At x state hold' status (Stack.withStock s db) :=
  ⟨h.filed, stock, RowsAt.congr h.rows rfl, h.unlocked⟩

theorem At.withRows {db : ReservationDb} (h : At x state hold status s)
    (rows : RowsAt x status' { s with reservation := db }) :
    At x state hold status' { s with reservation := db } := ⟨h.filed, h.stock, rows, h.unlocked⟩

theorem At.withOrder {db : OrderDb} (h : At x state hold status s) (filed : Filed x next db) :
    At x next hold status { s with order := db } :=
  ⟨filed, h.stock, RowsAt.congr h.rows rfl, h.unlocked⟩

end Frames

theorem lines_positive {t : UUID} {req : CreateOrderRequest} {total : Int64} {db : OrderDb}
    (created : OrderSteps.Creatable t req total db) :
    ∀ l ∈ stockLines (req.lines.map storedLine), 0 < l.quantity.toInt := by
  intro l asked
  obtain ⟨kept, among, rfl⟩ := List.mem_map.1 asked
  obtain ⟨line, member, rfl⟩ := List.mem_map.1 among
  have fits := created.linesFit line member
  simp only [OrderSteps.lineFits, Bool.and_eq_true, decide_eq_true_eq,
    Int32.lt_iff_toInt_lt] at fits
  exact fits.2.1

theorem varchar_keyFits {k : String} (h : varchar 255 k = true) : keyFits k = true := by
  simp [keyFits, h]

theorem exec_getSaga {rt : Runtime} {me : ℕ} {c : Choice} {s s' : Stack} {tenantID o : String}
    {t : UUID} {answer : Except Failure SagaInstance}
    (h : exec rt me (.getSagaInstance tenantID t o) c s = some (answer, s')) : s' = s := by
  rcases orderTx_some h with ⟨saga, db, -, run, rfl⟩ | ⟨-, same⟩
  · rw [(OrderSteps.getSaga_ok_iff.1 run).2.2]
  · exact same

structure Fresh (x : Order) (s : Stack) : Prop where
  checked : Checked s.stock
  numbered : ReservationRuns.Numbered s.reservation
  listed : OrderSteps.Listed s.order
  unlocked : s.openTxs = []
  quiet : resumableSagas s.order = []
  lines : s.order.orderLines x.tenant x.id = []
  rows : rowsOf s x.tenant x.id = []
  foreign : ∀ row ∈ s.reservation.reservations, x.shared = true
  base : x.base = held s.stock
  unseen : ∀ k ∈ reserveKey x.key :: confirmKey x.key :: x.comps, ¬Seen s.stock x.tenant k
  unrecorded : ∀ k ∈ reserveKey x.key :: allocateKey x.key :: x.comps,
    ¬Recorded reservationKeys s.reservation x.tenant k

theorem Fresh.created {x : Order} {s : Stack} {req : CreateOrderRequest} (rt : Runtime)
    {total : Int64} (fresh : Fresh x s) (order : column 255 req.orderId = x.id)
    (key : column 255 req.idempotencyKey = x.key) (lines : req.lines.map storedLine = x.lines)
    (created : OrderSteps.Creatable x.tenant req total s.order) :
    At x .pendingPayment .free none
      { s with order := OrderSteps.orderCreated rt x.tenant req total s.order } := by
  refine ⟨⟨?_, ?_, ?_, ?_, ?_, ?_⟩, ?_, ?_, fresh.unlocked⟩
  · refine ⟨OrderSteps.newSaga x.tenant req, ?_, rfl, key⟩
    rw [← order]
    exact OrderSteps.setCell_self _ _ _ _
  · rw [← order]
    exact ⟨_, OrderSteps.setCell_self _ _ _ _⟩
  · have none_ := fresh.lines
    rw [← order] at none_ ⊢
    exact (OrderSteps.setCell_self _ _ _ _).trans (by rw [none_, lines]; rfl)
  · exact OrderSteps.orderCreated_listed fresh.listed created
  · rw [← order]
    exact List.mem_append_right _ List.mem_cons_self
  · intro at_ member saga here resumes
    by_contra other
    have apart : ¬(at_.1 = x.tenant ∧ at_.2 = column 255 req.orderId) := fun same =>
      other (Prod.ext same.1 (same.2.trans order))
    have here' : s.order.sagas at_.1 at_.2 = some saga := by
      simp only [OrderSteps.orderCreated] at here
      rwa [OrderSteps.setCell_other _ _ apart] at here
    have old : at_ ∈ s.order.created := (List.mem_append.1 member).resolve_right fun new =>
      other ((List.mem_singleton.1 new).trans (by rw [order]))
    have open_ : saga ∈ resumableSagas s.order :=
      List.mem_filter.2 ⟨List.mem_filterMap.2 ⟨at_, old, here'⟩, resumes⟩
    rw [fresh.quiet] at open_
    cases open_
  · refine ⟨fresh.checked, fun loc => ?_, ?_, fun _ => ?_, fun _ => ?_, (absurd rfl ·),
      (absurd rfl ·), (absurd rfl ·)⟩
    · simp [fresh.base, Hold.shift]
    · exact iff_of_false (fresh.unseen _ (by simp)) (by decide)
    · exact iff_of_false (fresh.unseen _ (by simp)) (by decide)
    · refine iff_of_false ?_ (by decide)
      rintro ⟨k, member, seen⟩
      exact fresh.unseen k (by simp [member]) seen
  · refine ⟨fresh.numbered, ?_, ?_, fun row member _ => fresh.foreign row member, ?_, fun _ => ?_,
      fun _ => ?_⟩
    · exact List.Perm.of_eq (by rw [if_pos rfl]; exact List.map_eq_nil_iff.2 fresh.rows)
    · intro row member
      have none_ : row ∈ rowsOf s x.tenant x.id := member
      rw [fresh.rows] at none_
      cases none_
    · exact iff_of_false (fresh.unrecorded _ (by simp)) (by simp)
    · exact iff_of_false (fresh.unrecorded _ (by simp)) (by simp)
    · refine iff_of_false ?_ (by simp)
      rintro ⟨k, member, old⟩
      exact fresh.unrecorded k (by simp [member]) old

section Quiet

variable {rt : Runtime} {adm : Op → Choice → Stack → Prop} {I : Stack → Prop} {s : Stack}

theorem resume_none {limit : Int32} (here : I s) (quiet : resumableSagas s.order = []) :
    Reaches rt adm I (fun _ t => t = s) (resumePendingSagas rt limit) s := by
  unfold resumePendingSagas
  refine reaches_ask here fun c found u ok run => ?_
  simp only [exec] at run
  split at run
  · cases run
    exact rfl
  · obtain ⟨found_, rfl⟩ : _ = found ∧ s = u := by
      simpa only [Option.some.injEq, Prod.mk.injEq] using run
    rcases (getResumableSagas limit).commit_cases s.order with ⟨got, db, tx, commit⟩ |
      ⟨e, tx, commit⟩
    · obtain ⟨-, rfl, -⟩ := OrderSteps.getResumable_ok_iff.1 tx
      rw [commit, quiet, List.take_nil] at found_
      subst found_
      exact rfl
    · rw [commit] at found_
      subst found_
      exact rfl

theorem sweep_none {batch : Int32} (here : I s)
    (none_ : ∀ row ∈ s.reservation.reservations, row.status ≠ .active) :
    Reaches rt adm I (fun _ t => t = s) (sweepOnce batch) s := by
  unfold sweepOnce
  refine reaches_ask here fun c now t ok run => ?_
  cases run
  refine reaches_ask here fun c found t ok run => ?_
  have same := ReservationRuns.getExpired_same run
  subst same
  cases found with
  | error e => exact rfl
  | ok expired =>
    obtain rfl : expired = [] := List.eq_nil_iff_forall_not_mem.2 fun row member =>
      none_ row (ReservationRuns.getExpired_rows run member).1
        (ReservationRuns.getExpired_rows run member).2
    refine reaches_ask here fun c keys u ok run => ?_
    obtain ⟨out, ranged_, eq⟩ := Option.map_eq_some_iff.1 run
    cases eq
    obtain rfl : keys = [] := List.perm_nil.1 (ReservationRuns.ranged_perm ranged_)
    exact rfl

end Quiet

/-- The databases are reached, and no call that the reservation service makes
is lost. -/
structure Inner (adm : Op → Choice → Stack → Prop) : Prop where
  reached : ∀ op c s, adm op c s → c.fault = false
  sent : ∀ site c s, site.ofSaga = false → adm (.send site) c s → c.pass = true
  answered : ∀ site c s, site.ofSaga = false → adm (.answer site) c s → c.pass = true

theorem Inner.call {α : Type} {rt : Runtime} {adm : Op → Choice → Stack → Prop} {I : Stack → Prop}
    {s : Stack} {site : Site} {body : Code (Except Failure α)}
    {Q : Except Failure α → Stack → Prop} (inner : Inner adm) (own : site.ofSaga = false)
    (here : I s) (h : Reaches rt adm I (fun res t => I t ∧ Q res t) body s) :
    Reaches rt adm I Q (rpc site body) s :=
  reaches_call here (fun c t ok => inner.sent site c t own ok)
    (fun c t ok => inner.answered site c t own ok) h

section Reserve

variable {rt : Runtime} {adm : Op → Choice → Stack → Prop} {I : Stack → Prop} {x : Order}
  {state : SagaState} {hold : Hold} {status : Option ReservationStatus} {s : Stack}
  {tenantID : String} {ls : List OrderLine} {ttl : Int32}

theorem stockLines_perm (lines : ls.Perm x.lines) : (stockLines ls).Perm x.stock :=
  lines.map _

theorem reserveItems_perm (lines : ls.Perm x.lines) :
    ((reserveItems ls).map itemLine).Perm x.stock := by
  rw [reserveItems, List.map_map]
  exact lines.map _

theorem stored_iff (lines : ls.Perm x.lines) :
    (∀ it ∈ reserveItems ls, itemFits rt x.tenant x.id it = true) ↔ stored rt x = true := by
  rw [stored, List.all_eq_true]
  have items : (reserveItems ls).Perm (reserveItems x.lines) := lines.map _
  exact ⟨fun h it member => h it (items.mem_iff.2 member),
    fun h it member => h it (items.mem_iff.1 member)⟩

structure Undoes (x : Order) (tenantID : String) (hold : Hold) : Prop where
  member : compensationKey tenantID x.id ∈ x.comps
  fits : keyFits (compensationKey tenantID x.id) = true
  single : hold = .returned → x.comps = [compensationKey tenantID x.id]

/-- The hold of an order whose rows cannot be stored is given back, once. -/
theorem undo_phase {c : Choice} {s' : Stack} {answer : Except Failure ReleaseStockResponse}
    {ls : List StockLine} (regular : x.Regular) (castable : Castable rt tenantID)
    (parse : rt.scan tenantID = some x.tenant) (lines : ls.Perm x.stock)
    (undoes : Undoes x tenantID hold) (mine : hold = .held ∨ hold = .returned)
    (h : At x state hold none s) (reached : c.fault = false)
    (run : exec rt 0 (.releaseStock ⟨tenantID, x.id, "reserve_failure",
      compensationKey tenantID x.id, ls⟩ []) c s = some (answer, s')) :
    At x state .returned none s' := by
  rcases mine with rfl | rfl
  · obtain ⟨resp, db, rfl, stock, rfl⟩ := stockAt_release regular h.stock reached castable parse
      lines undoes.member (compensationKey_ne _ _) undoes.fits (by decide) run
    exact h.withStock stock
  · obtain ⟨k, member, seen⟩ := (h.stock.compensated (by decide)).2 rfl
    rw [undoes.single rfl, List.mem_singleton] at member
    subst member
    obtain ⟨resp, rfl, rfl⟩ := stockAt_release_again reached castable parse h.stock.checked seen
      undoes.fits run
    exact h

/-- How `Reserve` leaves an order: with its rows there, or without any. -/
def Reserved (rt : Runtime) (x : Order) (state : SagaState) (before : Option ReservationStatus)
    (res : Except Failure ReserveResponse) (s : Stack) : Prop :=
  ∃ hold status, opens (paid rt x) (stored rt x) hold status = true ∧ At x state hold status s ∧
    (status = before ∨ (before = none ∧ status = some .active)) ∧
    ((∃ resp, res = .ok resp ∧ resp.success = true ∧ status ≠ none) ∨
      ((∀ resp, res = .ok resp → resp.success = false) ∧ status = none ∧ hold ≠ .held))

def StockAnswered (x : Order) (state : SagaState) (hold : Hold) (status : Option ReservationStatus)
    (res : Except Failure ReserveStockResponse) (s : Stack) : Prop :=
  (res = .ok ⟨true, []⟩ ∧ ((hold ≠ .free ∧ At x state hold status s) ∨
    (status = none ∧ At x state .held none s))) ∨
  ((∀ resp, res = .ok resp → resp.success = false) ∧ status = none ∧ At x state .free none s)

theorem reserveStock_phase (inner : Inner adm) (regular : x.Regular)
    (castable : Castable rt tenantID) (parse : rt.scan tenantID = some x.tenant)
    (lines : ls.Perm x.lines) (open_ : opens (paid rt x) (stored rt x) hold status = true)
    (keeps : ∀ hold status s, opens (paid rt x) (stored rt x) hold status = true →
      At x state hold status s → I s) (h : At x state hold status s) :
    Reaches rt adm I (StockAnswered x state hold status) (rpc .reserveStock (ask (.reserveStock
      ⟨tenantID, x.id, reserveKey x.key, (reserveItems ls).map itemLine⟩))) s := by
  refine inner.call rfl (keeps hold status s open_ h) (reaches_last (o := .reserveStock _)
    (keeps hold status s open_ h) fun c res t ok run => ?_)
  have items := reserveItems_perm lines
  by_cases first : hold = .free
  · have new : status = none := by
      subst first
      cases status with
      | none => rfl
      | some st => cases st <;> cases open_
    subst first new
    rcases stockAt_reserve regular h.stock parse items run with
      ⟨rfl, db, stock, rfl⟩ | ⟨refused, rfl⟩
    · have after := h.withStock stock
      exact ⟨keeps _ _ _ rfl after, .inl ⟨rfl, .inr ⟨rfl, after⟩⟩⟩
    · exact ⟨keeps _ _ _ open_ h, .inr ⟨refused, rfl, h⟩⟩
  · obtain ⟨rfl, rfl⟩ := stockAt_reserve_again regular h.stock first (inner.reached _ _ _ ok)
      castable parse items run
    exact ⟨keeps _ _ _ open_ h, .inl ⟨rfl, .inl ⟨first, h⟩⟩⟩

theorem unrecorded (open_ : opens (paid rt x) (stored rt x) hold none = true)
    (undoes : stored rt x = false → Undoes x tenantID hold)
    (h : (hold ≠ .free ∧ At x state hold none s) ∨ At x state .held none s) :
    ∃ hold₁, At x state hold₁ none s ∧ (hold₁ = .held ∨ hold₁ = .returned) ∧
      (stored rt x = false → Undoes x tenantID hold₁) ∧
      (hold₁ = .returned → stored rt x = false) := by
  rcases h with ⟨first, at_⟩ | at_
  · refine ⟨hold, at_, ?_, undoes, ?_⟩
    · cases hold <;> simp_all [opens]
    · rintro rfl
      simpa [opens] using open_
  · exact ⟨.held, at_, .inl rfl, fun unfit =>
      ⟨(undoes unfit).member, (undoes unfit).fits, nofun⟩, nofun⟩

theorem undoReserve_phase (inner : Inner adm) (regular : x.Regular)
    (castable : Castable rt tenantID) (parse : rt.scan tenantID = some x.tenant)
    (lines : ls.Perm x.lines) (mine : hold = .held ∨ hold = .returned)
    (undoes : Undoes x tenantID hold) (keeps : ∀ s, At x state .returned none s → I s) (here : I s)
    (h : At x state hold none s) :
    Reaches rt adm I (fun _ t => At x state .returned none t)
      (rpc .undoReserve (ask (.releaseStock ⟨tenantID, x.id, "reserve_failure",
        compensationKey tenantID x.id, (reserveItems ls).map itemLine⟩ []))) s := by
  refine inner.call rfl here
    (reaches_last (o := .releaseStock _ _) here fun c answer t ok run => ?_)
  have back := undo_phase regular castable parse (reserveItems_perm lines) undoes mine h
    (inner.reached _ _ _ ok) run
  exact ⟨keeps t back, back⟩

structure Drives (rt : Runtime) (x : Order) (tenantID : String) (ls : List OrderLine) : Prop where
  castable : Castable rt tenantID
  parse : rt.scan tenantID = some x.tenant
  lines : ls.Perm x.lines

theorem storedLine_of_cut (whole : (stockLines ls).map cutLine = stockLines ls) :
    ls.map storedLine = ls := by
  refine (List.map_congr_left fun l member => ?_).trans (List.map_id ls)
  rw [stockLines, List.map_map] at whole
  have same := List.map_inj_left.1 whole l member
  simp only [Function.comp_apply, cutLine, StockLine.mk.injEq, and_true] at same
  rw [storedLine, same.1, same.2]
  rfl

/-- With a key or a name that is cut when it is stored, a first attempt comes to
nothing. -/
theorem reserve_refused {key : String} (inner : Inner adm)
    (parse : rt.scan tenantID = some x.tenant) (own : x.key = column 255 key)
    (cut : ¬(column 255 key = key ∧ ls.map storedLine = ls)) (here : I s)
    (h : At x state .free none s) :
    Reaches rt adm I (fun res t => t = s ∧ ∀ resp, res = .ok resp → resp.success = false)
      (reserve rt ⟨tenantID, x.id, reserveKey key, reserveItems ls, ttl⟩) s := by
  unfold reserve
  simp only [parseUUID, parse]
  split
  · exact ⟨rfl, fun resp eq => by cases eq⟩
  refine reaches_then (Q := fun res t => (∀ resp, res = .ok resp → resp.success = false) ∧ t = s)
    (inner.call rfl here (reaches_last (o := .reserveStock _) here fun c res t ok run => ?_)) ?_
  · rw [reserveItems_lines] at run
    have refused := stockAt_refused h.stock parse own
      (fun whole => cut ⟨whole.1, storedLine_of_cut whole.2⟩) run
    exact ⟨refused.2 ▸ here, refused⟩
  · rintro res t ⟨refused, rfl⟩
    cases res with
    | error e => exact ⟨rfl, fun resp eq => by cases eq⟩
    | ok stockResp =>
      simp only [refused stockResp rfl, if_true]
      refine ⟨rfl, fun resp eq => ?_⟩
      cases eq
      rfl

theorem failSaga_at {msg : String} (parse : rt.scan tenantID = some x.tenant) (here : I s)
    (h : At x state hold status s) :
    Reaches rt adm I (fun _ t => At x state hold status t ∨ At x .failed hold status t)
      (failSaga rt tenantID x.id msg) s := by
  unfold failSaga
  simp only [parseUUID, parse]
  refine reaches_last (o := .transition _ _ _ _ _ _) here fun c answer t ok run => ?_
  rcases filed_transition h.filed run with ⟨-, -, -, db, filed, rfl⟩ | ⟨-, rfl⟩
  · exact .inr (h.withOrder filed)
  · exact .inl h

theorem runSaga_refused {key : String} {force : Bool} (inner : Inner adm)
    (parse : rt.scan tenantID = some x.tenant) (own : x.key = column 255 key)
    (cut : ¬(column 255 key = key ∧ ls.map storedLine = ls)) (here : I s)
    (h : At x state .free none s) :
    Reaches rt adm I (fun _ t => At x state .free none t ∨ At x .failed .free none t)
      (runSaga rt ⟨tenantID, x.tenant, x.id, ls, key, ttl, force⟩) s := by
  have failed {α : Type} {msg : String} {a : α} : Reaches rt adm I
      (fun _ t => At x state .free none t ∨ At x .failed .free none t) (do
        let _ ← failSaga rt tenantID x.id msg
        pure a) s := reaches_then (failSaga_at parse here h) fun _ _ after => after
  unfold runSaga
  refine reaches_ask here fun c allowed t ok run => ?_
  cases run
  cases c.pass with
  | false => exact .inl h
  | true =>
    refine reaches_then (Q := fun res t => t = s ∧ ∀ resp, res = .ok resp → resp.success = false)
      (reaches_rpc here (fun c ok lost => ⟨rfl, fun resp eq => by cases eq⟩)
        (wp_mono (fun res t after => ?_) (reserve_refused inner parse own cut here h))) ?_
    · obtain ⟨rfl, refused⟩ := after
      exact ⟨here, fun c ok =>
        ⟨fun _ => ⟨rfl, refused⟩, fun _ => ⟨rfl, fun resp eq => by cases eq⟩⟩⟩
    · rintro res t ⟨rfl, refused⟩
      cases res with
      | error e => exact failed
      | ok resp =>
        simp only [refused resp rfl, if_true]
        exact failed

theorem reserve_phase (inner : Inner adm) (regular : x.Regular) (castable : Castable rt tenantID)
    (parse : rt.scan tenantID = some x.tenant) (lines : ls.Perm x.lines)
    (undoes : stored rt x = false → Undoes x tenantID hold)
    (open_ : opens (paid rt x) (stored rt x) hold status = true)
    (keeps : ∀ hold status s, opens (paid rt x) (stored rt x) hold status = true →
      At x state hold status s → I s)
    (looks : ∀ s o, At x state hold status s → o.thread = 0 → I { s with openTxs := [o] })
    (h : At x state hold status s) :
    Reaches rt adm I (Reserved rt x state status)
      (reserve rt ⟨tenantID, x.id, reserveKey x.key, reserveItems ls, ttl⟩) s := by
  have some_ : reserveItems ls ≠ [] := fun empty => by
    rw [List.map_eq_nil_iff.1 empty] at lines
    exact regular.nonempty lines.nil_eq.symm
  unfold reserve
  simp only [parseUUID, parse, if_neg some_]
  refine reaches_then (reserveStock_phase inner regular castable parse lines open_ keeps h) ?_
  rintro res t (⟨rfl, held_⟩ | ⟨refused, rfl, free⟩)
  · have here : I t := by
      rcases held_ with ⟨-, at_⟩ | ⟨rfl, at_⟩
      · exact keeps _ _ _ open_ at_
      · exact keeps .held none t rfl at_
    refine reaches_ask here fun c now t' ok run => ?_
    cases run
    refine reaches_ask here fun c answer t₁ ok run => ?_
    have reached := inner.reached _ _ _ ok
    by_cases new : status = none
    · subst new
      obtain ⟨hold₁, at_, mine, undoes₁, unfit⟩ := unrecorded open_ undoes
        (held_.imp_right And.right)
      cases fits : stored rt x with
      | true =>
        have hold₁_ : hold₁ = .held := mine.resolve_right fun eq => by
          rw [unfit eq] at fits
          cases fits
        subst hold₁_
        obtain ⟨⟨first, rfl⟩, rows, db, rfl⟩ := rowsAt_insert regular at_.rows reached castable
          (at_.stock.keyFits (by decide)) (reserveItems_perm lines) ((stored_iff lines).2 fits) run
        exact ⟨.held, some .active, fits, at_.withRows rows, .inr ⟨rfl, rfl⟩,
          .inl ⟨_, rfl, rfl, by simp⟩⟩
      | false =>
        obtain ⟨⟨e, rfl, other⟩, rfl⟩ := rowsAt_insert_refused at_.rows (fun all => by
          rw [(stored_iff lines).1 all] at fits
          cases fits) run
        have given : opens (paid rt x) (stored rt x) .returned none = true := by simp [opens, fits]
        have undone := undoReserve_phase inner regular castable parse lines mine (undoes₁ fits)
          (fun s => keeps .returned none s given) here at_
        cases e with
        | alreadyProcessed => exact absurd rfl other
        | _ =>
          refine reaches_then undone fun _ t₂ back =>
            ⟨.returned, none, given, back, .inl rfl, .inr ⟨fun resp eq => ?_, rfl, by decide⟩⟩
          cases eq
    · obtain ⟨first, at_⟩ := held_.resolve_right fun none_ => new none_.1
      obtain ⟨rfl, rfl⟩ := rowsAt_insert_again at_.rows new reached castable
        (at_.stock.keyFits first) run
      refine reaches_ask here fun c id t₂ ok run => ?_
      have inside : I t₂ := by
        rcases firstReservationID_some run with rfl | looked
        · exact here
        · rw [at_.unlocked] at looked
          exact looked ▸ looks _ _ at_ rfl
      refine reaches_ask inside fun c' u t₃ ok' close => ?_
      obtain rfl := looked_closed at_.unlocked run close
      exact ⟨hold, status, open_, at_, .inl rfl, .inl ⟨_, rfl, rfl, new⟩⟩
  · cases res with
    | error e =>
      refine ⟨.free, none, rfl, free, .inl rfl, .inr ⟨fun resp eq => ?_, rfl, by decide⟩⟩
      cases eq
    | ok stockResp =>
      have failed := refused stockResp rfl
      simp only [failed, if_true]
      refine ⟨.free, none, rfl, free, .inl rfl, .inr ⟨fun resp eq => ?_, rfl, by decide⟩⟩
      cases eq
      rfl

end Reserve

end Taper.SagaPhases
