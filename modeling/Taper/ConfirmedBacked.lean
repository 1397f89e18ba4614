import Taper.HandlerRuns
import Taper.OrderRows
import Taper.StockForward

set_option autoImplicit false

/-!
# Confirmed orders are backed by stock

Orders run one after another, and each holds its lines before it is confirmed.
That the units allocated are those of the confirmed orders rests on the stock
service taking none of an order's requests for a repetition of another's.
-/
namespace Taper.ConfirmedBacked
open Messages Platform Ledger StockTables StockHandlers StockConservation StockRuns
open StockForward ReservationTables ReservationSteps ReservationRuns OrderTables Program
open ServiceStack Services StackSteps HandlerRuns OrderRows
open StockSteps (Seen Moved)

def confirmedUnits (s : Stack) (t : UUID) (reqs : List CreateOrderRequest) (loc : StockLocation) :
    ℤ :=
  ((reqs.filter fun req => sagaState s t req.orderId = some .confirmed).map fun req =>
    quantityAt t loc (stockLines req.lines)).sum

/-- Every service answers, and the stock service has recorded none of the keys
of an order that is about to be created. -/
def admits (op : Op) (c : Choice) (s : Stack) : Bool :=
  !c.fault &&
    match op with
    | .send _ | .answer _ => c.pass
    | .createOrderRow t req _ =>
      decide (Recorded orderKeys s.order t req.idempotencyKey) ||
        (!decide (Seen s.stock t (reserveKey req.idempotencyKey)) &&
          !decide (Seen s.stock t (confirmKey req.idempotencyKey)))
    | _ => true

def NoActive (s : Stack) (t : UUID) (o : String) : Prop :=
  ∀ row ∈ s.reservation.reservations, row.tenantID = t → row.orderID = o → row.status ≠ .active

def activeLines (s : Stack) (t : UUID) (o : String) : List StockLine :=
  (s.reservation.reservations.filter fun row =>
    row.tenantID = t ∧ row.orderID = o ∧ row.status = .active).map rowLine

def unreserved (s : Stack) (loc : StockLocation) : ℤ :=
  (held s.stock loc).1 + (held s.stock loc).2.2

/-- An order on its way: nothing is allocated yet, and at least `owed` units
are held for it. -/
structure Running (t : UUID) (o : String) (start : Stack) (owed : StockLocation → ℤ) (s : Stack) :
    Prop where
  checked : Checked s.stock
  allocated : ∀ loc, (held s.stock loc).2.2 = (held start.stock loc).2.2
  bounded : ∀ loc, unreserved s loc + owed loc ≤ unreserved start loc
  sagas : ∀ o', o' ≠ o → s.order.sagas t o' = start.order.sagas t o'
  rows : ∀ o', o' ≠ o → start.order.sagas t o' = none → NoActive start t o' → NoActive s t o'
  open_ : sagaState s t o ≠ some .confirmed

/-- The order is not confirmed, and nothing is kept for it before it is created. -/
structure Ready (s : Stack) (t : UUID) (o : String) : Prop where
  open_ : sagaState s t o ≠ some .confirmed
  rows : s.order.sagas t o = none → NoActive s t o
  unfiled : column 255 o ≠ o → s.order.sagas t o = none

structure Ended (t : UUID) (o : String) (lines : List StockLine) (start s : Stack) : Prop where
  checked : Checked s.stock
  unlocked : s.openTxs = []
  confirmed : ∀ o', o' ≠ o →
    (sagaState s t o' = some .confirmed ↔ sagaState start t o' = some .confirmed)
  ready : ∀ o', o' ≠ o → Ready start t o' → Ready s t o'
  allocated : ∀ loc, (held s.stock loc).2.2 = (held start.stock loc).2.2 +
    if sagaState s t o = some .confirmed then quantityAt t loc lines else 0
  bounded : ∀ loc, unreserved s loc ≤ unreserved start loc

variable {c : Choice} {orderID reason : String} {msg : Message} {db : StockDb}

section Running

variable {rt : Runtime} {t : UUID} {o : String} {start s s' : Stack} {owed : StockLocation → ℤ}

theorem Running.weaken {owed' : StockLocation → ℤ} (h : Running t o start owed s)
    (less : ∀ loc, owed' loc ≤ owed loc) : Running t o start owed' s :=
  { h with bounded := fun loc => by have := h.bounded loc; have := less loc; omega }

theorem Running.frame (h : Running t o start owed s) (stock : s'.stock = s.stock)
    (sagas : ∀ o', o' ≠ o → s'.order.sagas t o' = s.order.sagas t o')
    (rows : ∀ o', o' ≠ o → start.order.sagas t o' = none → NoActive s t o' → NoActive s' t o')
    (open_ : sagaState s' t o ≠ some .confirmed) : Running t o start owed s' where
  checked := stock ▸ h.checked
  allocated loc := by rw [stock, h.allocated]
  bounded loc := by unfold unreserved; rw [stock]; exact h.bounded loc
  sagas o' other := (sagas o' other).trans (h.sagas o' other)
  rows o' other fresh none := rows o' other fresh (h.rows o' other fresh none)
  open_ := open_

theorem exec_noActive {me : ℕ} {op : Op} {r : Resp op} {o' : String}
    (h : exec rt me op c s = some (r, s'))
    (other : ∀ req expiresAt, op = .insertReservations t req expiresAt →
      column 255 req.orderId ≠ o') (none : NoActive s t o') : NoActive s' t o' := by
  cases exec_rows h with
  | same rows next =>
    intro row member
    rw [rows] at member
    exact none row member
  | marked ids status by_ new rows next =>
    intro row member tenant order active
    rw [rows] at member
    obtain ⟨old, was, rfl⟩ := mem_mark.1 member
    split at active
    · have moved : status ≠ .active := by
        cases op with
        | commitRelease t' req rows => cases by_; decide
        | allocate t' req => cases by_; decide
        | markExpired row => cases by_; decide
        | _ => cases by_
      exact moved active
    · rename_i same
      rw [if_neg same] at tenant order
      exact none old was tenant order active
  | inserted u req expiresAt by_ new recorded rows next =>
    intro row member tenant order active
    rw [rows] at member
    rcases List.mem_append.1 member with old | fresh
    · exact none row old tenant order active
    · have spec := newRows_spec fresh
      have same : u = t := spec.1.symm.trans tenant
      subst same
      exact other req expiresAt by_ (spec.2.1.symm.trans order)

theorem Running.release {key : String} {lines : List StockLine} (h : Running t o start owed s)
    (nonneg : ∀ loc, 0 ≤ owed loc) (within : ∀ loc, quantityAt t loc lines ≤ owed loc)
    (moved : Moved rt (releaseMove orderID reason) t orderID key msg lines s.stock db) :
    Running t o start (fun _ => 0) (Stack.withStock s db) := by
  refine ⟨moved_checked moved h.checked, fun loc => ?_, fun loc => ?_, h.sagas, h.rows, h.open_⟩
  · have before := h.allocated loc
    rcases moved_effect (releaseMove_along _ _) moved h.checked loc with same | returned
    · simp only [Stack.withStock, same, before]
    · simp only [Stack.withStock, returned, Prod.snd_add, Prod.smul_snd, smul_zero, add_zero,
        before]
  · have before := h.bounded loc
    have sign := nonneg loc
    have most := within loc
    unfold unreserved at before ⊢
    rcases moved_effect (releaseMove_along _ _) moved h.checked loc with same | returned
    · simp only [Stack.withStock, same]
      omega
    · simp only [Stack.withStock, returned, Prod.fst_add, Prod.snd_add, Prod.smul_fst,
        Prod.smul_snd, smul_eq_mul, mul_one, add_zero]
      omega

theorem Running.reserve {key : String} {lines : List StockLine}
    (h : Running t o start (fun _ => 0) s) (unseen : ¬Seen s.stock t key)
    (located : ∀ l ∈ lines, s.stock.stockLevels (lineLocation t l) ≠ none)
    (moved : Moved rt (reserveMove orderID) t orderID key msg lines s.stock db) :
    Running t o start (fun loc => quantityAt t loc lines) (Stack.withStock s db) := by
  have effect := moved_held (reserveMove_along _) moved h.checked located
  simp only [if_neg unseen] at effect
  refine ⟨moved_checked moved h.checked, fun loc => ?_, fun loc => ?_, h.sagas, h.rows, h.open_⟩
  · have before := h.allocated loc
    simp only [Stack.withStock, effect, Prod.snd_add, Prod.smul_snd, smul_zero, add_zero, before]
  · have before := h.bounded loc
    unfold unreserved at before ⊢
    simp only [Stack.withStock, effect, Prod.fst_add, Prod.snd_add, Prod.smul_fst, Prod.smul_snd,
      smul_eq_mul, mul_neg, mul_one]
    omega

end Running

structure Held (t : UUID) (o key : String) (lines : List StockLine) (start s : Stack) : Prop where
  running : Running t o start (fun loc => quantityAt t loc lines) s
  unlocked : s.openTxs = []
  located : ∀ l ∈ lines, s.stock.stockLevels (lineLocation t l) ≠ none
  unconfirmed : ¬Seen s.stock t (confirmKey key)

/-- And the rows still active are not more than these. -/
def Holding (t : UUID) (o key : String) (lines : List StockLine) (start s : Stack) : Prop :=
  Held t o key lines start s ∧
    ∀ loc, quantityAt t loc (activeLines s t o) ≤ quantityAt t loc lines

section Handlers

abbrev Backs {α : Type} (rt : Runtime) (Q : α → Stack → Prop) (p : Code α) (s : Stack) : Prop :=
  Reaches rt (fun op c s => admits op c s = true) (fun _ => True) Q p s

theorem admits_healthy {op : Op} {s : Stack} (h : admits op c s = true) :
    c.fault = false := by
  unfold admits at h
  simp only [Bool.and_eq_true, Bool.not_eq_true'] at h
  exact h.1

variable {site : Site} {tenantID : String}

theorem admits_sent {s : Stack} (h : admits (.send site) c s = true) :
    c.pass = true := by
  simp only [admits, Bool.and_eq_true] at h
  exact h.2

theorem admits_answered {s : Stack} (h : admits (.answer site) c s = true) : c.pass = true := by
  simp only [admits, Bool.and_eq_true] at h
  exact h.2

variable {rt : Runtime} {t : UUID} {o key : String} {lines : List StockLine} {start s : Stack}
  {owed : StockLocation → ℤ}

theorem backs_call {α : Type} {body : Code (Except Failure α)}
    {Q : Except Failure α → Stack → Prop} (h : Backs rt Q body s) : Backs rt Q (rpc site body) s :=
  reaches_call trivial (fun _ _ ok => admits_sent ok) (fun _ _ ok => admits_answered ok)
    (wp_mono (fun _ _ after => ⟨trivial, after⟩) h)

def Leaves (t : UUID) (o : String) (start s : Stack) : Prop :=
  Running t o start (fun _ => 0) s ∧ s.openTxs = []

theorem activeRows_lines (unlocked : s.openTxs = []) :
    ((activeRows rt t o s.locked s.reservation).map rowLine).Perm (activeLines s t o) := by
  have free : s.locked = [] := by
    unfold Stack.locked
    rw [unlocked]
    rfl
  unfold activeRows activeLines
  simp only [free, List.not_mem_nil, not_false_eq_true, and_true]
  exact (rt.rows_perm _).map rowLine

theorem release_backs {req : ReleaseRequest} (order : req.orderId = o)
    (parse : rt.scan req.tenantId = some t) (h : Running t o start owed s)
    (unlocked : s.openTxs = []) (nonneg : ∀ loc, 0 ≤ owed loc)
    (within : ∀ loc, quantityAt t loc (activeLines s t o) ≤ owed loc) :
    Backs rt (fun _ s' => Leaves t o start s') (release rt req) s := by
  have idle : Leaves t o start s := ⟨h.weaken nonneg, unlocked⟩
  unfold release
  simp only [parseUUID, parse]
  refine reaches_ask trivial fun c answer s₁ ok run => ?_
  have quiet : ∀ o', NoActive s t o' → NoActive s₁ t o' := fun o' none =>
    exec_noActive run (fun _ _ eq => by cases eq) none
  have frame := exec_frame run
  simp only [exec] at run
  split at run
  · cases run
  rcases beginRelease_some run with ⟨⟨e, rfl⟩, rfl⟩ |
    ⟨rows, db, rfl, claim, ⟨rfl, rfl⟩ | ⟨some_, rfl⟩⟩
  · cases e
    all_goals exact idle
  · refine ⟨idle.1.frame rfl (fun _ _ => rfl) (fun o' _ _ => quiet o') h.open_, unlocked⟩
  · obtain ⟨-, -, -, fetched, -⟩ := releaseClaim_ok_iff.1 claim
    rw [order] at fetched
    have lines : ∀ loc, quantityAt t loc (rows.map rowLine) ≤ owed loc := fun loc => by
      rw [fetched, quantityAt_perm t loc (activeRows_lines unlocked)]
      exact within loc
    obtain ⟨first, rest, rfl⟩ := List.exists_cons_of_ne_nil some_
    have opened_ : Running t o start owed { s with openTxs :=
        s.openTxs ++ [opened 0 t req (first :: rest)] } :=
      h.frame rfl (fun _ _ => rfl) (fun _ _ _ none => none) h.open_
    -- Whatever is said to the stock service, the transaction ends with the handler.
    have closes : ∀ s₂ : Stack, s₂.openTxs = s.openTxs ++ [opened 0 t req (first :: rest)] →
        (s₂.close 0).openTxs = [] := by
      intro s₂ still
      simp [Stack.close, still, unlocked, opened]
    refine reaches_then (Q := fun _ s₂ => Running t o start (fun _ => 0) s₂ ∧ s₂.openTxs =
      s.openTxs ++ [opened 0 t req (first :: rest)]) ?_ ?_
    · refine backs_call (reaches_last (o := .releaseStock _ _) trivial
        fun c answer s₂ ok run => ?_)
      rcases exec_releaseStock run with ⟨u, resp, db, parse', rfl, moved, rfl⟩ | ⟨-, rfl⟩
      · cases parse'.symm.trans parse
        simp only [order] at moved
        exact ⟨opened_.release nonneg lines moved, rfl⟩
      · exact ⟨opened_.weaken nonneg, rfl⟩
    · rintro answer s₂ ⟨running, still⟩
      cases answer with
      | error e =>
        refine reaches_ask trivial fun c u s₃ ok run => ?_
        cases run
        exact ⟨running.frame rfl (fun _ _ => rfl) (fun _ _ _ none => none) running.open_,
          closes s₂ still⟩
      | ok resp =>
        refine reaches_ask trivial fun c answer s₃ ok run => ?_
        have quiet : ∀ o', NoActive s₂ t o' → NoActive s₃ t o' := fun o' none =>
          exec_noActive run (fun _ _ eq => by cases eq) none
        have ended : Leaves t o start s₃ := by
          rcases commitRelease_some run with ⟨u, db, -, -, rfl⟩ | ⟨-, rfl⟩
          · exact ⟨running.frame rfl (fun _ _ => rfl) (fun o' _ _ => quiet o') running.open_,
              closes s₂ still⟩
          · exact ⟨running.frame rfl (fun _ _ => rfl) (fun o' _ _ => quiet o') running.open_,
              closes s₂ still⟩
        cases answer with
        | error e => exact ended
        | ok u => exact ended

theorem transition_running {msg : String} {state : SagaState} {step : Int32}
    {answer : Except Failure Unit} {s' : Stack} (h : Running t o start owed s)
    (other : state ≠ .confirmed)
    (run : exec rt 0 (.transition tenantID t o state step msg) c s = some (answer, s')) :
    Running t o start owed s' ∧ s'.openTxs = s.openTxs := by
  rcases exec_transition run with ⟨row, saga, -, -, -, -, rfl⟩ | ⟨-, rfl⟩
  · refine ⟨h.frame rfl (fun o' differs => ?_) (fun _ _ _ none => none) ?_, rfl⟩
    · exact OrderSteps.setCell_other _ _ fun same => differs same.2
    · simp [sagaState, OrderSteps.transitioned, OrderSteps.movedTo, other]
  · exact ⟨h, rfl⟩

theorem failSaga_backs {msg : String} (h : Leaves t o start s) (parse : rt.scan tenantID = some t) :
    Backs rt (fun _ s' => Leaves t o start s') (failSaga rt tenantID o msg) s := by
  unfold failSaga
  simp only [parseUUID, parse]
  refine reaches_last (o := .transition _ _ _ _ _ _) trivial fun c answer s₁ ok run => ?_
  have moved := transition_running h.1 (by decide) run
  exact ⟨moved.1, moved.2.trans h.2⟩

theorem compensate_backs (h : Holding t o key lines start s)
    (nonneg : ∀ loc, 0 ≤ quantityAt t loc lines) (parse : rt.scan tenantID = some t) :
    Backs rt (fun _ s' => Leaves t o start s') (compensate rt tenantID o reason) s := by
  unfold compensate
  simp only [parseUUID, parse]
  refine reaches_then (backs_call (release_backs rfl parse h.1.running h.1.unlocked nonneg h.2)) ?_
  intro answer s₁ left
  cases answer with
  | error e => exact left
  | ok resp =>
    refine reaches_last (o := .transition _ _ _ _ _ _) trivial fun c answer s₂ ok run => ?_
    have moved := transition_running left.1 (by decide) run
    exact ⟨moved.1, moved.2.trans left.2⟩

theorem activeLines_none (none : NoActive s t o) : activeLines s t o = [] := by
  unfold activeLines
  rw [List.map_eq_nil_iff, List.filter_eq_nil_iff]
  intro row member
  simp only [decide_eq_true_eq]
  exact fun active => none row member active.1 active.2.1 active.2.2

theorem activeLines_inserted {items : List ReservationItem} {expiresAt : ℤ} {n : ℕ} {s' : Stack}
    {o' : String} (rows : s'.reservation.reservations =
      s.reservation.reservations ++ newRows t o' expiresAt n items) :
    activeLines s' t o = activeLines s t o ++
      if column 255 o' = o then (items.map itemLine).map cutLine else [] := by
  have new : (newRows t o' expiresAt n items).filter (fun row =>
      row.tenantID = t ∧ row.orderID = o ∧ row.status = .active) =
        if column 255 o' = o then newRows t o' expiresAt n items else [] := by
    split
    · refine List.filter_eq_self.2 fun row member => ?_
      have spec := newRows_spec member
      simp [*]
    · refine List.filter_eq_nil_iff.2 fun row member => ?_
      have spec := newRows_spec member
      simp [*]
  unfold activeLines
  rw [rows, List.filter_append, List.map_append, new, apply_ite (List.map rowLine), newRows_lines,
    List.map_nil]

theorem Held.leaves (h : Held t o key lines start s)
    (nonneg : ∀ loc, 0 ≤ quantityAt t loc lines) : Leaves t o start s :=
  ⟨h.running.weaken nonneg, h.unlocked⟩

theorem sagas_confirmed (sagas : ∀ o', o' ≠ o → s.order.sagas t o' = start.order.sagas t o')
    (o' : String) (other : o' ≠ o) :
    sagaState s t o' = some .confirmed ↔ sagaState start t o' = some .confirmed := by
  rw [sagaState, sagaState, sagas o' other]

theorem sagas_ready (sagas : ∀ o', o' ≠ o → s.order.sagas t o' = start.order.sagas t o')
    (rows : ∀ o', o' ≠ o → start.order.sagas t o' = none → NoActive start t o' → NoActive s t o')
    (o' : String) (other : o' ≠ o) (ready : Ready start t o') : Ready s t o' where
  open_ := (not_congr (sagas_confirmed sagas o' other)).2 ready.open_
  rows none := by
    rw [sagas o' other] at none
    exact rows o' other none (ready.rows none)
  unfiled cut := (sagas o' other).trans (ready.unfiled cut)

theorem Leaves.ended (h : Leaves t o start s) : Ended t o lines start s where
  checked := h.1.checked
  unlocked := h.2
  confirmed := sagas_confirmed h.1.sagas
  ready := sagas_ready h.1.sagas h.1.rows
  allocated loc := by rw [if_neg h.1.open_, add_zero, h.1.allocated]
  bounded loc := by have := h.1.bounded loc; omega

def ReserveLeaves (t : UUID) (o key : String) (lines : List StockLine) (start : Stack)
    (order : OrderDb) (r : Except Failure ReserveResponse) (s : Stack) : Prop :=
  s.order = order ∧ Leaves t o start s ∧
    ∀ resp, r = .ok resp → resp.success = true → Holding t o key lines start s

/-- A hold that could not be stored is given back, if the stock service lets it. -/
theorem undo_backs {key' : String} {e : Failure} {order : OrderDb}
    (parse : rt.scan tenantID = some t) (h : Held t o key lines start s)
    (nonneg : ∀ loc, 0 ≤ quantityAt t loc lines) (same : s.order = order) :
    Backs rt (ReserveLeaves t o key lines start order) (do
      let _ ← rpc .undoReserve (ask (.releaseStock ⟨tenantID, orderID, reason, key', lines⟩ []))
      pure (.error e)) s := by
  refine reaches_then (Q := fun _ s₁ => s₁.order = order ∧ Leaves t o start s₁) ?_
    fun _ s₁ after => ⟨after.1, after.2, fun resp eq => (by cases eq)⟩
  refine backs_call (reaches_last (o := .releaseStock _ _) trivial fun c answer s₁ ok run => ?_)
  rcases exec_releaseStock run with ⟨u, resp, db, parse', rfl, moved, rfl⟩ | ⟨-, rfl⟩
  · cases parse'.symm.trans parse
    exact ⟨same, h.running.release nonneg (fun loc => le_rfl) moved, h.unlocked⟩
  · exact ⟨same, h.leaves nonneg⟩

theorem insert_holding {s' : Stack} {req : ReserveRequest} {expiresAt : ℤ}
    {answer : Except Failure (Option ℕ)}
    (created : start.order.sagas t (column 255 req.orderId) ≠ none)
    (nonneg : ∀ loc, 0 ≤ quantityAt t loc lines) (items : req.items.map itemLine = lines)
    (h : Holding t o key lines start s) (none : NoActive s t o)
    (run : exec rt 0 (.insertReservations t req expiresAt) c s = some (answer, s')) :
    s'.order = s.order ∧ Holding t o key lines start s' := by
  have quiet : ∀ o', o' ≠ o → start.order.sagas t o' = Option.none → NoActive s t o' →
      NoActive s' t o' := fun o' other fresh none => by
    refine exec_noActive run (fun _ _ eq same => ?_) none
    cases eq
    exact created (same ▸ fresh)
  rcases exec_insert run with ⟨first, rfl, -, -, after⟩ | ⟨-, rfl⟩
  · have keyed_ := keyed_rows t req.idempotencyKey (rt.payloadHash (.reserve req)) s.reservation
    have appended : s'.reservation.reservations = s.reservation.reservations ++
        newRows t req.orderId expiresAt s.reservation.nextID req.items := by
      rw [after]
      simp only [inserted, keyed_.1, keyed_.2]
    have rows : activeLines s' t o = if column 255 req.orderId = o then lines else [] := by
      rw [activeLines_inserted appended, activeLines_none none, List.nil_append, items,
        cut_located h.1.running.checked h.1.located]
    subst after
    refine ⟨rfl, ⟨h.1.running.frame rfl (fun _ _ => rfl) quiet h.1.running.open_, h.1.unlocked,
      h.1.located, h.1.unconfirmed⟩, fun loc => ?_⟩
    rw [rows]
    split
    · exact le_rfl
    · exact nonneg loc
  · exact ⟨rfl, h⟩

/-- The reservation service holds the lines, or the order goes on without. -/
theorem reserve_backs {req : ReserveRequest}
    (created : start.order.sagas t (column 255 req.orderId) ≠ Option.none)
    (key_ : req.idempotencyKey = reserveKey key) (items : req.items.map itemLine = lines)
    (parse : rt.scan req.tenantId = some t) (h : Leaves t o start s) (none : NoActive s t o)
    (unseen : ¬Seen s.stock t (reserveKey key)) (unconfirmed : ¬Seen s.stock t (confirmKey key))
    (nonneg : ∀ loc, 0 ≤ quantityAt t loc lines) :
    Backs rt (ReserveLeaves t o key lines start s.order) (reserve rt req) s := by
  unfold reserve
  simp only [parseUUID, parse]
  split
  · exact ⟨rfl, h, fun resp eq => (by cases eq)⟩
  refine reaches_then (Q := fun r s₁ => s₁.order = s.order ∧ s₁.reservation = s.reservation ∧
    (((∀ resp, r = .ok resp → resp.success = false) ∧ s₁ = s) ∨
      Holding t o key lines start s₁)) ?_ ?_
  · refine backs_call (reaches_last (o := .reserveStock _) trivial fun c answer s₁ ok run => ?_)
    rcases exec_reserveStock run with ⟨u, db, parse', rfl, moved, rfl⟩ | ⟨failed, rfl⟩
    · cases parse'.symm.trans parse
      obtain ⟨fits, found⟩ := exec_reserve_first parse rfl run
      have located := found (key_ ▸ unseen)
      simp only [key_, items] at fits moved located
      have apart : column 255 (confirmKey key) ≠ column 255 (reserveKey key) := by
        rw [confirmKey_stored (confirmKey_fits fits), reserveKey_stored fits]
        exact (reserveKey_ne_confirmKey key key).symm
      have there := fun l hl => (located l hl).1
      refine ⟨rfl, rfl, .inr ⟨⟨h.1.reserve unseen there moved, h.2, fun l hl => ?_,
        moved_unseen moved (.inr apart) unconfirmed⟩,
        fun loc => ?_⟩⟩
      · exact moved_located moved (there l hl)
      · have rows : activeLines (Stack.withStock s db) t o = [] := activeLines_none none
        rw [rows]
        exact nonneg loc
    · exact ⟨rfl, rfl, .inl ⟨failed, rfl⟩⟩
  · rintro answer s₁ ⟨same, rows, either⟩
    have leaves : Leaves t o start s₁ := by
      rcases either with ⟨-, rfl⟩ | holding
      · exact h
      · exact holding.1.leaves nonneg
    cases answer with
    | error e => exact ⟨same, leaves, fun resp eq => (by cases eq)⟩
    | ok stockResp =>
      dsimp only
      split
      · refine ⟨same, leaves, fun resp eq success => ?_⟩
        cases eq
        cases success
      · rename_i success
        have holding : Holding t o key lines start s₁ := by
          rcases either with ⟨failed, -⟩ | holding
          · exact absurd (failed stockResp rfl) success
          · exact holding
        have none₁ : NoActive s₁ t o := by
          unfold NoActive
          rw [rows]
          exact none
        refine reaches_ask trivial fun c now s₂ ok run => ?_
        cases run
        refine reaches_ask trivial fun c answer s₃ ok run => ?_
        obtain ⟨order', holding⟩ := insert_holding created nonneg items holding none₁ run
        have leaves := holding.1.leaves nonneg
        cases answer with
        | ok id => exact ⟨order'.trans same, leaves, fun _ _ _ => holding⟩
        | error e =>
          cases e with
          | alreadyProcessed =>
            refine reaches_ask trivial fun c id s₄ ok run => ?_
            refine reaches_ask trivial fun c' u s₅ ok' run' => ?_
            have closed : s₅ = s₃ := looked_closed holding.1.unlocked run run'
            subst closed
            exact ⟨order'.trans same, leaves, fun _ _ _ => holding⟩
          | _ =>
            dsimp only
            rw [items]
            exact undo_backs parse holding.1 nonneg (order'.trans same)

def Transits (rt : Runtime) (tenantID : String) (t : UUID) (o : String) (state : SagaState)
    (s : Stack) : Prop :=
  Castable rt tenantID ∧ ∃ row saga, s.order.orders t o = some row ∧
    s.order.sagas t o = some saga ∧ OrderSteps.transitionFits t o state "" row = true

theorem allocate_held {s' : Stack} {req : AllocateReservationRequest} {answer : Except Failure ℕ}
    (h : Held t o key lines start s) (run : exec rt 0 (.allocate t req) c s = some (answer, s')) :
    Held t o key lines start s' ∧ s'.order = s.order := by
  have quiet : ∀ o', NoActive s t o' → NoActive s' t o' := fun o' none =>
    exec_noActive run (fun _ _ eq => by cases eq) none
  rcases exec_allocate run with rfl | rfl
  · exact ⟨h, rfl⟩
  · exact ⟨⟨h.running.frame rfl (fun _ _ => rfl) (fun o' _ _ => quiet o') h.running.open_,
      h.unlocked, h.located, h.unconfirmed⟩, rfl⟩

/-- The first confirmation under its key moves the lines to `allocated`. -/
theorem confirmed_ended {s₁ s₂ : Stack} {step : Int32} {answer : Except Failure Unit}
    (h : Held t o key lines start s₁) (transits : Transits rt tenantID t o .confirmed s₁)
    (moved : Moved rt confirmMove t o (confirmKey key) msg lines s₁.stock db)
    (healthy : c.fault = false)
    (run : exec rt 0 (.transition tenantID t o .confirmed step "") c (Stack.withStock s₁ db) =
      some (answer, s₂)) : Ended t o lines start s₂ := by
  obtain ⟨castable, row, saga, order, found, fits⟩ := transits
  obtain ⟨-, rfl⟩ := exec_transition_forward (s := Stack.withStock s₁ db) healthy castable order
    found fits run
  have effect := moved_held confirmMove_along moved h.running.checked h.located
  simp only [if_neg h.unconfirmed] at effect
  have sagas : ∀ o', o' ≠ o → (OrderSteps.transitioned t o .confirmed step "" row saga
      s₁.order).sagas t o' = start.order.sagas t o' := fun o' other => by
    rw [← h.running.sagas o' other]
    exact OrderSteps.setCell_other _ _ fun same => other same.2
  refine ⟨moved_checked moved h.running.checked, h.unlocked, sagas_confirmed sagas,
    sagas_ready sagas h.running.rows, fun loc => ?_, fun loc => ?_⟩
  · have before := h.running.allocated loc
    have state : ((OrderSteps.transitioned t o .confirmed step "" row saga s₁.order).sagas t o).map
        (·.state) = some .confirmed := by
      simp [OrderSteps.transitioned, OrderSteps.movedTo]
    rw [sagaState, Stack.withStock, if_pos state]
    simp only [effect, Prod.snd_add, Prod.smul_snd, smul_eq_mul, mul_one, before]
  · have before := h.running.bounded loc
    unfold unreserved at before ⊢
    simp only [Stack.withStock, effect, Prod.fst_add, Prod.snd_add, Prod.smul_fst, Prod.smul_snd,
      smul_eq_mul, mul_zero, mul_one, add_zero]
    omega

variable {input : SagaInput}

theorem confirmSteps_backs {txnID : String} (tenant : input.tenantUUID = t)
    (order : input.orderID = o) (key_ : input.idemKey = key)
    (lines_ : stockLines input.lines = lines) (parse : rt.scan input.tenantID = some t)
    (nonneg : ∀ loc, 0 ≤ quantityAt t loc lines) (h : Held t o key lines start s)
    (transits : Transits rt input.tenantID t o .confirmed s) :
    Backs rt (fun _ s' => Ended t o lines start s') (confirmSteps rt input txnID) s := by
  have failed : ∀ {α : Type} {msg : String} {a : α} {s' : Stack}, Held t o key lines start s' →
      Backs rt (fun _ s' => Ended t o lines start s') (do
        let _ ← failSaga rt input.tenantID input.orderID msg
        pure a) s' := fun held => by
    rw [order]
    exact reaches_then (failSaga_backs (held.leaves nonneg) parse) fun _ _ left => left.ended
  unfold confirmSteps
  refine reaches_then (Q := fun _ s₁ => Held t o key lines start s₁ ∧ s₁.order = s.order) ?_ ?_
  · refine backs_call ?_
    unfold allocateReservation
    simp only [parseUUID, parse]
    refine reaches_ask trivial fun c answer s₁ ok run => ?_
    have held := allocate_held h run
    cases answer with
    | error e => exact held
    | ok count => exact held
  · rintro answer s₁ ⟨held, same⟩
    cases answer with
    | error e => exact failed held
    | ok resp =>
      refine reaches_ask trivial fun c allowed s₂ ok run => ?_
      cases run
      cases c.pass with
      | false => exact (held.leaves nonneg).ended
      | true =>
        refine reaches_then (Q := fun r s₃ => ((∃ e, r = .error e) ∧ s₃ = s₁) ∨
          ((∃ resp, r = .ok resp) ∧ ∃ db msg,
            Moved rt confirmMove t o (confirmKey key) msg lines s₁.stock db ∧
              s₃ = Stack.withStock s₁ db)) ?_ ?_
        · refine backs_call (reaches_last (o := .confirmStockAllocation _) trivial
            fun c answer s₃ ok run => ?_)
          rcases exec_confirmStock run with ⟨u, resp, db, parse', rfl, moved, rfl⟩ | ⟨⟨e, rfl⟩, rfl⟩
          · cases parse'.symm.trans parse
            simp only [order, key_, lines_] at moved
            exact .inr ⟨⟨resp, rfl⟩, db, _, moved, rfl⟩
          · exact .inl ⟨⟨e, rfl⟩, rfl⟩
        · rintro answer s₃ (⟨⟨e, rfl⟩, rfl⟩ | ⟨⟨resp, rfl⟩, db, msg, moved, rfl⟩)
          · exact failed held
          · refine reaches_ask trivial fun c answer s₄ ok run => ?_
            rw [tenant, order] at run
            have ended := confirmed_ended held (by rw [Transits, same]; exact transits) moved
              (admits_healthy ok) run
            cases answer with
            | error e => exact ended
            | ok u => exact ended

theorem chargeStep_backs : Backs rt (fun _ s' => s' = s) (chargeStep input) s := by
  unfold chargeStep
  split
  · exact reaches_done rfl
  · refine reaches_ask trivial fun c allowed s₁ ok run => ?_
    cases run
    cases c.pass with
    | false => exact reaches_done rfl
    | true =>
      refine reaches_ask trivial fun c answer s₁ ok run => ?_
      cases run
      exact reaches_done rfl

theorem Holding.frame {s' : Stack} (h : Holding t o key lines start s) (stock : s'.stock = s.stock)
    (rows : s'.reservation = s.reservation) (locks : s'.openTxs = s.openTxs)
    (running : Running t o start (fun loc => quantityAt t loc lines) s') :
    Holding t o key lines start s' := by
  refine ⟨⟨running, locks.trans h.1.unlocked, stock ▸ h.1.located, stock ▸ h.1.unconfirmed⟩, ?_⟩
  unfold activeLines
  rw [rows]
  exact h.2

theorem transits_paid {txn : String} {row : OrderRow} (h : Transits rt tenantID t o .reserved s)
    (fits : varchar 255 txn = true) :
    Transits rt tenantID t o .confirmed
      { s with order := OrderSteps.paid t o txn row s.order } := by
  obtain ⟨castable, row', saga, order', found, texts⟩ := h
  refine ⟨castable, OrderSteps.withStatus row .pending txn, saga, ?_, found, ?_⟩
  · exact OrderSteps.setCell_self _ _ _ _
  · simp only [OrderSteps.transitionFits, Bool.and_eq_true] at texts ⊢
    exact ⟨texts.1, varchar_column fits⟩

theorem paySteps_backs (tenant : input.tenantUUID = t) (order : input.orderID = o)
    (key_ : input.idemKey = key) (lines_ : stockLines input.lines = lines)
    (parse : rt.scan input.tenantID = some t) (nonneg : ∀ loc, 0 ≤ quantityAt t loc lines)
    (h : Holding t o key lines start s) (transits : Transits rt input.tenantID t o .reserved s) :
    Backs rt (fun _ s' => Ended t o lines start s') (paySteps rt input) s := by
  have leaves := h.1.leaves nonneg
  unfold paySteps
  refine reaches_then chargeStep_backs fun answer s₀ same => ?_
  subst same
  rcases answer with e | (e | txnID)
  · exact leaves.ended
  · rw [order]
    refine reaches_then (compensate_backs h nonneg parse) fun answer s₁ left => ?_
    cases answer with
    | error e =>
      exact reaches_then (failSaga_backs left parse) fun _ _ left => left.ended
    | ok u => exact left.ended
  · refine reaches_ask trivial fun c answer s₁ ok run => ?_
    rw [tenant, order] at run
    rcases exec_record run with ⟨row, rfl, -, fits, -, after⟩ | ⟨⟨e, rfl⟩, rfl⟩
    · have running : Running t o start (fun loc => quantityAt t loc lines) s₁ := by
        subst after
        exact h.1.running.frame rfl (fun _ _ => rfl) (fun _ _ _ none => none) h.1.running.open_
      have holding : Holding t o key lines start s₁ := by
        subst after
        exact h.frame rfl rfl rfl running
      have next : Transits rt input.tenantID t o .confirmed s₁ := by
        subst after
        exact transits_paid transits fits
      exact confirmSteps_backs tenant order key_ lines_ parse nonneg holding.1 next
    · exact leaves.ended

theorem runSaga_backs (tenant : input.tenantUUID = t) (order : input.orderID = o)
    (key_ : input.idemKey = key) (lines_ : stockLines input.lines = lines)
    (parse : rt.scan input.tenantID = some t) (nonneg : ∀ loc, 0 ≤ quantityAt t loc lines)
    (created : start.order.sagas t (column 255 o) ≠ Option.none)
    (h : Leaves t o start s) (none : NoActive s t o)
    (unseen : ¬Seen s.stock t (reserveKey key)) (unconfirmed : ¬Seen s.stock t (confirmKey key)) :
    Backs rt (fun _ s' => Ended t o lines start s') (runSaga rt input) s := by
  have items : (reserveItems input.lines).map itemLine = lines := by
    rw [← lines_, reserveItems, List.map_map]
    rfl
  unfold runSaga
  refine reaches_ask trivial fun c allowed s₁ ok run => ?_
  cases run
  cases c.pass with
  | false => exact h.ended
  | true =>
    refine reaches_then (backs_call (reserve_backs (by rw [order]; exact created)
      (by rw [key_]; rfl) items parse h none unseen unconfirmed nonneg)) fun answer s₂ after => ?_
    obtain ⟨same, left, holds⟩ := after
    have failed : ∀ {α : Type} {msg : String} {a : α}, Backs rt
        (fun _ s' => Ended t o lines start s') (do
          let _ ← failSaga rt input.tenantID input.orderID msg
          pure a) s₂ := by
      intro α msg a
      rw [order]
      exact reaches_then (failSaga_backs left parse) fun _ _ left => left.ended
    cases answer with
    | error e => exact failed
    | ok resp =>
      dsimp only
      split
      · exact failed
      · rename_i success
        have holding := holds resp rfl (Bool.eq_true_of_not_eq_false success)
        refine reaches_ask trivial fun c answer s₃ ok run => ?_
        rw [tenant, order] at run
        have running := transition_running holding.1.running (by decide) run
        cases answer with
        | error e =>
          exact Leaves.ended ⟨running.1.weaken nonneg, running.2.trans holding.1.unlocked⟩
        | ok u =>
          have castable := orderTx_castable run
          rcases exec_transition run with ⟨row, saga, -, row_, found, fits, rfl⟩ | ⟨⟨e, eq⟩, -⟩
          · refine paySteps_backs tenant order key_ lines_ parse nonneg
              (holding.frame rfl rfl rfl running.1)
              ⟨castable, row, OrderSteps.movedTo saga .reserved 1 "", ?_, ?_, fits⟩
            · exact OrderSteps.setCell_self _ _ _ _
            · exact OrderSteps.setCell_self _ _ _ _
          · cases eq

end Handlers

section Orders

variable {rt : Runtime} {t : UUID} {start s : Stack}

def Unknown (s : Stack) (t : UUID) (o : String) : Prop :=
  s.order.sagas t o = none ∧ NoActive s t o

theorem Unknown.ready {o : String} (h : Unknown s t o) : Ready s t o where
  open_ := by simp [sagaState, h.1]
  rows _ := h.2
  unfiled _ := h.1

theorem leaves_at {o : String} (checked : Checked s.stock) (unlocked : s.openTxs = [])
    (open_ : sagaState s t o ≠ some .confirmed) : Leaves t o s s :=
  ⟨⟨checked, fun _ => rfl, fun _ => by rw [add_zero], fun _ _ => rfl, fun _ _ _ none => none,
    open_⟩, unlocked⟩

variable {req : CreateOrderRequest}

theorem Ended.created {total : Int64} {lines : List StockLine} {s' : Stack}
    (creatable : OrderSteps.Creatable t req total s.order)
    (h : Ended t req.orderId lines
      { s with order := OrderSteps.orderCreated rt t req total s.order } s') :
    Ended t req.orderId lines s s' := by
  have sagas : ∀ o', o' ≠ column 255 req.orderId →
      (OrderSteps.orderCreated rt t req total s.order).sagas t o' = s.order.sagas t o' :=
    fun o' other => OrderSteps.setCell_other _ _ fun same => other same.2
  have mine : (OrderSteps.orderCreated rt t req total s.order).sagas t (column 255 req.orderId) =
      some (OrderSteps.newSaga t req) := OrderSteps.setCell_self _ _ _ _
  refine ⟨h.checked, h.unlocked, fun o' other => (h.confirmed o' other).trans ?_,
    fun o' other ready => h.ready o' other ?_, h.allocated, h.bounded⟩
  · by_cases same : o' = column 255 req.orderId
    · subst same
      simp [sagaState, mine, creatable.noSaga, OrderSteps.newSaga]
    · simp only [sagaState, sagas o' same]
  · by_cases same : o' = column 255 req.orderId
    · subst same
      refine ⟨?_, fun none => ?_, fun cut => absurd (column_column 255 _) cut⟩
      · simp [sagaState, mine, OrderSteps.newSaga]
      · rw [mine] at none
        cases none
    · refine ⟨?_, fun none => ready.rows ((sagas o' same).symm.trans none),
        fun cut => (sagas o' same).trans (ready.unfiled cut)⟩
      rw [sagaState, sagas o' same]
      exact ready.open_

theorem createOrder_backs (parse : rt.scan req.tenantId = some t) (checked : Checked s.stock)
    (unlocked : s.openTxs = []) (ready : Ready s t req.orderId) :
    Backs rt (fun _ s' => Ended t req.orderId (stockLines req.lines) s s') (createOrder rt req)
      s := by
  have idle : Leaves t req.orderId s s := leaves_at checked unlocked ready.open_
  unfold createOrder
  simp only [parseUUID, parse]
  split
  · exact idle.ended
  split
  · exact idle.ended
  split
  · exact idle.ended
  refine reaches_ask trivial fun c answer s₁ ok run => ?_
  rcases exec_createOrderRow run with ⟨rfl, -, creatable, rfl⟩ | ⟨⟨e, rfl⟩, same⟩
  · have nonneg : ∀ loc, 0 ≤ quantityAt t loc (stockLines req.lines) := by
      intro loc
      refine quantityAt_nonneg fun l hl => ?_
      obtain ⟨line, member, rfl⟩ := List.mem_map.1 hl
      have fits := creatable.linesFit line member
      simp only [OrderSteps.lineFits, Bool.and_eq_true, decide_eq_true_eq,
        Int32.lt_iff_toInt_lt] at fits
      exact le_of_lt fits.2.1
    have unseen : ¬Seen s.stock t (reserveKey req.idempotencyKey) ∧
        ¬Seen s.stock t (confirmKey req.idempotencyKey) := by
      simp only [admits, Bool.and_eq_true, Bool.or_eq_true, Bool.not_eq_true', decide_eq_true_eq,
        decide_eq_false_iff_not] at ok
      exact ok.2.resolve_left creatable.fresh
    have fresh : s.order.sagas t req.orderId = none := by
      by_cases cut : column 255 req.orderId = req.orderId
      · exact cut ▸ creatable.noSaga
      · exact ready.unfiled cut
    have created : (OrderSteps.orderCreated rt t req (orderTotal req.lines) s.order).sagas t
        (column 255 req.orderId) = some (OrderSteps.newSaga t req) :=
      OrderSteps.setCell_self _ _ _ _
    refine wp_mono (fun _ _ ended => Ended.created creatable ended) (runSaga_backs rfl rfl rfl rfl
      parse nonneg (by simp [created]) (leaves_at checked unlocked ?_) (ready.rows fresh)
      unseen.1 unseen.2)
    by_cases cut : req.orderId = column 255 req.orderId
    · rw [cut, sagaState, created]
      exact fun confirmed => by cases confirmed
    · have other : (OrderSteps.orderCreated rt t req (orderTotal req.lines) s.order).sagas t
          req.orderId = none := (OrderSteps.setCell_other _ _ fun same => cut same.2).trans fresh
      rw [sagaState, other]
      exact fun confirmed => by cases confirmed
  · subst same
    cases e with
    | idempotentReplay =>
      refine reaches_ask trivial fun c answer s₂ ok run => ?_
      have frame := orderTx_frame run
      have order := (exec_frame run).order rfl
      have left : Leaves t req.orderId s₁ s₂ := by
        refine ⟨idle.1.frame frame.1 (fun _ _ => by rw [order]) (fun o' _ _ none => ?_) ?_,
          frame.2.2.trans unlocked⟩
        · unfold NoActive
          rw [frame.2.1]
          exact none
        · rw [sagaState, order]
          exact idle.1.open_
      cases answer with
      | error e => exact left.ended
      | ok saga => exact left.ended
    | _ => exact idle.ended

structure Served (t : UUID) (start : Stack) (done todo : List CreateOrderRequest) (s : Stack) :
    Prop where
  checked : Checked s.stock
  unlocked : s.openTxs = []
  ready : ∀ req ∈ todo, Ready s t req.orderId
  allocated : ∀ loc,
    (held s.stock loc).2.2 = (held start.stock loc).2.2 + confirmedUnits s t done loc
  bounded : ∀ loc, unreserved s loc ≤ unreserved start loc

theorem served_next {done todo : List CreateOrderRequest} {s' : Stack}
    (distinct : ((done ++ req :: todo).map (·.orderId)).Nodup)
    (h : Served t start done (req :: todo) s)
    (ended : Ended t req.orderId (stockLines req.lines) s s') :
    Served t start (done ++ [req]) todo s' := by
  rw [List.map_append, List.map_cons, List.nodup_append, List.nodup_cons] at distinct
  have before : ∀ r ∈ done, r.orderId ≠ req.orderId := fun r hr =>
    distinct.2.2 r.orderId (List.mem_map.2 ⟨r, hr, rfl⟩) req.orderId List.mem_cons_self
  have after : ∀ r ∈ todo, r.orderId ≠ req.orderId := fun r hr same =>
    distinct.2.1.1 (List.mem_map.2 ⟨r, hr, same⟩)
  refine ⟨ended.checked, ended.unlocked, fun r hr => ?_, fun loc => ?_, fun loc => ?_⟩
  · exact ended.ready _ (after r hr) (h.ready r (List.mem_cons_of_mem req hr))
  · have same : done.filter (fun r => sagaState s' t r.orderId = some .confirmed) =
        done.filter fun r => sagaState s t r.orderId = some .confirmed := by
      exact List.filter_congr fun r hr => decide_eq_decide.2 (ended.confirmed _ (before r hr))
    rw [ended.allocated, h.allocated, confirmedUnits, confirmedUnits, List.filter_append,
      List.map_append, List.sum_append, same, add_assoc]
    congr 2
    by_cases confirmed : sagaState s' t req.orderId = some .confirmed
    · simp [confirmed]
    · simp [confirmed]
  · exact (ended.bounded loc).trans (h.bounded loc)

theorem orders_backs {reqs done todo : List CreateOrderRequest} (all : reqs = done ++ todo)
    (parse : ∀ req ∈ reqs, rt.scan req.tenantId = some t)
    (distinct : (reqs.map (·.orderId)).Nodup) (h : Served t start done todo s) :
    Backs rt (fun _ s' => Served t start reqs [] s')
      (Prog.forEach (fun req => serve (createOrder rt req)) todo) s := by
  induction todo generalizing done s with
  | nil =>
    rw [List.append_nil] at all
    subst all
    exact h
  | cons req rest ih =>
    have mine : req ∈ reqs := by
      rw [all]
      exact List.mem_append_right _ List.mem_cons_self
    have one : Backs rt (fun _ s₁ => Ended t req.orderId (stockLines req.lines) s s₁)
        (serve (createOrder rt req)) s :=
      reaches_then (createOrder_backs (parse req mine) h.checked h.unlocked
        (h.ready req List.mem_cons_self)) fun _ s₁ ended => reaches_done ended
    refine reaches_then one fun _ s₁ ended => ?_
    refine ih (by rw [all, List.append_assoc]; rfl) (served_next ?_ h ended)
    rw [← all]
    exact distinct

end Orders

/-- Orders of one tenant, one after another, under any keys: what is allocated
is what the confirmed ones have asked for, and no more than was available. -/
theorem confirmed_backed (rt : Runtime) (t : UUID) (s s' : Stack) (reqs : List CreateOrderRequest)
    (choices : List Choice) (parse : ∀ req ∈ reqs, rt.scan req.tenantId = some t)
    (distinct : (reqs.map (·.orderId)).Nodup) (unknown : ∀ req ∈ reqs, Unknown s t req.orderId)
    (checked : Checked s.stock) (unlocked : s.openTxs = [])
    (run : runWith (machine rt) 0 admits choices
      (Prog.forEach (fun req => serve (createOrder rt req)) reqs) s = some ((), s'))
    (loc : StockLocation) :
    (held s'.stock loc).2.2 = (held s.stock loc).2.2 + confirmedUnits s' t reqs loc ∧
      confirmedUnits s' t reqs loc ≤ (held s.stock loc).1 := by
  have start : Served t s [] reqs s :=
    ⟨checked, unlocked, fun req member => (unknown req member).ready,
      fun loc => by simp [confirmedUnits], fun loc => le_rfl⟩
  have served := wp_returns (exec_of_runWith _ _ run)
    (orders_backs (List.nil_append reqs).symm parse distinct start)
  refine ⟨served.allocated loc, ?_⟩
  have allocated := served.allocated loc
  have bounded := served.bounded loc
  have nonneg := (representable_held served.checked loc).1.1
  unfold unreserved at bounded
  omega

theorem confirmed_backed_twice :
    (runWith (machine (reference [])) 0 admits (List.replicate 42 .healthy)
      (Prog.forEach (fun req => serve (createOrder (reference []) req))
        [sampleOrder "ord-1" "key-1", sampleOrder "ord-2" "key-2"]) sampleStack).map (fun out =>
          held out.2.stock ⟨sampleTenant, "SKU", "W1"⟩) = some (1, 0, 4) := by
  have ends : (runWith (machine (reference [])) 0 admits (List.replicate 42 .healthy)
      (Prog.forEach (fun req => serve (createOrder (reference []) req))
        [sampleOrder "ord-1" "key-1", sampleOrder "ord-2" "key-2"]) sampleStack).map (fun out =>
          ((held out.2.stock ⟨sampleTenant, "SKU", "W1"⟩).1,
            (held out.2.stock ⟨sampleTenant, "SKU", "W1"⟩).2.1,
            confirmedUnits out.2 sampleTenant [sampleOrder "ord-1" "key-1",
              sampleOrder "ord-2" "key-2"] ⟨sampleTenant, "SKU", "W1"⟩)) = some (1, 0, 4) := by
    rw [reference_recognizing]
    decide +kernel
  obtain ⟨out, run, parts⟩ := Option.map_eq_some_iff.1 ends
  simp only [Prod.mk.injEq] at parts
  have backed := (confirmed_backed (reference []) sampleTenant sampleStack out.2
    [sampleOrder "ord-1" "key-1", sampleOrder "ord-2" "key-2"] (List.replicate 42 .healthy)
    (by decide) (by decide) (fun _ _ => ⟨rfl, fun _ h => by cases h⟩) sampleStack_checked rfl run
    ⟨sampleTenant, "SKU", "W1"⟩).1
  have none : (held sampleStack.stock ⟨sampleTenant, "SKU", "W1"⟩).2.2 = 0 := by decide
  rw [none, parts.2.2] at backed
  rw [run, Option.map_some]
  exact congrArg some (Prod.ext parts.1 (Prod.ext parts.2.1 backed))

/-- Without keys of their own, the second order's requests are taken for
repetitions of the first one's: it is confirmed and gets nothing. -/
theorem unkeyed_order_unbacked :
    (runWith (machine (reference [])) 0
      (fun _ c _ => !c.fault && c.pass) (List.replicate 44 .healthy)
      (Prog.forEach (fun req => serve (createOrder (reference []) req))
        [sampleOrder "ord-1" "", sampleOrder "ord-2" ""]) sampleStack).map (fun out =>
          ((held out.2.stock ⟨sampleTenant, "SKU", "W1"⟩).2.2,
            confirmedUnits out.2 sampleTenant [sampleOrder "ord-1" "", sampleOrder "ord-2" ""]
              ⟨sampleTenant, "SKU", "W1"⟩)) = some (2, 4) := by
  rw [reference_recognizing]
  decide +kernel

end Taper.ConfirmedBacked
