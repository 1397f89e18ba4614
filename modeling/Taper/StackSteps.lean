import Taper.Services
import Taper.OrderSteps

set_option autoImplicit false

/-!
# What one operation of the stack does

An operation on a database commits a transaction or leaves the stack as it
was, and changes nothing in the other databases.
-/
namespace Taper.StackSteps
open Messages Platform StockTables StockHandlers ReservationTables OrderTables
open Program ServiceStack

abbrev StackPool := Pool Op Resp Stack

def sagaState (s : Stack) (t : UUID) (o : String) : Option SagaState :=
  (s.order.sagas t o).map (·.state)

def sampleStack : Stack :=
  .stocked fun loc => if loc = ⟨sampleTenant, "SKU", "W1"⟩ then some ⟨5, 0, 0, false⟩ else none

def sampleOrder (orderID key : String) : CreateOrderRequest :=
  ⟨sampleTenant.text, orderID, [⟨"SKU", "W1", 2, 100⟩], key, 0, false⟩

def sampleReserve (key : String) : ReserveRequest :=
  ⟨sampleTenant.text, "O1", key, [⟨"SKU", "W1", 2⟩], 0⟩

def idle (s : Stack) : StackPool := ⟨fun _ => none, s⟩

def confirmedOrder : List (Move Services.Handler Choice) :=
  .spawn 0 (.createOrder (sampleOrder "ord-1" "key-1")) :: List.replicate 21 (.step 0 .healthy)

variable {α : Type} {rt : Runtime} {c : Choice} {s s' : Stack}

variable {tenantID : String} {me : ℕ} {tenantUUID : UUID} {o : Op} {r : Except Failure α}
  {tx : ReservationTx α}

theorem stockCall_some {call : StockDb → Except Failure α × StockDb}
    (h : stockCall call c s = some (r, s')) :
    (c.fault = false ∧ r = (call s.stock).1 ∧ s' = { s with stock := (call s.stock).2 }) ∨
      (c.fault = true ∧ (∃ e, r = .error e) ∧ s' = s) := by
  unfold stockCall at h
  cases fault : c.fault with
  | true =>
    simp only [fault, if_true, Option.some.injEq, Prod.mk.injEq] at h
    exact .inr ⟨rfl, ⟨_, h.1.symm⟩, h.2.symm⟩
  | false =>
    simp only [fault, Bool.false_eq_true, if_false, Option.some.injEq, Prod.mk.injEq] at h
    exact .inl ⟨rfl, h.1.symm, h.2.symm⟩

theorem committed_some {σ : Type} {out : Except Failure α × σ} {db : σ} {ran : α → σ → Prop}
    {put : σ → Stack} (same : put db = s)
    (ends : (∃ a t, out = (.ok a, t) ∧ ran a t) ∨ ∃ e, out = (.error e, db))
    (h : (if c.fault then some (.error (.sql .connection), s) else some (out.1, put out.2)) =
      some (r, s')) :
    (∃ a t, r = .ok a ∧ ran a t ∧ s' = put t) ∨ ((∃ e, r = .error e) ∧ s' = s) := by
  split at h
  · cases h
    exact .inr ⟨⟨_, rfl⟩, rfl⟩
  · rcases ends with ⟨a, t, rfl, run⟩ | ⟨e, rfl⟩
    · cases h
      exact .inl ⟨a, t, rfl, run, rfl⟩
    · cases h
      exact .inr ⟨⟨e, rfl⟩, same⟩

theorem reservationTx_some (h : reservationTx rt tenantID tx c s = some (r, s')) :
    (∃ a db, r = .ok a ∧ tx.run s.reservation = .ok (a, db) ∧ s' = { s with reservation := db }) ∨
      ((∃ e, r = .error e) ∧ s' = s) :=
  committed_some rfl (execTx_cases rt tenantID tx s.reservation) h

theorem reservationTx_repeated
    (h : reservationTx rt tenantID tx c s = some (.error .alreadyProcessed, s')) :
    tx.run s.reservation = .error .alreadyProcessed := by
  unfold reservationTx at h
  split at h
  · cases h
  · generalize result : execTxWithTenant rt tenantID tx s.reservation = out at h
    obtain ⟨answer, db⟩ := out
    cases h
    rcases execTx_failed result with eq | eq | run
    · cases eq
    · cases eq
    · exact run

theorem sweeperTx_some (h : sweeperTx tx c s = some (r, s')) :
    (∃ a db, r = .ok a ∧ tx.run s.reservation = .ok (a, db) ∧ s' = { s with reservation := db }) ∨
      ((∃ e, r = .error e) ∧ s' = s) := by
  refine committed_some rfl ?_ h
  rcases tx.commit_cases s.reservation with ⟨a, db, run, eq⟩ | ⟨e, -, eq⟩
  · exact .inl ⟨a, db, eq, run⟩
  · exact .inr ⟨e, eq⟩

theorem orderTx_some {tx : OrderTx α} (h : orderTx rt tenantID tx c s = some (r, s')) :
    (∃ a db, r = .ok a ∧ tx.run s.order = .ok (a, db) ∧ s' = { s with order := db }) ∨
      ((∃ e, r = .error e) ∧ s' = s) :=
  committed_some rfl (execTx_cases rt tenantID tx s.order) h

theorem stockCall_eq (healthy : c.fault = false) (call : StockDb → Except Failure α × StockDb) :
    stockCall call c s = some ((call s.stock).1, { s with stock := (call s.stock).2 }) := by
  simp [stockCall, healthy]

theorem reservationTx_eq (healthy : c.fault = false) (castable : Castable rt tenantID)
    (tx : ReservationTx α) : reservationTx rt tenantID tx c s =
      some ((tx.commit s.reservation).1,
        { s with reservation := (tx.commit s.reservation).2 }) := by
  simp [reservationTx, healthy, execTx_eq castable]

theorem orderTx_eq (healthy : c.fault = false) (castable : Castable rt tenantID) (tx : OrderTx α) :
    orderTx rt tenantID tx c s =
      some ((tx.commit s.order).1, { s with order := (tx.commit s.order).2 }) := by
  simp [orderTx, healthy, execTx_eq castable]

theorem orderTx_castable {tx : OrderTx α} {a : α}
    (h : orderTx rt tenantID tx c s = some (.ok a, s')) : Castable rt tenantID := by
  unfold orderTx at h
  split at h
  · cases h
  · generalize run : execTxWithTenant rt tenantID tx s.order = out at h
    obtain ⟨result, db⟩ := out
    cases h
    exact castable_of_ok run

def opened (me : ℕ) (tenantUUID : UUID) (req : ReleaseRequest) (rows : List Reservation) :
    OpenTx := ⟨me, tenantUUID, column 255 req.idempotencyKey, rows.map (·.id)⟩

def lookedUp (me : ℕ) (tenantUUID : UUID) (rows : List Reservation) : OpenTx :=
  ⟨me, tenantUUID, "", rows.map (·.id)⟩

theorem firstReservationID_some {req : ReserveRequest} {r : Option ℕ}
    (h : exec rt me (.firstReservationID tenantUUID req) c s = some (r, s')) :
    s' = s ∨ s' = { s with openTxs := s.openTxs ++ [lookedUp me tenantUUID
      (activeRows rt tenantUUID req.orderId s.locked s.reservation)] } := by
  have eq := Option.some.inj h
  unfold firstReservationID at eq
  split at eq
  · exact .inl (Prod.mk.inj eq).2.symm
  · exact .inr (Prod.mk.inj eq).2.symm

/-- The look-up of a repeated request leaves nothing behind. -/
theorem looked_closed {c' : Choice} {req : ReserveRequest} {r : Option ℕ} {u : Unit} {s'' : Stack}
    (unlocked : s.openTxs = [])
    (run : exec rt me (.firstReservationID tenantUUID req) c s = some (r, s'))
    (close : exec rt me .endTx c' s' = some (u, s'')) : s'' = s := by
  cases close
  cases s
  cases unlocked
  rcases firstReservationID_some run with rfl | rfl
  · rfl
  · simp [Stack.close, lookedUp]

theorem beginRelease_some {req : ReleaseRequest} {r : Except Failure (List Reservation)}
    (h : beginRelease rt me tenantUUID req c s = some (r, s')) :
    ((∃ e, r = .error e) ∧ s' = s) ∨
    (∃ rows db, r = .ok rows ∧
      (releaseClaim rt tenantUUID req s.locked).run s.reservation = .ok (rows, db) ∧
      ((rows = [] ∧ s' = { s with reservation := db }) ∨
        (rows ≠ [] ∧ s' = { s with openTxs :=
          s.openTxs ++ [opened me tenantUUID req rows] }))) := by
  unfold beginRelease at h
  cases fault : c.fault with
  | true =>
    simp only [fault, if_true, Option.some.injEq, Prod.mk.injEq] at h
    exact .inl ⟨⟨_, h.1.symm⟩, h.2.symm⟩
  | false =>
    simp only [fault, Bool.false_eq_true, if_false] at h
    generalize run : execTxWithTenant rt req.tenantId (releaseClaim rt tenantUUID req s.locked)
      s.reservation = out at h
    obtain ⟨result, db⟩ := out
    cases result with
    | error e =>
      simp only [Option.some.injEq, Prod.mk.injEq] at h
      exact .inl ⟨⟨e, h.1.symm⟩, h.2.symm⟩
    | ok rows =>
      refine .inr ⟨rows, db, ?_⟩
      cases rows with
      | nil =>
        simp only [Option.some.injEq, Prod.mk.injEq] at h
        exact ⟨h.1.symm, execTx_ok run, .inl ⟨rfl, h.2.symm⟩⟩
      | cons row rest =>
        simp only [Option.some.injEq, Prod.mk.injEq] at h
        exact ⟨h.1.symm, execTx_ok run, .inr ⟨List.cons_ne_nil _ _, h.2.symm⟩⟩

theorem commitRelease_some {req : ReleaseRequest} {rows : List Reservation}
    {r : Except Failure Unit} (h : commitRelease rt me tenantUUID req rows c s = some (r, s')) :
    (∃ u db, r = .ok u ∧ (releaseMark rt tenantUUID req rows).run s.reservation = .ok (u, db) ∧
      s' = { s.close me with reservation := db }) ∨ ((∃ e, r = .error e) ∧ s' = s.close me) :=
  committed_some rfl
    (execTx_cases rt req.tenantId (releaseMark rt tenantUUID req rows) s.reservation) h

def writesOrder : Op → Bool
  | .createOrderRow _ _ _ | .transition _ _ _ _ _ _ | .recordTransaction _ _ _ _ => true
  | _ => false

def writesStock : Op → Bool
  | .reserveStock _ | .releaseStock _ _ | .confirmStockAllocation _ => true
  | _ => false

def writesReservation : Op → Bool
  | .insertReservations _ _ _ | .beginRelease _ _ | .commitRelease _ _ _ | .allocate _ _
  | .markExpired _ | .expiredEvent _ => true
  | _ => false

theorem stockCall_frame {call : StockDb → Except Failure α × StockDb}
    (h : stockCall call c s = some (r, s')) :
    s'.order = s.order ∧ s'.reservation = s.reservation ∧ s'.openTxs = s.openTxs := by
  rcases stockCall_some h with ⟨-, -, rfl⟩ | ⟨-, -, rfl⟩
  · exact ⟨rfl, rfl, rfl⟩
  · exact ⟨rfl, rfl, rfl⟩

theorem reservationTx_frame (h : reservationTx rt tenantID tx c s = some (r, s')) :
    s'.order = s.order ∧ s'.stock = s.stock ∧ s'.openTxs = s.openTxs := by
  rcases reservationTx_some h with ⟨a, db, -, -, rfl⟩ | ⟨-, rfl⟩
  · exact ⟨rfl, rfl, rfl⟩
  · exact ⟨rfl, rfl, rfl⟩

theorem sweeperTx_frame (h : sweeperTx tx c s = some (r, s')) :
    s'.order = s.order ∧ s'.stock = s.stock ∧ s'.openTxs = s.openTxs := by
  rcases sweeperTx_some h with ⟨a, db, -, -, rfl⟩ | ⟨-, rfl⟩
  · exact ⟨rfl, rfl, rfl⟩
  · exact ⟨rfl, rfl, rfl⟩

theorem orderTx_frame {tx : OrderTx α} (h : orderTx rt tenantID tx c s = some (r, s')) :
    s'.stock = s.stock ∧ s'.reservation = s.reservation ∧ s'.openTxs = s.openTxs := by
  rcases orderTx_some h with ⟨a, db, -, -, rfl⟩ | ⟨-, rfl⟩
  · exact ⟨rfl, rfl, rfl⟩
  · exact ⟨rfl, rfl, rfl⟩

structure Frame (o : Op) (s s' : Stack) : Prop where
  order : writesOrder o = false → s'.order = s.order
  stock : writesStock o = false → s'.stock = s.stock
  reservation : writesReservation o = false → s'.reservation = s.reservation

theorem Frame.refl (o : Op) (s : Stack) : Frame o s s :=
  ⟨fun _ => rfl, fun _ => rfl, fun _ => rfl⟩

def reads : Op → Bool
  | .allow _ | .send _ | .answer _ | .timeNow | .rangeOver _ | .charge _
  | .getExpiredReservations _ _ | .getSagaInstance _ _ _ | .getResumableSagas _
  | .getOrderLines _ _ _ => true
  | _ => false

def locks : Op → Bool
  | .firstReservationID _ _ | .beginRelease _ _ | .commitRelease _ _ _ | .endTx => true
  | _ => false

theorem orderTx_reads {tx : OrderTx α} (only : ∀ {a db db'}, tx.run db = .ok (a, db') → db' = db)
    (h : orderTx rt tenantID tx c s = some (r, s')) : s' = s := by
  rcases orderTx_some h with ⟨a, db, -, run, same⟩ | ⟨-, same⟩
  · rw [same, only run]
  · exact same

theorem exec_reads {r : Resp o} (h : exec rt me o c s = some (r, s')) (quiet : reads o = true) :
    s' = s := by
  have idle : ∀ {β : Type} {a b : β}, some (a, s) = some (b, s') → s' = s :=
    fun eq => (Prod.mk.inj (Option.some.inj eq)).2.symm
  cases o with
  | allow b => exact idle h
  | send site => exact idle h
  | answer site => exact idle h
  | timeNow => exact idle h
  | charge req => exact idle h
  | rangeOver keys =>
    obtain ⟨out, -, eq⟩ := Option.map_eq_some_iff.1 h
    exact idle (congrArg some eq)
  | getExpiredReservations now limit =>
    simp only [exec] at h
    split at h
    · exact idle h
    · split at h
      · exact idle h
      · obtain ⟨out, -, eq⟩ := Option.map_eq_some_iff.1 h
        exact idle (congrArg some eq)
  | getResumableSagas limit =>
    simp only [exec] at h
    split at h
    · exact idle h
    · exact idle h
  | getSagaInstance tenantID t orderID =>
    exact orderTx_reads (fun run => (OrderSteps.getSaga_ok_iff.1 run).2.2) h
  | getOrderLines tenantID t orderID =>
    exact orderTx_reads (fun run => (OrderSteps.getLines_ok_iff.1 run).2.2) h
  | _ => exact Bool.noConfusion quiet

theorem exec_frame {r : Resp o} (h : exec rt me o c s = some (r, s')) :
    Frame o s s' := by
  by_cases quiet : reads o = true
  · rw [exec_reads h quiet]
    exact .refl o s
  cases o with
  | reserveStock req =>
    have frame := stockCall_frame h
    exact ⟨fun _ => frame.1, Bool.noConfusion, fun _ => frame.2.1⟩
  | releaseStock req rows =>
    have frame := stockCall_frame h
    exact ⟨fun _ => frame.1, Bool.noConfusion, fun _ => frame.2.1⟩
  | confirmStockAllocation req =>
    have frame := stockCall_frame h
    exact ⟨fun _ => frame.1, Bool.noConfusion, fun _ => frame.2.1⟩
  | insertReservations t req expiresAt =>
    have frame := reservationTx_frame (Option.ite_none_left_eq_some.1 h).2
    exact ⟨fun _ => frame.1, fun _ => frame.2.1, Bool.noConfusion⟩
  | firstReservationID t req =>
    rcases firstReservationID_some h with same | same
    · rw [same]
      exact .refl _ s
    · rw [same]
      exact ⟨fun _ => rfl, fun _ => rfl, fun _ => rfl⟩
  | beginRelease t req =>
    rcases beginRelease_some (Option.ite_none_left_eq_some.1 h).2 with
      ⟨-, same⟩ | ⟨rows, db, -, -, ⟨-, same⟩ | ⟨-, same⟩⟩
    · rw [same]
      exact .refl _ _
    · rw [same]
      exact ⟨fun _ => rfl, fun _ => rfl, Bool.noConfusion⟩
    · rw [same]
      exact ⟨fun _ => rfl, fun _ => rfl, Bool.noConfusion⟩
  | commitRelease t req rows =>
    rcases commitRelease_some h with ⟨u, db, -, -, same⟩ | ⟨-, same⟩
    · rw [same]
      exact ⟨fun _ => rfl, fun _ => rfl, Bool.noConfusion⟩
    · rw [same]
      exact ⟨fun _ => rfl, fun _ => rfl, Bool.noConfusion⟩
  | endTx =>
    have same := (Prod.mk.inj (Option.some.inj h)).2
    subst same
    exact ⟨fun _ => rfl, fun _ => rfl, fun _ => rfl⟩
  | allocate t req =>
    have frame := reservationTx_frame (Option.ite_none_left_eq_some.1 h).2
    exact ⟨fun _ => frame.1, fun _ => frame.2.1, Bool.noConfusion⟩
  | markExpired row =>
    have frame := sweeperTx_frame (Option.ite_none_left_eq_some.1 h).2
    exact ⟨fun _ => frame.1, fun _ => frame.2.1, Bool.noConfusion⟩
  | expiredEvent row =>
    have frame := sweeperTx_frame h
    exact ⟨fun _ => frame.1, fun _ => frame.2.1, Bool.noConfusion⟩
  | createOrderRow t req total =>
    have frame := orderTx_frame h
    exact ⟨Bool.noConfusion, fun _ => frame.1, fun _ => frame.2.1⟩
  | transition tenantID t orderID state step errMsg =>
    have frame := orderTx_frame h
    exact ⟨Bool.noConfusion, fun _ => frame.1, fun _ => frame.2.1⟩
  | recordTransaction tenantID t orderID txn =>
    have frame := orderTx_frame h
    exact ⟨Bool.noConfusion, fun _ => frame.1, fun _ => frame.2.1⟩
  | _ => exact absurd rfl quiet

theorem exec_openTxs {r : Resp o} (h : exec rt me o c s = some (r, s')) (plain : locks o = false) :
    s'.openTxs = s.openTxs := by
  by_cases quiet : reads o = true
  · rw [exec_reads h quiet]
  cases o with
  | reserveStock req => exact (stockCall_frame h).2.2
  | releaseStock req rows => exact (stockCall_frame h).2.2
  | confirmStockAllocation req => exact (stockCall_frame h).2.2
  | insertReservations t req expiresAt =>
    exact (reservationTx_frame (Option.ite_none_left_eq_some.1 h).2).2.2
  | allocate t req => exact (reservationTx_frame (Option.ite_none_left_eq_some.1 h).2).2.2
  | markExpired row => exact (sweeperTx_frame (Option.ite_none_left_eq_some.1 h).2).2.2
  | expiredEvent row => exact (sweeperTx_frame h).2.2
  | createOrderRow t req total => exact (orderTx_frame h).2.2
  | transition tenantID t orderID state step errMsg => exact (orderTx_frame h).2.2
  | recordTransaction tenantID t orderID txn => exact (orderTx_frame h).2.2
  | firstReservationID t req => exact Bool.noConfusion plain
  | beginRelease t req => exact Bool.noConfusion plain
  | commitRelease t req rows => exact Bool.noConfusion plain
  | endTx => exact Bool.noConfusion plain
  | _ => exact absurd rfl quiet

inductive OrderWrite (rt : Runtime) (s : Stack) : Op → OrderDb → Prop where
  | created {t : UUID} {req : CreateOrderRequest} {total : Int64}
      (ok : OrderSteps.Creatable t req total s.order) :
      OrderWrite rt s (.createOrderRow t req total) (OrderSteps.orderCreated rt t req total s.order)
  | moved {tenantID : String} {t : UUID} {orderID : String} {state : SagaState} {step : Int32}
      {errMsg : String} {row : OrderRow} {saga : SagaInstance}
      (order : s.order.orders t orderID = some row) (found : s.order.sagas t orderID = some saga)
      (fits : OrderSteps.transitionFits t orderID state errMsg row = true) :
      OrderWrite rt s (.transition tenantID t orderID state step errMsg)
        (OrderSteps.transitioned t orderID state step errMsg row saga s.order)
  | recorded {tenantID : String} {t : UUID} {orderID txn : String} {row : OrderRow}
      (order : s.order.orders t orderID = some row) :
      OrderWrite rt s (.recordTransaction tenantID t orderID txn)
        (OrderSteps.paid t orderID txn row s.order)

theorem exec_order_cases {r : Resp o} (h : exec rt me o c s = some (r, s')) :
    s'.order = s.order ∨ OrderWrite rt s o s'.order := by
  by_cases quiet : writesOrder o = false
  · exact .inl ((exec_frame h).order quiet)
  · cases o with
    | createOrderRow t req total =>
      rcases orderTx_some h with ⟨u, db, -, run, same⟩ | ⟨-, same⟩
      · have write := OrderSteps.createOrderRow_ok_iff.1 run
        rw [same, write.2]
        exact .inr (.created write.1)
      · exact .inl (by rw [same])
    | transition tenantID t orderID state step errMsg =>
      rcases orderTx_some h with ⟨u, db, -, run, same⟩ | ⟨-, same⟩
      · obtain ⟨row, saga, order, found, fits, write⟩ := OrderSteps.transition_ok_iff.1 run
        rw [same, write]
        exact .inr (.moved order found fits)
      · exact .inl (by rw [same])
    | recordTransaction tenantID t orderID txn =>
      rcases orderTx_some h with ⟨u, db, -, run, same⟩ | ⟨-, same⟩
      · obtain ⟨-, -, row, order, write⟩ := OrderSteps.record_ok_iff.1 run
        rw [same, write]
        exact .inr (.recorded order)
      · exact .inl (by rw [same])
    | _ => exact absurd rfl quiet

theorem orderWrite_listed {db : OrderDb} (listed : OrderSteps.Listed s.order)
    (write : OrderWrite rt s o db) : OrderSteps.Listed db := by
  cases write with
  | created ok => exact OrderSteps.orderCreated_listed listed ok
  | moved order found fits => exact OrderSteps.transitioned_listed listed found
  | recorded order => exact ⟨listed.own, listed.once, listed.stored, listed.within⟩

theorem exec_listed {r : Resp o} (h : exec rt me o c s = some (r, s'))
    (listed : OrderSteps.Listed s.order) : OrderSteps.Listed s'.order := by
  rcases exec_order_cases h with same | write
  · rwa [same]
  · exact orderWrite_listed listed write

theorem exec_lines {op : Op} {r : Resp op} (h : exec rt me op c s = some (r, s')) (t : UUID)
    (o : String) :
    (s'.order.orderLines t o = s.order.orderLines t o ∧
      (s'.order.sagas t o = none ↔ s.order.sagas t o = none)) ∨
    (∃ req total, op = .createOrderRow t req total ∧ column 255 req.orderId = o ∧
      s.order.sagas t o = none ∧ s'.order.sagas t o ≠ none ∧
      s'.order.orderLines t o = s.order.orderLines t o ++ req.lines.map storedLine) := by
  rcases exec_order_cases h with same | write
  · rw [same]
    exact .inl ⟨rfl, Iff.rfl⟩
  · generalize s'.order = db at write
    cases write with
    | @created u req total ok =>
      by_cases same : t = u ∧ o = column 255 req.orderId
      · obtain ⟨rfl, rfl⟩ := same
        refine .inr ⟨req, total, rfl, rfl, ok.noSaga, ?_, ?_⟩
        · simp [OrderSteps.orderCreated]
        · simp [OrderSteps.orderCreated]
      · refine .inl ?_
        simp only [OrderSteps.orderCreated]
        rw [OrderSteps.setCell_other _ _ same, OrderSteps.setCell_other _ _ same]
        exact ⟨rfl, Iff.rfl⟩
    | @moved tenantID u orderID state step errMsg row saga order found fits =>
      refine .inl ⟨rfl, ?_⟩
      simp only [OrderSteps.transitioned]
      by_cases same : t = u ∧ o = orderID
      · obtain ⟨rfl, rfl⟩ := same
        simp [found]
      · rw [OrderSteps.setCell_other _ _ same]
    | recorded order => exact .inl ⟨rfl, Iff.rfl⟩

end Taper.StackSteps
