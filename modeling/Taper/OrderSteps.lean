import Taper.OrderTables

set_option autoImplicit false

/-!
# What one transaction of the order service does

The local transactions of the order service in closed form: when each commits,
and the tables it then leaves.
-/
namespace Taper.OrderSteps
open Messages Transaction Platform Ledger OrderTables

variable {α : Type}

@[simp] theorem setCell_self (table : UUID → String → α) (t : UUID) (o : String) (a : α) :
    setCell table t o a t o = a := by
  simp [setCell]

variable {t : UUID} {error o : String} {row : OrderRow} {db db' : OrderDb} {u : Unit}
  {saga : SagaInstance} {rt : Runtime} {req : CreateOrderRequest} {total : Int64}
  {state : SagaState} {step : Int32}

theorem setCell_other (table : UUID → String → α) {t' : UUID} {o' : String} (a : α)
    (h : ¬(t' = t ∧ o' = o)) : setCell table t o a t' o' = table t' o' := by
  unfold setCell
  by_cases same : t' = t
  · subst same
    have differs : o' ≠ o := fun eq => h ⟨rfl, eq⟩
    rw [Function.update_self, Function.update_of_ne differs]
  · rw [Function.update_of_ne same]

theorem setCell_same (table : UUID → String → α) (t : UUID) (o : String) :
    setCell table t o (table t o) = table := by
  unfold setCell
  rw [Function.update_eq_self, Function.update_eq_self]

theorem setCell_twice (table : UUID → String → α) (t : UUID) (o : String) (a b : α) :
    setCell (setCell table t o a) t o b = setCell table t o b := by
  unfold setCell
  rw [Function.update_self, Function.update_idem, Function.update_idem]

theorem upsertOrder_ok_iff :
    (upsertOrder t o row).run db = .ok (u, db') ↔
      varchar 255 o = true ∧ 0 ≤ row.totalAmount ∧ db.orders t (column 255 o) = none ∧
        db' = { db with orders := setCell db.orders t (column 255 o) (some row) } := by
  unfold upsertOrder
  simp only [Tx.bind_run, Tx.require, Tx.read_run]
  cases fits : varchar 255 o with
  | false => simp
  | true =>
    by_cases total : 0 ≤ row.totalAmount
    · cases found : db.orders t (column 255 o) with
      | none => simp [total, found, eq_comm]
      | some old => simp [total, found]
    · simp [total]

def lineFits (orderID : String) (l : OrderLine) : Bool :=
  (varchar 255 orderID && varchar 255 l.skuId && varchar 255 l.warehouseId) &&
    (decide (0 < l.quantity) && decide (0 ≤ l.unitPrice))

def place (l : OrderLine) : String × String := (l.skuId, l.warehouseId)

theorem insertOrderLine_ok_iff {l : OrderLine} {x : Option Unit} :
    (insertOrderLine t o l).run db = .ok (x, db') ↔
      lineFits o l = true ∧
        (∀ m ∈ db.orderLines t (column 255 o), place m ≠ place (storedLine l)) ∧ x = some () ∧
        db' = { db with
          orderLines := setCell db.orderLines t (column 255 o)
            (db.orderLines t (column 255 o) ++ [storedLine l]) } := by
  have distinct : (!(db.orderLines t (column 255 o)).any fun m =>
      m.skuId == (storedLine l).skuId && m.warehouseId == (storedLine l).warehouseId) = true ↔
      ∀ m ∈ db.orderLines t (column 255 o), place m ≠ place (storedLine l) := by
    simp [place, Prod.ext_iff]
  unfold insertOrderLine
  simp only [Tx.bind_run, Tx.require, Tx.read_run, lineFits]
  cases texts : (varchar 255 o && varchar 255 l.skuId && varchar 255 l.warehouseId) with
  | false => simp
  | true =>
    by_cases quantity : 0 < l.quantity
    · by_cases price : 0 ≤ l.unitPrice
      · by_cases new : ∀ m ∈ db.orderLines t (column 255 o), place m ≠ place (storedLine l)
        · have free := distinct.2 new
          simp only [quantity, price, decide_true, free, ↓reduceIte, Tx.pure_run, Tx.modify_run,
            Except.ok.injEq, Prod.mk.injEq, Bool.and_self, true_and]
          exact ⟨fun h => ⟨new, h.1.symm, h.2.symm⟩, fun h => ⟨h.2.1.symm, h.2.2.symm⟩⟩
        · have taken := (not_congr distinct).2 new
          simp [quantity, price, taken, new]
      · simp [quantity, price]
    · simp [quantity]

theorem insertLines_ok_iff {lines : List OrderLine} {out : List Unit} :
    (Tx.collect (insertOrderLine t o) lines).run db = .ok (out, db') ↔
      (∀ l ∈ lines, lineFits o l = true) ∧
        (∀ l ∈ lines.map storedLine, ∀ m ∈ db.orderLines t (column 255 o), place m ≠ place l) ∧
        ((lines.map storedLine).map place).Nodup ∧ out = lines.map (fun _ => ()) ∧
        db' = { db with
          orderLines := setCell db.orderLines t (column 255 o)
            (db.orderLines t (column 255 o) ++ lines.map storedLine) } := by
  induction lines generalizing db out with
  | nil =>
    have same : ({ db with
        orderLines := setCell db.orderLines t (column 255 o)
          (db.orderLines t (column 255 o) ++ [].map storedLine) } : OrderDb) = db := by
      rw [List.map_nil, List.append_nil, setCell_same]
    rw [Tx.collect_nil, same]
    simp only [List.not_mem_nil, false_implies, implies_true, List.map_nil, List.nodup_nil,
      true_and, Except.ok.injEq, Prod.mk.injEq]
    exact ⟨fun h => ⟨h.1.symm, h.2.symm⟩, fun h => ⟨h.1.symm, h.2.symm⟩⟩
  | cons l rest ih =>
    rw [Tx.collect_cons_ok_iff]
    simp only [insertOrderLine_ok_iff, ih]
    constructor
    · rintro ⟨found, mid, later, ⟨fits, new, rfl, rfl⟩, ⟨fits', new', nodup, rfl, rfl⟩, rfl⟩
      simp only [setCell_self, List.mem_append, List.mem_singleton] at new'
      refine ⟨?_, ?_, ?_, rfl, ?_⟩
      · intro x hx
        rcases List.mem_cons.1 hx with rfl | hx
        · exact fits
        · exact fits' x hx
      · intro x hx m hm
        rw [List.map_cons] at hx
        rcases List.mem_cons.1 hx with rfl | hx
        · exact new m hm
        · exact new' x hx m (.inl hm)
      · rw [List.map_cons, List.map_cons, List.nodup_cons]
        refine ⟨fun twice => ?_, nodup⟩
        obtain ⟨x, hx, same⟩ := List.mem_map.1 twice
        exact new' x hx _ (.inr rfl) same.symm
      · simp [setCell_twice]
    · rintro ⟨fits, new, nodup, rfl, rfl⟩
      rw [List.map_cons] at new
      rw [List.map_cons, List.map_cons, List.nodup_cons] at nodup
      refine ⟨some (), _, rest.map fun _ => (), ⟨fits l List.mem_cons_self,
        new _ List.mem_cons_self, rfl, rfl⟩, ⟨fun x hx => fits x (List.mem_cons_of_mem _ hx), ?_,
        nodup.2, rfl, ?_⟩, rfl⟩
      · intro x hx m hm
        simp only [setCell_self, List.mem_append, List.mem_singleton] at hm
        rcases hm with hm | rfl
        · exact new x (List.mem_cons_of_mem _ hx) m hm
        · exact fun same => nodup.1 (List.mem_map.2 ⟨x, hx, same.symm⟩)
      · simp [setCell_twice]

theorem upsertSaga_ok_iff :
    (upsertSagaInstance saga).run db = .ok (u, db') ↔
      varchar 255 saga.orderID = true ∧ varchar 255 saga.idempotencyKey = true ∧
        db.sagas saga.tenantID (column 255 saga.orderID) = none ∧
        db' = { db with
          sagas := setCell db.sagas saga.tenantID (column 255 saga.orderID) (some { saga with
            orderID := column 255 saga.orderID, idempotencyKey := column 255 saga.idempotencyKey })
          created := db.created ++ [(saga.tenantID, column 255 saga.orderID)] } := by
  unfold upsertSagaInstance
  simp only [Tx.bind_run, Tx.require, Tx.read_run]
  cases order : varchar 255 saga.orderID with
  | false => simp
  | true =>
    cases key : varchar 255 saga.idempotencyKey with
    | false => simp
    | true =>
      cases found : db.sagas saga.tenantID (column 255 saga.orderID) with
      | none => simp [found, eq_comm]
      | some old => simp [found]

def newSaga (t : UUID) (req : CreateOrderRequest) : SagaInstance :=
  ⟨t, column 255 req.orderId, .pendingPayment, 0, column 255 req.idempotencyKey, ""⟩

def orderCreated (rt : Runtime) (t : UUID) (req : CreateOrderRequest) (total : Int64)
    (db : OrderDb) : OrderDb where
  orders := setCell db.orders t (column 255 req.orderId) (some ⟨.pending, total, "USD", ""⟩)
  orderLines := setCell db.orderLines t (column 255 req.orderId)
    (db.orderLines t (column 255 req.orderId) ++ req.lines.map storedLine)
  sagas := setCell db.sagas t (column 255 req.orderId) (some (newSaga t req))
  created := db.created ++ [(t, column 255 req.orderId)]
  outbox := db.outbox
  processedKeys := (claimed orderKeys t req.idempotencyKey (rt.payloadHash (.createOrder req))
    db).processedKeys

structure Creatable (t : UUID) (req : CreateOrderRequest) (total : Int64) (db : OrderDb) :
    Prop where
  keyFits : keyFits req.idempotencyKey = true
  fresh : ¬Recorded orderKeys db t req.idempotencyKey
  orderFits : varchar 255 req.orderId = true
  total : 0 ≤ total
  noOrder : db.orders t (column 255 req.orderId) = none
  linesFit : ∀ l ∈ req.lines, lineFits req.orderId l = true
  newLines : ∀ l ∈ req.lines.map storedLine, ∀ m ∈ db.orderLines t (column 255 req.orderId),
    place m ≠ place l
  distinct : ((req.lines.map storedLine).map place).Nodup
  sagaKey : varchar 255 req.idempotencyKey = true
  noSaga : db.sagas t (column 255 req.orderId) = none

theorem claimed_tables (t : UUID) (key hash : String) (db : OrderDb) :
    (claimed orderKeys t key hash db).orders = db.orders ∧
      (claimed orderKeys t key hash db).orderLines = db.orderLines ∧
      (claimed orderKeys t key hash db).sagas = db.sagas ∧
      (claimed orderKeys t key hash db).created = db.created ∧
      (claimed orderKeys t key hash db).outbox = db.outbox := by
  unfold claimed
  split
  · exact ⟨rfl, rfl, rfl, rfl, rfl⟩
  · exact ⟨rfl, rfl, rfl, rfl, rfl⟩

theorem createOrderRow_ok_iff :
    (createOrderRow rt t req total).run db = .ok (u, db') ↔
      Creatable t req total db ∧ db' = orderCreated rt t req total db := by
  have tables := claimed_tables t req.idempotencyKey (rt.payloadHash (.createOrder req)) db
  unfold createOrderRow
  rw [claimOnce_bind_ok_iff]
  constructor
  · rintro ⟨fits, fresh, body⟩
    obtain ⟨_, db₂, order, body⟩ := Tx.bind_ok_iff.1 body
    obtain ⟨orderFits, nonneg, noOrder, rfl⟩ := upsertOrder_ok_iff.1 order
    obtain ⟨_, db₃, lines, body⟩ := Tx.bind_ok_iff.1 body
    obtain ⟨linesFit, newLines, distinct, -, rfl⟩ := insertLines_ok_iff.1 lines
    obtain ⟨-, sagaKey, noSaga, rfl⟩ := upsertSaga_ok_iff.1 body
    simp only [tables.1, tables.2.1, tables.2.2.1] at noOrder newLines noSaga
    refine ⟨⟨fits, fresh, orderFits, nonneg, noOrder, linesFit, newLines, distinct, sagaKey,
      noSaga⟩, ?_⟩
    simp only [tables.1, tables.2.1, tables.2.2.1, tables.2.2.2.1, tables.2.2.2.2, orderCreated,
      newSaga]
  · rintro ⟨ok, rfl⟩
    refine ⟨ok.keyFits, ok.fresh, Tx.bind_ok_iff.2 ⟨(), _,
      upsertOrder_ok_iff.2 ⟨ok.orderFits, ok.total, by rw [tables.1]; exact ok.noOrder, rfl⟩,
      Tx.bind_ok_iff.2 ⟨_, _, insertLines_ok_iff.2 ⟨ok.linesFit, ?_, ok.distinct, rfl, rfl⟩,
        upsertSaga_ok_iff.2 ⟨ok.orderFits, ok.sagaKey, ?_, ?_⟩⟩⟩⟩
    · simp only [tables.2.1]
      exact ok.newLines
    · simp only [tables.2.2.1]
      exact ok.noSaga
    · simp only [tables.1, tables.2.1, tables.2.2.1, tables.2.2.2.1, tables.2.2.2.2, orderCreated,
        newSaga]

theorem createOrderRow_repeated
    (h : (createOrderRow rt t req total).run db = .error .idempotentReplay) :
    Recorded orderKeys db t req.idempotencyKey := by
  refine (claimOnce_repeated Failure.noConfusion (fun _ => Tx.fails_bind ?_ fun _ =>
    Tx.fails_bind (Tx.fails_collect (fun l => ?_) req.lines) fun _ => ?_) h).2
  · refine Tx.fails_bind (Tx.fails_require Failure.noConfusion) fun _ =>
      Tx.fails_bind (Tx.fails_require Failure.noConfusion) fun _ =>
        Tx.fails_bind Tx.fails_read fun db => ?_
    split
    · exact Tx.fails_throw Failure.noConfusion
    · exact Tx.fails_modify _
  · exact Tx.fails_bind (Tx.fails_require Failure.noConfusion) fun _ =>
      Tx.fails_bind (Tx.fails_require Failure.noConfusion) fun _ =>
        Tx.fails_bind (Tx.fails_require Failure.noConfusion) fun _ =>
          Tx.fails_bind Tx.fails_read fun db =>
            Tx.fails_bind (Tx.fails_require Failure.noConfusion) fun _ =>
              Tx.fails_bind (Tx.fails_modify _) fun _ => Tx.fails_pure _
  · refine Tx.fails_bind (Tx.fails_require Failure.noConfusion) fun _ =>
      Tx.fails_bind Tx.fails_read fun db => ?_
    split
    · exact Tx.fails_throw Failure.noConfusion
    · exact Tx.fails_modify _

def withStatus (row : OrderRow) (status : OrderStatus) (txn : String) : OrderRow :=
  { row with status := status, transactionID := column 255 txn }

def mirror (row : OrderRow) (state : SagaState) : OrderRow :=
  match mirrored state row.transactionID with
  | some (status, txn) => withStatus row status txn
  | none => row

def transitionEvent (t : UUID) (o : String) (state : SagaState) (total : Int64) :
    OrderOutboxEvent :=
  ⟨t, "order", t.text ++ ":" ++ o, stateEvent state, ⟨stateEvent state, o, total, []⟩⟩

def movedTo (saga : SagaInstance) (state : SagaState) (step : Int32) (error : String) :
    SagaInstance := { saga with state := state, step := step, error := column 1024 error }

def transitioned (t : UUID) (o : String) (state : SagaState) (step : Int32) (error : String)
    (row : OrderRow) (saga : SagaInstance) (db : OrderDb) : OrderDb :=
  { db with
    orders := setCell db.orders t o (some (mirror row state))
    sagas := setCell db.sagas t o (some (movedTo saga state step error))
    outbox := db.outbox ++ [(transitionEvent t o state row.totalAmount).stored] }

theorem getOrder_ok_iff :
    (getOrderById t o).run db = .ok (row, db') ↔
      storable o = true ∧ db.orders t o = some row ∧ db' = db := by
  unfold getOrderById
  simp only [Tx.bind_run, Tx.require, Tx.read_run]
  cases text : storable o with
  | false => simp
  | true =>
    cases found : db.orders t o with
    | none => simp [found]
    | some old => simp [found, eq_comm]

theorem updateStatus_ok_iff {txn : String} {status : OrderStatus} :
    (updateOrderStatus t o status txn).run db = .ok (u, db') ↔
      storable o = true ∧ varchar 255 txn = true ∧ ∃ row, db.orders t o = some row ∧
        db' = { db with orders := setCell db.orders t o (some (withStatus row status txn)) } := by
  unfold updateOrderStatus
  simp only [Tx.bind_run, Tx.require, Tx.read_run]
  cases text : storable o with
  | false => simp
  | true =>
    cases fits : varchar 255 txn with
    | false => simp
    | true =>
      cases found : db.orders t o with
      | none => simp [found]
      | some old => simp [found, withStatus, eq_comm]

theorem updateSaga_ok_iff : (updateSagaState t o state step error).run db = .ok (u, db') ↔
      storable o = true ∧ varchar 1024 error = true ∧ ∃ saga, db.sagas t o = some saga ∧
        db' = { db with sagas := setCell db.sagas t o (some (movedTo saga state step error)) } := by
  unfold updateSagaState
  simp only [Tx.bind_run, Tx.require, Tx.read_run]
  cases text : storable o with
  | false => simp
  | true =>
    cases fits : varchar 1024 error with
    | false => simp
    | true =>
      cases found : db.sagas t o with
      | none => simp [found]
      | some old => simp [found, movedTo, eq_comm]

theorem insertOutbox_ok_iff {e : OrderOutboxEvent} :
    (insertOutboxEvent e).run db = .ok (u, db') ↔
      varchar 255 e.aggregateID = true ∧ e.payload.storable = true ∧
        db' = { db with outbox := db.outbox ++ [e.stored] } := by
  unfold insertOutboxEvent
  simp only [Tx.bind_run, Tx.require]
  cases fits : varchar 255 e.aggregateID with
  | false => simp
  | true =>
    cases text : e.payload.storable with
    | false => simp
    | true => simp [eq_comm]

def mirrorFits (row : OrderRow) (state : SagaState) : Bool :=
  match mirrored state row.transactionID with
  | some (_, txn) => varchar 255 txn
  | none => true

def transitionFits (t : UUID) (o : String) (state : SagaState) (error : String) (row : OrderRow) :
    Bool :=
  storable o && varchar 1024 error && varchar 255 (t.text ++ ":" ++ o) && mirrorFits row state

theorem mirror_ok_iff (here : db.orders t o = some row) (text : storable o = true) :
    (match mirrored state row.transactionID with
      | some (status, txn) => updateOrderStatus t o status txn
      | none => pure () : OrderTx Unit).run db = .ok (u, db') ↔
      mirrorFits row state = true ∧
        db' = { db with orders := setCell db.orders t o (some (mirror row state)) } := by
  unfold mirrorFits mirror
  cases moves : mirrored state row.transactionID with
  | none =>
    have same : setCell db.orders t o (some row) = db.orders := by rw [← here, setCell_same]
    change Except.ok ((), db) = Except.ok (u, db') ↔
      true = true ∧ db' = { db with orders := setCell db.orders t o (some row) }
    rw [same, Except.ok.injEq, Prod.mk.injEq]
    exact ⟨fun h => ⟨rfl, h.2.symm⟩, fun h => ⟨rfl, h.2.symm⟩⟩
  | some target =>
    obtain ⟨status, txn⟩ := target
    simp [updateStatus_ok_iff, here, text]

theorem transition_ok_iff :
    (transition t o state step error).run db = .ok (u, db') ↔
      ∃ row saga, db.orders t o = some row ∧ db.sagas t o = some saga ∧
        transitionFits t o state error row = true ∧
        db' = transitioned t o state step error row saga db := by
  unfold transition transitionFits
  rw [Tx.bind_ok_iff]
  constructor
  · rintro ⟨row, db₁, read, body⟩
    obtain ⟨text, order, rfl⟩ := getOrder_ok_iff.1 read
    obtain ⟨_, db₂, write, body⟩ := Tx.bind_ok_iff.1 body
    obtain ⟨-, fits, saga, found, rfl⟩ := updateSaga_ok_iff.1 write
    obtain ⟨_, db₃, event, body⟩ := Tx.bind_ok_iff.1 body
    obtain ⟨aggregate, -, rfl⟩ := insertOutbox_ok_iff.1 event
    have last := fun here => (mirror_ok_iff here text).1 body
    obtain ⟨mirror, rfl⟩ := last order
    refine ⟨row, saga, order, found, ?_, rfl⟩
    rw [text, fits, aggregate, mirror]
    rfl
  · rintro ⟨row, saga, order, found, fits, rfl⟩
    simp only [Bool.and_eq_true] at fits
    refine ⟨row, db, getOrder_ok_iff.2 ⟨fits.1.1.1, order, rfl⟩, Tx.bind_ok_iff.2 ⟨(), _,
      updateSaga_ok_iff.2 ⟨fits.1.1.1, fits.1.1.2, saga, found, rfl⟩, Tx.bind_ok_iff.2 ⟨(), _,
      insertOutbox_ok_iff.2 ⟨fits.1.2, ?_, rfl⟩, (mirror_ok_iff ?_ fits.1.1.1).2 ⟨fits.2, rfl⟩⟩⟩⟩
    · simp [OrderPayload.storable, fits.1.1.1]
    · exact order

def paid (t : UUID) (o txn : String) (row : OrderRow) (db : OrderDb) : OrderDb :=
  { db with orders := setCell db.orders t o (some (withStatus row .pending txn)) }

theorem record_ok_iff {txn : String} :
    (recordTransaction t o txn).run db = .ok (u, db') ↔
      storable o = true ∧ varchar 255 txn = true ∧ ∃ row, db.orders t o = some row ∧
        db' = paid t o txn row db :=
  updateStatus_ok_iff

theorem getSaga_ok_iff :
    (getSagaInstance t o).run db = .ok (saga, db') ↔
      storable o = true ∧ db.sagas t o = some saga ∧ db' = db := by
  unfold getSagaInstance
  simp only [Tx.bind_run, Tx.require, Tx.read_run]
  cases text : storable o with
  | false => simp
  | true =>
    cases found : db.sagas t o with
    | none => simp [found]
    | some old => simp [found, eq_comm]

theorem getLines_ok_iff {lines : List OrderLine} :
    (getOrderLines rt t o).run db = .ok (lines, db') ↔
      storable o = true ∧ lines = rt.rows (db.orderLines t o) ∧ db' = db := by
  unfold getOrderLines
  simp only [Tx.bind_run, Tx.require, Tx.read_run]
  cases text : storable o with
  | false => simp
  | true => simp [eq_comm]

theorem getResumable_ok_iff {limit : Int32} {sagas : List SagaInstance} :
    (getResumableSagas limit).run db = .ok (sagas, db') ↔
      0 ≤ limit ∧ sagas = (resumableSagas db).take limit.toInt.toNat ∧ db' = db := by
  unfold getResumableSagas
  simp only [Tx.bind_run, Tx.require, Tx.read_run]
  by_cases sign : 0 ≤ limit
  · simp [sign, eq_comm]
  · simp [sign]

def sagaKey (saga : SagaInstance) : UUID × String := (saga.tenantID, saga.orderID)

/-- Each saga is stored under its own tenant and order, in the columns, and
listed once. -/
structure Listed (db : OrderDb) : Prop where
  own : ∀ t o saga, db.sagas t o = some saga → sagaKey saga = (t, o)
  once : db.created.Nodup
  stored : ∀ t o, (t, o) ∈ db.created → (db.sagas t o).isSome = true
  within : ∀ t o saga, db.sagas t o = some saga → column 255 o = o

theorem listed_empty : Listed OrderDb.empty where
  own t o saga h := by cases h
  once := List.nodup_nil
  stored t o h := by cases h
  within t o saga h := by cases h

theorem orderCreated_listed (listed : Listed db) (ok : Creatable t req total db) :
    Listed (orderCreated rt t req total db) where
  own t' o' saga h := by
    simp only [orderCreated] at h
    by_cases same : t' = t ∧ o' = column 255 req.orderId
    · obtain ⟨rfl, rfl⟩ := same
      rw [setCell_self] at h
      cases h
      rfl
    · rw [setCell_other _ _ same] at h
      exact listed.own t' o' saga h
  once := by
    refine List.Nodup.append listed.once (List.nodup_singleton _) ?_
    intro key old new
    rw [List.mem_singleton] at new
    subst new
    have found := listed.stored _ _ old
    rw [ok.noSaga] at found
    cases found
  stored t' o' h := by
    simp only [orderCreated] at h ⊢
    by_cases same : t' = t ∧ o' = column 255 req.orderId
    · obtain ⟨rfl, rfl⟩ := same
      rw [setCell_self]
      rfl
    · rw [setCell_other _ _ same]
      rcases List.mem_append.1 h with old | new
      · exact listed.stored t' o' old
      · rw [List.mem_singleton, Prod.mk.injEq] at new
        exact absurd new same
  within t' o' saga h := by
    simp only [orderCreated] at h
    by_cases same : t' = t ∧ o' = column 255 req.orderId
    · rw [same.2, column_column]
    · rw [setCell_other _ _ same] at h
      exact listed.within t' o' saga h

theorem transitioned_listed (listed : Listed db) (found : db.sagas t o = some saga) :
    Listed (transitioned t o state step error row saga db) where
  own t' o' saga' h := by
    simp only [transitioned] at h
    by_cases same : t' = t ∧ o' = o
    · obtain ⟨rfl, rfl⟩ := same
      rw [setCell_self] at h
      cases h
      exact listed.own t' o' saga found
    · rw [setCell_other _ _ same] at h
      exact listed.own t' o' saga' h
  once := listed.once
  stored t' o' h := by
    simp only [transitioned]
    by_cases same : t' = t ∧ o' = o
    · obtain ⟨rfl, rfl⟩ := same
      rw [setCell_self]
      rfl
    · rw [setCell_other _ _ same]
      exact listed.stored t' o' h
  within t' o' saga' h := by
    simp only [transitioned] at h
    by_cases same : t' = t ∧ o' = o
    · rw [same.2]
      exact listed.within t o saga found
    · rw [setCell_other _ _ same] at h
      exact listed.within t' o' saga' h

/-- What the scan lists is what is stored, under keys that differ. -/
theorem resumableSagas_spec (listed : Listed db) :
    ((resumableSagas db).map sagaKey).Nodup ∧
      ∀ saga ∈ resumableSagas db, db.sagas saga.tenantID saga.orderID = some saga ∧
        (saga.state = .pendingPayment ∨ saga.state = .reserved) := by
  constructor
  · have keys : ∀ keys : List (UUID × String),
        ((keys.filterMap fun key => db.sagas key.1 key.2).map sagaKey).Sublist keys := by
      intro keys
      induction keys with
      | nil => exact List.Sublist.slnil
      | cons key rest ih =>
        cases found : db.sagas key.1 key.2 with
        | none =>
          simp only [List.filterMap_cons, found]
          exact ih.cons key
        | some saga =>
          have own : sagaKey saga = key := listed.own key.1 key.2 saga found
          simp only [List.filterMap_cons, found, List.map_cons, own]
          exact ih.cons_cons key
    exact ((List.filter_sublist.map sagaKey).trans (keys db.created)).nodup listed.once
  · intro saga member
    have parts := List.mem_filter.1 member
    obtain ⟨key, -, found⟩ := List.mem_filterMap.1 parts.1
    have own : sagaKey saga = key := listed.own key.1 key.2 saga found
    rw [← own] at found
    exact ⟨found, by simpa [resumable] using parts.2⟩

end Taper.OrderSteps
