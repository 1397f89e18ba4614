import Taper.Ledger

set_option autoImplicit false

/-!
# The order database

Each row is found under its tenant and order; `created` keeps the sagas in order
of creation.
-/
namespace Taper.OrderTables
open Messages Transaction Platform Ledger

inductive OrderStatus where
  | pending
  | confirmed
  | fulfilled
  | compensated
  | failed
  deriving DecidableEq

structure OrderRow where
  status : OrderStatus
  totalAmount : Int64
  currency : String
  transactionID : String
  deriving DecidableEq

structure SagaInstance where
  tenantID : UUID
  orderID : String
  state : SagaState
  step : Int32
  idempotencyKey : String
  error : String
  deriving DecidableEq

structure OrderPayload where
  eventType : String
  orderID : String
  totalAmount : Int64
  lines : List OrderLine
  deriving DecidableEq

structure OrderOutboxEvent where
  tenantID : UUID
  aggregateType : String
  aggregateID : String
  eventType : String
  payload : OrderPayload
  deriving DecidableEq

def OrderOutboxEvent.stored (e : OrderOutboxEvent) : OrderOutboxEvent :=
  { e with aggregateID := column 255 e.aggregateID }

structure OrderDb where
  orders : UUID → String → Option OrderRow
  orderLines : UUID → String → List OrderLine
  sagas : UUID → String → Option SagaInstance
  created : List (UUID × String)
  outbox : List OrderOutboxEvent
  processedKeys : KeyTable

def OrderDb.empty : OrderDb :=
  ⟨fun _ _ => none, fun _ _ => [], fun _ _ => none, [], [], fun _ _ => none⟩

abbrev OrderTx := Tx OrderDb Failure

def orderKeys : Keyed OrderDb where
  keys db := db.processedKeys
  put db keys := { db with processedKeys := keys }
  keys_put _ _ := rfl

def setCell {α : Type} (table : UUID → String → α) (tenantID : UUID) (orderID : String) (a : α) :
    UUID → String → α :=
  Function.update table tenantID (Function.update (table tenantID) orderID a)

/-- Wrap-around 64-bit arithmetic throughout. -/
def orderTotal (lines : List OrderLine) : Int64 :=
  lines.foldl (fun total l => total + l.quantity.toInt64 * l.unitPrice) 0

def upsertOrder (tenantID : UUID) (orderID : String) (row : OrderRow) : OrderTx Unit := do
  .require (varchar 255 orderID) (.sql .tooLong)
  .require (0 ≤ row.totalAmount) (.sql (.checkViolation "orders_total_amount_nonneg"))
  let db ← .read
  match db.orders tenantID (column 255 orderID) with
  | some _ => .throw (.sql .noRows)
  | none => .modify fun db =>
      { db with orders := setCell db.orders tenantID (column 255 orderID) (some row) }

def storedLine (l : OrderLine) : OrderLine :=
  { l with skuId := column 255 l.skuId, warehouseId := column 255 l.warehouseId }

def insertOrderLine (tenantID : UUID) (orderID : String) (l : OrderLine) :
    OrderTx (Option Unit) := do
  .require (varchar 255 orderID && varchar 255 l.skuId && varchar 255 l.warehouseId)
    (.sql .tooLong)
  .require (0 < l.quantity) (.sql (.checkViolation "order_lines_quantity_positive"))
  .require (0 ≤ l.unitPrice) (.sql (.checkViolation "order_lines_unit_price_nonneg"))
  let db ← .read
  let row := storedLine l
  let lines := db.orderLines tenantID (column 255 orderID)
  .require (!lines.any fun m => m.skuId == row.skuId && m.warehouseId == row.warehouseId)
    (.sql (.uniqueViolation "order_lines_tenant_id_order_id_sku_id_warehouse_id_key"))
  .modify fun db =>
    { db with orderLines := setCell db.orderLines tenantID (column 255 orderID) (lines ++ [row]) }
  pure (some ())

def upsertSagaInstance (saga : SagaInstance) : OrderTx Unit := do
  .require (varchar 255 saga.orderID && varchar 255 saga.idempotencyKey) (.sql .tooLong)
  let row : SagaInstance := { saga with
    orderID := column 255 saga.orderID, idempotencyKey := column 255 saga.idempotencyKey }
  let db ← .read
  match db.sagas row.tenantID row.orderID with
  | some _ => .throw (.sql .noRows)
  | none => .modify fun db =>
      { db with
        sagas := setCell db.sagas row.tenantID row.orderID (some row)
        created := db.created ++ [(row.tenantID, row.orderID)] }

def getOrderById (tenantID : UUID) (orderID : String) : OrderTx OrderRow := do
  .require (storable orderID) (.sql .badText)
  let db ← .read
  match db.orders tenantID orderID with
  | none => .throw (.sql .noRows)
  | some row => pure row

def updateOrderStatus (tenantID : UUID) (orderID : String) (status : OrderStatus)
    (transactionID : String) : OrderTx Unit := do
  .require (storable orderID && varchar 255 transactionID) (.sql .tooLong)
  let db ← .read
  match db.orders tenantID orderID with
  | none => .throw (.sql .noRows)
  | some row =>
    let row' : OrderRow := { row with status := status, transactionID := column 255 transactionID }
    .modify fun db => { db with orders := setCell db.orders tenantID orderID (some row') }

def getSagaInstance (tenantID : UUID) (orderID : String) : OrderTx SagaInstance := do
  .require (storable orderID) (.sql .badText)
  let db ← .read
  match db.sagas tenantID orderID with
  | none => .throw (.sql .noRows)
  | some saga => pure saga

def updateSagaState (tenantID : UUID) (orderID : String) (state : SagaState) (step : Int32)
    (error : String) : OrderTx Unit := do
  .require (storable orderID && varchar 1024 error) (.sql .tooLong)
  let db ← .read
  match db.sagas tenantID orderID with
  | none => .throw (.sql .noRows)
  | some saga =>
    let saga' : SagaInstance :=
      { saga with state := state, step := step, error := column 1024 error }
    .modify fun db => { db with sagas := setCell db.sagas tenantID orderID (some saga') }

def OrderPayload.storable (p : OrderPayload) : Bool :=
  Messages.storable p.orderID &&
    p.lines.all fun l => Messages.storable l.skuId && Messages.storable l.warehouseId

def insertOutboxEvent (e : OrderOutboxEvent) : OrderTx Unit := do
  .require (varchar 255 e.aggregateID && e.payload.storable) (.sql .tooLong)
  .modify fun db => { db with outbox := db.outbox ++ [e.stored] }

def stateEvent (state : SagaState) : String := "order." ++ state.text.toLower

def getOrderLines (rt : Runtime) (tenantID : UUID) (orderID : String) :
    OrderTx (List OrderLine) := do
  .require (storable orderID) (.sql .badText)
  let db ← .read
  pure (rt.rows (db.orderLines tenantID orderID))

def createOrderRow (rt : Runtime) (tenantUUID : UUID) (req : CreateOrderRequest) (total : Int64) :
    OrderTx Unit := do
  claimOnce orderKeys tenantUUID req.idempotencyKey (rt.payloadHash (.createOrder req))
    .idempotentReplay
  upsertOrder tenantUUID req.orderId ⟨.pending, total, "USD", ""⟩
  let _ ← Tx.collect (insertOrderLine tenantUUID req.orderId) req.lines
  upsertSagaInstance ⟨tenantUUID, req.orderId, .pendingPayment, 0, req.idempotencyKey, ""⟩

def mirrored (state : SagaState) (transactionID : String) : Option (OrderStatus × String) :=
  match state with
  | .confirmed => some (.confirmed, transactionID)
  | .compensated => some (.compensated, "")
  | .failed => some (.failed, "")
  | _ => none

/-- The new state is written whatever the old one is. -/
def transition (tenantUUID : UUID) (orderID : String) (state : SagaState) (step : Int32)
    (errMsg : String) : OrderTx Unit := do
  let cur ← getOrderById tenantUUID orderID
  updateSagaState tenantUUID orderID state step errMsg
  insertOutboxEvent ⟨tenantUUID, "order", tenantUUID.text ++ ":" ++ orderID, stateEvent state,
    ⟨stateEvent state, orderID, cur.totalAmount, []⟩⟩
  match mirrored state cur.transactionID with
  | some (status, transactionID) => updateOrderStatus tenantUUID orderID status transactionID
  | none => pure ()

def recordTransaction (tenantUUID : UUID) (orderID txn : String) : OrderTx Unit :=
  updateOrderStatus tenantUUID orderID .pending txn

def resumable (saga : SagaInstance) : Bool :=
  saga.state = .pendingPayment ∨ saga.state = .reserved

def resumableSagas (db : OrderDb) : List SagaInstance :=
  (db.created.filterMap fun at_ => db.sagas at_.1 at_.2).filter resumable

def getResumableSagas (limit : Int32) : OrderTx (List SagaInstance) := do
  .require (0 ≤ limit) (.sql .outOfRange)
  let db ← .read
  pure ((resumableSagas db).take limit.toInt.toNat)

end Taper.OrderTables
