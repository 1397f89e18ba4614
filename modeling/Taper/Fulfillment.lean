import Taper.Services
import Taper.Streaming

set_option autoImplicit false

/-!
# Fulfillment

`FulfillOrder` moves a confirmed order to `FULFILLED` and writes the
`order.fulfilled` event. The fulfillment reactor has the stock service take the
lines out of the allocated units, under a key made of the tenant and the order.
-/
namespace Taper.Fulfillment
open Messages Platform Ledger OrderTables Streaming

def OrderStatus.text : OrderStatus → String
  | .pending => "PENDING"
  | .confirmed => "CONFIRMED"
  | .fulfilled => "FULFILLED"
  | .compensated => "COMPENSATED"
  | .failed => "FAILED"

structure FulfillOrderResponse where
  success : Bool
  status : String
  deriving DecidableEq

def findOrder (tenantID : UUID) (orderID : String) : OrderTx (Option OrderRow) := do
  .require (storable orderID) (.sql .badText)
  let db ← .read
  pure (db.orders tenantID orderID)

def getIdempotencyKey (tenantID : UUID) (key : String) : OrderTx (Option String) := do
  .require (storable key) (.sql .badText)
  let db ← .read
  pure (db.processedKeys tenantID key)

def alreadyFulfilled (orderID : String) : Failure :=
  .status .failedPrecondition ("order " ++ orderID ++ " is already FULFILLED")

def fulfilledAgain (rt : Runtime) (tenantUUID : UUID) (req : FulfillOrderRequest) :
    OrderTx FulfillOrderResponse :=
  if req.idempotencyKey = "" then .throw (alreadyFulfilled req.orderId)
  else do
    match ← getIdempotencyKey tenantUUID req.idempotencyKey with
    | none => .throw (alreadyFulfilled req.orderId)
    | some storedHash =>
      if storedHash ≠ rt.payloadHash (.fulfillOrder req) then
        .throw (.status .failedPrecondition
          ("order " ++ req.orderId ++ " is already FULFILLED (payload mismatch)"))
      else pure ⟨true, OrderStatus.text .fulfilled⟩

def fulfilledEvent (tenantUUID : UUID) (orderID : String) (total : Int64)
    (lines : List OrderLine) : OrderOutboxEvent :=
  ⟨tenantUUID, "order", tenantUUID.text ++ ":" ++ orderID, "order.fulfilled",
    ⟨"order." ++ (OrderStatus.text .fulfilled).toLower, orderID, total, lines⟩⟩

def eventLine (l : OrderLine) : OrderLine := { l with unitPrice := 0 }

def fulfilledOnce (rt : Runtime) (tenantUUID : UUID) (req : FulfillOrderRequest) (o : OrderRow) :
    OrderTx FulfillOrderResponse := do
  let lines ← getOrderLines rt tenantUUID req.orderId
  updateOrderStatus tenantUUID req.orderId .fulfilled o.transactionID
  insertOutboxEvent (fulfilledEvent tenantUUID req.orderId o.totalAmount (lines.map eventLine))
  pure ⟨true, OrderStatus.text .fulfilled⟩

def fulfillOrderTx (rt : Runtime) (tenantUUID : UUID) (req : FulfillOrderRequest) :
    OrderTx FulfillOrderResponse := do
  match ← findOrder tenantUUID req.orderId with
  | none => .throw (.status .notFound "order not found")
  | some o =>
    if o.status = .fulfilled then fulfilledAgain rt tenantUUID req
    else if o.status ≠ .confirmed then
      .throw (.status .failedPrecondition ("order " ++ req.orderId ++ " is " ++
        OrderStatus.text o.status ++ ", must be CONFIRMED"))
    else do
      let new ← claimNew orderKeys tenantUUID req.idempotencyKey
        (rt.payloadHash (.fulfillOrder req))
      if new then fulfilledOnce rt tenantUUID req o
      else do
        match ← getIdempotencyKey tenantUUID req.idempotencyKey with
        | none => .throw (.sql .noRows)
        | some storedHash =>
          if storedHash = rt.payloadHash (.fulfillOrder req) then
            pure ⟨true, OrderStatus.text .fulfilled⟩
          else .throw (.status .failedPrecondition ("idempotency key " ++ req.idempotencyKey ++
            " already used with a different payload"))

def fulfillOrder (rt : Runtime) (req : FulfillOrderRequest) (db : OrderDb) :
    Except Failure FulfillOrderResponse × OrderDb :=
  match parseUUID rt req.tenantId with
  | .error e => (.error (.statusf .invalidArgument "" e), db)
  | .ok tenantUUID => execTxWithTenant rt req.tenantId (fulfillOrderTx rt tenantUUID req) db

structure OrderEvent where
  eventType : String
  tenantID : String
  orderID : String
  lines : List StockLine
  deriving DecidableEq

abbrev OrderMessage := KafkaMessage (Except Failure OrderEvent)

def keyParts (key : String) (tenantID orderID : String) : String × String :=
  match key.toList.dropWhile (· != ':') with
  | [] => (tenantID, orderID)
  | _ :: rest => (String.ofList (key.toList.takeWhile (· != ':')), String.ofList rest)

def fulfillKey (tenantID orderID : String) : String := "fulfill:" ++ tenantID ++ ":" ++ orderID

def handleOrderEvent (rt : Runtime) (msg : OrderMessage) (db : StockTables.StockDb) :
    Except Failure Unit × StockTables.StockDb :=
  match msg.value with
  | .error e => (.error (.errorf "decode order event" e), db)
  | .ok ev =>
    if ev.eventType ≠ "order.fulfilled" then (.ok (), db)
    else
      let (tenantID, orderID) :=
        if ev.tenantID = "" ∨ ev.orderID = "" then keyParts msg.key ev.tenantID ev.orderID
        else (ev.tenantID, ev.orderID)
      if tenantID = "" ∨ orderID = "" ∨ ev.lines = [] then
        (.error (.text ("order.fulfilled missing tenant/order/lines (key=" ++ msg.key ++ ")")), db)
      else
        match StockHandlers.fulfillStock rt ⟨tenantID, orderID, fulfillKey tenantID orderID,
            ev.lines⟩ db with
        | (.error e, db') => (.error (.errorf ("FulfillStock " ++ orderID) e), db')
        | (.ok _, db') => (.ok (), db')

/-- What the bytes of an outbox payload decode to. -/
def decoded (p : OrderPayload) : OrderEvent :=
  ⟨p.eventType, "", p.orderID, Services.stockLines p.lines⟩

def orderMessage (partition offset : ℤ) (headers : List (String × String))
    (e : OrderOutboxEvent) : OrderMessage :=
  ⟨"order.events", partition, offset, e.aggregateID, .ok (decoded e.payload), headers⟩

inductive OrderCall where
  | createOrder (req : CreateOrderRequest)
  | transition (tenantUUID : UUID) (orderID : String) (state : SagaState) (step : Int32)
      (errMsg : String)
  | recordTransaction (tenantUUID : UUID) (orderID txn : String)
  | fulfillOrder (req : FulfillOrderRequest)

def fileOrder (rt : Runtime) (req : CreateOrderRequest) (db : OrderDb) : OrderDb :=
  match parseUUID rt req.tenantId with
  | .error _ => db
  | .ok tenantUUID =>
    if req.orderId = "" ∨ req.lines = [] ∨ orderTotal req.lines ≤ 0 then db
    else
      (execTxWithTenant rt req.tenantId
        (createOrderRow rt tenantUUID req (orderTotal req.lines)) db).2

def OrderCall.apply (rt : Runtime) : OrderCall → OrderDb → OrderDb
  | createOrder req, db => fileOrder rt req db
  | transition tenantUUID orderID state step errMsg, db =>
    ((OrderTables.transition tenantUUID orderID state step errMsg).commit db).2
  | recordTransaction tenantUUID orderID txn, db =>
    ((OrderTables.recordTransaction tenantUUID orderID txn).commit db).2
  | fulfillOrder req, db => (Fulfillment.fulfillOrder rt req db).2

def runOrderCalls (rt : Runtime) (calls : List OrderCall) (db : OrderDb) : OrderDb :=
  calls.foldl (fun db call => call.apply rt db) db

end Taper.Fulfillment
