import Taper.ServiceStack

set_option autoImplicit false

/-!
# The handlers of the reservation and the order service

The handlers as programs over the operations of the stack.
-/
namespace Taper.Services
open Messages Platform ReservationTables OrderTables ServiceStack

/-- A call to another service, which may be lost before or after it took
effect. -/
def rpc {α : Type} (site : Site) (body : Code (Except Failure α)) : Code (Except Failure α) := do
  let sent ← ask (.send site)
  if sent then do
    let res ← body
    let answered ← ask (.answer site)
    if answered then pure res else pure (.error .transport)
  else pure (.error .transport)

def defaultTTL : Int32 := 900

def ttlOrDefault (ttlSeconds : Int32) : Int32 := if 0 < ttlSeconds then ttlSeconds else defaultTTL

def itemLine (it : ReservationItem) : StockLine := ⟨it.skuId, it.warehouseId, it.quantity⟩

def rowLine (r : Reservation) : StockLine := ⟨r.skuID, r.warehouseID, r.quantity⟩

/-- Times are in microseconds. -/
def reserve (rt : Runtime) (req : ReserveRequest) : Code (Except Failure ReserveResponse) :=
  match parseUUID rt req.tenantId with
  | .error e => pure (.error (.statusf .invalidArgument "" e))
  | .ok tenantUUID =>
    if req.items = [] then pure (.error (.status .invalidArgument "no items provided"))
    else do
      let stockLines := req.items.map itemLine
      match ← rpc .reserveStock (ask (.reserveStock
          ⟨req.tenantId, req.orderId, req.idempotencyKey, stockLines⟩)) with
      | .error e => pure (.error (.statusf .internal "reserve stock" e))
      | .ok stockResp =>
        if stockResp.success = false then pure (.ok ⟨false, none, 0, stockResp.failedSkuIds⟩)
        else do
          let now ← ask .timeNow
          let expiresAt := now + (ttlOrDefault req.ttlSeconds).toInt * 1000000
          match ← ask (.insertReservations tenantUUID req expiresAt) with
          | .ok id => pure (.ok ⟨true, id, expiresAt / 1000000, []⟩)
          | .error .alreadyProcessed => do
            let id ← ask (.firstReservationID tenantUUID req)
            ask .endTx
            pure (.ok ⟨true, id, 0, []⟩)
          | .error e => do
            let _ ← rpc .undoReserve (ask (.releaseStock ⟨req.tenantId, req.orderId,
              "reserve_failure", compensationKey req.tenantId req.orderId, stockLines⟩ []))
            pure (.error (.statusf .internal "persist reservation" e))

/-- The stock service is called inside the open transaction. -/
def release (rt : Runtime) (req : ReleaseRequest) : Code (Except Failure ReleaseResponse) :=
  match parseUUID rt req.tenantId with
  | .error e => pure (.error (.statusf .invalidArgument "" e))
  | .ok tenantUUID => do
    match ← ask (.beginRelease tenantUUID req) with
    | .error .alreadyProcessed => pure (.ok ⟨true, []⟩)
    | .error e => pure (.error (.statusf .internal "release" e))
    | .ok [] => pure (.ok ⟨true, []⟩)
    | .ok rows => do
      match ← rpc .releaseStock (ask (.releaseStock ⟨req.tenantId, req.orderId, req.reason,
          req.idempotencyKey, rows.map rowLine⟩ rows)) with
      | .error e => do
        ask .endTx
        pure (.error (.statusf .internal "release" e))
      | .ok stockResp => do
        match ← ask (.commitRelease tenantUUID req rows) with
        | .error e => pure (.error (.statusf .internal "release" e))
        | .ok () => pure (.ok ⟨true, stockResp.releasedSkuIds⟩)

def allocateReservation (rt : Runtime) (req : AllocateReservationRequest) :
    Code (Except Failure AllocateReservationResponse) :=
  match parseUUID rt req.tenantId with
  | .error e => pure (.error (.statusf .invalidArgument "" e))
  | .ok tenantUUID => do
    match ← ask (.allocate tenantUUID req) with
    | .error e => pure (.error (.statusf .internal "allocate reservation" e))
    | .ok count => pure (.ok ⟨true, Int32.ofNat count⟩)

def groupKey (r : Reservation) : GroupKey := ⟨r.tenantID.text, r.orderID⟩

/-- The groups in order of first appearance; the sweeper ranges over them in
any order. -/
def groupByOrder (rows : List Reservation) : List (GroupKey × List Reservation) :=
  (rows.map groupKey).dedup.map fun k => (k, rows.filter fun r => groupKey r = k)

def releaseRequest (tenant orderID : String) (rows : List Reservation) : ReleaseStockRequest :=
  ⟨tenant, orderID, "ttl_expiry", compensationKey tenant orderID, rows.map rowLine⟩

def markExpired (row : Reservation) : Code Unit := do
  match ← ask (.markExpired row) with
  | .error _ => pure ()
  | .ok () => do
    let _ ← ask (.expiredEvent row)
    pure ()

def sweepGroup (k : GroupKey) (rows : List Reservation) : Code Unit := do
  match ← rpc .sweeperRelease (ask (.releaseStock (releaseRequest k.tenant k.orderID rows)
      rows)) with
  | .error _ => pure ()
  | .ok _ => .forEach markExpired rows

def sweepOnce (batch : Int32) : Code Unit := do
  let now ← ask .timeNow
  match ← ask (.getExpiredReservations now batch) with
  | .error _ => pure ()
  | .ok expired => do
    let groups := groupByOrder expired
    let keys ← ask (.rangeOver (groups.map (·.1)))
    .forEach (fun k => sweepGroup k (expired.filter fun r => groupKey r = k)) keys

structure SagaInput where
  tenantID : String
  tenantUUID : UUID
  orderID : String
  lines : List OrderLine
  idemKey : String
  ttl : Int32
  forcePaymentFailure : Bool

def reserveItems (lines : List OrderLine) : List ReservationItem :=
  lines.map fun l => ⟨l.skuId, l.warehouseId, l.quantity⟩

def stockLines (lines : List OrderLine) : List StockLine :=
  lines.map fun l => ⟨l.skuId, l.warehouseId, l.quantity⟩

def compensate (rt : Runtime) (tenantID orderID reason : String) : Code (Except Failure Unit) :=
  match parseUUID rt tenantID with
  | .error e => pure (.error e)
  | .ok tenantUUID => do
    match ← rpc .sagaRelease (release rt ⟨tenantID, "", orderID, reason,
        compensationKey tenantID orderID⟩) with
    | .error e => pure (.error (.errorf "release" e))
    | .ok _ => ask (.transition tenantID tenantUUID orderID .compensated (-1) reason)

def failSaga (rt : Runtime) (tenantID orderID msg : String) : Code (Except Failure Unit) :=
  match parseUUID rt tenantID with
  | .error e => pure (.error e)
  | .ok tenantUUID => ask (.transition tenantID tenantUUID orderID .failed (-1) msg)

def chargeStep (input : SagaInput) : Code (Except Failure (Except Failure String)) :=
  if input.forcePaymentFailure then pure (.ok (.error (.paymentDeclined "")))
  else do
    let allowed ← ask (.allow .payment)
    if allowed then do
      let res ← ask (.charge ⟨input.orderID, input.tenantID, orderTotal input.lines, "USD",
        input.idemKey ++ ":charge"⟩)
      pure (.ok res)
    else pure (.error (.statusf .unavailable "" .circuitOpen))

def confirmSteps (rt : Runtime) (input : SagaInput) (txnID : String) :
    Code (Except Failure CreateOrderResponse) := do
  match ← rpc .sagaAllocate (allocateReservation rt ⟨input.tenantID, input.orderID,
      input.idemKey ++ ":allocate"⟩) with
  | .error e => do
    let _ ← failSaga rt input.tenantID input.orderID ("allocate: " ++ rt.errorText e)
    pure (.error (.statusf .internal "allocate" e))
  | .ok _ => do
    let allowed ← ask (.allow .stock)
    if allowed then do
      match ← rpc .sagaConfirm (ask (.confirmStockAllocation ⟨input.tenantID, input.orderID,
          input.idemKey ++ ":confirm", stockLines input.lines⟩)) with
      | .error e => do
        let _ ← failSaga rt input.tenantID input.orderID ("confirm: " ++ rt.errorText e)
        pure (.error (.statusf .internal "confirm" e))
      | .ok _ => do
        match ← ask (.transition input.tenantID input.tenantUUID input.orderID .confirmed 3
            "") with
        | .error e => pure (.error (.statusf .internal "saga transition" e))
        | .ok () => pure (.ok ⟨input.orderID, .confirmed, orderTotal input.lines, txnID⟩)
    else pure (.error (.statusf .unavailable "" .circuitOpen))

def paySteps (rt : Runtime) (input : SagaInput) : Code (Except Failure CreateOrderResponse) := do
  match ← chargeStep input with
  | .error e => pure (.error e)
  | .ok (.error _) => do
    match ← compensate rt input.tenantID input.orderID "payment_failed" with
    | .error e => do
      let _ ← failSaga rt input.tenantID input.orderID
        ("payment failed AND compensation error: " ++ rt.errorText e)
      pure (.error (.statusf .internal "compensate" e))
    | .ok () => pure (.ok ⟨input.orderID, .compensated, orderTotal input.lines, ""⟩)
  | .ok (.ok txnID) => do
    match ← ask (.recordTransaction input.tenantID input.tenantUUID input.orderID txnID) with
    | .error e => pure (.error (.statusf .internal "record transaction" e))
    | .ok () => confirmSteps rt input txnID

/-- Whether a breaker records a success or a failure is left to the
environment, which decides at each `allow`. -/
def runSaga (rt : Runtime) (input : SagaInput) : Code (Except Failure CreateOrderResponse) := do
  let allowed ← ask (.allow .reservations)
  if allowed then do
    match ← rpc .sagaReserve (reserve rt ⟨input.tenantID, input.orderID,
        input.idemKey ++ ":reserve", reserveItems input.lines, input.ttl⟩) with
    | .error e => do
      let _ ← failSaga rt input.tenantID input.orderID ("reserve: " ++ rt.errorText e)
      pure (.error (.statusf .internal "reserve" e))
    | .ok resResp =>
      if resResp.success = false then do
        let _ ← failSaga rt input.tenantID input.orderID "insufficient stock"
        pure (.ok ⟨input.orderID, .failed, 0, ""⟩)
      else do
        match ← ask (.transition input.tenantID input.tenantUUID input.orderID .reserved 1
            "") with
        | .error e => pure (.error (.statusf .internal "saga transition" e))
        | .ok () => paySteps rt input
  else pure (.error (.statusf .unavailable "" .circuitOpen))

def replayCreateOrder (tenantUUID : UUID) (req : CreateOrderRequest) :
    Code (Except Failure CreateOrderResponse) := do
  match ← ask (.getSagaInstance req.tenantId tenantUUID req.orderId) with
  | .error e => pure (.error (.statusf .internal "replay" e))
  | .ok saga => pure (.ok ⟨req.orderId, saga.state, 0, ""⟩)

def createOrder (rt : Runtime) (req : CreateOrderRequest) :
    Code (Except Failure CreateOrderResponse) :=
  match parseUUID rt req.tenantId with
  | .error e => pure (.error (.statusf .invalidArgument "" e))
  | .ok tenantUUID =>
    if req.orderId = "" then pure (.error (.status .invalidArgument "order_id is required"))
    else if req.lines = [] then pure (.error (.status .invalidArgument "no lines provided"))
    else if orderTotal req.lines ≤ 0 then
      pure (.error (.status .invalidArgument "order total must be positive"))
    else do
      match ← ask (.createOrderRow tenantUUID req (orderTotal req.lines)) with
      | .error .idempotentReplay => replayCreateOrder tenantUUID req
      | .error e => pure (.error (.statusf .internal "create order" e))
      | .ok () => runSaga rt ⟨req.tenantId, tenantUUID, req.orderId, req.lines, req.idempotencyKey,
          ttlOrDefault req.ttlSeconds, req.forcePaymentFailure⟩

def cancelReason (reason : String) : String := if reason = "" then "customer_cancel" else reason

def cancelOrder (rt : Runtime) (req : CancelOrderRequest) :
    Code (Except Failure CancelOrderResponse) :=
  match parseUUID rt req.tenantId with
  | .error e => pure (.error (.statusf .invalidArgument "" e))
  | .ok tenantUUID => do
    match ← ask (.getSagaInstance req.tenantId tenantUUID req.orderId) with
    | .error e => pure (.error (.statusf .internal "get saga" e))
    | .ok saga =>
      if saga.state = .allocated ∨ saga.state = .confirmed then pure (.ok ⟨false, saga.state⟩)
      else if saga.state = .compensated ∨ saga.state = .failed then
        pure (.ok ⟨true, saga.state⟩)
      else do
        match ← compensate rt req.tenantId req.orderId (cancelReason req.reason) with
        | .error e => pure (.error (.statusf .internal "compensate" e))
        | .ok () => pure (.ok ⟨true, .compensated⟩)

/-- What a resumed saga runs on: the stored lines and key, the default TTL, and
no forced payment failure. -/
def resumeInput (saga : SagaInstance) (lines : List OrderLine) : SagaInput :=
  ⟨saga.tenantID.text, saga.tenantID, saga.orderID, lines, saga.idempotencyKey, defaultTTL, false⟩

def resumeEach (rt : Runtime) : List SagaInstance → Code (Except Failure Unit)
  | [] => pure (.ok ())
  | saga :: rest => do
    match ← ask (.getOrderLines saga.tenantID.text saga.tenantID saga.orderID) with
    | .error e => pure (.error (.errorf ("resume " ++ saga.orderID ++ ": load lines") e))
    | .ok lines => do
      let _ ← runSaga rt (resumeInput saga lines)
      resumeEach rt rest

def resumePendingSagas (rt : Runtime) (limit : Int32) : Code (Except Failure Unit) := do
  match ← ask (.getResumableSagas limit) with
  | .error e => pure (.error (.errorf "scan resumable sagas" e))
  | .ok sagas => resumeEach rt sagas

inductive Handler where
  | createOrder (req : CreateOrderRequest)
  | cancelOrder (req : CancelOrderRequest)
  | resumePendingSagas (limit : Int32)
  | reserve (req : ReserveRequest)
  | release (req : ReleaseRequest)
  | allocateReservation (req : AllocateReservationRequest)
  | sweepOnce (batch : Int32)

def serve {α : Type} (p : Code α) : Code Unit := do
  let _ ← p
  pure ()

def Handler.code (rt : Runtime) : Handler → Code Unit
  | .createOrder req => serve (Services.createOrder rt req)
  | .cancelOrder req => serve (Services.cancelOrder rt req)
  | .resumePendingSagas limit => serve (Services.resumePendingSagas rt limit)
  | .reserve req => serve (Services.reserve rt req)
  | .release req => serve (Services.release rt req)
  | .allocateReservation req => serve (Services.allocateReservation rt req)
  | .sweepOnce batch => serve (Services.sweepOnce batch)

end Taper.Services
