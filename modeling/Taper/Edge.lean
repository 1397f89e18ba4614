import Taper.BreakerCalls
import Taper.Confinement
import Taper.OrderRoutes
import Taper.ProgramRules
import Taper.RateLimit

set_option autoImplicit false

/-!
# The gateway in front of the services

Each request passes the middleware, becomes a message of one of the services and
waits for the answer within a time limit. The service goes on with a call whose
answer nobody waits for any more.
-/
namespace Taper.Edge
open Auth Gateway Messages Platform Program RateLimit UrlPath Utf8
open BreakerCalls (CallError StatusCode)
open CircuitBreaker (Breaker)
open Fulfillment (FulfillOrderResponse)
open OrderRoutes (Incoming ProtoMessage byID decode missingClaims)
open OrderTables (OrderDb)
open OrderViews (GetOrderRequest GetOrderResponse)
open ServiceStack (Stack)

inductive Rpc where
  | adjustStock (req : AdjustStockRequest)
  | reserveStock (req : ReserveStockRequest)
  | releaseStock (req : ReleaseStockRequest)
  | confirmStockAllocation (req : ConfirmStockAllocationRequest)
  | fulfillStock (req : FulfillStockRequest)
  | unlockStockForAudit (req : UnlockStockForAuditRequest)
  | reserve (req : ReserveRequest)
  | release (req : ReleaseRequest)
  | allocateReservation (req : AllocateReservationRequest)
  | createOrder (req : CreateOrderRequest)
  | cancelOrder (req : CancelOrderRequest)
  | fulfillOrder (req : FulfillOrderRequest)
  | getOrder (req : GetOrderRequest)
  deriving DecidableEq

inductive Answer where
  | adjustStock (resp : AdjustStockResponse)
  | reserveStock (resp : ReserveStockResponse)
  | releaseStock (resp : ReleaseStockResponse)
  | confirmStockAllocation (resp : ConfirmStockAllocationResponse)
  | fulfillStock (resp : FulfillStockResponse)
  | unlockStockForAudit (resp : UnlockStockForAuditResponse)
  | reserve (resp : ReserveResponse)
  | release (resp : ReleaseResponse)
  | allocateReservation (resp : AllocateReservationResponse)
  | createOrder (resp : CreateOrderResponse)
  | cancelOrder (resp : CancelOrderResponse)
  | fulfillOrder (resp : FulfillOrderResponse)
  | getOrder (resp : GetOrderResponse)

def Rpc.handler : Rpc → Handler
  | adjustStock _ => .adjustStock
  | reserveStock _ => .reserveStock
  | releaseStock _ => .releaseStock
  | confirmStockAllocation _ => .confirmStockAllocation
  | fulfillStock _ => .fulfillStock
  | unlockStockForAudit _ => .unlockStockForAudit
  | reserve _ => .reserve
  | release _ => .release
  | allocateReservation _ => .allocateReservation
  | createOrder _ => .createOrder
  | cancelOrder _ => .cancelOrder
  | fulfillOrder _ => .fulfillOrder
  | getOrder _ => .getOrder

def Rpc.zero : Handler → Rpc
  | .adjustStock => adjustStock ⟨"", "", "", 0, "", "", ""⟩
  | .reserveStock => reserveStock ⟨"", "", "", []⟩
  | .releaseStock => releaseStock ⟨"", "", "", "", []⟩
  | .confirmStockAllocation => confirmStockAllocation ⟨"", "", "", []⟩
  | .fulfillStock => fulfillStock ⟨"", "", "", []⟩
  | .unlockStockForAudit => unlockStockForAudit ⟨"", "", "", "", ""⟩
  | .reserve => reserve ⟨"", "", "", [], 0⟩
  | .release => release ⟨"", "", "", "", ""⟩
  | .allocateReservation => allocateReservation ⟨"", "", ""⟩
  | .createOrder => createOrder ⟨"", "", [], "", 0, false⟩
  | .cancelOrder => cancelOrder ⟨"", "", "", ""⟩
  | .fulfillOrder => fulfillOrder ⟨"", "", ""⟩
  | .getOrder => getOrder ⟨"", ""⟩

def Rpc.tenantID : Rpc → String
  | adjustStock req => req.tenantId
  | reserveStock req => req.tenantId
  | releaseStock req => req.tenantId
  | confirmStockAllocation req => req.tenantId
  | fulfillStock req => req.tenantId
  | unlockStockForAudit req => req.tenantId
  | reserve req => req.tenantId
  | release req => req.tenantId
  | allocateReservation req => req.tenantId
  | createOrder req => req.tenantId
  | cancelOrder req => req.tenantId
  | fulfillOrder req => req.tenantId
  | getOrder req => req.tenantId

/-- The string fields that the gateway sets, where a message has them: the tenant,
the idempotency key and the order. -/
def Rpc.edit (t k o : String → String) : Rpc → Rpc
  | adjustStock req =>
    adjustStock { req with tenantId := t req.tenantId, idempotencyKey := k req.idempotencyKey }
  | reserveStock req => reserveStock { req with
      tenantId := t req.tenantId, orderId := o req.orderId, idempotencyKey := k req.idempotencyKey }
  | releaseStock req => releaseStock { req with
      tenantId := t req.tenantId, orderId := o req.orderId, idempotencyKey := k req.idempotencyKey }
  | confirmStockAllocation req => confirmStockAllocation { req with
      tenantId := t req.tenantId, orderId := o req.orderId, idempotencyKey := k req.idempotencyKey }
  | fulfillStock req => fulfillStock { req with
      tenantId := t req.tenantId, orderId := o req.orderId, idempotencyKey := k req.idempotencyKey }
  | unlockStockForAudit req => unlockStockForAudit { req with tenantId := t req.tenantId }
  | reserve req => reserve { req with
      tenantId := t req.tenantId, orderId := o req.orderId, idempotencyKey := k req.idempotencyKey }
  | release req => release { req with
      tenantId := t req.tenantId, orderId := o req.orderId, idempotencyKey := k req.idempotencyKey }
  | allocateReservation req => allocateReservation { req with
      tenantId := t req.tenantId, orderId := o req.orderId, idempotencyKey := k req.idempotencyKey }
  | createOrder req => createOrder { req with
      tenantId := t req.tenantId, orderId := o req.orderId, idempotencyKey := k req.idempotencyKey }
  | cancelOrder req => cancelOrder { req with
      tenantId := t req.tenantId, orderId := o req.orderId, idempotencyKey := k req.idempotencyKey }
  | fulfillOrder req => fulfillOrder { req with
      tenantId := t req.tenantId, orderId := o req.orderId, idempotencyKey := k req.idempotencyKey }
  | getOrder req => getOrder { req with tenantId := t req.tenantId, orderId := o req.orderId }

@[simp] def Rpc.setTenantID (value : String) : Rpc → Rpc := edit (fun _ => value) id id

@[simp] def Rpc.setIdempotencyKey (value : String) : Rpc → Rpc := edit id (fun _ => value) id

@[simp] def Rpc.setOrderID (value : String) : Rpc → Rpc := edit id id fun _ => value

/-- A request as it arrives: with the wildcard of its path, its body, if it can be
read, and the header `Idempotency-Key`. -/
structure HttpRequest where
  head : Gateway.Request
  id : String
  body : Option Bytes
  idempotencyKey : String

structure Wiring where
  rt : Runtime
  conv : Conversion
  verify : ℤ → String → Option Claims
  splitHostPort : String → Option String
  durationText : ℤ → String
  mux : Mux
  unmarshal : Handler → Bytes → Except String Rpc
  unmarshal_handler : ∀ {h body rpc}, unmarshal h body = .ok rpc → rpc.handler = h
  marshal : Answer → Option String

section Decode

variable (w : Wiring)

def ofHandler (h : Handler) : ProtoMessage Rpc where
  zero := .zero h
  unmarshal := w.unmarshal h
  tenantID := Rpc.tenantID
  setTenantID := Rpc.setTenantID
  setIdempotencyKey := Rpc.setIdempotencyKey
  setOrderID := Rpc.setOrderID

def route (h : Handler) (r : Incoming) : Except HttpError Rpc :=
  match r.claims with
  | none => .error missingClaims
  | some claims => decode (ofHandler w h) r claims (.zero h)

def message : Handler → Incoming → Except HttpError Rpc
  | .cancelOrder => byID (ofHandler w .cancelOrder)
  | .fulfillOrder => byID (ofHandler w .fulfillOrder)
  | .getOrder => OrderRoutes.get (ofHandler w .getOrder)
  | h => route w h

end Decode

def statusCode : Messages.Code → StatusCode
  | .invalidArgument => .invalidArgument
  | .notFound => .notFound
  | .failedPrecondition => .failedPrecondition
  | .internal => .internal
  | .unavailable => .unavailable

def callError (rt : Runtime) : Failure → CallError
  | .status code message => .status (statusCode code) message
  | .statusf code context cause => .status (statusCode code)
      (if context = "" then rt.errorText cause else context ++ ": " ++ rt.errorText cause)
  | e => .status .unknown (rt.errorText e)

/-- The operations of a gateway request and of a service that has been called. A
call that was sent has a number, under which it is taken up and answered. -/
inductive Op where
  | clock
  | take (key : String)
  | allow (a : Area)
  | recordSuccess (a : Area)
  | recordFailure (a : Area)
  | breakerState (a : Area)
  | send (rpc : Rpc)
  | receive (call : ℕ)
  | accept (call : ℕ)
  | reply (call : ℕ) (res : Except Failure Answer)
  | transact (rpc : Rpc)
  | look
  | inside (o : ServiceStack.Op)

@[reducible] def Resp : Op → Type
  | .clock => ℤ
  | .take _ => Decision
  | .allow _ => Option String
  | .recordSuccess _ => Unit
  | .recordFailure _ => Unit
  | .breakerState _ => CircuitBreaker.State
  | .send _ => ℕ
  | .receive _ => Except CallError Answer
  | .accept _ => Rpc
  | .reply _ _ => Unit
  | .transact _ => Except Failure Answer
  | .look => Option OrderDb
  | .inside o => ServiceStack.Resp o

abbrev Code := Prog Op Resp

def ask (o : Op) : Code (Resp o) := .perform o

section Middleware

variable (w : Wiring)

def coreAt (now : ℤ) (d : Decision) : Core :=
  ⟨w.verify now, fun _ => d, w.splitHostPort, w.durationText⟩

def limitKey (now : ℤ) (r : Gateway.Request) : Option String :=
  if r.url.path = ascii "/healthz" ∨ r.url.path = ascii "/readyz" then none
  else if r.url.path = loginPath then
    some ("login:" ++ (coreAt w now ⟨true, 0⟩).loginHost r.remoteAddr)
  else
    match (coreAt w now ⟨true, 0⟩).authorize r with
    | .error _ => none
    | .ok claims =>
      if denied (operationFor r.method r.url.path) claims then none else some claims.tenantID

def limited (now : ℤ) (r : Gateway.Request) : Option String → Code Passage
  | none => pure ((coreAt w now ⟨true, 0⟩).middleware r)
  | some key => do
    let d ← ask (.take key)
    pure ((coreAt w now d).middleware r)

def middleware (r : Gateway.Request) : Code Passage := do
  let now ← ask .clock
  limited w now r (limitKey w now r)

/-- The call through the breaker of its service, with the connection in place of
the plain call. -/
def carry (rpc : Rpc) : (o : BreakerCalls.Op) → Code (BreakerCalls.Resp o)
  | .allow => ask (.allow rpc.handler.area)
  | .call => do
    let number ← ask (.send rpc)
    let res ← ask (.receive number)
    pure (res.map w.marshal)
  | .recordSuccess => ask (.recordSuccess rpc.handler.area)
  | .recordFailure => ask (.recordFailure rpc.handler.area)
  | .state => ask (.breakerState rpc.handler.area)

def invoke (rpc : Rpc) : Code (Except HttpError String) :=
  BreakerCalls.invoke.interpret (carry w rpc)

inductive Reply where
  | refused (refusal : Refusal)
  | answered (res : Except HttpError String)
  /-- The probes, the login and whatever else is mounted. -/
  | elsewhere

def pass (r : HttpRequest) : Passage → Code Reply
  | .refused refusal => pure (.refused refusal)
  | .next claims =>
    match w.mux.dispatch r.head.method r.head.url.escapedPath with
    | none => pure .elsewhere
    | some h =>
      match message w h ⟨r.id, r.body, r.idempotencyKey, claims⟩ with
      | .error e => pure (.answered (.error e))
      | .ok rpc => do
        let res ← invoke w rpc
        pure (.answered res)

def handle (r : HttpRequest) : Code Reply := do
  let passage ← middleware w r.head
  pass w r passage

end Middleware

section Service

def inside {α : Type} (p : ServiceStack.Code α) : Code α :=
  p.interpret fun o => ask (.inside o)

/-- What a handler of one transaction answers when the database is not reached. -/
def unreached (rt : Runtime) (rpc : Rpc) : Failure :=
  match parseUUID rt rpc.tenantID with
  | .error e => .statusf .invalidArgument "" e
  | .ok _ =>
    match rpc with
    | .adjustStock _ => .statusf .internal "adjust stock" (.sql .connection)
    | .reserveStock req =>
      if (StockHandlers.sortedLines rt req.lines).length = 0 then
        .status .invalidArgument "no lines provided"
      else .statusf .internal "reserve stock" (.sql .connection)
    | .releaseStock _ => .statusf .internal "release stock" (.sql .connection)
    | .confirmStockAllocation _ => .statusf .internal "confirm allocation" (.sql .connection)
    | .fulfillStock _ => .statusf .internal "fulfill stock" (.sql .connection)
    | .unlockStockForAudit _ => .statusf .internal "unlock for audit" (.sql .connection)
    | _ => .sql .connection

def getOrder (rt : Runtime) (req : GetOrderRequest) : Code (Except Failure GetOrderResponse) := do
  let atOrder ← ask .look
  let atLines ← ask .look
  let atSaga ← ask .look
  match atOrder, atLines, atSaga with
  | some atOrder, some atLines, some atSaga =>
    pure (OrderViews.getOrder rt req ⟨atOrder, atLines, atSaga⟩)
  | _, _, _ => pure (.error (unreached rt (.getOrder req)))

def Rpc.run (rt : Runtime) : Rpc → Code (Except Failure Answer)
  | reserve req => do return (← inside (Services.reserve rt req)).map .reserve
  | release req => do return (← inside (Services.release rt req)).map .release
  | allocateReservation req => do
    return (← inside (Services.allocateReservation rt req)).map .allocateReservation
  | createOrder req => do return (← inside (Services.createOrder rt req)).map .createOrder
  | cancelOrder req => do return (← inside (Services.cancelOrder rt req)).map .cancelOrder
  | getOrder req => do return (← Edge.getOrder rt req).map .getOrder
  -- the rest are one transaction each
  | rpc => ask (.transact rpc)

def serveCall (rt : Runtime) (number : ℕ) : Code Unit := do
  let rpc ← ask (.accept number)
  let res ← rpc.run rt
  ask (.reply number res)

end Service

/-- What runs: requests at the gateway, calls at the services, and the services'
own rounds. -/
inductive Task where
  | http (r : HttpRequest)
  | call (number : ℕ)
  | sweepOnce (batch : Int32)
  | resumePendingSagas (limit : Int32)

def Task.code (w : Wiring) : Task → Code Unit
  | .http r => do
    let _ ← handle w r
    pure ()
  | .call number => serveCall w.rt number
  | .sweepOnce batch => inside (Services.sweepOnce batch)
  | .resumePendingSagas limit => do
    let _ ← inside (Services.resumePendingSagas w.rt limit)
    pure ()

structure Call where
  rpc : Rpc
  taken : Bool
  result : Option (Except Failure Answer)

structure Shared where
  limiter : Limiter
  breakers : Area → Breaker
  calls : List Call
  stack : Stack
  now : ℤ

/-- The time that passes before an operation, the order in which the limiter's map
is walked, the error that ends a wait for an answer, and what the services meet. -/
structure Choice where
  elapsed : ℕ
  order : Order
  lost : Option CallError
  inner : ServiceStack.Choice

def onStock {α : Type} (call : StockTables.StockDb → Except Failure α × StockTables.StockDb)
    (answer : α → Answer) (s : Stack) : Except Failure Answer × Stack :=
  ((call s.stock).1.map answer, { s with stock := (call s.stock).2 })

def transact (rt : Runtime) : Rpc → Stack → Except Failure Answer × Stack
  | .adjustStock req => onStock (StockHandlers.adjustStock rt req) .adjustStock
  | .reserveStock req => onStock (StockHandlers.reserveStock rt req) .reserveStock
  | .releaseStock req => onStock (StockHandlers.releaseStock rt req) .releaseStock
  | .confirmStockAllocation req =>
    onStock (StockHandlers.confirmStockAllocation rt req) .confirmStockAllocation
  | .fulfillStock req => onStock (StockHandlers.fulfillStock rt req) .fulfillStock
  | .unlockStockForAudit req =>
    onStock (StockHandlers.unlockStockForAudit rt req) .unlockStockForAudit
  | .fulfillOrder req => fun s =>
    let out := Fulfillment.fulfillOrder rt req s.order
    (out.1.map .fulfillOrder, { s with order := out.2 })
  | rpc => fun s => (.error (unreached rt rpc), s)

def Shared.setBreaker (s : Shared) (a : Area) (b : Breaker) : Shared :=
  { s with breakers := Function.update s.breakers a b }

def execNow (w : Wiring) (me : ℕ) (c : Choice) (s : Shared) :
    (o : Op) → Option (Resp o × Shared)
  | .clock => some (s.now, s)
  | .take key =>
    let out := s.limiter.take w.conv c.order key s.now
    some (out.1, { s with limiter := out.2 })
  | .allow a =>
    let out := (s.breakers a).allow s.now
    some (out.1, s.setBreaker a out.2)
  | .recordSuccess a => some ((), s.setBreaker a (s.breakers a).recordSuccess)
  | .recordFailure a => some ((), s.setBreaker a ((s.breakers a).recordFailure s.now))
  | .breakerState a => some ((s.breakers a).state, s)
  | .send rpc => some (s.calls.length, { s with calls := s.calls ++ [⟨rpc, false, none⟩] })
  | .receive number =>
    match c.lost with
    | some e => some (.error e, s)
    | none => (s.calls[number]?.bind (·.result)).map fun res =>
        (res.mapError (callError w.rt), s)
  | .accept number =>
    match s.calls[number]? with
    | some ⟨rpc, false, result⟩ =>
      some (rpc, { s with calls := s.calls.set number ⟨rpc, true, result⟩ })
    | _ => none
  | .reply number res =>
    match s.calls[number]? with
    | some call =>
      some ((), { s with calls := s.calls.set number { call with result := some res } })
    | none => none
  | .transact rpc =>
    if c.inner.fault then some (.error (unreached w.rt rpc), s)
    else
      let out := transact w.rt rpc s.stack
      some (out.1, { s with stack := out.2 })
  | .look => some (if c.inner.fault then none else some s.stack.order, s)
  | .inside o => (ServiceStack.exec w.rt me o c.inner s.stack).map fun out =>
      (out.1, { s with stack := out.2 })

def machine (w : Wiring) : Machine Op Resp Shared Choice where
  exec me o c s := execNow w me c { s with now := s.now + c.elapsed } o
  stop me s := { s with stack := s.stack.close me }

abbrev EdgePool := Pool Op Resp Shared

def idle (s : Shared) : EdgePool := ⟨fun _ => none, s⟩

end Taper.Edge
