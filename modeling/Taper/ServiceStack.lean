import Taper.StockHandlers
import Taper.ReservationTables
import Taper.OrderTables
import Taper.Program

set_option autoImplicit false

/-!
# The three services over their databases

One operation is one local transaction, one request to the stock service, or one
thing the environment decides. The transactions of `Release` and of the look-up
of a repeated `Reserve` stay open, with their keys and rows held.
-/
namespace Taper.ServiceStack
open Messages Platform StockTables StockHandlers ReservationTables OrderTables
open Program

inductive Breaker where
  | reservations
  | payment
  | stock
  deriving DecidableEq

inductive Site where
  | sagaReserve
  | sagaRelease
  | sagaAllocate
  | sagaConfirm
  | reserveStock
  | undoReserve
  | releaseStock
  | sweeperRelease
  deriving DecidableEq

def Site.ofSaga : Site → Bool
  | sagaReserve | sagaRelease | sagaAllocate | sagaConfirm => true
  | _ => false

structure ChargeRequest where
  orderID : String
  tenantID : String
  amount : Int64
  currency : String
  idemKey : String
  deriving DecidableEq

structure GroupKey where
  tenant : String
  orderID : String
  deriving DecidableEq

/-- A `releaseStock` operation also says which reservation rows its lines come
from; the stock service never sees them. -/
inductive Op where
  | allow (b : Breaker)
  | send (site : Site)
  | answer (site : Site)
  | timeNow
  | rangeOver (keys : List GroupKey)
  | charge (req : ChargeRequest)
  | reserveStock (req : ReserveStockRequest)
  | releaseStock (req : ReleaseStockRequest) (rows : List Reservation)
  | confirmStockAllocation (req : ConfirmStockAllocationRequest)
  | insertReservations (tenantUUID : UUID) (req : ReserveRequest) (expiresAt : ℤ)
  | firstReservationID (tenantUUID : UUID) (req : ReserveRequest)
  | beginRelease (tenantUUID : UUID) (req : ReleaseRequest)
  | commitRelease (tenantUUID : UUID) (req : ReleaseRequest) (rows : List Reservation)
  | endTx
  | allocate (tenantUUID : UUID) (req : AllocateReservationRequest)
  | getExpiredReservations (now : ℤ) (limit : Int32)
  | markExpired (row : Reservation)
  | expiredEvent (row : Reservation)
  | createOrderRow (tenantUUID : UUID) (req : CreateOrderRequest) (total : Int64)
  | getSagaInstance (tenantID : String) (tenantUUID : UUID) (orderID : String)
  | transition (tenantID : String) (tenantUUID : UUID) (orderID : String) (state : SagaState)
      (step : Int32) (errMsg : String)
  | recordTransaction (tenantID : String) (tenantUUID : UUID) (orderID txn : String)
  | getResumableSagas (limit : Int32)
  | getOrderLines (tenantID : String) (tenantUUID : UUID) (orderID : String)

@[reducible] def Resp : Op → Type
  | .allow _ => Bool
  | .send _ => Bool
  | .answer _ => Bool
  | .timeNow => ℤ
  | .rangeOver _ => List GroupKey
  | .charge _ => Except Failure String
  | .reserveStock _ => Except Failure ReserveStockResponse
  | .releaseStock _ _ => Except Failure ReleaseStockResponse
  | .confirmStockAllocation _ => Except Failure ConfirmStockAllocationResponse
  | .insertReservations _ _ _ => Except Failure (Option ℕ)
  | .firstReservationID _ _ => Option ℕ
  | .beginRelease _ _ => Except Failure (List Reservation)
  | .commitRelease _ _ _ => Except Failure Unit
  | .endTx => Unit
  | .allocate _ _ => Except Failure ℕ
  | .getExpiredReservations _ _ => Except Failure (List Reservation)
  | .markExpired _ => Except Failure Unit
  | .expiredEvent _ => Except Failure Unit
  | .createOrderRow _ _ _ => Except Failure Unit
  | .getSagaInstance _ _ _ => Except Failure SagaInstance
  | .transition _ _ _ _ _ _ => Except Failure Unit
  | .recordTransaction _ _ _ _ => Except Failure Unit
  | .getResumableSagas _ => Except Failure (List SagaInstance)
  | .getOrderLines _ _ _ => Except Failure (List OrderLine)

abbrev Code := Prog Op Resp

def ask (o : Op) : Code (Resp o) := .perform o

structure OpenTx where
  thread : ℕ
  tenantID : UUID
  key : String
  rows : List ℕ

structure Stack where
  stock : StockDb
  reservation : ReservationDb
  openTxs : List OpenTx
  order : OrderDb

def Stack.locked (s : Stack) : List ℕ := s.openTxs.flatMap fun o => o.rows

def Stack.keyHeld (s : Stack) (tenantID : UUID) (key : String) : Bool :=
  s.openTxs.any fun o => o.tenantID = tenantID ∧ o.key = column 255 key ∧ key ≠ ""

def Stack.close (s : Stack) (me : ℕ) : Stack :=
  { s with openTxs := s.openTxs.filter fun o => o.thread ≠ me }

def Stack.stocked (levels : StockLocation → Option StockLevel) : Stack :=
  ⟨⟨levels, [], [], fun _ _ => none⟩, .empty, [], .empty⟩

/-- What the environment decides at one operation: whether the database is
reached, whether a breaker or the network lets a call pass, the time, the rows a
`LIMIT` leaves or the order a map is ranged over, and a new UUID. -/
structure Choice where
  fault : Bool
  pass : Bool
  now : ℤ
  picks : List ℕ
  uuid : String

def Choice.healthy : Choice := ⟨false, true, 0, [], "tx"⟩

def charge (rt : Runtime) (req : ChargeRequest) (uuid : String) : Except Failure String :=
  if req.amount ≤ 0 then .error (.paymentDeclined "amount must be positive")
  else if rt.sandboxFailListed req.orderID then .error (.paymentDeclined req.orderID)
  else .ok ("sbx_" ++ uuid)

/-- The keys at the chosen positions, each exactly once. -/
def ranged (keys : List GroupKey) (picks : List ℕ) : Option (List GroupKey) :=
  let out := picks.filterMap fun i => keys[i]?
  if out.Perm keys then some out else none

def limited (candidates : List Reservation) (limit : ℕ) (picks : List ℕ) :
    Option (List Reservation) :=
  let out := picks.filterMap fun id => candidates.find? fun r => r.id == id
  if picks.Nodup ∧ out.length = picks.length ∧ out.length = min limit candidates.length then
    some out
  else none

def stockCall {α : Type} (call : StockDb → Except Failure α × StockDb) (c : Choice) (s : Stack) :
    Option (Except Failure α × Stack) :=
  if c.fault then some (.error (.sql .connection), s)
  else some ((call s.stock).1, { s with stock := (call s.stock).2 })

def reservationTx {α : Type} (rt : Runtime) (tenantID : String) (tx : ReservationTx α) (c : Choice)
    (s : Stack) : Option (Except Failure α × Stack) :=
  if c.fault then some (.error (.sql .connection), s)
  else
    let out := execTxWithTenant rt tenantID tx s.reservation
    some (out.1, { s with reservation := out.2 })

def sweeperTx {α : Type} (tx : ReservationTx α) (c : Choice) (s : Stack) :
    Option (Except Failure α × Stack) :=
  if c.fault then some (.error (.sql .connection), s)
  else some ((tx.commit s.reservation).1, { s with reservation := (tx.commit s.reservation).2 })

def orderTx {α : Type} (rt : Runtime) (tenantID : String) (tx : OrderTx α) (c : Choice)
    (s : Stack) : Option (Except Failure α × Stack) :=
  if c.fault then some (.error (.sql .connection), s)
  else
    let out := execTxWithTenant rt tenantID tx s.order
    some (out.1, { s with order := out.2 })

/-- The claim of a release: without rows to return the transaction commits at
once, otherwise it stays open. -/
def beginRelease (rt : Runtime) (me : ℕ) (tenantUUID : UUID) (req : ReleaseRequest) (c : Choice)
    (s : Stack) : Option (Except Failure (List Reservation) × Stack) :=
  if c.fault then some (.error (.sql .connection), s)
  else
    match execTxWithTenant rt req.tenantId (releaseClaim rt tenantUUID req s.locked)
        s.reservation with
    | (.error e, _) => some (.error e, s)
    | (.ok [], db) => some (.ok [], { s with reservation := db })
    | (.ok rows, _) =>
      let held : OpenTx := ⟨me, tenantUUID, column 255 req.idempotencyKey, rows.map (·.id)⟩
      some (.ok rows, { s with openTxs := s.openTxs ++ [held] })

/-- The writes after the stock service has answered. Either way the transaction
is over. -/
def commitRelease (rt : Runtime) (me : ℕ) (tenantUUID : UUID) (req : ReleaseRequest)
    (rows : List Reservation) (c : Choice) (s : Stack) : Option (Except Failure Unit × Stack) :=
  if c.fault then some (.error (.sql .connection), s.close me)
  else
    let out := execTxWithTenant rt req.tenantId (releaseMark rt tenantUUID req rows) s.reservation
    some (out.1, { s.close me with reservation := out.2 })

/-- The rows of the order are locked; no key is. -/
def firstReservationID (rt : Runtime) (me : ℕ) (tenantUUID : UUID) (req : ReserveRequest)
    (c : Choice) (s : Stack) : Option ℕ × Stack :=
  if c.fault then (none, s)
  else
    let rows := activeRows rt tenantUUID req.orderId s.locked s.reservation
    let held : OpenTx := ⟨me, tenantUUID, "", rows.map (·.id)⟩
    (rows.head?.map (·.id), { s with openTxs := s.openTxs ++ [held] })

def exec (rt : Runtime) (me : ℕ) : (o : Op) → Choice → Stack → Option (Resp o × Stack)
  | .allow _, c, s => some (c.pass, s)
  | .send _, c, s => some (c.pass, s)
  | .answer _, c, s => some (c.pass, s)
  | .timeNow, c, s => some (c.now, s)
  | .rangeOver keys, c, s => (ranged keys c.picks).map fun out => (out, s)
  | .charge req, c, s => some (charge rt req c.uuid, s)
  | .reserveStock req, c, s => stockCall (reserveStock rt req) c s
  | .releaseStock req _, c, s => stockCall (releaseStock rt req) c s
  | .confirmStockAllocation req, c, s => stockCall (confirmStockAllocation rt req) c s
  | .insertReservations tenantUUID req expiresAt, c, s =>
    if s.keyHeld tenantUUID req.idempotencyKey then none
    else reservationTx rt req.tenantId (insertReservations rt tenantUUID req expiresAt) c s
  | .firstReservationID tenantUUID req, c, s =>
    some (firstReservationID rt me tenantUUID req c s)
  | .beginRelease tenantUUID req, c, s =>
    if s.keyHeld tenantUUID req.idempotencyKey then none
    else beginRelease rt me tenantUUID req c s
  | .commitRelease tenantUUID req rows, c, s => commitRelease rt me tenantUUID req rows c s
  | .endTx, _, s => some ((), s.close me)
  | .allocate tenantUUID req, c, s =>
    if s.keyHeld tenantUUID req.idempotencyKey then none
    else reservationTx rt req.tenantId (allocateTx rt tenantUUID req s.locked) c s
  | .getExpiredReservations now limit, c, s =>
    if c.fault then some (.error (.sql .connection), s)
    else if limit < 0 then some (.error (.sql .outOfRange), s)
    else (limited (expiredRows now s.locked s.reservation) limit.toInt.toNat c.picks).map
      fun rows => (.ok rows, s)
  | .markExpired row, c, s =>
    if row.id ∈ s.locked then none else sweeperTx (updateReservationStatus row.id .expired) c s
  | .expiredEvent row, c, s =>
    sweeperTx (ReservationTables.insertOutboxEvent rt (reservationEvent row.tenantID row.orderID
      "reservation.expired" (linePayload row.orderID row.skuID))) c s
  | .createOrderRow tenantUUID req total, c, s =>
    orderTx rt req.tenantId (createOrderRow rt tenantUUID req total) c s
  | .getSagaInstance tenantID tenantUUID orderID, c, s =>
    orderTx rt tenantID (getSagaInstance tenantUUID orderID) c s
  | .transition tenantID tenantUUID orderID state step errMsg, c, s =>
    orderTx rt tenantID (transition tenantUUID orderID state step errMsg) c s
  | .recordTransaction tenantID tenantUUID orderID txn, c, s =>
    orderTx rt tenantID (recordTransaction tenantUUID orderID txn) c s
  | .getResumableSagas limit, c, s =>
    if c.fault then some (.error (.sql .connection), s)
    else some (((getResumableSagas limit).commit s.order).1, s)
  | .getOrderLines tenantID tenantUUID orderID, c, s =>
    orderTx rt tenantID (getOrderLines rt tenantUUID orderID) c s

/-- A thread that stops loses its open transaction. -/
def machine (rt : Runtime) : Machine Op Resp Stack Choice where
  exec := exec rt
  stop me s := s.close me

end Taper.ServiceStack
