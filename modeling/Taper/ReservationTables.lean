import Taper.Ledger

set_option autoImplicit false

/-!
# The reservation database

`release` spans a call to the stock service, so its transaction comes in two
parts. Row identifiers are numbered in order of insertion; rows fetched `ORDER
BY id` come in an order of their own, since the stored identifiers are random.
-/
namespace Taper.ReservationTables
open Messages Transaction Platform Ledger

inductive ReservationStatus where
  | active
  | allocated
  | released
  | expired
  deriving DecidableEq

structure Reservation where
  id : ℕ
  tenantID : UUID
  orderID : String
  skuID : String
  warehouseID : String
  quantity : Int32
  status : ReservationStatus
  expiresAt : ℤ
  deriving DecidableEq

/-- The payload is the JSON text the service has put together. -/
structure ReservationOutboxEvent where
  tenantID : UUID
  aggregateType : String
  aggregateID : String
  eventType : String
  payload : String
  deriving DecidableEq

def ReservationOutboxEvent.stored (e : ReservationOutboxEvent) : ReservationOutboxEvent :=
  { e with aggregateID := column 255 e.aggregateID }

structure ReservationDb where
  reservations : List Reservation
  outbox : List ReservationOutboxEvent
  processedKeys : KeyTable
  nextID : ℕ

def ReservationDb.empty : ReservationDb := ⟨[], [], fun _ _ => none, 0⟩

abbrev ReservationTx := Tx ReservationDb Failure

def reservationKeys : Keyed ReservationDb where
  keys db := db.processedKeys
  put db keys := { db with processedKeys := keys }
  keys_put _ _ := rfl

def insertReservation (tenantID : UUID) (orderID : String) (it : ReservationItem)
    (status : ReservationStatus) (expiresAt : ℤ) : ReservationTx Reservation := do
  .require (varchar 255 orderID && varchar 255 it.skuId && varchar 255 it.warehouseId)
    (.sql .tooLong)
  .require (0 < it.quantity) (.sql (.checkViolation "reservations_quantity_positive"))
  let db ← .read
  let row : Reservation := ⟨db.nextID, tenantID, column 255 orderID, column 255 it.skuId,
    column 255 it.warehouseId, it.quantity, status, expiresAt⟩
  .modify fun db =>
    { db with reservations := db.reservations ++ [row], nextID := db.nextID + 1 }
  pure row

def ReservationDb.setStatus (db : ReservationDb) (id : ℕ) (status : ReservationStatus) :
    ReservationDb :=
  { db with reservations :=
      db.reservations.map fun r => if r.id = id then { r with status := status } else r }

def updateReservationStatus (id : ℕ) (status : ReservationStatus) : ReservationTx Unit := do
  let db ← .read
  if db.reservations.any (fun r => r.id == id) then .modify fun db => db.setStatus id status
  else .throw (.sql .noRows)

def partitionKey (tenantUUID : UUID) (entityID : String) : String :=
  tenantUUID.text ++ ":" ++ entityID

def insertOutboxEvent (rt : Runtime) (e : ReservationOutboxEvent) : ReservationTx Unit := do
  .require (varchar 255 e.aggregateID) (.sql .tooLong)
  .require (rt.jsonb e.payload) (.sql .badJson)
  .modify fun db => { db with outbox := db.outbox ++ [e.stored] }

def orderPayload (orderID : String) : String := "\x7b\"order_id\":\"" ++ orderID ++ "\"\x7d"

def linePayload (orderID skuID : String) : String :=
  "\x7b\"order_id\":\"" ++ orderID ++ "\",\"sku_id\":\"" ++ skuID ++ "\"\x7d"

def reservationEvent (tenantUUID : UUID) (orderID eventType payload : String) :
    ReservationOutboxEvent :=
  ⟨tenantUUID, "reservation", partitionKey tenantUUID orderID, eventType, payload⟩

/-- `FOR UPDATE SKIP LOCKED`: rows locked by another transaction are left out. -/
def activeRows (rt : Runtime) (tenantID : UUID) (orderID : String) (locked : List ℕ)
    (db : ReservationDb) : List Reservation :=
  rt.rows (db.reservations.filter fun r =>
    r.tenantID = tenantID ∧ r.orderID = orderID ∧ r.status = .active ∧ r.id ∉ locked)

def getActiveReservationsByOrder (rt : Runtime) (tenantID : UUID) (orderID : String)
    (locked : List ℕ) : ReservationTx (List Reservation) := do
  .require (storable orderID) (.sql .badText)
  let db ← .read
  pure (activeRows rt tenantID orderID locked db)

def insertItem (rt : Runtime) (tenantUUID : UUID) (orderID : String) (expiresAt : ℤ)
    (it : ReservationItem) : ReservationTx (Option ℕ) := do
  let row ← insertReservation tenantUUID orderID it .active expiresAt
  insertOutboxEvent rt (reservationEvent tenantUUID orderID "reservation.created"
    (linePayload orderID it.skuId))
  pure (some row.id)

def insertReservations (rt : Runtime) (tenantUUID : UUID) (req : ReserveRequest) (expiresAt : ℤ) :
    ReservationTx (Option ℕ) := do
  claimOnce reservationKeys tenantUUID req.idempotencyKey (rt.payloadHash (.reserve req))
    .alreadyProcessed
  let ids ← Tx.collect (insertItem rt tenantUUID req.orderId expiresAt) req.items
  pure ids.head?

/-- The rows in turn: the new status, then its event. -/
def markRow (rt : Runtime) (tenantUUID : UUID) (orderID eventType : String)
    (status : ReservationStatus) (row : Reservation) : ReservationTx (Option Unit) := do
  updateReservationStatus row.id status
  insertOutboxEvent rt (reservationEvent tenantUUID orderID eventType (orderPayload orderID))
  pure (some ())

def releaseClaim (rt : Runtime) (tenantUUID : UUID) (req : ReleaseRequest) (locked : List ℕ) :
    ReservationTx (List Reservation) := do
  claimOnce reservationKeys tenantUUID req.idempotencyKey (rt.payloadHash (.release req))
    .alreadyProcessed
  getActiveReservationsByOrder rt tenantUUID req.orderId locked

def releaseMark (rt : Runtime) (tenantUUID : UUID) (req : ReleaseRequest)
    (rows : List Reservation) : ReservationTx Unit := do
  claimOnce reservationKeys tenantUUID req.idempotencyKey (rt.payloadHash (.release req))
    .alreadyProcessed
  let _ ← Tx.collect (markRow rt tenantUUID req.orderId "reservation.released" .released) rows
  pure ()

/-- A key recorded before is no error here: nothing is left to allocate. -/
def allocateTx (rt : Runtime) (tenantUUID : UUID) (req : AllocateReservationRequest)
    (locked : List ℕ) : ReservationTx ℕ := do
  let new ← claimNew reservationKeys tenantUUID req.idempotencyKey
    (rt.payloadHash (.allocateReservation req))
  if new then do
    let rows ← getActiveReservationsByOrder rt tenantUUID req.orderId locked
    let done ← Tx.collect
      (markRow rt tenantUUID req.orderId "reservation.allocated" .allocated) rows
    pure done.length
  else pure 0

def expiredRows (now : ℤ) (locked : List ℕ) (db : ReservationDb) : List Reservation :=
  db.reservations.filter fun r => r.expiresAt < now ∧ r.status = .active ∧ r.id ∉ locked

end Taper.ReservationTables
