import Taper.StockSteps
import Mathlib.Data.List.Dedup
import Mathlib.Algebra.Ring.Int.Defs

set_option autoImplicit false

/-!
# Reconciliation

Sums and buckets are 64-bit; the comparison is made in 32 bits.
-/
namespace Taper.StockReconcile
open Messages Platform StockTables

structure ReasonSum where
  reason : String
  totalDelta : Int64
  deriving DecidableEq

structure Drift where
  tenantID : String
  skuID : String
  warehouseID : String
  expectedAvailable : Int32
  actualAvailable : Int32
  expectedReserved : Int32
  actualReserved : Int32
  expectedAllocated : Int32
  actualAllocated : Int32
  deriving DecidableEq

structure Derived where
  avail : Int64
  reserved : Int64
  allocated : Int64
  deriving DecidableEq

def deriveReason (acc : Derived) (r : ReasonSum) : Derived :=
  if r.reason = "allocate" then
    { acc with reserved := acc.reserved - r.totalDelta, allocated := acc.allocated + r.totalDelta }
  else if r.reason = "fulfill" then
    { acc with allocated := acc.allocated - r.totalDelta }
  else if r.reason = "reserve" ∨ r.reason = "release" then
    { acc with reserved := acc.reserved - r.totalDelta, avail := acc.avail + r.totalDelta }
  else { acc with avail := acc.avail + r.totalDelta }

def deriveBuckets (reasons : List ReasonSum) : Derived := reasons.foldl deriveReason ⟨0, 0, 0⟩

def listDistinctEventLocations (rt : Runtime) (db : StockDb) : List StockLocation :=
  rt.rows (db.stockEvents.map StockEvent.location).dedup

def eventsAt (db : StockDb) (loc : StockLocation) : List StockEvent :=
  db.stockEvents.filter fun e => e.location = loc

def reasonTotal (events : List StockEvent) (reason : String) : ℤ :=
  ((events.filter fun e => e.reason = reason).map fun e => e.delta.toInt).sum

/-- `SUM(delta)::BIGINT` of one group; a sum outside 64 bits is an error. -/
def reasonSum (events : List StockEvent) (reason : String) : Except Failure ReasonSum :=
  let total := reasonTotal events reason
  if -9223372036854775808 ≤ total ∧ total ≤ 9223372036854775807 then
    .ok ⟨reason, Int64.ofInt total⟩
  else .error (.sql .outOfRange)

def sumDeltasByReason (rt : Runtime) (db : StockDb) (loc : StockLocation) :
    Except Failure (List ReasonSum) :=
  let events := eventsAt db loc
  (rt.rows (events.map StockEvent.reason).dedup).mapM (reasonSum events)

def drift (loc : StockLocation) (level : StockLevel) (d : Derived) : Drift where
  tenantID := loc.tenantID.text
  skuID := loc.skuID
  warehouseID := loc.warehouseID
  expectedAvailable := d.avail.toInt32
  actualAvailable := level.availableQty
  expectedReserved := d.reserved.toInt32
  actualReserved := level.reservedQty
  expectedAllocated := d.allocated.toInt32
  actualAllocated := level.allocatedQty

def Drift.found (d : Drift) : Bool :=
  d.expectedAvailable != d.actualAvailable || d.expectedReserved != d.actualReserved ||
    d.expectedAllocated != d.actualAllocated

/-- The locations in turn. Each lock is its own statement, so the locks set
before an error stay. -/
def reconcileAll (rt : Runtime) :
    List StockLocation → StockDb → Except Failure (List Drift) × StockDb
  | [], db => (.ok [], db)
  | loc :: rest, db =>
    match db.stockLevels loc with
    | none => reconcileAll rt rest db
    | some level =>
      match sumDeltasByReason rt db loc with
      | .error e => (.error e, db)
      | .ok reasons =>
        let d := drift loc level (deriveBuckets reasons)
        if d.found then
          match reconcileAll rt rest (setAuditLock loc true db) with
          | (.error e, db') => (.error e, db')
          | (.ok drifts, db') => (.ok (d :: drifts), db')
        else reconcileAll rt rest db

def reconcile (rt : Runtime) (db : StockDb) : Except Failure (List Drift) × StockDb :=
  reconcileAll rt (listDistinctEventLocations rt db) db

end Taper.StockReconcile
