import Taper.Platform

set_option autoImplicit false

/-!
# The stock database

Columns that only carry timestamps or trace context are left out; `stock_levels`
and the key table are functions of their primary keys.
-/
namespace Taper.StockTables
open Messages Transaction

structure StockLocation where
  tenantID : UUID
  skuID : String
  warehouseID : String
  deriving DecidableEq

def StockLocation.stored (loc : StockLocation) : StockLocation :=
  ⟨loc.tenantID, column 255 loc.skuID, column 255 loc.warehouseID⟩

structure StockLevel where
  availableQty : Int32
  reservedQty : Int32
  allocatedQty : Int32
  isLockedForAudit : Bool
  deriving DecidableEq

structure StockEvent where
  tenantID : UUID
  skuID : String
  warehouseID : String
  delta : Int32
  reason : String
  source : String
  actorID : String
  deriving DecidableEq

def StockEvent.location (e : StockEvent) : StockLocation := ⟨e.tenantID, e.skuID, e.warehouseID⟩

def StockEvent.stored (e : StockEvent) : StockEvent :=
  { e with
    skuID := column 255 e.skuID
    warehouseID := column 255 e.warehouseID
    reason := column 255 e.reason
    source := column 255 e.source
    actorID := column 255 e.actorID }

inductive StockPayload where
  | line (action orderID skuID warehouseID : String) (quantity : Int32)
  | adjust (skuID warehouseID : String) (quantityDelta availableQty : Int32)
      (reason source : String)
  | deficit (skuID warehouseID : String) (delta : Int32) (reason source : String)
  deriving DecidableEq

structure StockOutboxEvent where
  tenantID : UUID
  aggregateType : String
  aggregateID : String
  eventType : String
  payload : StockPayload
  deriving DecidableEq

def StockOutboxEvent.location (e : StockOutboxEvent) : StockLocation :=
  match e.payload with
  | .line _ _ skuID warehouseID _ => ⟨e.tenantID, skuID, warehouseID⟩
  | .adjust skuID warehouseID _ _ _ _ => ⟨e.tenantID, skuID, warehouseID⟩
  | .deficit skuID warehouseID _ _ _ => ⟨e.tenantID, skuID, warehouseID⟩

def StockOutboxEvent.stored (e : StockOutboxEvent) : StockOutboxEvent :=
  { e with aggregateID := column 255 e.aggregateID }

structure StockDb where
  stockLevels : StockLocation → Option StockLevel
  stockEvents : List StockEvent
  outbox : List StockOutboxEvent
  processedKeys : UUID → String → Option String

def StockDb.empty : StockDb := ⟨fun _ => none, [], [], fun _ _ => none⟩

abbrev StockTx := Tx StockDb Failure

def StockDb.setLevel (db : StockDb) (loc : StockLocation) (level : StockLevel) : StockDb :=
  { db with stockLevels := Function.update db.stockLevels loc (some level) }

def StockDb.setKey (db : StockDb) (tenantID : UUID) (key hash : String) : StockDb :=
  let keys := Function.update (db.processedKeys tenantID) key (some hash)
  { db with processedKeys := Function.update db.processedKeys tenantID keys }

/-- The three CHECK constraints of `stock_levels`, in the order they are declared. -/
def StockLevel.check (level : StockLevel) : Except SqlError Unit :=
  if level.availableQty < 0 then .error (.checkViolation "stock_levels_available_nonneg")
  else if level.reservedQty < 0 then .error (.checkViolation "stock_levels_reserved_nonneg")
  else if level.allocatedQty < 0 then .error (.checkViolation "stock_levels_allocated_nonneg")
  else .ok ()

def writeLevel (loc : StockLocation) (level : StockLevel) : StockTx Unit :=
  match level.check with
  | .error e => .throw (.sql e)
  | .ok () => .modify fun db => db.setLevel loc level

/-- No row has a longer name than its columns hold. -/
def StockDb.find (db : StockDb) (loc : StockLocation) : Option StockLevel :=
  if loc.stored = loc then db.stockLevels loc else none

def getStockLevelForUpdate (loc : StockLocation) : StockTx (Option StockLevel) := do
  .require (storable loc.skuID && storable loc.warehouseID) (.sql .badText)
  let db ← .read
  pure (db.find loc)

def updateStockLevel (loc : StockLocation) (level : StockLevel) : StockTx Unit := do
  let db ← .read
  match db.stockLevels loc with
  | none => .throw (.sql .noRows)
  | some _ => writeLevel loc level

def insertStockEvent (e : StockEvent) : StockTx ℕ := do
  .require (varchar 255 e.skuID && varchar 255 e.warehouseID && varchar 255 e.reason &&
    varchar 255 e.source && varchar 255 e.actorID) (.sql .tooLong)
  let db ← .read
  .modify fun db => { db with stockEvents := db.stockEvents ++ [e.stored] }
  pure db.stockEvents.length

/-- `jsonb` holds any text without NUL. -/
def StockPayload.storable : StockPayload → Bool
  | line action orderID skuID warehouseID _ =>
    Messages.storable action && Messages.storable orderID && Messages.storable skuID &&
      Messages.storable warehouseID
  | adjust skuID warehouseID _ _ reason source
  | deficit skuID warehouseID _ reason source =>
    Messages.storable skuID && Messages.storable warehouseID && Messages.storable reason &&
      Messages.storable source

def insertOutboxEvent (e : StockOutboxEvent) : StockTx Unit := do
  .require (varchar 255 e.aggregateID && e.payload.storable) (.sql .tooLong)
  .modify fun db => { db with outbox := db.outbox ++ [e.stored] }

/-- Whether a row was inserted; `false` is the conflict that returns no row. -/
def checkAndInsertIdempotencyKey (tenantID : UUID) (key hash : String) : StockTx Bool := do
  .require (varchar 255 key) (.sql .tooLong)
  let db ← .read
  match db.processedKeys tenantID (column 255 key) with
  | some _ => pure false
  | none => do
    .modify fun db => db.setKey tenantID (column 255 key) hash
    pure true

/-- The proposed row is checked before the conflict is looked for, and the sum
is taken in SQL, where an overflow is an error. -/
def upsertStockLevel (loc : StockLocation) (availableQty : Int32) : StockTx Unit := do
  .require (varchar 255 loc.skuID && varchar 255 loc.warehouseID) (.sql .tooLong)
  let proposed : StockLevel := ⟨availableQty, 0, 0, false⟩
  match proposed.check with
  | .error e => .throw (.sql e)
  | .ok () => do
    let db ← .read
    match db.stockLevels loc.stored with
    | none => writeLevel loc.stored proposed
    | some level =>
      let sum := level.availableQty.toInt + availableQty.toInt
      if -2147483648 ≤ sum ∧ sum ≤ 2147483647 then
        writeLevel loc.stored { level with availableQty := level.availableQty + availableQty }
      else .throw (.sql .outOfRange)

/-- An update that matches no row is no error. -/
def setAuditLock (loc : StockLocation) (locked : Bool) (db : StockDb) : StockDb :=
  match db.stockLevels loc with
  | none => db
  | some level => db.setLevel loc { level with isLockedForAudit := locked }

@[simp] theorem setLevel_self (db : StockDb) (loc : StockLocation) (level : StockLevel) :
    (db.setLevel loc level).stockLevels loc = some level := Function.update_self ..

variable {loc : StockLocation} {db : StockDb}

theorem setLevel_of_ne (db : StockDb) {other : StockLocation} (level : StockLevel)
    (h : other ≠ loc) : (db.setLevel loc level).stockLevels other = db.stockLevels other :=
  Function.update_of_ne h ..

theorem stored_eq_iff :
    loc.stored = loc ↔ loc.skuID.length ≤ 255 ∧ loc.warehouseID.length ≤ 255 := by
  cases loc
  simp [StockLocation.stored, column_eq_iff]

theorem find_eq (within : loc.stored = loc) :
    db.find loc = db.stockLevels loc := if_pos within

theorem located_of_find (found : db.find loc ≠ none) :
    db.stockLevels loc ≠ none := by
  intro absent
  rw [StockDb.find, absent, ite_self] at found
  exact found rfl

theorem find_some_iff {level : StockLevel} :
    db.find loc = some level ↔ loc.stored = loc ∧ db.stockLevels loc = some level := by
  unfold StockDb.find
  split_ifs with within
  · simp [within]
  · simp [within]

theorem check_ok_iff (level : StockLevel) : level.check = .ok () ↔
    0 ≤ level.availableQty.toInt ∧ 0 ≤ level.reservedQty.toInt ∧ 0 ≤ level.allocatedQty.toInt := by
  have zero : (0 : Int32).toInt = 0 := by decide
  simp only [StockLevel.check, Int32.lt_iff_toInt_lt, zero]
  split_ifs <;> simp <;> omega

theorem writeLevel_ok_iff {level : StockLevel} {db' : StockDb} {u : Unit} :
    (writeLevel loc level).run db = .ok (u, db') ↔
      level.check = .ok () ∧ db' = db.setLevel loc level := by
  unfold writeLevel
  cases h : level.check with
  | error e => simp
  | ok u => simp [eq_comm]

end Taper.StockTables
