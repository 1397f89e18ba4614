import Taper.StockTables

set_option autoImplicit false

/-!
# The stock service handlers

The four movements between buckets share the three writes of a line; what
happens at a location without a row differs from handler to handler.
-/
namespace Taper.StockHandlers
open Messages Transaction Platform StockTables

def tryIdempotency (rt : Runtime) (tenantID : UUID) (key : String) (msg : Message) :
    StockTx Bool :=
  if key = "" then pure false
  else do
    let inserted ← checkAndInsertIdempotencyKey tenantID key (rt.payloadHash msg)
    pure (!inserted)

/-- The frame of a handler: the tenant is parsed, the statements run in one
transaction, and an error is reported under the handler's name. -/
def tenantRpc {α : Type} (rt : Runtime) (tenantId context : String) (fn : UUID → StockTx α)
    (db : StockDb) : Except Failure α × StockDb :=
  match parseUUID rt tenantId with
  | .error e => (.error (.statusf .invalidArgument "" e), db)
  | .ok tenantID =>
    match execTxWithTenant rt tenantId (fn tenantID) db with
    | (.error e, db') => (.error (.statusf .internal context e), db')
    | (.ok resp, db') => (.ok resp, db')

/-- A keyed request answers a repeat with `again` and does its work once. -/
def keyedTx {α : Type} (rt : Runtime) (tenantID : UUID) (key : String) (msg : Message)
    (again work : StockTx α) : StockTx α := do
  let dup ← tryIdempotency rt tenantID key msg
  if dup then again else work

def sortedLines (rt : Runtime) (lines : List StockLine) : List StockLine := rt.sortSlice lines

def lineLocation (tenantID : UUID) (l : StockLine) : StockLocation :=
  ⟨tenantID, l.skuId, l.warehouseId⟩

def stockAggregate (tenantID : UUID) (skuID : String) : String := tenantID.text ++ ":" ++ skuID

def adjustAgain (loc : StockLocation) : StockTx AdjustStockResponse := do
  match ← getStockLevelForUpdate loc with
  | none => .throw (.sql .noRows)
  | some level => pure ⟨true, level.availableQty, level.reservedQty, level.allocatedQty,
      level.availableQty == 0, none⟩

def adjustOnce (tenantID : UUID) (req : AdjustStockRequest) (loc : StockLocation) :
    StockTx AdjustStockResponse := do
  upsertStockLevel loc req.quantityDelta
  match ← getStockLevelForUpdate loc with
  | none => .throw (.sql .noRows)
  | some level =>
    let clamped : Bool := level.availableQty < 0
    let newAvailable : Int32 := if clamped then 0 else level.availableQty
    updateStockLevel loc { level with availableQty := newAvailable }
    let event ← insertStockEvent ⟨tenantID, req.skuId, req.warehouseId, req.quantityDelta,
      req.reason, req.source, "system"⟩
    insertOutboxEvent ⟨tenantID, "stock", stockAggregate tenantID req.skuId, "stock.adjusted",
      .adjust req.skuId req.warehouseId req.quantityDelta newAvailable req.reason req.source⟩
    if clamped then
      insertOutboxEvent ⟨tenantID, "stock", stockAggregate tenantID req.skuId,
        "stock.deficit_alert",
        .deficit req.skuId req.warehouseId req.quantityDelta req.reason req.source⟩
    pure ⟨true, newAvailable, level.reservedQty, level.allocatedQty, clamped, some event⟩

def adjustTx (rt : Runtime) (tenantID : UUID) (req : AdjustStockRequest) :
    StockTx AdjustStockResponse :=
  let loc : StockLocation := ⟨tenantID, req.skuId, req.warehouseId⟩
  keyedTx rt tenantID req.idempotencyKey (.adjustStock req) (adjustAgain loc)
    (adjustOnce tenantID req loc)

def adjustStock (rt : Runtime) (req : AdjustStockRequest) (db : StockDb) :
    Except Failure AdjustStockResponse × StockDb :=
  tenantRpc rt req.tenantId "adjust stock" (fun tenantID => adjustTx rt tenantID req) db

structure Movement where
  level : StockLevel → Int32 → StockLevel
  delta : Int32 → Int32
  reason : String
  source : String
  actorID : String
  eventType : String
  action : String

def reserveMove (orderID : String) : Movement where
  level old q :=
    { old with availableQty := old.availableQty - q, reservedQty := old.reservedQty + q }
  delta q := -q
  reason := "reserve"
  source := "reservation"
  actorID := orderID
  eventType := "stock.reserved"
  action := "reserve"

def releaseMove (orderID reason : String) : Movement where
  level old q :=
    { old with availableQty := old.availableQty + q, reservedQty := old.reservedQty - q }
  delta q := q
  reason := reason
  source := "reservation"
  actorID := orderID
  eventType := "stock.released"
  action := "release"

def confirmMove : Movement where
  level old q :=
    { old with reservedQty := old.reservedQty - q, allocatedQty := old.allocatedQty + q }
  delta q := q
  reason := "allocate"
  source := "reservation"
  actorID := "system"
  eventType := "stock.allocated"
  action := "allocate"

def fulfillMove : Movement where
  level old q := { old with allocatedQty := old.allocatedQty - q }
  delta q := q
  reason := "fulfill"
  source := "fulfillment"
  actorID := "system"
  eventType := "stock.fulfilled"
  action := "fulfill"

def Movement.event (m : Movement) (tenantID : UUID) (l : StockLine) : StockEvent :=
  ⟨tenantID, l.skuId, l.warehouseId, m.delta l.quantity, m.reason, m.source, m.actorID⟩

def Movement.outboxEvent (m : Movement) (tenantID : UUID) (orderID : String) (l : StockLine) :
    StockOutboxEvent :=
  ⟨tenantID, "stock", stockAggregate tenantID l.skuId, m.eventType,
    .line m.action orderID l.skuId l.warehouseId l.quantity⟩

def moveLine (m : Movement) (tenantID : UUID) (orderID : String) (l : StockLine)
    (level : StockLevel) : StockTx Unit := do
  updateStockLevel (lineLocation tenantID l) (m.level level l.quantity)
  let _ ← insertStockEvent (m.event tenantID l)
  insertOutboxEvent (m.outboxEvent tenantID orderID l)

/-- A line that cannot be held reports its SKU and writes nothing. -/
def reserveLine (tenantID : UUID) (orderID : String) (l : StockLine) :
    StockTx (Option String) := do
  match ← getStockLevelForUpdate (lineLocation tenantID l) with
  | none => pure (some l.skuId)
  | some level =>
    if level.isLockedForAudit ∨ level.availableQty < l.quantity then pure (some l.skuId)
    else
      moveLine (reserveMove orderID) tenantID orderID l level
      pure none

def reserveTx (rt : Runtime) (tenantID : UUID) (req : ReserveStockRequest) :
    StockTx ReserveStockResponse :=
  keyedTx rt tenantID req.idempotencyKey (.reserveStock req) (pure ⟨true, []⟩) do
    let failed ← Tx.collect (reserveLine tenantID req.orderId) (sortedLines rt req.lines)
    if failed = [] then pure ⟨true, []⟩
    else .throw (.insufficientStock failed)

def reserveStock (rt : Runtime) (req : ReserveStockRequest) (db : StockDb) :
    Except Failure ReserveStockResponse × StockDb :=
  match parseUUID rt req.tenantId with
  | .error e => (.error (.statusf .invalidArgument "" e), db)
  | .ok tenantID =>
    if (sortedLines rt req.lines).length = 0 then
      (.error (.status .invalidArgument "no lines provided"), db)
    else
      match execTxWithTenant rt req.tenantId (reserveTx rt tenantID req) db with
      | (.error (.insufficientStock failed), db') => (.ok ⟨false, failed⟩, db')
      | (.error e, db') => (.error (.statusf .internal "reserve stock" e), db')
      | (.ok resp, db') => (.ok resp, db')

def releaseLine (tenantID : UUID) (orderID reason : String) (l : StockLine) :
    StockTx (Option String) := do
  match ← getStockLevelForUpdate (lineLocation tenantID l) with
  | none => pure none
  | some level =>
    moveLine (releaseMove orderID reason) tenantID orderID l level
    pure (some l.skuId)

def releaseTx (rt : Runtime) (tenantID : UUID) (req : ReleaseStockRequest) :
    StockTx ReleaseStockResponse :=
  keyedTx rt tenantID req.idempotencyKey (.releaseStock req) (pure ⟨true, []⟩) do
    let released ← Tx.collect (releaseLine tenantID req.orderId req.reason)
      (sortedLines rt req.lines)
    pure ⟨true, released⟩

def releaseStock (rt : Runtime) (req : ReleaseStockRequest) (db : StockDb) :
    Except Failure ReleaseStockResponse × StockDb :=
  tenantRpc rt req.tenantId "release stock" (fun tenantID => releaseTx rt tenantID req) db

def requiredLine {β : Type} (m : Movement) (report : StockLevel → β) (tenantID : UUID)
    (orderID : String) (l : StockLine) : StockTx (Option β) := do
  match ← getStockLevelForUpdate (lineLocation tenantID l) with
  | none => .throw (.sql .noRows)
  | some level =>
    moveLine m tenantID orderID l level
    pure (some (report level))

def confirmLine (tenantID : UUID) (orderID : String) (l : StockLine) :
    StockTx (Option StockAllocationLine) :=
  requiredLine confirmMove (fun _ => ⟨l.skuId, l.warehouseId, l.quantity⟩) tenantID orderID l

def confirmTx (rt : Runtime) (tenantID : UUID) (req : ConfirmStockAllocationRequest) :
    StockTx ConfirmStockAllocationResponse :=
  keyedTx rt tenantID req.idempotencyKey (.confirmStockAllocation req) (pure ⟨true, []⟩) do
    let out ← Tx.collect (confirmLine tenantID req.orderId) (sortedLines rt req.lines)
    pure ⟨true, out⟩

def confirmStockAllocation (rt : Runtime) (req : ConfirmStockAllocationRequest) (db : StockDb) :
    Except Failure ConfirmStockAllocationResponse × StockDb :=
  tenantRpc rt req.tenantId "confirm allocation" (fun tenantID => confirmTx rt tenantID req) db

def fulfillLine (tenantID : UUID) (orderID : String) (l : StockLine) :
    StockTx (Option FulfillStockLine) :=
  requiredLine fulfillMove (fun level => ⟨l.skuId, l.warehouseId, level.allocatedQty - l.quantity⟩)
    tenantID orderID l

def fulfillTx (rt : Runtime) (tenantID : UUID) (req : FulfillStockRequest) :
    StockTx FulfillStockResponse :=
  keyedTx rt tenantID req.idempotencyKey (.fulfillStock req) (pure ⟨true, []⟩) do
    let out ← Tx.collect (fulfillLine tenantID req.orderId) (sortedLines rt req.lines)
    pure ⟨true, out⟩

def fulfillStock (rt : Runtime) (req : FulfillStockRequest) (db : StockDb) :
    Except Failure FulfillStockResponse × StockDb :=
  tenantRpc rt req.tenantId "fulfill stock" (fun tenantID => fulfillTx rt tenantID req) db

def unlockTx (tenantID : UUID) (req : UnlockStockForAuditRequest) :
    StockTx UnlockStockForAuditResponse := do
  let loc : StockLocation := ⟨tenantID, req.skuId, req.warehouseId⟩
  match ← getStockLevelForUpdate loc with
  | none => pure ⟨false, false⟩
  | some _ =>
    .modify (setAuditLock loc false)
    let actor := if req.actorId = "" then "warehouse-manager" else req.actorId
    let _ ← insertStockEvent ⟨tenantID, req.skuId, req.warehouseId, 0, req.reason,
      "reconciliation", actor⟩
    pure ⟨true, true⟩

def unlockStockForAudit (rt : Runtime) (req : UnlockStockForAuditRequest) (db : StockDb) :
    Except Failure UnlockStockForAuditResponse × StockDb :=
  tenantRpc rt req.tenantId "unlock for audit" (fun tenantID => unlockTx tenantID req) db

end Taper.StockHandlers
