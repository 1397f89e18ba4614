import Taper.StockReplays
import Taper.TwoPhase

set_option autoImplicit false

/-!
# The stock requests statement by statement

The handlers are written again as scripts: an insert of a key and every
statement on a row of `stock_levels` reads and locks that one resource, and the
inserts into `stock_events` and `outbox` append to a log.
-/
namespace Taper.StockScripts
open Messages Platform TwoPhase StockTables StockConservation StockReplays
open StockHandlers (Movement reserveMove releaseMove confirmMove fulfillMove sortedLines
  lineLocation stockAggregate)

inductive Resource where
  | key (tenantID : UUID) (key : String)
  | row (loc : StockLocation)
  deriving DecidableEq

def Cell : Resource → Type
  | .key _ _ => Option String
  | .row _ => Option StockLevel

inductive Entry where
  | event (e : StockEvent)
  | outbox (e : StockOutboxEvent)

def Entry.location : Entry → StockLocation
  | event e => e.location
  | outbox e => e.location

def Entry.event? : Entry → Option StockEvent
  | event e => some e
  | outbox _ => none

def Entry.outbox? : Entry → Option StockOutboxEvent
  | event _ => none
  | outbox e => some e

abbrev Statements := Script Resource Cell Entry Failure

def append (e : Entry) : Statements Unit := .emit (.row e.location) e (.pure ())

/-- Takes the lock of a row in every case; a row that fails a check is not
written, and the statement fails. -/
def writeLevel (old new : StockLevel) : Option (Option StockLevel) × Statements Unit :=
  match new.check with
  | .error e => (some (some old), .fail (.sql e))
  | .ok () => (some (some new), .pure ())

def getStockLevelForUpdate (loc : StockLocation) : Statements (Option StockLevel) := do
  .require (storable loc.skuID && storable loc.warehouseID) (.sql .badText)
  if loc.stored = loc then
    .statement (.row loc) fun (cell : Option StockLevel) =>
      match cell with
      | none => (none, .pure none)
      | some level => (some (some level), .pure (some level))
  else pure none

def updateStockLevel (loc : StockLocation) (level : StockLevel) : Statements Unit :=
  .statement (.row loc) fun (cell : Option StockLevel) =>
    match cell with
    | none => (none, .fail (.sql .noRows))
    | some old => writeLevel old level

/-- The generated id is left out. -/
def insertStockEvent (e : StockEvent) : Statements Unit := do
  .require (varchar 255 e.skuID && varchar 255 e.warehouseID && varchar 255 e.reason &&
    varchar 255 e.source && varchar 255 e.actorID) (.sql .tooLong)
  append (.event e.stored)

def insertOutboxEvent (e : StockOutboxEvent) : Statements Unit := do
  .require (varchar 255 e.aggregateID && e.payload.storable) (.sql .tooLong)
  append (.outbox e.stored)

/-- A key that another transaction has inserted and not yet committed makes the
insert wait; one that is committed stays, and no lock is taken. -/
def checkAndInsertIdempotencyKey (tenantID : UUID) (key hash : String) : Statements Bool := do
  .require (varchar 255 key) (.sql .tooLong)
  .statement (.key tenantID (column 255 key)) fun (cell : Option String) =>
    match cell with
    | some _ => (none, .pure false)
    | none => (some (some hash), .pure true)

def addAvailable (level : StockLevel) (availableQty : Int32) :
    Option (Option StockLevel) × Statements Unit :=
  let sum := level.availableQty.toInt + availableQty.toInt
  if -2147483648 ≤ sum ∧ sum ≤ 2147483647 then
    writeLevel level { level with availableQty := level.availableQty + availableQty }
  else (some (some level), .fail (.sql .outOfRange))

def upsertStockLevel (loc : StockLocation) (availableQty : Int32) : Statements Unit := do
  .require (varchar 255 loc.skuID && varchar 255 loc.warehouseID) (.sql .tooLong)
  let proposed : StockLevel := ⟨availableQty, 0, 0, false⟩
  match proposed.check with
  | .error e => .fail (.sql e)
  | .ok () =>
    .statement (.row loc.stored) fun (cell : Option StockLevel) =>
      match cell with
      | none => (some (some proposed), .pure ())
      | some level => addAvailable level availableQty

def setAuditLock (loc : StockLocation) (locked : Bool) : Statements Unit :=
  .statement (.row loc) fun (cell : Option StockLevel) =>
    match cell with
    | none => (none, .pure ())
    | some level => (some (some { level with isLockedForAudit := locked }), .pure ())

def tryIdempotency (rt : Runtime) (tenantID : UUID) (key : String) (msg : Message) :
    Statements Bool :=
  if key = "" then pure false
  else do
    let inserted ← checkAndInsertIdempotencyKey tenantID key (rt.payloadHash msg)
    pure (!inserted)

def keyed {α : Type} (rt : Runtime) (tenantID : UUID) (key : String) (msg : Message)
    (again work : Statements α) : Statements α := do
  let dup ← tryIdempotency rt tenantID key msg
  if dup then again else work

def adjustAgain (loc : StockLocation) : Statements AdjustStockResponse := do
  match ← getStockLevelForUpdate loc with
  | none => .fail (.sql .noRows)
  | some level => pure ⟨true, level.availableQty, level.reservedQty, level.allocatedQty,
      level.availableQty == 0, none⟩

def adjustOnce (tenantID : UUID) (req : AdjustStockRequest) (loc : StockLocation) :
    Statements AdjustStockResponse := do
  upsertStockLevel loc req.quantityDelta
  match ← getStockLevelForUpdate loc with
  | none => .fail (.sql .noRows)
  | some level =>
    let clamped : Bool := level.availableQty < 0
    let newAvailable : Int32 := if clamped then 0 else level.availableQty
    updateStockLevel loc { level with availableQty := newAvailable }
    insertStockEvent ⟨tenantID, req.skuId, req.warehouseId, req.quantityDelta, req.reason,
      req.source, "system"⟩
    insertOutboxEvent ⟨tenantID, "stock", stockAggregate tenantID req.skuId, "stock.adjusted",
      .adjust req.skuId req.warehouseId req.quantityDelta newAvailable req.reason req.source⟩
    if clamped then
      insertOutboxEvent ⟨tenantID, "stock", stockAggregate tenantID req.skuId,
        "stock.deficit_alert",
        .deficit req.skuId req.warehouseId req.quantityDelta req.reason req.source⟩
    pure ⟨true, newAvailable, level.reservedQty, level.allocatedQty, clamped, none⟩

def adjust (rt : Runtime) (tenantID : UUID) (req : AdjustStockRequest) :
    Statements AdjustStockResponse :=
  let loc : StockLocation := ⟨tenantID, req.skuId, req.warehouseId⟩
  keyed rt tenantID req.idempotencyKey (.adjustStock req) (adjustAgain loc)
    (adjustOnce tenantID req loc)

def moveLine (m : Movement) (tenantID : UUID) (orderID : String) (l : StockLine)
    (level : StockLevel) : Statements Unit := do
  updateStockLevel (lineLocation tenantID l) (m.level level l.quantity)
  insertStockEvent (m.event tenantID l)
  insertOutboxEvent (m.outboxEvent tenantID orderID l)

def reserveLine (tenantID : UUID) (orderID : String) (l : StockLine) :
    Statements (Option String) := do
  match ← getStockLevelForUpdate (lineLocation tenantID l) with
  | none => pure (some l.skuId)
  | some level =>
    if level.isLockedForAudit ∨ level.availableQty < l.quantity then pure (some l.skuId)
    else
      moveLine (reserveMove orderID) tenantID orderID l level
      pure none

def reserve (rt : Runtime) (tenantID : UUID) (req : ReserveStockRequest) :
    Statements ReserveStockResponse :=
  keyed rt tenantID req.idempotencyKey (.reserveStock req) (pure ⟨true, []⟩) do
    let failed ← Script.collect (reserveLine tenantID req.orderId) (sortedLines rt req.lines)
    if failed = [] then pure ⟨true, []⟩
    else .fail (.insufficientStock failed)

def releaseLine (tenantID : UUID) (orderID reason : String) (l : StockLine) :
    Statements (Option String) := do
  match ← getStockLevelForUpdate (lineLocation tenantID l) with
  | none => pure none
  | some level =>
    moveLine (releaseMove orderID reason) tenantID orderID l level
    pure (some l.skuId)

def release (rt : Runtime) (tenantID : UUID) (req : ReleaseStockRequest) :
    Statements ReleaseStockResponse :=
  keyed rt tenantID req.idempotencyKey (.releaseStock req) (pure ⟨true, []⟩) do
    let released ← Script.collect (releaseLine tenantID req.orderId req.reason)
      (sortedLines rt req.lines)
    pure ⟨true, released⟩

def requiredLine {β : Type} (m : Movement) (report : StockLevel → β) (tenantID : UUID)
    (orderID : String) (l : StockLine) : Statements (Option β) := do
  match ← getStockLevelForUpdate (lineLocation tenantID l) with
  | none => .fail (.sql .noRows)
  | some level =>
    moveLine m tenantID orderID l level
    pure (some (report level))

def confirm (rt : Runtime) (tenantID : UUID) (req : ConfirmStockAllocationRequest) :
    Statements ConfirmStockAllocationResponse :=
  keyed rt tenantID req.idempotencyKey (.confirmStockAllocation req) (pure ⟨true, []⟩) do
    let out ← Script.collect (fun l => requiredLine confirmMove
      (fun _ => (⟨l.skuId, l.warehouseId, l.quantity⟩ : StockAllocationLine)) tenantID
      req.orderId l) (sortedLines rt req.lines)
    pure ⟨true, out⟩

def fulfill (rt : Runtime) (tenantID : UUID) (req : FulfillStockRequest) :
    Statements FulfillStockResponse :=
  keyed rt tenantID req.idempotencyKey (.fulfillStock req) (pure ⟨true, []⟩) do
    let out ← Script.collect (fun l => requiredLine fulfillMove
      (fun level => (⟨l.skuId, l.warehouseId, level.allocatedQty - l.quantity⟩ :
        FulfillStockLine)) tenantID req.orderId l) (sortedLines rt req.lines)
    pure ⟨true, out⟩

def unlock (tenantID : UUID) (req : UnlockStockForAuditRequest) :
    Statements UnlockStockForAuditResponse := do
  let loc : StockLocation := ⟨tenantID, req.skuId, req.warehouseId⟩
  match ← getStockLevelForUpdate loc with
  | none => pure ⟨false, false⟩
  | some _ =>
    setAuditLock loc false
    let actor := if req.actorId = "" then "warehouse-manager" else req.actorId
    insertStockEvent ⟨tenantID, req.skuId, req.warehouseId, 0, req.reason, "reconciliation", actor⟩
    pure ⟨true, true⟩

abbrev RequestScript := Script Resource Cell Entry StockAnswer StockAnswer

def execTxWithTenant {α : Type} (rt : Runtime) (tenantID : String) (fn : Statements α) :
    Statements α :=
  if tenantID = "" then .fail (.text "tenant ID missing from context")
  else
    match rt.cast tenantID with
    | none => .fail (.sql .badUuid)
    | some _ => fn

def tenantRpc {α : Type} (rt : Runtime) (tenantId context : String)
    (answer : Except Failure α → StockAnswer) (fn : UUID → Statements α) : RequestScript :=
  match parseUUID rt tenantId with
  | .error e => .fail (answer (.error (.statusf .invalidArgument "" e)))
  | .ok tenantID => (execTxWithTenant rt tenantId (fn tenantID)).report fun outcome =>
      answer (outcome.mapError (.statusf .internal context))

def reserveAnswer : Except Failure ReserveStockResponse → StockAnswer
  | .error (.insufficientStock failed) => .reserveStock (.ok ⟨false, failed⟩)
  | .error e => .reserveStock (.error (.statusf .internal "reserve stock" e))
  | .ok resp => .reserveStock (.ok resp)

def reserveStock (rt : Runtime) (req : ReserveStockRequest) : RequestScript :=
  match parseUUID rt req.tenantId with
  | .error e => .fail (.reserveStock (.error (.statusf .invalidArgument "" e)))
  | .ok tenantID =>
    if (sortedLines rt req.lines).length = 0 then
      .fail (.reserveStock (.error (.status .invalidArgument "no lines provided")))
    else
      (execTxWithTenant rt req.tenantId (reserve rt tenantID req)).report reserveAnswer

def script (rt : Runtime) : StockCall → Option RequestScript
  | .adjustStock req => some (tenantRpc rt req.tenantId "adjust stock" .adjustStock
      fun tenantID => adjust rt tenantID req)
  | .reserveStock req => some (reserveStock rt req)
  | .releaseStock req => some (tenantRpc rt req.tenantId "release stock" .releaseStock
      fun tenantID => release rt tenantID req)
  | .confirmStockAllocation req => some (tenantRpc rt req.tenantId "confirm allocation"
      .confirmStockAllocation fun tenantID => confirm rt tenantID req)
  | .fulfillStock req => some (tenantRpc rt req.tenantId "fulfill stock" .fulfillStock
      fun tenantID => fulfill rt tenantID req)
  | .unlockStockForAudit req => some (tenantRpc rt req.tenantId "unlock for audit"
      .unlockStockForAudit fun tenantID => unlock tenantID req)
  | .reconcile => none

section Alone

open Transaction

def cells (db : StockDb) : Store Cell
  | .key tenantID key => db.processedKeys tenantID key
  | .row loc => db.stockLevels loc

def eventsOf (log : List (Resource × Entry)) : List StockEvent := log.filterMap (·.2.event?)

def outboxOf (log : List (Resource × Entry)) : List StockOutboxEvent := log.filterMap (·.2.outbox?)

structure Logged (db db' : StockDb) (new : List (Resource × Entry)) : Prop where
  located : ∀ x ∈ new, x.1 = .row x.2.location
  events : db'.stockEvents = db.stockEvents ++ eventsOf new
  outbox : db'.outbox = db.outbox ++ outboxOf new

def Implements {α β : Type} (f : β → α) (m : Statements α) (tx : StockTx β) : Prop :=
  ∀ db log, (∃ b db' new, tx.run db = .ok (b, db') ∧
      exec m (cells db) log = .ok (f b, cells db', log ++ new) ∧ Logged db db' new) ∨
    ∃ e, tx.run db = .error e ∧ exec m (cells db) log = .error e

variable {α β γ δ : Type} {f : β → α}

theorem eventsOf_append (new more : List (Resource × Entry)) :
    eventsOf (new ++ more) = eventsOf new ++ eventsOf more := List.filterMap_append ..

theorem outboxOf_append (new more : List (Resource × Entry)) :
    outboxOf (new ++ more) = outboxOf new ++ outboxOf more := List.filterMap_append ..

variable {db db' : StockDb} {m : Statements α} {tx : StockTx β}

theorem logged_nil (events : db'.stockEvents = db.stockEvents) (outbox : db'.outbox = db.outbox) :
    Logged db db' [] where
  located _ mem := absurd mem List.not_mem_nil
  events := events.trans (List.append_nil _).symm
  outbox := outbox.trans (List.append_nil _).symm

theorem Logged.trans {db'' : StockDb} {new more : List (Resource × Entry)} (h : Logged db db' new)
    (h' : Logged db' db'' more) : Logged db db'' (new ++ more) where
  located x mem := (List.mem_append.1 mem).elim (h.located x) (h'.located x)
  events := by rw [h'.events, h.events, eventsOf_append, List.append_assoc]
  outbox := by rw [h'.outbox, h.outbox, outboxOf_append, List.append_assoc]

theorem implements_pure (b : β) : Implements f (pure (f b)) (pure b) :=
  fun db _ => .inl ⟨b, db, [], rfl, by rw [List.append_nil]; rfl, logged_nil rfl rfl⟩

theorem implements_throw (e : Failure) : Implements f (.fail e) (.throw e) :=
  fun _ _ => .inr ⟨e, rfl, rfl⟩

theorem implements_require (b : Bool) (e : Failure) :
    Implements id (.require b e) (.require b e) := by
  cases b with
  | false => exact implements_throw e
  | true => exact implements_pure (f := id) ()

theorem implements_bind {g : δ → γ} {k : α → Statements γ} {t : β → StockTx δ}
    (first : Implements f m tx) (later : ∀ b, Implements g (k (f b)) (t b)) :
    Implements g (m >>= k) (tx >>= t) := by
  intro db log
  rw [exec_bind, Tx.bind_run]
  rcases first db log with ⟨b, mid, new, run, ran, logged⟩ | ⟨e, run, ran⟩
  · rw [run, ran]
    rcases later b mid (log ++ new) with ⟨c, db', more, run', ran', logged'⟩ | failed
    · refine .inl ⟨c, db', new ++ more, run', ?_, logged.trans logged'⟩
      rw [← List.append_assoc]
      exact ran'
    · exact .inr failed
  · rw [run, ran]
    exact .inr ⟨e, rfl, rfl⟩

theorem implements_collect {visit : γ → Statements (Option δ)}
    {visit' : γ → StockTx (Option δ)} (each : ∀ c, Implements id (visit c) (visit' c))
    (items : List γ) :
    Implements id (Script.collect visit items) (Tx.collect visit' items) := by
  induction items with
  | nil => exact implements_pure (f := id) []
  | cons c rest ih =>
    exact implements_bind (each c) fun found =>
      implements_bind ih fun later => implements_pure (f := id) (found.toList ++ later)

theorem implements_ite {p : Prop} [Decidable p] {m' : Statements α} {tx' : StockTx β}
    (yes : p → Implements f m tx) (no : ¬p → Implements f m' tx') :
    Implements f (if p then m else m') (if p then tx else tx') := by
  by_cases h : p
  · rw [if_pos h, if_pos h]
    exact yes h
  · rw [if_neg h, if_neg h]
    exact no h

def Does {k : Resource} (f : β → α) (db : StockDb) (tx : StockTx β)
    (out : Option (Cell k) × Statements α) : Prop :=
  (∃ b db', tx.run db = .ok (b, db') ∧ out.2 = .pure (f b) ∧
      put (cells db) k out.1 = cells db' ∧ Logged db db' []) ∨
    ∃ e, tx.run db = .error e ∧ out.2 = .fail e

theorem implements_statement {k : Resource} {run : Cell k → Option (Cell k) × Statements α}
    (each : ∀ db, Does f db tx (run (cells db k))) :
    Implements f (.statement k run) tx := by
  intro db log
  change (∃ b db' new, _ ∧ exec (run (cells db k)).2 (put (cells db) k (run (cells db k)).1) log =
    _ ∧ _) ∨ ∃ e, _ ∧ exec (run (cells db k)).2 _ log = _
  rcases each db with ⟨b, db', ran, ends, stored, logged⟩ | ⟨e, ran, ends⟩
  · refine .inl ⟨b, db', [], ran, ?_, logged⟩
    rw [ends, stored, List.append_nil]
    rfl
  · refine .inr ⟨e, ran, ?_⟩
    rw [ends]
    rfl

theorem put_level (db : StockDb) (loc : StockLocation) (level : StockLevel) :
    put (cells db) (.row loc) (some (some level)) = cells (db.setLevel loc level) := by
  funext k
  by_cases same : k = .row loc
  · subst same
    exact (Function.update_self ..).trans (setLevel_self db loc level).symm
  · refine (Function.update_of_ne same ..).trans ?_
    cases k with
    | key t key => rfl
    | row other =>
      exact (setLevel_of_ne db level fun eq => same (congrArg Resource.row eq)).symm

theorem put_same (db : StockDb) (loc : StockLocation) (level : StockLevel)
    (row : db.stockLevels loc = some level) :
    put (cells db) (.row loc) (some (some level)) = cells db := by
  have same : cells db (.row loc) = some level := row
  exact (congrArg (Function.update (cells db) (.row loc)) same.symm).trans
    (Function.update_eq_self _ _)

theorem put_key (db : StockDb) (tenantID : UUID) (key hash : String) :
    put (cells db) (.key tenantID key) (some (some hash)) =
      cells (db.setKey tenantID key hash) := by
  funext k
  by_cases same : k = .key tenantID key
  · subst same
    have new : (db.setKey tenantID key hash).processedKeys tenantID key = some hash := by
      simp [StockDb.setKey]
    exact (Function.update_self ..).trans new.symm
  · refine (Function.update_of_ne same ..).trans ?_
    cases k with
    | row loc => rfl
    | key t other =>
      have old : (db.setKey tenantID key hash).processedKeys t other =
          db.processedKeys t other := by
        by_cases tenant : t = tenantID
        · subst tenant
          have ne : other ≠ key := fun eq => same (by rw [eq])
          simp [StockDb.setKey, ne]
        · simp [StockDb.setKey, tenant]
      exact old.symm

theorem getStockLevelForUpdate_implements (loc : StockLocation) :
    Implements id (getStockLevelForUpdate loc) (StockTables.getStockLevelForUpdate loc) := by
  refine implements_bind (implements_require _ _) fun _ => ?_
  by_cases within : loc.stored = loc
  · rw [if_pos within]
    refine implements_statement fun db => ?_
    simp only [cells]
    cases row : db.stockLevels loc with
    | none => exact .inl ⟨none, db, by simp [Tx.bind_run, find_eq within, row], rfl, rfl,
        logged_nil rfl rfl⟩
    | some level => exact .inl ⟨some level, db, by simp [Tx.bind_run, find_eq within, row], rfl,
        put_same db loc level row, logged_nil rfl rfl⟩
  · rw [if_neg within]
    have absent (db : StockDb) : db.find loc = none := if_neg within
    exact fun db log => .inl ⟨none, db, [], by simp [Tx.bind_run, absent],
      by rw [List.append_nil]; rfl, logged_nil rfl rfl⟩

theorem writeLevel_does (loc : StockLocation) (db : StockDb) (old new : StockLevel) :
    Does (k := .row loc) id db (StockTables.writeLevel loc new) (writeLevel old new) := by
  unfold StockTables.writeLevel writeLevel
  cases new.check with
  | error e => exact .inr ⟨.sql e, rfl, rfl⟩
  | ok u => exact .inl ⟨(), _, rfl, rfl, put_level db loc new, logged_nil rfl rfl⟩

theorem updateStockLevel_implements (loc : StockLocation) (level : StockLevel) :
    Implements id (updateStockLevel loc level) (StockTables.updateStockLevel loc level) := by
  refine implements_statement fun db => ?_
  have run : (StockTables.updateStockLevel loc level).run db =
      match db.stockLevels loc with
      | none => .error (.sql .noRows)
      | some _ => (StockTables.writeLevel loc level).run db := by
    unfold StockTables.updateStockLevel
    rw [Tx.bind_run, Tx.read_run]
    cases row : db.stockLevels loc <;> simp [row]
  simp only [cells]
  cases row : db.stockLevels loc with
  | none => exact .inr ⟨.sql .noRows, by rw [run, row], rfl⟩
  | some old =>
    have same : (StockTables.updateStockLevel loc level).run db =
        (StockTables.writeLevel loc level).run db := by rw [run, row]
    unfold Does
    rw [same]
    exact writeLevel_does loc db old level

theorem append_implements (e : Entry) {f : β → Unit}
    (run : ∀ db, ∃ b db', tx.run db = .ok (b, db') ∧ cells db' = cells db ∧
      Logged db db' [(.row e.location, e)]) : Implements f (append e) tx := by
  intro db log
  obtain ⟨b, db', ran, same, logged⟩ := run db
  refine .inl ⟨b, db', _, ran, ?_, logged⟩
  rw [same]
  rfl

theorem cells_congr (levels : db'.stockLevels = db.stockLevels)
    (keys : db'.processedKeys = db.processedKeys) : cells db' = cells db := by
  funext k
  cases k with
  | key t key => exact congrFun (congrFun keys t) key
  | row loc => exact congrFun levels loc

theorem insertStockEvent_implements (e : StockEvent) :
    Implements (fun _ => ()) (insertStockEvent e) (StockTables.insertStockEvent e) := by
  refine implements_bind (implements_require _ _) fun _ =>
    append_implements (.event e.stored) fun db => ?_
  refine ⟨db.stockEvents.length, { db with stockEvents := db.stockEvents ++ [e.stored] }, rfl,
    cells_congr rfl rfl, ?_, rfl, (List.append_nil _).symm⟩
  simp

theorem insertOutboxEvent_implements (e : StockOutboxEvent) :
    Implements id (insertOutboxEvent e) (StockTables.insertOutboxEvent e) := by
  refine implements_bind (implements_require _ _) fun _ =>
    append_implements (f := id) (.outbox e.stored) fun db => ?_
  refine ⟨(), { db with outbox := db.outbox ++ [e.stored] }, rfl, cells_congr rfl rfl, ?_,
    (List.append_nil _).symm, rfl⟩
  simp

theorem checkAndInsertIdempotencyKey_implements (tenantID : UUID) (key hash : String) :
    Implements id (checkAndInsertIdempotencyKey tenantID key hash)
      (StockTables.checkAndInsertIdempotencyKey tenantID key hash) := by
  refine implements_bind (implements_require _ _) fun _ => implements_statement fun db => ?_
  simp only [cells]
  cases found : db.processedKeys tenantID (column 255 key) with
  | none => exact .inl ⟨true, db.setKey tenantID (column 255 key) hash,
      by simp [Tx.bind_run, found], rfl, put_key db tenantID (column 255 key) hash,
      logged_nil rfl rfl⟩
  | some h => exact .inl ⟨false, db, by simp [Tx.bind_run, found], rfl, rfl, logged_nil rfl rfl⟩

theorem addAvailable_does (loc : StockLocation) (db : StockDb) (level : StockLevel)
    (availableQty : Int32) :
    Does (k := .row loc) id db
      (if -2147483648 ≤ level.availableQty.toInt + availableQty.toInt ∧
          level.availableQty.toInt + availableQty.toInt ≤ 2147483647 then
        StockTables.writeLevel loc { level with availableQty := level.availableQty + availableQty }
      else .throw (.sql .outOfRange)) (addAvailable level availableQty) := by
  split
  · rename_i range
    have added : addAvailable level availableQty = writeLevel level
        { level with availableQty := level.availableQty + availableQty } := if_pos range
    rw [added]
    exact writeLevel_does loc db level _
  · rename_i range
    have added : addAvailable level availableQty =
        (some (some level), .fail (.sql .outOfRange)) := if_neg range
    rw [added]
    exact .inr ⟨.sql .outOfRange, rfl, rfl⟩

theorem upsertStockLevel_implements (loc : StockLocation) (availableQty : Int32) :
    Implements id (upsertStockLevel loc availableQty)
      (StockTables.upsertStockLevel loc availableQty) := by
  refine implements_bind (implements_require _ _) fun _ => ?_
  generalize fits : StockLevel.check ⟨availableQty, 0, 0, false⟩ = result
  simp only [fits]
  cases result with
  | error e => exact implements_throw (.sql e)
  | ok u =>
    refine implements_statement fun db => ?_
    simp only [cells]
    cases row : db.stockLevels loc.stored with
    | none =>
      refine .inl ⟨(), db.setLevel loc.stored ⟨availableQty, 0, 0, false⟩, ?_, rfl,
        put_level db loc.stored _, logged_nil rfl rfl⟩
      simp [Tx.bind_run, row, StockTables.writeLevel, fits]
    | some level =>
      have added := addAvailable_does loc.stored db level availableQty
      unfold Does at added ⊢
      simpa only [Tx.bind_run, Tx.read_run, row] using added

theorem setAuditLock_implements (loc : StockLocation) (locked : Bool) :
    Implements id (setAuditLock loc locked) (.modify (StockTables.setAuditLock loc locked)) := by
  refine implements_statement fun db => ?_
  simp only [cells]
  cases row : db.stockLevels loc with
  | none => exact .inl ⟨(), db, by simp [StockTables.setAuditLock, row], rfl, rfl,
      logged_nil rfl rfl⟩
  | some level =>
    refine .inl ⟨(), db.setLevel loc { level with isLockedForAudit := locked }, ?_, rfl,
      put_level db loc _, logged_nil rfl rfl⟩
    simp [StockTables.setAuditLock, row]

theorem tryIdempotency_implements (rt : Runtime) (tenantID : UUID) (key : String)
    (msg : Message) : Implements id (tryIdempotency rt tenantID key msg)
      (StockHandlers.tryIdempotency rt tenantID key msg) :=
  implements_ite (fun _ => implements_pure (f := id) false) fun _ =>
    implements_bind (checkAndInsertIdempotencyKey_implements tenantID key _) fun inserted =>
      implements_pure (f := id) (!inserted)

theorem keyed_implements {rt : Runtime} {tenantID : UUID} {key : String} {msg : Message}
    {again work : Statements α} {again' work' : StockTx β} (dup : Implements f again again')
    (new : Implements f work work') : Implements f (keyed rt tenantID key msg again work)
      (StockHandlers.keyedTx rt tenantID key msg again' work') :=
  implements_bind (tryIdempotency_implements rt tenantID key msg) fun _ =>
    implements_ite (fun _ => dup) fun _ => new

theorem located_implements (loc : StockLocation) {missing : Statements α}
    {missing' : StockTx β} {found : StockLevel → Statements α} {found' : StockLevel → StockTx β}
    (absent : Implements f missing missing')
    (present : ∀ level, Implements f (found level) (found' level)) :
    Implements f
      (getStockLevelForUpdate loc >>= fun row =>
        match row with
        | none => missing
        | some level => found level)
      (StockTables.getStockLevelForUpdate loc >>= fun row =>
        match row with
        | none => missing'
        | some level => found' level) := by
  refine implements_bind (getStockLevelForUpdate_implements loc) fun row => ?_
  cases row with
  | none => exact absent
  | some level => exact present level

theorem moveLine_implements (m : Movement) (tenantID : UUID) (orderID : String) (l : StockLine)
    (level : StockLevel) : Implements id (moveLine m tenantID orderID l level)
      (StockHandlers.moveLine m tenantID orderID l level) :=
  implements_bind (updateStockLevel_implements _ _) fun _ =>
    implements_bind (insertStockEvent_implements _) fun _ => insertOutboxEvent_implements _

theorem reserveLine_implements (tenantID : UUID) (orderID : String) (l : StockLine) :
    Implements id (reserveLine tenantID orderID l)
      (StockHandlers.reserveLine tenantID orderID l) := by
  refine located_implements _ (implements_pure (f := id) _) fun level => ?_
  exact implements_ite (fun _ => implements_pure (f := id) _) fun _ =>
    implements_bind (moveLine_implements _ _ _ _ _) fun _ => implements_pure (f := id) none

theorem releaseLine_implements (tenantID : UUID) (orderID reason : String) (l : StockLine) :
    Implements id (releaseLine tenantID orderID reason l)
      (StockHandlers.releaseLine tenantID orderID reason l) := by
  refine located_implements _ (implements_pure (f := id) none) fun level => ?_
  exact implements_bind (moveLine_implements _ _ _ _ _) fun _ => implements_pure (f := id) _

theorem requiredLine_implements (m : Movement) (report : StockLevel → γ) (tenantID : UUID)
    (orderID : String) (l : StockLine) : Implements id (requiredLine m report tenantID orderID l)
      (StockHandlers.requiredLine m report tenantID orderID l) := by
  refine located_implements _ (implements_throw _) fun level => ?_
  exact implements_bind (moveLine_implements _ _ _ _ _) fun _ => implements_pure (f := id) _

theorem reserve_implements (rt : Runtime) (tenantID : UUID) (req : ReserveStockRequest) :
    Implements id (reserve rt tenantID req) (StockHandlers.reserveTx rt tenantID req) := by
  refine keyed_implements (implements_pure (f := id) _) ?_
  refine implements_bind (implements_collect (reserveLine_implements tenantID _) _) fun failed => ?_
  exact implements_ite (fun _ => implements_pure (f := id) _) fun _ => implements_throw _

theorem release_implements (rt : Runtime) (tenantID : UUID) (req : ReleaseStockRequest) :
    Implements id (release rt tenantID req) (StockHandlers.releaseTx rt tenantID req) := by
  refine keyed_implements (implements_pure (f := id) _) ?_
  exact implements_bind (implements_collect (releaseLine_implements tenantID _ _) _)
    fun released => implements_pure (f := id) _

theorem confirm_implements (rt : Runtime) (tenantID : UUID)
    (req : ConfirmStockAllocationRequest) :
    Implements id (confirm rt tenantID req) (StockHandlers.confirmTx rt tenantID req) := by
  refine keyed_implements (implements_pure (f := id) _) ?_
  exact implements_bind (implements_collect (fun l => requiredLine_implements _ _ _ _ l) _)
    fun out => implements_pure (f := id) _

theorem fulfill_implements (rt : Runtime) (tenantID : UUID) (req : FulfillStockRequest) :
    Implements id (fulfill rt tenantID req) (StockHandlers.fulfillTx rt tenantID req) := by
  refine keyed_implements (implements_pure (f := id) _) ?_
  exact implements_bind (implements_collect (fun l => requiredLine_implements _ _ _ _ l) _)
    fun out => implements_pure (f := id) _

theorem unlock_implements (tenantID : UUID) (req : UnlockStockForAuditRequest) :
    Implements id (unlock tenantID req) (StockHandlers.unlockTx tenantID req) := by
  refine located_implements _ (implements_pure (f := id) _) fun level => ?_
  exact implements_bind (setAuditLock_implements _ _) fun _ =>
    implements_bind (insertStockEvent_implements _) fun _ => implements_pure (f := id) _

/-- The answer without the generated id of the event. -/
def withoutId (resp : AdjustStockResponse) : AdjustStockResponse := { resp with eventId := none }

theorem adjust_implements (rt : Runtime) (tenantID : UUID) (req : AdjustStockRequest) :
    Implements withoutId (adjust rt tenantID req) (StockHandlers.adjustTx rt tenantID req) := by
  refine keyed_implements ?_ ?_
  · exact located_implements _ (implements_throw _) fun level =>
      implements_pure (f := withoutId) _
  · refine implements_bind (upsertStockLevel_implements _ _) fun _ => ?_
    refine located_implements _ (implements_throw _) fun level => ?_
    refine implements_bind (updateStockLevel_implements _ _) fun _ => ?_
    refine implements_bind (insertStockEvent_implements _) fun event => ?_
    refine implements_bind (insertOutboxEvent_implements _) fun _ => ?_
    refine implements_ite (fun _ => ?_) fun _ => implements_pure (f := withoutId) _
    exact implements_bind (insertOutboxEvent_implements _) fun _ =>
      implements_pure (f := withoutId) _

def given : Except StockAnswer StockAnswer → StockAnswer
  | .ok answer => answer
  | .error answer => answer

def plain : StockAnswer → StockAnswer
  | .adjustStock answer => .adjustStock (answer.map withoutId)
  | answer => answer

/-- Alone on the database, the script gives the answer and leaves `db'`. -/
def Serves (m : RequestScript) (answer : StockAnswer) (db db' : StockDb) : Prop :=
  ∃ out new, solo m (cells db) = (out, cells db', new) ∧ given out = answer ∧ Logged db db' new

theorem serves_fail (answer : StockAnswer) (db : StockDb) : Serves (.fail answer) answer db db :=
  ⟨.error answer, [], rfl, rfl, logged_nil rfl rfl⟩

theorem serves_report (h : Implements f m tx) (answer : Except Failure α → StockAnswer)
    (db : StockDb) :
    Serves (m.report answer) (answer ((tx.commit db).1.map f)) db (tx.commit db).2 := by
  have ran := exec_report answer m (cells db) []
  rcases h db [] with ⟨b, db', new, run, exec, logged⟩ | ⟨e, run, exec⟩
  · rw [exec] at ran
    rw [Tx.commit_of_ok run]
    exact ⟨.ok (answer (.ok (f b))), new, by simp only [solo, ran, List.nil_append], rfl, logged⟩
  · rw [exec] at ran
    rw [Tx.commit_of_error run]
    exact ⟨.error (answer (.error e)), [], by simp only [solo, ran], rfl, logged_nil rfl rfl⟩

theorem serves_execTx (rt : Runtime) (tenantID : String) (h : Implements f m tx)
    (answer : Except Failure α → StockAnswer) (db : StockDb) :
    Serves ((execTxWithTenant rt tenantID m).report answer)
      (answer ((Platform.execTxWithTenant rt tenantID tx db).1.map f)) db
      (Platform.execTxWithTenant rt tenantID tx db).2 := by
  unfold execTxWithTenant Platform.execTxWithTenant
  by_cases missing : tenantID = ""
  · rw [if_pos missing, if_pos missing]
    exact serves_fail _ db
  · rw [if_neg missing, if_neg missing]
    cases rt.cast tenantID with
    | none => exact serves_fail _ db
    | some u => exact serves_report h answer db

theorem serves_tenantRpc (rt : Runtime) (tenantId context : String) {m : UUID → Statements α}
    {tx : UUID → StockTx β} (h : ∀ t, Implements f (m t) (tx t))
    (answer : Except Failure α → StockAnswer) (db : StockDb) :
    Serves (tenantRpc rt tenantId context answer m)
      (answer ((StockHandlers.tenantRpc rt tenantId context tx db).1.map f)) db
      (StockHandlers.tenantRpc rt tenantId context tx db).2 := by
  unfold tenantRpc StockHandlers.tenantRpc
  cases parseUUID rt tenantId with
  | error e => exact serves_fail _ db
  | ok t =>
    have served := serves_execTx rt tenantId (h t)
      (fun outcome => answer (outcome.mapError (.statusf .internal context))) db
    simp only at served ⊢
    generalize Platform.execTxWithTenant rt tenantId (tx t) db = result at served ⊢
    obtain ⟨outcome, db'⟩ := result
    cases outcome with
    | error e => exact served
    | ok resp => exact served

theorem serves_rpc (rt : Runtime) (tenantId context : String) {m : UUID → Statements α}
    {tx : UUID → StockTx α} (h : ∀ t, Implements id (m t) (tx t))
    (answer : Except Failure α → StockAnswer) (db : StockDb) :
    Serves (tenantRpc rt tenantId context answer m)
      (answer (StockHandlers.tenantRpc rt tenantId context tx db).1) db
      (StockHandlers.tenantRpc rt tenantId context tx db).2 := by
  have same : ∀ outcome : Except Failure α, outcome.map id = outcome := by
    intro outcome
    cases outcome <;> rfl
  have served := serves_tenantRpc rt tenantId context h answer db
  rw [same] at served
  exact served

theorem serves_reserve (rt : Runtime) (req : ReserveStockRequest) (db : StockDb) :
    Serves (reserveStock rt req) (.reserveStock (StockHandlers.reserveStock rt req db).1) db
      (StockHandlers.reserveStock rt req db).2 := by
  unfold reserveStock StockHandlers.reserveStock
  cases parseUUID rt req.tenantId with
  | error e => exact serves_fail _ db
  | ok t =>
    simp only
    split
    · exact serves_fail _ db
    · have served := serves_execTx rt req.tenantId (reserve_implements rt t req)
        reserveAnswer db
      generalize Platform.execTxWithTenant rt req.tenantId (StockHandlers.reserveTx rt t req) db =
        result at served ⊢
      obtain ⟨outcome, db'⟩ := result
      cases outcome with
      | ok resp => exact served
      | error e => cases e <;> exact served

theorem script_serves {rt : Runtime} {call : StockCall} {m : RequestScript}
    (h : script rt call = some m) (db : StockDb) :
    Serves m (plain (answer rt call db)) db (call.apply rt db) := by
  cases call with
  | adjustStock req =>
    cases h
    exact serves_tenantRpc rt _ _ (fun t => adjust_implements rt t req) .adjustStock db
  | reserveStock req =>
    cases h
    exact serves_reserve rt req db
  | releaseStock req =>
    cases h
    exact serves_rpc rt _ _ (fun t => release_implements rt t req) .releaseStock db
  | confirmStockAllocation req =>
    cases h
    exact serves_rpc rt _ _ (fun t => confirm_implements rt t req) .confirmStockAllocation db
  | fulfillStock req =>
    cases h
    exact serves_rpc rt _ _ (fun t => fulfill_implements rt t req) .fulfillStock db
  | unlockStockForAudit req =>
    cases h
    exact serves_rpc rt _ _ (fun t => unlock_implements t req) .unlockStockForAudit db
  | reconcile => cases h

theorem serial_serves (rt : Runtime) (calls : List StockCall)
    (requests : ∀ call ∈ calls, call ≠ .reconcile) (db : StockDb) :
    ∃ outs log, serial (calls.filterMap (script rt)) (cells db) =
        (outs, cells (runCalls rt calls db), log) ∧
      outs.map given = (Replay.answers (step rt) calls db).map plain ∧
      Logged db (runCalls rt calls db) log := by
  induction calls generalizing db with
  | nil => exact ⟨[], [], rfl, rfl, logged_nil rfl rfl⟩
  | cons call rest ih =>
    have some_ : ∃ m, script rt call = some m := by
      cases call with
      | reconcile => exact absurd rfl (requests _ (List.mem_cons_self ..))
      | _ => exact ⟨_, rfl⟩
    obtain ⟨m, found⟩ := some_
    obtain ⟨out, new, ran, answered, logged⟩ := script_serves found db
    obtain ⟨outs, log, later, answers, more⟩ :=
      ih (fun c mem => requests c (List.mem_cons_of_mem call mem)) (call.apply rt db)
    refine ⟨out :: outs, new ++ log, ?_, ?_, logged.trans more⟩
    · rw [List.filterMap_cons_some found, serial, ran]
      simp only [later]
      rfl
    · rw [List.map_cons, answers, answered]
      rfl

end Alone

end Taper.StockScripts
