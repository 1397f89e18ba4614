import Taper.StockHandlers

set_option autoImplicit false

/-!
# What one stock request does

Each statement and each line in closed form, and from them the two outcomes of a
handler.
-/
namespace Taper.StockSteps
open Messages Transaction Platform StockTables StockHandlers

variable {α β : Type} {rt : Runtime} {db db' : StockDb} {tenantID : UUID} {loc : StockLocation}
  {u : Unit} {m : Movement} {orderID : String} {l : StockLine} {lines : List StockLine}
  {resp : AdjustStockResponse}

theorem tenantRpc_cases {tenantId context : String} {fn : UUID → StockTx α}
    {answer : Except Failure α} (h : tenantRpc rt tenantId context fn db = (answer, db')) :
    (∃ tenantID resp, rt.scan tenantId = some tenantID ∧ (fn tenantID).run db = .ok (resp, db') ∧
      answer = .ok resp) ∨ (∃ e, answer = .error e ∧ db' = db) := by
  unfold tenantRpc at h
  cases parse : rt.scan tenantId with
  | none =>
    simp only [parseUUID, parse, Prod.mk.injEq] at h
    exact .inr ⟨_, h.1.symm, h.2.symm⟩
  | some tenantID =>
    simp only [parseUUID, parse] at h
    cases run : execTxWithTenant rt tenantId (fn tenantID) db with
    | mk result after =>
      cases result with
      | error e =>
        simp only [run, Prod.mk.injEq] at h
        exact .inr ⟨_, h.1.symm, h.2 ▸ execTx_error run⟩
      | ok resp =>
        simp only [run, Prod.mk.injEq] at h
        obtain ⟨rfl, rfl⟩ := h
        exact .inl ⟨tenantID, resp, rfl, execTx_ok run, rfl⟩

/-- The key is in the ledger already; an empty key never is. -/
def Seen (db : StockDb) (tenantID : UUID) (key : String) : Prop :=
  key ≠ "" ∧ (db.processedKeys tenantID (column 255 key)).isSome = true

instance (db : StockDb) (tenantID : UUID) (key : String) : Decidable (Seen db tenantID key) :=
  inferInstanceAs (Decidable (_ ∧ _))

theorem seen_column {k k' : String} (same : column 255 k' = column 255 k) (h : Seen db tenantID k) :
    Seen db tenantID k' := by
  refine ⟨fun empty => h.1 ?_, same ▸ h.2⟩
  rw [empty] at same
  exact (column_eq_empty (by decide)).1 same.symm

def claimKey (rt : Runtime) (tenantID : UUID) (key : String) (msg : Message) (db : StockDb) :
    StockDb :=
  if key = "" then db else db.setKey tenantID (column 255 key) (rt.payloadHash msg)

def keyFits (key : String) : Bool := key == "" || varchar 255 key

theorem checkAndInsert_run (tenantID : UUID) (key hash : String) (db : StockDb) :
    (checkAndInsertIdempotencyKey tenantID key hash).run db =
      if varchar 255 key then
        if (db.processedKeys tenantID (column 255 key)).isSome then .ok (false, db)
        else .ok (true, db.setKey tenantID (column 255 key) hash)
      else .error (.sql .tooLong) := by
  unfold checkAndInsertIdempotencyKey
  rw [Tx.bind_run]
  cases fits : varchar 255 key with
  | false => rfl
  | true =>
    cases found : db.processedKeys tenantID (column 255 key) with
    | none => simp [Tx.require, Tx.bind_run, found]
    | some h => simp [Tx.require, Tx.bind_run, found]

theorem tryIdempotency_run (rt : Runtime) (tenantID : UUID) (key : String) (msg : Message)
    (db : StockDb) : (tryIdempotency rt tenantID key msg).run db =
      if keyFits key then
        .ok (decide (Seen db tenantID key),
          if Seen db tenantID key then db else claimKey rt tenantID key msg db)
      else .error (.sql .tooLong) := by
  unfold tryIdempotency
  by_cases empty : key = ""
  · simp [empty, keyFits, Seen, claimKey]
  · have seen : Seen db tenantID key ↔
        (db.processedKeys tenantID (column 255 key)).isSome = true :=
      ⟨fun h => h.2, fun h => ⟨empty, h⟩⟩
    simp only [empty, if_false]
    rw [Tx.bind_run, checkAndInsert_run]
    cases fits : varchar 255 key with
    | false => simp [keyFits, empty, fits]
    | true =>
      cases found : (db.processedKeys tenantID (column 255 key)).isSome with
      | false => simp [keyFits, fits, seen, found, claimKey, empty]
      | true => simp [keyFits, fits, seen, found]

@[simp] theorem claimKey_levels (rt : Runtime) (tenantID : UUID) (key : String) (msg : Message)
    (db : StockDb) : (claimKey rt tenantID key msg db).stockLevels = db.stockLevels := by
  unfold claimKey
  split <;> rfl

theorem claimKey_find (rt : Runtime) (tenantID : UUID) (key : String) (msg : Message)
    (db : StockDb) (loc : StockLocation) :
    (claimKey rt tenantID key msg db).find loc = db.find loc := by
  rw [StockDb.find, claimKey_levels, StockDb.find]

@[simp] theorem claimKey_events (rt : Runtime) (tenantID : UUID) (key : String) (msg : Message)
    (db : StockDb) : (claimKey rt tenantID key msg db).stockEvents = db.stockEvents := by
  unfold claimKey
  split <;> rfl

@[simp] theorem claimKey_outbox (rt : Runtime) (tenantID : UUID) (key : String) (msg : Message)
    (db : StockDb) : (claimKey rt tenantID key msg db).outbox = db.outbox := by
  unfold claimKey
  split <;> rfl

theorem getLevel_run (loc : StockLocation) (db : StockDb) :
    (getStockLevelForUpdate loc).run db =
      if storable loc.skuID && storable loc.warehouseID then .ok (db.find loc, db)
      else .error (.sql .badText) := by
  unfold getStockLevelForUpdate
  rw [Tx.bind_run]
  cases h : (storable loc.skuID && storable loc.warehouseID) with
  | false => simp [Tx.require]
  | true => simp [Tx.require, Tx.bind_run]

theorem getLevel_ok {level : Option StockLevel}
    (h : (getStockLevelForUpdate loc).run db = .ok (level, db')) :
    level = db.find loc ∧ db' = db := by
  rw [getLevel_run] at h
  split at h
  · simp only [Except.ok.injEq, Prod.mk.injEq] at h
    exact ⟨h.1.symm, h.2.symm⟩
  · simp at h

theorem updateLevel_ok_iff {level : StockLevel} :
    (updateStockLevel loc level).run db = .ok (u, db') ↔
      (db.stockLevels loc).isSome = true ∧ level.check = .ok () ∧ db' = db.setLevel loc level := by
  unfold updateStockLevel
  rw [Tx.bind_run]
  simp only [Tx.read_run]
  cases h : db.stockLevels loc with
  | none => simp
  | some old => simp [writeLevel_ok_iff]

def eventFits (e : StockEvent) : Bool :=
  varchar 255 e.skuID && varchar 255 e.warehouseID && varchar 255 e.reason &&
    varchar 255 e.source && varchar 255 e.actorID

theorem insertEvent_ok_iff {e : StockEvent} {n : ℕ} :
    (insertStockEvent e).run db = .ok (n, db') ↔ eventFits e = true ∧
      n = db.stockEvents.length ∧
        db' = { db with stockEvents := db.stockEvents ++ [e.stored] } := by
  unfold insertStockEvent
  rw [Tx.bind_ok_iff]
  constructor
  · rintro ⟨a, u, hr, h⟩
    obtain ⟨fits, rfl⟩ := Tx.require_ok_iff.1 hr
    simp only [Tx.bind_run, Tx.read_run, Tx.modify_run, Tx.pure_run, Except.ok.injEq,
      Prod.mk.injEq] at h
    exact ⟨fits, h.1.symm, h.2.symm⟩
  · rintro ⟨fits, rfl, rfl⟩
    refine ⟨(), db, Tx.require_ok_iff.2 ⟨fits, rfl⟩, ?_⟩
    simp [Tx.bind_run]

def outboxFits (e : StockOutboxEvent) : Bool := varchar 255 e.aggregateID && e.payload.storable

theorem insertOutbox_ok_iff {e : StockOutboxEvent} :
    (insertOutboxEvent e).run db = .ok (u, db') ↔ outboxFits e = true ∧
      db' = { db with outbox := db.outbox ++ [e.stored] } := by
  unfold insertOutboxEvent
  rw [Tx.bind_ok_iff]
  constructor
  · rintro ⟨a, w, hr, h⟩
    obtain ⟨fits, rfl⟩ := Tx.require_ok_iff.1 hr
    simp only [Tx.modify_run, Except.ok.injEq, Prod.mk.injEq] at h
    exact ⟨fits, h.2.symm⟩
  · rintro ⟨fits, rfl⟩
    exact ⟨(), db, Tx.require_ok_iff.2 ⟨fits, rfl⟩, by simp⟩

def Movement.fits (m : Movement) (tenantID : UUID) (orderID : String) (l : StockLine) : Bool :=
  eventFits (m.event tenantID l) && outboxFits (m.outboxEvent tenantID orderID l)

def applyLine (m : Movement) (tenantID : UUID) (orderID : String) (l : StockLine)
    (level : StockLevel) (db : StockDb) : StockDb where
  stockLevels := (db.setLevel (lineLocation tenantID l) (m.level level l.quantity)).stockLevels
  stockEvents := db.stockEvents ++ [(m.event tenantID l).stored]
  outbox := db.outbox ++ [(m.outboxEvent tenantID orderID l).stored]
  processedKeys := db.processedKeys

theorem moveLine_ok_iff {level : StockLevel} :
    (moveLine m tenantID orderID l level).run db = .ok (u, db') ↔
      (db.stockLevels (lineLocation tenantID l)).isSome = true ∧
      (m.level level l.quantity).check = .ok () ∧
      Movement.fits m tenantID orderID l = true ∧
      db' = applyLine m tenantID orderID l level db := by
  unfold moveLine
  rw [Tx.bind_ok_iff]
  simp only [Movement.fits, Bool.and_eq_true]
  constructor
  · rintro ⟨a, u1, h1, h⟩
    obtain ⟨n, u2, h2, h3⟩ := Tx.bind_ok_iff.1 h
    obtain ⟨row, check, rfl⟩ := updateLevel_ok_iff.1 h1
    obtain ⟨fits, -, rfl⟩ := insertEvent_ok_iff.1 h2
    obtain ⟨fits', rfl⟩ := insertOutbox_ok_iff.1 h3
    exact ⟨row, check, ⟨fits, fits'⟩, rfl⟩
  · rintro ⟨row, check, ⟨fits, fits'⟩, rfl⟩
    exact ⟨(), _, updateLevel_ok_iff.2 ⟨row, check, rfl⟩, Tx.bind_ok_iff.2
      ⟨_, _, insertEvent_ok_iff.2 ⟨fits, rfl, rfl⟩, insertOutbox_ok_iff.2 ⟨fits', rfl⟩⟩⟩

/-- A movement over lines in order. A line is passed over only at a location
without a row. -/
inductive LineRun (m : Movement) (tenantID : UUID) (orderID : String) :
    List StockLine → StockDb → StockDb → Prop where
  | nil (db : StockDb) : LineRun m tenantID orderID [] db db
  | skip {l : StockLine} {rest : List StockLine} {db db' : StockDb}
      (row : db.find (lineLocation tenantID l) = none)
      (tail : LineRun m tenantID orderID rest db db') :
      LineRun m tenantID orderID (l :: rest) db db'
  | move {l : StockLine} {rest : List StockLine} {db db' : StockDb} {level : StockLevel}
      (row : db.find (lineLocation tenantID l) = some level)
      (check : (m.level level l.quantity).check = .ok ())
      (fits : Movement.fits m tenantID orderID l = true)
      (tail : LineRun m tenantID orderID rest (applyLine m tenantID orderID l level db) db') :
      LineRun m tenantID orderID (l :: rest) db db'

theorem reserveLine_held (h : (reserveLine tenantID orderID l).run db = .ok (none, db')) :
    ∃ level, db.find (lineLocation tenantID l) = some level ∧
      level.isLockedForAudit = false ∧ l.quantity.toInt ≤ level.availableQty.toInt ∧
      ((reserveMove orderID).level level l.quantity).check = .ok () ∧
      Movement.fits (reserveMove orderID) tenantID orderID l = true ∧
      db' = applyLine (reserveMove orderID) tenantID orderID l level db := by
  unfold reserveLine at h
  obtain ⟨found, u, hg, h⟩ := Tx.bind_ok_iff.1 h
  obtain ⟨rfl, rfl⟩ := getLevel_ok hg
  cases row : u.find (lineLocation tenantID l) with
  | none => simp [row] at h
  | some level =>
    simp only [row] at h
    split at h
    · simp at h
    · rename_i free
      obtain ⟨a, v, hm, h⟩ := Tx.bind_ok_iff.1 h
      obtain ⟨-, check, fits, rfl⟩ := moveLine_ok_iff.1 hm
      simp only [Tx.pure_run, Except.ok.injEq, Prod.mk.injEq, true_and] at h
      subst h
      simp only [Int32.lt_iff_toInt_lt, not_or, Bool.not_eq_true, Int.not_lt] at free
      exact ⟨level, rfl, free.1, free.2, check, fits, rfl⟩

theorem releaseLine_ok {reason : String} {o : Option String}
    (h : (releaseLine tenantID orderID reason l).run db = .ok (o, db')) :
    (db.find (lineLocation tenantID l) = none ∧ db' = db) ∨
    ∃ level, db.find (lineLocation tenantID l) = some level ∧
      ((releaseMove orderID reason).level level l.quantity).check = .ok () ∧
      Movement.fits (releaseMove orderID reason) tenantID orderID l = true ∧
      db' = applyLine (releaseMove orderID reason) tenantID orderID l level db := by
  unfold releaseLine at h
  obtain ⟨found, u, hg, h⟩ := Tx.bind_ok_iff.1 h
  obtain ⟨rfl, rfl⟩ := getLevel_ok hg
  cases row : u.find (lineLocation tenantID l) with
  | none =>
    simp only [row, Tx.pure_run, Except.ok.injEq, Prod.mk.injEq] at h
    exact .inl ⟨rfl, h.2.symm⟩
  | some level =>
    simp only [row] at h
    obtain ⟨a, v, hm, h⟩ := Tx.bind_ok_iff.1 h
    obtain ⟨-, check, fits, rfl⟩ := moveLine_ok_iff.1 hm
    simp only [Tx.pure_run, Except.ok.injEq, Prod.mk.injEq] at h
    exact .inr ⟨level, rfl, check, fits, h.2.symm⟩

theorem requiredLine_ok {report : StockLevel → β} {o : Option β}
    (h : (requiredLine m report tenantID orderID l).run db = .ok (o, db')) :
    ∃ level, db.find (lineLocation tenantID l) = some level ∧
      (m.level level l.quantity).check = .ok () ∧ Movement.fits m tenantID orderID l = true ∧
      db' = applyLine m tenantID orderID l level db := by
  unfold requiredLine at h
  obtain ⟨found, u, hg, h⟩ := Tx.bind_ok_iff.1 h
  obtain ⟨rfl, rfl⟩ := getLevel_ok hg
  cases row : u.find (lineLocation tenantID l) with
  | none => simp [row] at h
  | some level =>
    simp only [row] at h
    obtain ⟨a, v, hm, h⟩ := Tx.bind_ok_iff.1 h
    obtain ⟨-, check, fits, rfl⟩ := moveLine_ok_iff.1 hm
    simp only [Tx.pure_run, Except.ok.injEq, Prod.mk.injEq] at h
    exact ⟨level, rfl, check, fits, h.2.symm⟩

theorem reserveLines_run
    (h : (Tx.collect (reserveLine tenantID orderID) lines).run db = .ok ([], db')) :
    LineRun (reserveMove orderID) tenantID orderID lines db db' := by
  induction lines generalizing db with
  | nil =>
    rw [Tx.collect_nil] at h
    cases h
    exact .nil _
  | cons l rest ih =>
    obtain ⟨found, u, later, hv, hc, out⟩ := Tx.collect_cons_ok_iff.1 h
    obtain ⟨none, rfl⟩ := List.append_eq_nil_iff.1 out.symm
    cases found with
    | some sku => simp at none
    | none =>
      obtain ⟨level, row, -, -, check, fits, rfl⟩ := reserveLine_held hv
      exact .move row check fits (ih hc)

theorem releaseLines_run {reason : String} {out : List String}
    (h : (Tx.collect (releaseLine tenantID orderID reason) lines).run db = .ok (out, db')) :
    LineRun (releaseMove orderID reason) tenantID orderID lines db db' := by
  induction lines generalizing db out with
  | nil =>
    rw [Tx.collect_nil] at h
    cases h
    exact .nil _
  | cons l rest ih =>
    obtain ⟨found, u, later, hv, hc, -⟩ := Tx.collect_cons_ok_iff.1 h
    rcases releaseLine_ok hv with ⟨row, rfl⟩ | ⟨level, row, check, fits, rfl⟩
    · exact .skip row (ih hc)
    · exact .move row check fits (ih hc)

theorem requiredLines_run {report : StockLine → StockLevel → β} {out : List β}
    (h : (Tx.collect (fun l => requiredLine m (report l) tenantID orderID l) lines).run db =
      .ok (out, db')) : LineRun m tenantID orderID lines db db' := by
  induction lines generalizing db out with
  | nil =>
    rw [Tx.collect_nil] at h
    cases h
    exact .nil _
  | cons l rest ih =>
    obtain ⟨found, u, later, hv, hc, -⟩ := Tx.collect_cons_ok_iff.1 h
    obtain ⟨level, row, check, fits, rfl⟩ := requiredLine_ok hv
    exact .move row check fits (ih hc)

theorem keyedTx_run (rt : Runtime) (tenantID : UUID) (key : String) (msg : Message)
    (again work : StockTx α) (db : StockDb) :
    (keyedTx rt tenantID key msg again work).run db =
      if keyFits key then
        if Seen db tenantID key then again.run db
        else work.run (claimKey rt tenantID key msg db)
      else .error (.sql .tooLong) := by
  unfold keyedTx
  rw [Tx.bind_run, tryIdempotency_run]
  cases fits : keyFits key with
  | false => rfl
  | true =>
    by_cases seen : Seen db tenantID key
    · simp [seen]
    · simp [seen]

/-- What a committed movement has done: nothing, under a key seen before, or
its lines from the tables with the key recorded. -/
inductive Moved (rt : Runtime) (m : Movement) (tenantID : UUID) (orderID key : String)
    (msg : Message) (lines : List StockLine) (db db' : StockDb) : Prop where
  | duplicate (seen : Seen db tenantID key) (same : db' = db)
  | fresh (unseen : ¬Seen db tenantID key) (fits : keyFits key = true)
      (run : LineRun m tenantID orderID (sortedLines rt lines)
        (claimKey rt tenantID key msg db) db')

theorem reserveTx_ok {req : ReserveStockRequest} {resp : ReserveStockResponse}
    (h : (reserveTx rt tenantID req).run db = .ok (resp, db')) : resp = ⟨true, []⟩ ∧
    Moved rt (reserveMove req.orderId) tenantID req.orderId req.idempotencyKey
      (.reserveStock req) req.lines db db' := by
  rw [reserveTx, keyedTx_run] at h
  split_ifs at h with fits seen
  · simp only [Tx.pure_run, Except.ok.injEq, Prod.mk.injEq] at h
    exact ⟨h.1.symm, .duplicate seen h.2.symm⟩
  · obtain ⟨failed, v, hc, answer⟩ := Tx.bind_ok_iff.1 h
    split at answer
    · rename_i none
      subst none
      simp only [Tx.pure_run, Except.ok.injEq, Prod.mk.injEq] at answer
      obtain ⟨rfl, rfl⟩ := answer
      exact ⟨rfl, .fresh seen fits (reserveLines_run hc)⟩
    · simp at answer

theorem reserveStock_cases {req : ReserveStockRequest}
    {answer : Except Failure ReserveStockResponse} (h : reserveStock rt req db = (answer, db')) :
    (∃ tenantID, rt.scan req.tenantId = some tenantID ∧ answer = .ok ⟨true, []⟩ ∧
      Moved rt (reserveMove req.orderId) tenantID req.orderId req.idempotencyKey
        (.reserveStock req) req.lines db db') ∨
    ((∃ failed, answer = .ok ⟨false, failed⟩) ∧ db' = db) ∨
    ((∃ e, answer = .error e) ∧ db' = db) := by
  unfold reserveStock at h
  cases parse : rt.scan req.tenantId with
  | none =>
    simp only [parseUUID, parse, Prod.mk.injEq] at h
    exact .inr (.inr ⟨⟨_, h.1.symm⟩, h.2.symm⟩)
  | some tenantID =>
    simp only [parseUUID, parse] at h
    split at h
    · simp only [Prod.mk.injEq] at h
      exact .inr (.inr ⟨⟨_, h.1.symm⟩, h.2.symm⟩)
    · split at h
      · rename_i failed after run
        simp only [Prod.mk.injEq] at h
        exact .inr (.inl ⟨⟨failed, h.1.symm⟩, h.2 ▸ execTx_error run⟩)
      · rename_i run
        simp only [Prod.mk.injEq] at h
        exact .inr (.inr ⟨⟨_, h.1.symm⟩, h.2 ▸ execTx_error run⟩)
      · rename_i resp after run
        simp only [Prod.mk.injEq] at h
        obtain ⟨rfl, rfl⟩ := h
        obtain ⟨rfl, moved⟩ := reserveTx_ok (execTx_ok run)
        exact .inl ⟨tenantID, rfl, rfl, moved⟩

/-- The three movements that report per line: the answer is a success, and the
lines have run unless the key was a repeat. -/
theorem movementTx_ok {key : String} {msg : Message} {again : α}
    {visit : StockLine → StockTx (Option β)} {answer : List β → α} {resp : α}
    (runs : ∀ {out : List β} {u u' : StockDb},
      (Tx.collect visit (sortedLines rt lines)).run u = .ok (out, u') →
        LineRun m tenantID orderID (sortedLines rt lines) u u')
    (h : (keyedTx rt tenantID key msg (pure again) do
      let out ← Tx.collect visit (sortedLines rt lines)
      pure (answer out)).run db = .ok (resp, db')) :
    (resp = again ∨ ∃ out, resp = answer out) ∧
      Moved rt m tenantID orderID key msg lines db db' := by
  rw [keyedTx_run] at h
  split_ifs at h with fits seen
  · simp only [Tx.pure_run, Except.ok.injEq, Prod.mk.injEq] at h
    exact ⟨.inl h.1.symm, .duplicate seen h.2.symm⟩
  · obtain ⟨out, v, hc, last⟩ := Tx.bind_ok_iff.1 h
    simp only [Tx.pure_run, Except.ok.injEq, Prod.mk.injEq] at last
    obtain ⟨rfl, rfl⟩ := last
    exact ⟨.inr ⟨out, rfl⟩, .fresh seen fits (runs hc)⟩

theorem releaseTx_ok {req : ReleaseStockRequest} {resp : ReleaseStockResponse}
    (h : (releaseTx rt tenantID req).run db = .ok (resp, db')) : resp.success = true ∧
    Moved rt (releaseMove req.orderId req.reason) tenantID req.orderId req.idempotencyKey
      (.releaseStock req) req.lines db db' := by
  obtain ⟨rfl | ⟨out, rfl⟩, moved⟩ := movementTx_ok releaseLines_run h
  · exact ⟨rfl, moved⟩
  · exact ⟨rfl, moved⟩

theorem confirmTx_ok {req : ConfirmStockAllocationRequest} {resp : ConfirmStockAllocationResponse}
    (h : (confirmTx rt tenantID req).run db = .ok (resp, db')) : resp.success = true ∧
    Moved rt confirmMove tenantID req.orderId req.idempotencyKey
      (.confirmStockAllocation req) req.lines db db' := by
  obtain ⟨rfl | ⟨out, rfl⟩, moved⟩ := movementTx_ok requiredLines_run h
  · exact ⟨rfl, moved⟩
  · exact ⟨rfl, moved⟩

theorem fulfillTx_ok {req : FulfillStockRequest} {resp : FulfillStockResponse}
    (h : (fulfillTx rt tenantID req).run db = .ok (resp, db')) : resp.success = true ∧
    Moved rt fulfillMove tenantID req.orderId req.idempotencyKey
      (.fulfillStock req) req.lines db db' := by
  obtain ⟨rfl | ⟨out, rfl⟩, moved⟩ := movementTx_ok requiredLines_run h
  · exact ⟨rfl, moved⟩
  · exact ⟨rfl, moved⟩

def upserted (old : Option StockLevel) (delta : Int32) : StockLevel :=
  match old with
  | none => ⟨delta, 0, 0, false⟩
  | some level => { level with availableQty := level.availableQty + delta }

def nameFits (loc : StockLocation) : Bool :=
  fits 255 loc.skuID && fits 255 loc.warehouseID &&
    varchar 255 (stockAggregate loc.tenantID loc.skuID)

theorem stored_of_nameFits (h : nameFits loc = true) : loc.stored = loc := by
  simp only [nameFits, Bool.and_eq_true, fits, decide_eq_true_eq] at h
  exact stored_eq_iff.2 ⟨h.1.1.1, h.1.2.1⟩

theorem upsert_ok {delta : Int32} (h : (upsertStockLevel loc delta).run db = .ok (u, db')) :
    (varchar 255 loc.skuID && varchar 255 loc.warehouseID) = true ∧ 0 ≤ delta.toInt ∧
      (upserted (db.stockLevels loc.stored) delta).check = .ok () ∧
      db' = db.setLevel loc.stored (upserted (db.stockLevels loc.stored) delta) := by
  unfold upsertStockLevel at h
  obtain ⟨a, v, hr, body⟩ := Tx.bind_ok_iff.1 h
  obtain ⟨names, rfl⟩ := Tx.require_ok_iff.1 hr
  cases proposed : StockLevel.check ⟨delta, 0, 0, false⟩ with
  | error e => simp [proposed] at body
  | ok w =>
    have nonneg := ((check_ok_iff _).1 proposed).1
    simp only [proposed, Tx.bind_run, Tx.read_run] at body
    cases row : v.stockLevels loc.stored with
    | none =>
      simp only [row] at body
      obtain ⟨check, rfl⟩ := writeLevel_ok_iff.1 body
      exact ⟨names, nonneg, check, rfl⟩
    | some level =>
      simp only [row] at body
      split at body
      · obtain ⟨check, rfl⟩ := writeLevel_ok_iff.1 body
        exact ⟨names, nonneg, check, rfl⟩
      · simp at body

def adjustEvent (tenantID : UUID) (req : AdjustStockRequest) : StockEvent :=
  ⟨tenantID, req.skuId, req.warehouseId, req.quantityDelta, req.reason, req.source, "system"⟩

def adjustOutbox (tenantID : UUID) (req : AdjustStockRequest) (available : Int32) :
    StockOutboxEvent :=
  ⟨tenantID, "stock", stockAggregate tenantID req.skuId, "stock.adjusted",
    .adjust req.skuId req.warehouseId req.quantityDelta available req.reason req.source⟩

def applyAdjust (tenantID : UUID) (req : AdjustStockRequest) (loc : StockLocation)
    (db : StockDb) : StockDb where
  stockLevels := (db.setLevel loc (upserted (db.stockLevels loc) req.quantityDelta)).stockLevels
  stockEvents := db.stockEvents ++ [(adjustEvent tenantID req).stored]
  outbox := db.outbox ++ [(adjustOutbox tenantID req
    (upserted (db.stockLevels loc) req.quantityDelta).availableQty).stored]
  processedKeys := db.processedKeys

/-- The row the upsert has written passed its checks, so nothing is left to
clamp and the second write repeats the first. A name that was cut is not found
again. -/
theorem adjustOnce_ok {req : AdjustStockRequest}
    (h : (adjustOnce tenantID req loc).run db = .ok (resp, db')) :
    (fits 255 loc.skuID && fits 255 loc.warehouseID &&
      varchar 255 (stockAggregate tenantID req.skuId)) = true ∧ 0 ≤ req.quantityDelta.toInt ∧
      (upserted (db.stockLevels loc) req.quantityDelta).check = .ok () ∧
      resp.success = true ∧ db' = applyAdjust tenantID req loc db ∧
      eventFits (adjustEvent tenantID req) = true := by
  unfold adjustOnce at h
  obtain ⟨a, v, hu, body⟩ := Tx.bind_ok_iff.1 h
  obtain ⟨names, nonneg, check, rfl⟩ := upsert_ok hu
  obtain ⟨found, w, hg, body⟩ := Tx.bind_ok_iff.1 body
  obtain ⟨rfl, rfl⟩ := getLevel_ok hg
  by_cases within : loc.stored = loc
  swap
  · rw [StockDb.find, if_neg within] at body
    cases body
  rw [within] at check body
  generalize level : upserted (db.stockLevels loc) req.quantityDelta = new at *
  simp only [find_eq within, setLevel_self] at body
  have free : decide (new.availableQty < 0) = false := by
    have zero : (0 : Int32).toInt = 0 := by decide
    have low := ((check_ok_iff new).1 check).1
    simp only [decide_eq_false_iff_not, Int32.lt_iff_toInt_lt, zero]
    omega
  simp only [free, Bool.false_eq_true, ↓reduceIte] at body
  obtain ⟨b, x, hw, body⟩ := Tx.bind_ok_iff.1 body
  obtain ⟨-, -, rfl⟩ := updateLevel_ok_iff.1 hw
  obtain ⟨n, y, he, body⟩ := Tx.bind_ok_iff.1 body
  obtain ⟨texts, -, rfl⟩ := insertEvent_ok_iff.1 he
  obtain ⟨c, z, ho, body⟩ := Tx.bind_ok_iff.1 body
  obtain ⟨aggregate, rfl⟩ := insertOutbox_ok_iff.1 ho
  simp only [Tx.pure_run, Except.ok.injEq, Prod.mk.injEq] at body
  obtain ⟨rfl, rfl⟩ := body
  refine ⟨?_, nonneg, check, rfl, ?_, texts⟩
  · have short := stored_eq_iff.1 within
    simp only [varchar, Bool.and_eq_true] at names
    rw [fits, fits, decide_eq_true short.1, decide_eq_true short.2, names.1.2, names.2.2,
      (Bool.and_eq_true_iff.1 aggregate).1]
    rfl
  simp [applyAdjust, level, StockDb.setLevel, adjustEvent, adjustOutbox]

theorem adjustAgain_ok (h : (adjustAgain loc).run db = .ok (resp, db')) : db' = db := by
  unfold adjustAgain at h
  obtain ⟨found, w, hg, body⟩ := Tx.bind_ok_iff.1 h
  obtain ⟨rfl, rfl⟩ := getLevel_ok hg
  cases row : w.find loc with
  | none => simp [row] at body
  | some level =>
    simp only [row, Tx.pure_run, Except.ok.injEq, Prod.mk.injEq] at body
    exact body.2.symm

/-- A committed adjustment either repeats a key or adds a non-negative delta. -/
theorem adjustTx_ok {req : AdjustStockRequest}
    (h : (adjustTx rt tenantID req).run db = .ok (resp, db')) :
    (Seen db tenantID req.idempotencyKey ∧ db' = db) ∨
    (¬Seen db tenantID req.idempotencyKey ∧
      nameFits ⟨tenantID, req.skuId, req.warehouseId⟩ = true ∧ 0 ≤ req.quantityDelta.toInt ∧
      (upserted (db.stockLevels ⟨tenantID, req.skuId, req.warehouseId⟩)
        req.quantityDelta).check = .ok () ∧
      db' = applyAdjust tenantID req ⟨tenantID, req.skuId, req.warehouseId⟩
        (claimKey rt tenantID req.idempotencyKey (.adjustStock req) db)) := by
  rw [adjustTx, keyedTx_run] at h
  split_ifs at h with fits seen
  · exact .inl ⟨seen, adjustAgain_ok h⟩
  · obtain ⟨names, nonneg, check, -, rfl, -⟩ := adjustOnce_ok h
    rw [claimKey_levels] at check
    exact .inr ⟨seen, names, nonneg, check, rfl⟩

def unlockEvent (tenantID : UUID) (req : UnlockStockForAuditRequest) : StockEvent :=
  ⟨tenantID, req.skuId, req.warehouseId, 0, req.reason, "reconciliation",
    if req.actorId = "" then "warehouse-manager" else req.actorId⟩

theorem unlockTx_ok {req : UnlockStockForAuditRequest} {resp : UnlockStockForAuditResponse}
    (h : (unlockTx tenantID req).run db = .ok (resp, db')) :
    (db.find ⟨tenantID, req.skuId, req.warehouseId⟩ = none ∧ db' = db) ∨
    ∃ level, db.find ⟨tenantID, req.skuId, req.warehouseId⟩ = some level ∧
      resp = ⟨true, true⟩ ∧ db' = { db.setLevel ⟨tenantID, req.skuId, req.warehouseId⟩
          { level with isLockedForAudit := false } with
        stockEvents := db.stockEvents ++ [(unlockEvent tenantID req).stored] } := by
  unfold unlockTx at h
  obtain ⟨found, w, hg, body⟩ := Tx.bind_ok_iff.1 h
  obtain ⟨rfl, rfl⟩ := getLevel_ok hg
  cases row : w.find ⟨tenantID, req.skuId, req.warehouseId⟩ with
  | none =>
    simp only [row, Tx.pure_run, Except.ok.injEq, Prod.mk.injEq] at body
    exact .inl ⟨rfl, body.2.symm⟩
  | some level =>
    simp only [row] at body
    obtain ⟨a, v, hm, body⟩ := Tx.bind_ok_iff.1 body
    simp only [Tx.modify_run, setAuditLock, (find_some_iff.1 row).2, Except.ok.injEq,
      Prod.mk.injEq, true_and] at hm
    subst hm
    obtain ⟨n, y, he, body⟩ := Tx.bind_ok_iff.1 body
    obtain ⟨-, -, rfl⟩ := insertEvent_ok_iff.1 he
    simp only [Tx.pure_run, Except.ok.injEq, Prod.mk.injEq] at body
    exact .inr ⟨level, rfl, body.1.symm, body.2.symm⟩

end Taper.StockSteps
