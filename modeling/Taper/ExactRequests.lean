import Taper.StockForward

set_option autoImplicit false

/-!
# Exactly when a stock request goes through

A reservation depends on the sums asked for at each location, an adjustment on
the row that the upsert proposes, and a movement goes the way its name says as
long as the sums are not negative.
-/
namespace Taper.ExactRequests
open Messages Transaction Platform StockTables StockHandlers StockSteps StockConservation MachineInt
open StockForward

theorem reserveMove_lands (orderID : String) : Lands (reserveMove orderID) (-1, 1, 0) := by
  intro level q range
  simp only [Representable, buckets, Prod.smul_mk, smul_eq_mul, Prod.mk_add_mk, mul_one, mul_neg,
    mul_zero, add_zero] at range
  rw [check_ok_iff]
  simp only [reserveMove]
  rw [sub_in_range (by omega) (by omega), add_in_range (by omega) (by omega)]
  omega

section Reserve

variable {t : UUID} {o : String} {db : StockDb}

def Unlocked (t : UUID) (lines : List StockLine) (db : StockDb) : Prop :=
  ∀ l ∈ lines, ∀ level, db.stockLevels (lineLocation t l) = some level →
    level.isLockedForAudit = false

theorem reserveLine_run {l : StockLine} {level : StockLevel}
    (row : db.find (lineLocation t l) = some level) (free : level.isLockedForAudit = false)
    (enough : l.quantity.toInt ≤ level.availableQty.toInt)
    (check : ((reserveMove o).level level l.quantity).check = .ok ())
    (fits : Movement.fits (reserveMove o) t o l = true) :
    (reserveLine t o l).run db = .ok (none, applyLine (reserveMove o) t o l level db) := by
  have move : (moveLine (reserveMove o) t o l level).run db = .ok ((), _) :=
    moveLine_ok_iff.2 ⟨by rw [(find_some_iff.1 row).2]; rfl, check, fits, rfl⟩
  have held : ¬(level.isLockedForAudit = true ∨ level.availableQty < l.quantity) := by
    rw [free, Int32.lt_iff_toInt_lt]
    simp only [Bool.false_eq_true, false_or]
    omega
  unfold reserveLine
  rw [Tx.bind_of_ok (getLevel_of_fits fits), row]
  simp only
  rw [if_neg held, Tx.bind_of_ok move]
  rfl

theorem applyLine_unlocked {l : StockLine} {rest : List StockLine} {level : StockLevel}
    (row : db.stockLevels (lineLocation t l) = some level) (free : Unlocked t (l :: rest) db) :
    Unlocked t rest (applyLine (reserveMove o) t o l level db) := by
  intro x hx found there
  by_cases same : lineLocation t l = lineLocation t x
  · rw [applyLine_self same] at there
    cases there
    exact free l List.mem_cons_self level row
  · rw [applyLine_other same] at there
    exact free x (List.mem_cons_of_mem l hx) found there

theorem reserveLines_forward {lines : List StockLine} (checked : Checked db)
    (can : CanMove (reserveMove o) (-1, 1, 0) t o lines db) (free : Unlocked t lines db) :
    ∃ db', (Tx.collect (reserveLine t o) lines).run db = .ok ([], db') := by
  induction lines generalizing db with
  | nil => exact ⟨db, rfl⟩
  | cons l rest ih =>
    obtain ⟨level, row, check, next⟩ :=
      can.first (reserveMove_along o) (reserveMove_lands o) checked
    have here := (find_some_iff.1 row).2
    have old := ((check_ok_iff level).1 (checked _ _ here).2).1
    have new : 0 ≤ (level.availableQty - l.quantity).toInt := ((check_ok_iff _).1 check).1
    have left := sub_exact old new
    have first := reserveLine_run row (free l List.mem_cons_self level here) (by omega) check
      (can.fits l List.mem_cons_self)
    obtain ⟨db', loop⟩ := ih (applyLine_checked checked row check) next
      (applyLine_unlocked here free)
    exact ⟨db', Tx.collect_cons_ok_iff.2 ⟨none, _, [], first, loop, rfl⟩⟩

theorem reserveLines_unlocked {lines : List StockLine} {db' : StockDb}
    (h : (Tx.collect (reserveLine t o) lines).run db = .ok ([], db')) : Unlocked t lines db := by
  intro l hl level row
  obtain ⟨found, there, free⟩ := reserveLines_open h l hl
  cases (find_some_iff.1 there).2.symm.trans row
  exact free

def CanHold (t : UUID) (lines : List StockLine) (db : StockDb) (loc : StockLocation) : Prop :=
  ∃ level, db.stockLevels loc = some level ∧ level.isLockedForAudit = false ∧
    quantityAt t loc lines ≤ level.availableQty.toInt ∧
    level.reservedQty.toInt + quantityAt t loc lines ≤ 2147483647

theorem reserveLines_iff {lines : List StockLine} (checked : Checked db)
    (positive : ∀ l ∈ lines, 0 < l.quantity.toInt) :
    (∃ db', (Tx.collect (reserveLine t o) lines).run db = .ok ([], db')) ↔
      (∀ l ∈ lines, Movement.fits (reserveMove o) t o l = true) ∧
        ∀ l ∈ lines, CanHold t lines db (lineLocation t l) := by
  constructor
  · rintro ⟨db', loop⟩
    have run := reserveLines_run loop
    have located := reserveLines_located loop
    refine ⟨lineRun_fits run located, fun l hl => ?_⟩
    obtain ⟨level, found⟩ := Option.ne_none_iff_exists'.1 (located l hl)
    have row := (find_some_iff.1 found).2
    obtain ⟨level', row', moved, -⟩ := lineRun_exact (reserveMove_along o) run checked _ level row
    have new := (check_ok_iff level').1 (lineRun_checked run checked _ level' row').2
    have bound := int32_bounds level'.reservedQty
    simp only [buckets, Prod.smul_mk, smul_eq_mul, Prod.mk_add_mk, Prod.mk.injEq, mul_neg, mul_one,
      mul_zero, add_zero] at moved
    exact ⟨level, row, reserveLines_unlocked loop l hl level row, by omega, by omega⟩
  · rintro ⟨fits, holds⟩
    have nonneg : ∀ l ∈ lines, 0 ≤ l.quantity.toInt := fun l hl => (positive l hl).le
    refine reserveLines_forward checked ⟨nonneg, fun l hl => ?_, fits, fun loc level row => ?_⟩
      fun l hl level row => ?_
    · obtain ⟨level, row, -⟩ := holds l hl
      rw [row]
      exact Option.some_ne_none _
    · have start := representable_of_check (checked loc level row).2
      refine ⟨start, ?_⟩
      by_cases named : ∃ l ∈ lines, lineLocation t l = loc
      · obtain ⟨l, hl, rfl⟩ := named
        obtain ⟨found, row', -, available, reserved⟩ := holds l hl
        rw [row] at row'
        cases row'
        have total : 0 ≤ quantityAt t (lineLocation t l) lines := quantityAt_nonneg nonneg
        simp only [Representable, buckets, Prod.smul_mk, smul_eq_mul, Prod.mk_add_mk, mul_neg,
          mul_one, mul_zero, add_zero] at start ⊢
        omega
      · rw [quantityAt_eq_zero fun l hl here => named ⟨l, hl, here⟩, zero_smul, add_zero]
        exact start
    · obtain ⟨found, row', free, -⟩ := holds l hl
      rw [row] at row'
      cases row'
      exact free

end Reserve

structure ReserveTexts (rt : Runtime) (t : UUID) (req : ReserveStockRequest) : Prop where
  tenant : Castable rt req.tenantId
  key : keyFits req.idempotencyKey = true
  lines : ∀ l ∈ req.lines, Movement.fits (reserveMove req.orderId) t req.orderId l = true

section ReserveStock

variable {rt : Runtime} {req : ReserveStockRequest} {t : UUID} {db : StockDb}

theorem sorted_mem {l : StockLine} : l ∈ sortedLines rt req.lines ↔ l ∈ req.lines :=
  (rt.sortSlice_perm req.lines).mem_iff

theorem canHold_sorted (msg : Message) (loc : StockLocation) :
    CanHold t (sortedLines rt req.lines) (claimKey rt t req.idempotencyKey msg db) loc ↔
      CanHold t req.lines db loc := by
  simp only [CanHold, claimKey_levels, quantityAt_sorted]

theorem reserveTx_loop {resp : ReserveStockResponse} {db' : StockDb}
    (unseen : ¬Seen db t req.idempotencyKey)
    (run : (reserveTx rt t req).run db = .ok (resp, db')) :
    keyFits req.idempotencyKey = true ∧
      ∃ v, (Tx.collect (reserveLine t req.orderId) (sortedLines rt req.lines)).run
        (claimKey rt t req.idempotencyKey (.reserveStock req) db) = .ok ([], v) := by
  rw [reserveTx, keyedTx_run] at run
  split_ifs at run with fits
  obtain ⟨failed, v, collected, answer⟩ := Tx.bind_ok_iff.1 run
  split at answer
  · rename_i none
    subst none
    exact ⟨fits, v, collected⟩
  · simp at answer

theorem reserveTx_iff (checked : Checked db) (positive : ∀ l ∈ req.lines, 0 < l.quantity.toInt)
    (unseen : ¬Seen db t req.idempotencyKey) :
    (∃ db', (reserveTx rt t req).run db = .ok (⟨true, []⟩, db')) ↔
      keyFits req.idempotencyKey = true ∧
      (∀ l ∈ req.lines, Movement.fits (reserveMove req.orderId) t req.orderId l = true) ∧
      ∀ l ∈ req.lines, CanHold t req.lines db (lineLocation t l) := by
  have start : Checked (claimKey rt t req.idempotencyKey (.reserveStock req) db) :=
    claimKey_checked checked
  have asked : ∀ l ∈ sortedLines rt req.lines, 0 < l.quantity.toInt := fun l hl =>
    positive l (sorted_mem.1 hl)
  have loop := reserveLines_iff (t := t) (o := req.orderId) start asked
  simp only [sorted_mem, canHold_sorted] at loop
  rw [← loop]
  constructor
  · rintro ⟨db', run⟩
    exact reserveTx_loop unseen run
  · rintro ⟨fits, db', collected⟩
    refine ⟨db', ?_⟩
    rw [reserveTx, keyedTx_run, if_pos fits, if_neg unseen]
    exact Tx.bind_ok_iff.2 ⟨[], db', collected, rfl⟩

theorem reserveStock_tx (parse : rt.scan req.tenantId = some t)
    (succeeded : (StockCall.reserveStock req).succeeded rt db = true) :
    Castable rt req.tenantId ∧ ∃ db', (reserveTx rt t req).run db = .ok (⟨true, []⟩, db') := by
  simp only [StockCall.succeeded, reserveStock, parseUUID, parse] at succeeded
  split at succeeded
  · cases succeeded
  · split at succeeded
    · cases succeeded
    · cases succeeded
    · rename_i resp db' run
      obtain ⟨rfl, -⟩ := reserveTx_ok (execTx_ok run)
      exact ⟨castable_of_ok run, db', execTx_ok run⟩

theorem reserveStock_unlocked (parse : rt.scan req.tenantId = some t)
    (unseen : ¬Seen db t req.idempotencyKey)
    (succeeded : (StockCall.reserveStock req).succeeded rt db = true) :
    Unlocked t req.lines db := by
  obtain ⟨-, db', run⟩ := reserveStock_tx parse succeeded
  obtain ⟨-, v, loop⟩ := reserveTx_loop unseen run
  intro l hl level row
  refine reserveLines_unlocked loop l (sorted_mem.2 hl) level ?_
  rwa [claimKey_levels]

theorem reserveStock_iff (parse : rt.scan req.tenantId = some t) (checked : Checked db)
    (nonempty : req.lines ≠ []) (positive : ∀ l ∈ req.lines, 0 < l.quantity.toInt)
    (unseen : ¬Seen db t req.idempotencyKey) :
    (StockCall.reserveStock req).succeeded rt db = true ↔
      ReserveTexts rt t req ∧ ∀ l ∈ req.lines, CanHold t req.lines db (lineLocation t l) := by
  have some_ : (sortedLines rt req.lines).length ≠ 0 := by
    rw [sortedLines, (rt.sortSlice_perm req.lines).length_eq]
    exact fun zero => nonempty (List.length_eq_zero_iff.1 zero)
  have tx : (∃ db', (reserveTx rt t req).run db = .ok (⟨true, []⟩, db')) ↔ _ :=
    reserveTx_iff checked positive unseen
  constructor
  · intro succeeded
    obtain ⟨castable, db', run⟩ := reserveStock_tx parse succeeded
    obtain ⟨key, fits, holds⟩ := tx.1 ⟨db', run⟩
    exact ⟨⟨castable, key, fits⟩, holds⟩
  · rintro ⟨texts, holds⟩
    obtain ⟨db', run⟩ := tx.2 ⟨texts.key, texts.lines, holds⟩
    simp only [StockCall.succeeded, reserveStock, parseUUID, parse, if_neg some_,
      execTx_eq texts.tenant, Tx.commit_of_ok run]
    rfl

end ReserveStock

/-- A reservation whose quantities are positive and whose key is new succeeds
exactly if its texts can be stored and every location it names has a free row
with room for the sum asked for there. It then moves the sums, and in every
other case it leaves the tables as they were. -/
theorem reserve_all_or_nothing (rt : Runtime) (req : ReserveStockRequest) (db : StockDb)
    (checked : Checked db) (nonempty : req.lines ≠ [])
    (positive : ∀ l ∈ req.lines, 0 < l.quantity.toInt)
    (fresh : ¬(StockCall.reserveStock req).Repeats rt db) :
    ((StockCall.reserveStock req).succeeded rt db = true ↔
      ∃ t, rt.scan req.tenantId = some t ∧ ReserveTexts rt t req ∧
        ∀ l ∈ req.lines, CanHold t req.lines db (lineLocation t l)) ∧
    ((StockCall.reserveStock req).succeeded rt db = true →
      ∀ t, rt.scan req.tenantId = some t → ∀ l ∈ req.lines, ∃ level level',
        db.stockLevels (lineLocation t l) = some level ∧
        (reserveStock rt req db).2.stockLevels (lineLocation t l) = some level' ∧
        buckets level' =
          buckets level + quantityAt t (lineLocation t l) req.lines • (-1, 1, 0)) ∧
    ((StockCall.reserveStock req).succeeded rt db = false → (reserveStock rt req db).2 = db) := by
  have exact : ∀ t, rt.scan req.tenantId = some t →
      ((StockCall.reserveStock req).succeeded rt db = true ↔ ReserveTexts rt t req ∧
        ∀ l ∈ req.lines, CanHold t req.lines db (lineLocation t l)) := fun t parse =>
    reserveStock_iff parse checked nonempty positive fun seen => fresh ⟨t, parse, seen⟩
  refine ⟨⟨fun succeeded => ?_, ?_⟩, fun succeeded t parse l hl => ?_, fun failed => ?_⟩
  · rcases movement_cases rt (.reserveStock req) _ rfl db with
      ⟨failed, -⟩ | ⟨-, t, orderID, msg, parse, -⟩
    · rw [succeeded] at failed
      cases failed
    · exact ⟨t, parse, (exact t parse).1 succeeded⟩
  · rintro ⟨t, parse, offered⟩
    exact (exact t parse).2 offered
  · obtain ⟨level, row, -⟩ := ((exact t parse).1 succeeded).2 l hl
    obtain ⟨level', row', moved⟩ := movement_exact rt (.reserveStock req) (-1, 1, 0) rfl db checked
      succeeded fresh t parse _ level row
    exact ⟨level, level', row, row', moved⟩
  · rcases movement_cases rt (.reserveStock req) _ rfl db with
      ⟨-, same⟩ | ⟨succeeded, -⟩
    · exact same
    · rw [succeeded] at failed
      cases failed

def sampleTables : StockDb := runCalls (reference [])
  [.adjustStock ⟨sampleTenant.text, "SKU", "W1", 5, "adjust", "erp", ""⟩] StockDb.empty

theorem sampleTables_checked : Checked sampleTables := runCalls_checked _ _ _ empty_checked

def sampleReserve : ReserveStockRequest :=
  ⟨sampleTenant.text, "ord-1", "ord-1:reserve", [⟨"SKU", "W1", 2⟩, ⟨"SKU", "W1", 1⟩]⟩

theorem reserve_all_or_nothing_twice :
    (StockCall.reserveStock sampleReserve).succeeded (reference []) sampleTables = true ∧
    ∃ level level', sampleTables.stockLevels sampleLocation = some level ∧
      (reserveStock (reference []) sampleReserve sampleTables).2.stockLevels sampleLocation =
        some level' ∧
      buckets level' = buckets level +
        quantityAt sampleTenant sampleLocation sampleReserve.lines • (-1, 1, 0) := by
  have parse : (reference []).scan sampleReserve.tenantId = some sampleTenant := by decide
  have fresh : ¬(StockCall.reserveStock sampleReserve).Repeats (reference []) sampleTables := by
    rintro ⟨t, scanned, seen⟩
    rw [show (StockCall.reserveStock sampleReserve).tenantId = sampleReserve.tenantId from rfl,
      parse] at scanned
    cases scanned
    revert seen
    decide
  obtain ⟨-, moves, -⟩ := reserve_all_or_nothing (reference []) sampleReserve sampleTables
    sampleTables_checked (by decide) (by decide) fresh
  have succeeded :
      (StockCall.reserveStock sampleReserve).succeeded (reference []) sampleTables = true := by
    rw [sampleTables, reference_recognizing]
    decide +kernel
  exact ⟨succeeded, moves succeeded sampleTenant parse ⟨"SKU", "W1", 2⟩ (by decide)⟩

def longText : String := String.ofList (List.replicate 256 'x')

theorem repeated_last (n : ℕ) (c : Char) :
    (String.ofList (List.replicate (n + 1) c)).toList.getLast? = some c := by
  rw [String.toList_ofList, List.getLast?_replicate, if_neg (Nat.succ_ne_zero n)]

theorem varchar_long {n : ℕ} {s : String} {c : Char} (last : s.toList.getLast? = some c)
    (solid : c ≠ ' ') (long : n < s.length) : varchar n s = false := by
  have whole := varchar_append (n := n) (s := "") last solid
  rw [String.empty_append] at whole
  rw [whole, Messages.fits, decide_eq_false (Nat.not_le.2 long), Bool.false_and]

theorem longText_refused : varchar 255 longText = false := by
  have length : longText.length = 256 := String.length_ofList.trans List.length_replicate
  exact varchar_long (repeated_last 255 'x') (by decide) (by rw [length]; decide)

def longOrder : ReserveStockRequest := ⟨sampleTenant.text, longText, "", [⟨"SKU", "W1", 2⟩]⟩

theorem longOrder_fails :
    (StockCall.reserveStock longOrder).succeeded (reference []) sampleTables = false := by
  refine Bool.eq_false_iff.2 fun succeeded => ?_
  have parse : (reference []).scan longOrder.tenantId = some sampleTenant := by decide
  have asked : ∀ l ∈ longOrder.lines, 0 < l.quantity.toInt := by decide
  obtain ⟨texts, -⟩ := (reserveStock_iff parse sampleTables_checked (List.cons_ne_nil _ _) asked
    fun seen => seen.1 rfl).1 succeeded
  have fits := texts.lines _ List.mem_cons_self
  simp only [Movement.fits, StockSteps.eventFits, Movement.event, reserveMove, Bool.and_eq_true]
    at fits
  have order : varchar 255 longText = true := fits.1.2
  rw [longText_refused] at order
  cases order

/-- The order id goes into a column of 255 characters, so a reservation may
fail although every location has a free row with enough units. -/
theorem long_order_refused : longOrder.lines ≠ [] ∧
    (∀ l ∈ longOrder.lines, 0 < l.quantity.toInt) ∧ longOrder.idempotencyKey = "" ∧
    (reference []).scan longOrder.tenantId = some sampleTenant ∧
    (∀ l ∈ longOrder.lines,
      CanHold sampleTenant longOrder.lines sampleTables (lineLocation sampleTenant l)) ∧
    (StockCall.reserveStock longOrder).succeeded (reference []) sampleTables = false := by
  refine ⟨List.cons_ne_nil _ _, by decide, rfl, by decide, fun l hl => ?_, longOrder_fails⟩
  rw [List.mem_singleton.1 hl]
  exact ⟨⟨5, 0, 0, false⟩, by decide, rfl, by decide, by decide⟩

section Adjust

variable {rt : Runtime} {req : AdjustStockRequest} {t : UUID} {db : StockDb}

def adjusted (t : UUID) (req : AdjustStockRequest) : StockLocation :=
  ⟨t, req.skuId, req.warehouseId⟩

structure AdjustTexts (rt : Runtime) (t : UUID) (req : AdjustStockRequest) : Prop where
  tenant : Castable rt req.tenantId
  key : keyFits req.idempotencyKey = true
  names : nameFits (adjusted t req) = true
  reason : varchar 255 req.reason = true
  source : varchar 255 req.source = true

structure Clamps (loc : StockLocation) (delta : ℤ) (db db' : StockDb) : Prop where
  level : ∃ level, db'.stockLevels loc = some level ∧
    buckets level = (max 0 ((held db loc).1 + delta), (held db loc).2)
  alert : (∃ e ∈ db'.outbox.drop db.outbox.length, e.eventType = "stock.deficit_alert") ↔
    (held db loc).1 + delta < 0

theorem upsert_run {loc : StockLocation} {delta : Int32} (within : loc.stored = loc)
    (names : (varchar 255 loc.skuID && varchar 255 loc.warehouseID) = true)
    (nonneg : 0 ≤ delta.toInt) (room : (held db loc).1 + delta.toInt ≤ 2147483647)
    (check : (upserted (db.stockLevels loc) delta).check = .ok ()) :
    (upsertStockLevel loc delta).run db =
      .ok ((), db.setLevel loc (upserted (db.stockLevels loc) delta)) := by
  have proposed : StockLevel.check ⟨delta, 0, 0, false⟩ = .ok () :=
    (check_ok_iff _).2 ⟨nonneg, le_rfl, le_rfl⟩
  unfold upsertStockLevel
  rw [Tx.bind_of_ok (Tx.require_ok_iff (u := ()).2 ⟨names, rfl⟩)]
  simp only [proposed]
  rw [Tx.bind_of_ok (Tx.read_run db), within]
  cases row : db.stockLevels loc with
  | none => exact writeLevel_ok_iff.2 ⟨proposed, rfl⟩
  | some level =>
    have low := int32_bounds level.availableQty
    have sum : (held db loc).1 = level.availableQty.toInt := by simp [held, row, buckets]
    rw [row] at check
    have range : -2147483648 ≤ level.availableQty.toInt + delta.toInt ∧
        level.availableQty.toInt + delta.toInt ≤ 2147483647 := by omega
    simp only [if_pos range]
    exact writeLevel_ok_iff.2 ⟨check, rfl⟩

theorem upserted_buckets {loc : StockLocation} {delta : Int32} (nonneg : 0 ≤ delta.toInt)
    (checked : Checked db) (room : (held db loc).1 + delta.toInt ≤ 2147483647) :
    (upserted (db.stockLevels loc) delta).check = .ok () ∧
      buckets (upserted (db.stockLevels loc) delta) =
        ((held db loc).1 + delta.toInt, (held db loc).2) := by
  cases row : db.stockLevels loc with
  | none =>
    refine ⟨(check_ok_iff _).2 ⟨nonneg, le_rfl, le_rfl⟩, ?_⟩
    simp [upserted, held, row, buckets]
  | some level =>
    have old := (check_ok_iff level).1 (checked loc level row).2
    have here : held db loc = buckets level := by simp [held, row]
    rw [here] at room ⊢
    have sum : (level.availableQty + delta).toInt = level.availableQty.toInt + delta.toInt :=
      add_in_range (by omega) room
    refine ⟨(check_ok_iff _).2 ⟨?_, old.2⟩, ?_⟩
    · change 0 ≤ (level.availableQty + delta).toInt
      omega
    · simp only [upserted, buckets, sum]

/-- The alert branch is not taken, since the row is not negative when it is read. -/
theorem adjustOnce_run (names : nameFits (adjusted t req) = true)
    (reason : varchar 255 req.reason = true) (source : varchar 255 req.source = true)
    (nonneg : 0 ≤ req.quantityDelta.toInt) (checked : Checked db)
    (room : (held db (adjusted t req)).1 + req.quantityDelta.toInt ≤ 2147483647) :
    ∃ resp, (adjustOnce t req (adjusted t req)).run db =
      .ok (resp, applyAdjust t req (adjusted t req) db) := by
  obtain ⟨check, -⟩ := upserted_buckets nonneg checked room
  have within := stored_of_nameFits names
  simp only [nameFits, Bool.and_eq_true] at names
  obtain ⟨⟨shortSku, shortWarehouse⟩, aggregate⟩ := names
  have sku := fits_varchar shortSku
  have warehouse := fits_varchar shortWarehouse
  have skuText := (Bool.and_eq_true_iff.1 sku).2
  have warehouseText := (Bool.and_eq_true_iff.1 warehouse).2
  have reasonText := (Bool.and_eq_true_iff.1 reason).2
  have sourceText := (Bool.and_eq_true_iff.1 source).2
  have upsert := upsert_run within (by rw [sku, warehouse]; rfl) nonneg room check
  generalize level : upserted (db.stockLevels (adjusted t req)) req.quantityDelta = new at *
  have zero : (0 : Int32).toInt = 0 := by decide
  have free : decide (new.availableQty < 0) = false := by
    have low := ((check_ok_iff new).1 check).1
    simp only [decide_eq_false_iff_not, Int32.lt_iff_toInt_lt, zero]
    omega
  have read : (getStockLevelForUpdate (adjusted t req)).run (db.setLevel (adjusted t req) new) =
      .ok (some new, db.setLevel (adjusted t req) new) := by
    rw [getLevel_run, skuText, warehouseText, find_eq within, setLevel_self]
    rfl
  have write : (updateStockLevel (adjusted t req) new).run (db.setLevel (adjusted t req) new) =
      .ok ((), (db.setLevel (adjusted t req) new).setLevel (adjusted t req) new) :=
    updateLevel_ok_iff.2 ⟨by rw [setLevel_self]; rfl, check, rfl⟩
  have event : eventFits (adjustEvent t req) = true := by
    simp only [StockSteps.eventFits, adjustEvent, Bool.and_eq_true]
    exact ⟨⟨⟨⟨sku, warehouse⟩, reason⟩, source⟩, by decide⟩
  have outbox : outboxFits (adjustOutbox t req new.availableQty) = true := by
    simp only [outboxFits, adjustOutbox, StockPayload.storable, Bool.and_eq_true]
    exact ⟨aggregate, ⟨⟨skuText, warehouseText⟩, reasonText⟩, sourceText⟩
  unfold adjustOnce
  rw [Tx.bind_of_ok upsert, Tx.bind_of_ok read]
  simp only [free, Bool.false_eq_true, ↓reduceIte]
  refine ⟨⟨true, new.availableQty, new.reservedQty, new.allocatedQty, false,
    some db.stockEvents.length⟩, Tx.bind_ok_iff.2 ⟨_, _, write, Tx.bind_ok_iff.2 ⟨_, _,
    insertEvent_ok_iff.2 ⟨event, rfl, rfl⟩, Tx.bind_ok_iff.2 ⟨(), _,
    insertOutbox_ok_iff.2 ⟨outbox, rfl⟩, ?_⟩⟩⟩⟩
  rw [Tx.pure_run]
  simp [applyAdjust, level, StockDb.setLevel, adjustEvent, adjustOutbox]

/-- An adjustment under a new key commits exactly if the delta is not negative
and the texts can be stored. -/
theorem adjustTx_iff (checked : Checked db) (unseen : ¬Seen db t req.idempotencyKey)
    (room : (held db (adjusted t req)).1 + req.quantityDelta.toInt ≤ 2147483647) :
    (∃ resp db', (adjustTx rt t req).run db = .ok (resp, db')) ↔
      0 ≤ req.quantityDelta.toInt ∧ keyFits req.idempotencyKey = true ∧
      nameFits (adjusted t req) = true ∧ varchar 255 req.reason = true ∧
      varchar 255 req.source = true := by
  constructor
  · rintro ⟨resp, db', run⟩
    rw [adjustTx, keyedTx_run] at run
    split_ifs at run with fits
    obtain ⟨names, nonneg, -, -, -, texts⟩ := adjustOnce_ok run
    simp only [StockSteps.eventFits, adjustEvent, Bool.and_eq_true] at texts
    exact ⟨nonneg, fits, names, texts.1.1.2, texts.1.2⟩
  · rintro ⟨nonneg, fits, names, reason, source⟩
    have same : held (claimKey rt t req.idempotencyKey (.adjustStock req) db) (adjusted t req) =
        held db (adjusted t req) := by
      simp only [held, claimKey_levels]
    have start : Checked (claimKey rt t req.idempotencyKey (.adjustStock req) db) :=
      claimKey_checked checked
    obtain ⟨resp, run⟩ := adjustOnce_run names reason source nonneg start (by rwa [same])
    have first : (adjustTx rt t req).run db = (adjustOnce t req (adjusted t req)).run
        (claimKey rt t req.idempotencyKey (.adjustStock req) db) := by
      rw [adjustTx, keyedTx_run, if_pos fits, if_neg unseen]
      rfl
    exact ⟨resp, _, first.trans run⟩

theorem adjustStock_iff (parse : rt.scan req.tenantId = some t) (checked : Checked db)
    (unseen : ¬Seen db t req.idempotencyKey)
    (room : (held db (adjusted t req)).1 + req.quantityDelta.toInt ≤ 2147483647) :
    (∃ resp, (adjustStock rt req db).1 = .ok resp) ↔
      0 ≤ req.quantityDelta.toInt ∧ AdjustTexts rt t req := by
  have tx : (∃ resp db', (adjustTx rt t req).run db = .ok (resp, db')) ↔ _ :=
    adjustTx_iff checked unseen room
  constructor
  · rintro ⟨resp, answered⟩
    simp only [adjustStock, tenantRpc, parseUUID, parse] at answered
    split at answered
    · cases answered
    · rename_i run
      obtain ⟨nonneg, key, names, reason, source⟩ := tx.1 ⟨_, _, execTx_ok run⟩
      exact ⟨nonneg, castable_of_ok run, key, names, reason, source⟩
  · rintro ⟨nonneg, texts⟩
    obtain ⟨resp, db', run⟩ := tx.2 ⟨nonneg, texts.key, texts.names, texts.reason, texts.source⟩
    refine ⟨resp, ?_⟩
    rw [adjustStock, tenantRpc_forward parse texts.tenant run]

/-- A committed adjustment has nothing to clamp and raises no alert. -/
theorem adjustStock_clamps (parse : rt.scan req.tenantId = some t) (checked : Checked db)
    (unseen : ¬Seen db t req.idempotencyKey)
    (room : (held db (adjusted t req)).1 + req.quantityDelta.toInt ≤ 2147483647)
    {resp : AdjustStockResponse} (answered : (adjustStock rt req db).1 = .ok resp) :
    Clamps (adjusted t req) req.quantityDelta.toInt db (adjustStock rt req db).2 := by
  generalize result : adjustStock rt req db = r at answered
  obtain ⟨answer, db'⟩ := r
  rcases tenantRpc_cases result with ⟨u, resp', parse', run, -⟩ | ⟨e, rfl, -⟩
  · rw [parse] at parse'
    cases parse'
    rcases adjustTx_ok run with ⟨seen, -⟩ | ⟨-, -, nonneg, -, rfl⟩
    · exact absurd seen unseen
    · have base := (representable_held checked (adjusted t req)).1.1
      obtain ⟨-, exact⟩ := upserted_buckets nonneg checked room
      refine ⟨⟨upserted (db.stockLevels (adjusted t req)) req.quantityDelta, ?_, ?_⟩, ?_⟩
      · change (StockDb.setLevel _ (adjusted t req) _).stockLevels (adjusted t req) = _
        rw [setLevel_self, claimKey_levels]
        rfl
      · rw [exact, max_eq_right (by omega)]
      · have none : ¬(held db (adjusted t req)).1 + req.quantityDelta.toInt < 0 := by omega
        refine iff_of_false ?_ none
        rintro ⟨e, member, alert⟩
        simp only [applyAdjust, claimKey_outbox, List.drop_left, List.mem_singleton] at member
        rw [member] at alert
        exact absurd alert (show "stock.adjusted" ≠ "stock.deficit_alert" by decide)
  · cases answered

end Adjust

/-- Clamping is promised for every delta; it is kept exactly for those that are
not negative, since the row the upsert proposes carries the bare delta and has
to pass the constraint on `available_qty`. -/
theorem adjust_clamps_iff (rt : Runtime) (req : AdjustStockRequest) (db : StockDb) (t : UUID)
    (parse : rt.scan req.tenantId = some t) (checked : Checked db)
    (unused : ¬Seen db t req.idempotencyKey)
    (room : (held db (adjusted t req)).1 + req.quantityDelta.toInt ≤ 2 ^ 31 - 1) :
    ((∃ resp, (adjustStock rt req db).1 = .ok resp) ∧
        Clamps (adjusted t req) req.quantityDelta.toInt db (adjustStock rt req db).2) ↔
      0 ≤ req.quantityDelta.toInt ∧ AdjustTexts rt t req := by
  have limit : (held db (adjusted t req)).1 + req.quantityDelta.toInt ≤ 2147483647 := by omega
  rw [← adjustStock_iff parse checked unused limit]
  refine ⟨fun both => both.1, fun committed => ⟨committed, ?_⟩⟩
  obtain ⟨resp, answered⟩ := committed
  exact adjustStock_clamps parse checked unused limit answered

def sampleAdjust (delta : Int32) : AdjustStockRequest :=
  ⟨sampleTenant.text, "SKU", "W1", delta, "adjust", "erp", "sync-1"⟩

theorem adjust_clamps_arrival :
    (∃ resp, (adjustStock (reference []) (sampleAdjust 2) sampleTables).1 = .ok resp) ∧
      Clamps sampleLocation 2 sampleTables
        (adjustStock (reference []) (sampleAdjust 2) sampleTables).2 :=
  (adjust_clamps_iff (reference []) (sampleAdjust 2) sampleTables sampleTenant (by decide)
    sampleTables_checked (by decide) (by decide)).2
    ⟨by decide, castable_text _ sampleTenant, by decide, by decide, by decide, by decide⟩

theorem negative_adjust_refused :
    (adjustStock (reference []) (sampleAdjust (-2)) sampleTables).1.toOption = none ∧
      ((adjustStock (reference []) (sampleAdjust (-2)) sampleTables).2.stockLevels
        sampleLocation).map buckets = some (5, 0, 0) ∧
      ¬Clamps sampleLocation (-2) sampleTables
        (adjustStock (reference []) (sampleAdjust (-2)) sampleTables).2 := by
  have ends : (adjustStock (reference []) (sampleAdjust (-2)) sampleTables).1.toOption = none ∧
      ((adjustStock (reference []) (sampleAdjust (-2)) sampleTables).2.stockLevels
        sampleLocation).map buckets = some (5, 0, 0) := by
    rw [sampleTables, reference_recognizing]
    decide +kernel
  obtain ⟨refused, row⟩ := ends
  refine ⟨refused, row, ?_⟩
  rintro ⟨⟨level, found, exact⟩, -⟩
  rw [found, Option.map_some, Option.some.injEq] at row
  rw [row] at exact
  revert exact
  decide

def Forward : StockCall → Buckets → Buckets → Prop
  | .reserveStock _, b, b' => b'.1 ≤ b.1 ∧ b.2.1 ≤ b'.2.1
  | .releaseStock _, b, b' => b.1 ≤ b'.1 ∧ b'.2.1 ≤ b.2.1
  | .confirmStockAllocation _, b, b' => b'.2.1 ≤ b.2.1 ∧ b.2.2 ≤ b'.2.2
  | .fulfillStock _, b, b' => b'.2.2 ≤ b.2.2
  | _, _, _ => True

theorem forward_refl (call : StockCall) (b : Buckets) : Forward call b b := by
  cases call <;> simp [Forward]

theorem forward_iff (call : StockCall) (d : Buckets) (dir : call.direction = some d) (b : Buckets)
    (q : ℤ) : Forward call b (b + q • d) ↔ 0 ≤ q := by
  cases call with
  | adjustStock req => simp [StockCall.direction] at dir
  | unlockStockForAudit req => simp [StockCall.direction] at dir
  | reconcile => simp [StockCall.direction] at dir
  | _ =>
    cases dir
    simp [Forward]

/-- After any run, a movement that commits goes forward at every location
exactly if it repeats a key or the sum of its quantities is not negative at
any location with a row. -/
theorem forward_iff_sums_nonneg (rt : Runtime) (start : StockDb) (checked : Checked start)
    (calls : List StockCall) (call : StockCall) (d : Buckets) (dir : call.direction = some d)
    (succeeded : call.succeeded rt (runCalls rt calls start) = true) (t : UUID)
    (parse : rt.scan call.tenantId = some t) :
    (∀ loc, Forward call (held (runCalls rt calls start) loc)
        (held (call.apply rt (runCalls rt calls start)) loc)) ↔
      Seen (runCalls rt calls start) t call.idempotencyKey ∨
        ∀ loc, (runCalls rt calls start).stockLevels loc ≠ none →
          0 ≤ quantityAt t loc call.lines := by
  have reached := runCalls_checked rt calls start checked
  generalize runCalls rt calls start = db at *
  obtain ⟨m, moves, along⟩ := direction_movement call d dir
  rcases movement_cases rt call m moves db with ⟨failed, -⟩ | ⟨-, u, o, msg, parse', moved⟩
  · rw [succeeded] at failed
    cases failed
  · rw [parse] at parse'
    cases parse'
    by_cases seen : Seen db t call.idempotencyKey
    · cases moved with
      | duplicate _ same =>
        rw [same]
        exact iff_of_true (fun loc => forward_refl call _) (.inl seen)
      | fresh unseen _ _ => exact absurd seen unseen
    · simp only [moved_units along moved reached, forward_iff call d dir, seen, false_or]
      refine forall_congr' fun loc => ?_
      cases db.stockLevels loc with
      | none => simp
      | some level => simp

def sampleUnreserve : StockCall :=
  .reserveStock ⟨sampleTenant.text, "ord-2", "", [⟨"SKU", "W1", -3⟩]⟩

def sampleConfirm : StockCall :=
  .confirmStockAllocation ⟨sampleTenant.text, "ord-1", "", [⟨"SKU", "W1", 2⟩]⟩

theorem forward_iff_sums_nonneg_confirmed :
    sampleConfirm.succeeded (reference []) (runCalls (reference []) sampleCalls .empty) = true ∧
    Forward sampleConfirm (held (runCalls (reference []) sampleCalls .empty) sampleLocation)
      (held (sampleConfirm.apply (reference []) (runCalls (reference []) sampleCalls .empty))
        sampleLocation) := by
  have succeeded : sampleConfirm.succeeded (reference [])
      (runCalls (reference []) sampleCalls .empty) = true := by
    rw [reference_recognizing]
    decide +kernel
  have forward := (forward_iff_sums_nonneg (reference []) .empty empty_checked sampleCalls
    sampleConfirm (0, -1, 1) rfl succeeded sampleTenant (by decide)).2
    (.inr fun loc _ => quantityAt_nonneg (by decide))
  exact ⟨succeeded, forward sampleLocation⟩

/-- A reservation of minus three units frees the three held for another order. -/
theorem negative_reserve_frees :
    sampleUnreserve.succeeded (reference []) (runCalls (reference []) sampleCalls .empty) = true ∧
    held (runCalls (reference []) sampleCalls .empty) sampleLocation = (2, 3, 0) ∧
    held (sampleUnreserve.apply (reference []) (runCalls (reference []) sampleCalls .empty))
      sampleLocation = (5, 0, 0) ∧
    ¬Forward sampleUnreserve (2, 3, 0) (5, 0, 0) := by
  have backward : ¬Forward sampleUnreserve (2, 3, 0) (5, 0, 0) := by
    rintro ⟨less, -⟩
    revert less
    decide
  have ends : sampleUnreserve.succeeded (reference [])
        (runCalls (reference []) sampleCalls .empty) = true ∧
      held (runCalls (reference []) sampleCalls .empty) sampleLocation = (2, 3, 0) ∧
      held (sampleUnreserve.apply (reference []) (runCalls (reference []) sampleCalls .empty))
        sampleLocation = (5, 0, 0) := by
    rw [reference_recognizing]
    decide +kernel
  exact ⟨ends.1, ends.2.1, ends.2.2, backward⟩

end Taper.ExactRequests
