import Taper.ReconcilePass

set_option autoImplicit false

/-!
# What a reconciliation detects

The buckets are derived in 64 bits and compared in 32, so a pass sees
differences up to multiples of 2 ^ 32, and nothing where a sum does not fit in
64 bits.
-/
namespace Taper.DriftExact
open Platform StockTables StockReconcile StockConservation StockReconcileSound
open ReconcilePass MachineInt

def Congruent (a b : Buckets) : Prop :=
  (4294967296 : ℤ) ∣ a.1 - b.1 ∧ (4294967296 : ℤ) ∣ a.2.1 - b.2.1 ∧ (4294967296 : ℤ) ∣ a.2.2 - b.2.2

instance (a b : Buckets) : Decidable (Congruent a b) := inferInstanceAs (Decidable (_ ∧ _ ∧ _))

theorem narrowed_eq_iff (x : ℤ) (q : Int32) :
    (Int64.ofInt x).toInt32 = q ↔ (4294967296 : ℤ) ∣ x - q.toInt := by
  have bounds := int32_bounds q
  rw [← Int32.toInt_inj, Int64.toInt_toInt32, Int64.toInt_ofInt]
  simp only [Int.bmod_def, Int64.size] at *
  omega

theorem found_iff {rt : Runtime} {db : StockDb} {loc : StockLocation} {level : StockLevel}
    {reasons : List ReasonSum} (sums : sumDeltasByReason rt db loc = .ok reasons) :
    (drift loc level (deriveBuckets reasons)).found = true ↔
      ¬Congruent (derivedAt db loc) (buckets level) := by
  rw [deriveBuckets_sums sums]
  simp only [Drift.found, drift, ofBuckets, Congruent, buckets, Bool.or_eq_true, bne_iff_ne, ne_eq,
    narrowed_eq_iff]
  tauto

/-- The location has a row, and what is derived for it differs in 32 bits. -/
def Differs (db : StockDb) (loc : StockLocation) : Prop :=
  ∃ stored, (db.stockLevels loc).map buckets = some stored ∧ ¬Congruent (derivedAt db loc) stored

def Names (d : Drift) (loc : StockLocation) : Prop :=
  d.tenantID = loc.tenantID.text ∧ d.skuID = loc.skuID ∧ d.warehouseID = loc.warehouseID

theorem drift_names {target loc : StockLocation} {level : StockLevel} {d : Derived} :
    Names (drift target level d) loc ↔ target = loc := by
  constructor
  · rintro ⟨tenant, sku, warehouse⟩
    obtain ⟨t, s, w⟩ := loc
    cases target
    cases text_injective tenant
    cases sku
    cases warehouse
    rfl
  · rintro rfl
    exact ⟨rfl, rfl, rfl⟩

section Pass

variable {rt : Runtime}

theorem setAuditLock_events (target : StockLocation) (db : StockDb) :
    (setAuditLock target true db).stockEvents = db.stockEvents := by
  unfold setAuditLock
  split
  · rfl
  · rfl

theorem differs_setAuditLock (target loc : StockLocation) (db : StockDb) :
    Differs (setAuditLock target true db) loc ↔ Differs db loc := by
  unfold Differs
  rw [setAuditLock_buckets, derivedAt_congr (setAuditLock_events target db)]

theorem isSome_setAuditLock (target loc : StockLocation) (db : StockDb) :
    ((setAuditLock target true db).stockLevels loc).isSome = (db.stockLevels loc).isSome := by
  have same := congrArg Option.isSome (setAuditLock_buckets target loc true db)
  simpa using same

theorem setAuditLock_stays {target loc : StockLocation} {db : StockDb} (other : loc ≠ target) :
    (setAuditLock target true db).stockLevels loc = db.stockLevels loc := by
  unfold setAuditLock
  split
  · rfl
  · exact setLevel_of_ne db _ other

theorem locked_setAuditLock {target loc : StockLocation} {db : StockDb} :
    Locked (setAuditLock target true db) loc ↔
      Locked db loc ∨ (loc = target ∧ (db.stockLevels target).isSome = true) := by
  by_cases same : loc = target
  · subst same
    unfold setAuditLock
    cases row : db.stockLevels loc with
    | none => simp
    | some level => simp [locked_setLevel]
  · rw [setAuditLock_other same]
    simp [same]

/-- What the locations of a list come to: every sum has to fit where there is a
row; then the differences are reported and locked. -/
structure Detects (rt : Runtime) (locs : List StockLocation) (db : StockDb) : Prop where
  ends : (∃ drifts, (reconcileAll rt locs db).1 = .ok drifts) ↔
    ∀ loc ∈ locs, (db.stockLevels loc).isSome = true → Summed (eventsAt db loc)
  reports : ∀ drifts, (reconcileAll rt locs db).1 = .ok drifts →
    ∀ loc, (∃ d ∈ drifts, Names d loc) ↔ loc ∈ locs ∧ Differs db loc
  locks : ∀ drifts, (reconcileAll rt locs db).1 = .ok drifts →
    ∀ loc, Locked (reconcileAll rt locs db).2 loc ↔ Locked db loc ∨ loc ∈ locs ∧ Differs db loc
  keeps : ∀ loc, ¬Differs db loc →
    (reconcileAll rt locs db).2.stockLevels loc = db.stockLevels loc

variable {target : StockLocation} {rest : List StockLocation} {db : StockDb}

theorem agrees_cons (here : (db.stockLevels target).isSome = true → Summed (eventsAt db target))
    (same : ¬Differs db target)
    (steps : reconcileAll rt (target :: rest) db = reconcileAll rt rest db)
    (ih : Detects rt rest db) : Detects rt (target :: rest) db := by
  have drop (loc : StockLocation) :
      loc ∈ target :: rest ∧ Differs db loc ↔ loc ∈ rest ∧ Differs db loc := by
    rw [List.mem_cons]
    constructor
    · rintro ⟨rfl | member, differs⟩
      · exact absurd differs same
      · exact ⟨member, differs⟩
    · exact fun ⟨member, differs⟩ => ⟨.inr member, differs⟩
  refine ⟨?_, fun drifts h loc => ?_, fun drifts h loc => ?_, ?_⟩
  · rw [steps, List.forall_mem_cons, ih.ends]
    exact (and_iff_right here).symm
  · rw [drop]
    exact ih.reports drifts (steps ▸ h) loc
  · rw [drop, steps]
    exact ih.locks drifts (steps ▸ h) loc
  · rw [steps]
    exact ih.keeps

theorem drifts_cons (d : Drift) (named : ∀ loc, Names d loc ↔ target = loc)
    (row : (db.stockLevels target).isSome = true) (summed : Summed (eventsAt db target))
    (differs : Differs db target)
    (steps : reconcileAll rt (target :: rest) db =
      ((reconcileAll rt rest (setAuditLock target true db)).1.map (d :: ·),
        (reconcileAll rt rest (setAuditLock target true db)).2))
    (ih : Detects rt rest (setAuditLock target true db)) : Detects rt (target :: rest) db := by
  have keep (loc : StockLocation) : loc ∈ target :: rest ∧ Differs db loc ↔
      target = loc ∨ loc ∈ rest ∧ Differs (setAuditLock target true db) loc := by
    rw [List.mem_cons, differs_setAuditLock]
    constructor
    · rintro ⟨rfl | member, h⟩
      · exact .inl rfl
      · exact .inr ⟨member, h⟩
    · rintro (rfl | ⟨member, h⟩)
      · exact ⟨.inl rfl, differs⟩
      · exact ⟨.inr member, h⟩
  have ok (drifts : List Drift) (h : (reconcileAll rt (target :: rest) db).1 = .ok drifts) :
      ∃ later, (reconcileAll rt rest (setAuditLock target true db)).1 = .ok later ∧
        drifts = d :: later := by
    rw [steps] at h
    cases later : (reconcileAll rt rest (setAuditLock target true db)).1 with
    | error e => simp [later, Except.map] at h
    | ok found =>
      simp only [later, Except.map, Except.ok.injEq] at h
      exact ⟨found, rfl, h.symm⟩
  refine ⟨?_, fun drifts h loc => ?_, fun drifts h loc => ?_, fun loc agrees => ?_⟩
  · have rows : (∀ loc ∈ target :: rest, (db.stockLevels loc).isSome = true →
        Summed (eventsAt db loc)) ↔ ∀ loc ∈ rest,
          ((setAuditLock target true db).stockLevels loc).isSome = true →
            Summed (eventsAt (setAuditLock target true db) loc) := by
      rw [List.forall_mem_cons, and_iff_right fun _ => summed]
      simp only [isSome_setAuditLock, eventsAt, setAuditLock_events]
    rw [rows, ← ih.ends]
    constructor
    · rintro ⟨drifts, h⟩
      obtain ⟨later, found, -⟩ := ok drifts h
      exact ⟨later, found⟩
    · rintro ⟨later, found⟩
      exact ⟨d :: later, by rw [steps, found]; rfl⟩
  · obtain ⟨later, found, rfl⟩ := ok drifts h
    rw [keep, ← ih.reports later found loc, ← named loc]
    simp
  · obtain ⟨later, found, rfl⟩ := ok drifts h
    rw [keep, steps, ih.locks later found loc, locked_setAuditLock, and_iff_left row, or_assoc,
      eq_comm]
  · rw [steps, ih.keeps loc (mt (differs_setAuditLock target loc db).1 agrees)]
    refine setAuditLock_stays fun same => agrees ?_
    rw [same]
    exact differs

theorem reconcileAll_detects (locs : List StockLocation) (db : StockDb) : Detects rt locs db := by
  induction locs generalizing db with
  | nil =>
    refine ⟨iff_of_true ⟨[], rfl⟩ nofun, fun drifts h loc => ?_, fun drifts h loc => ?_, ?_⟩
    · cases h
      simp
    · simp [reconcileAll]
    · exact fun _ _ => rfl
  | cons target rest ih =>
    cases row : db.stockLevels target with
    | none =>
      refine agrees_cons (by simp [row]) ?_ (by rw [reconcileAll, row]) (ih db)
      rintro ⟨stored, found, -⟩
      rw [row] at found
      cases found
    | some level =>
      have present : (db.stockLevels target).isSome = true := by rw [row]; rfl
      cases sums : sumDeltasByReason rt db target with
      | error e =>
        have failed : reconcileAll rt (target :: rest) db = (.error e, db) := by
          rw [reconcileAll, row, sums]
        have unsummed : ¬Summed (eventsAt db target) := fun summed => by
          obtain ⟨reasons, ok⟩ := (sums_ok_iff rt db target).2 summed
          rw [sums] at ok
          cases ok
        refine ⟨iff_of_false ?_ fun all => ?_, ?_, ?_, fun _ _ => by rw [failed]⟩
        · rintro ⟨drifts, h⟩
          rw [failed] at h
          cases h
        · exact unsummed (all target List.mem_cons_self present)
        · intro drifts h
          rw [failed] at h
          cases h
        · intro drifts h
          rw [failed] at h
          cases h
      | ok reasons =>
        have summed : Summed (eventsAt db target) := (sums_ok_iff rt db target).1 ⟨reasons, sums⟩
        have differs : Differs db target ↔
            (drift target level (deriveBuckets reasons)).found = true := by
          rw [found_iff sums, Differs, row]
          simp
        cases found : (drift target level (deriveBuckets reasons)).found with
        | false =>
          refine agrees_cons (fun _ => summed) (by rw [differs, found]; exact Bool.false_ne_true) ?_
            (ih db)
          rw [reconcileAll, row, sums]
          exact if_neg (by rw [found]; exact Bool.false_ne_true)
        | true =>
          refine drifts_cons (drift target level (deriveBuckets reasons)) (fun loc => drift_names)
            present summed (differs.2 found) ?_ (ih (setAuditLock target true db))
          rw [reconcileAll, row, sums]
          refine (if_pos found).trans ?_
          obtain ⟨answer, after⟩ := reconcileAll rt rest (setAuditLock target true db)
          cases answer with
          | error e => rfl
          | ok drifts => rfl

end Pass

def Detected (rt : Runtime) (db : StockDb) (loc : StockLocation) : Prop :=
  ∃ drifts, (reconcile rt db).1 = .ok drifts ∧ (∃ d ∈ drifts, Names d loc) ∧
    Locked (reconcile rt db).2 loc

theorem mem_listDistinctEventLocations (rt : Runtime) (db : StockDb) (loc : StockLocation) :
    loc ∈ listDistinctEventLocations rt db ↔ eventsAt db loc ≠ [] := by
  rw [listDistinctEventLocations, (rt.rows_perm _).mem_iff, List.mem_dedup, List.mem_map,
    eventsAt, ne_eq, List.filter_eq_nil_iff]
  simp

def AllSummed (db : StockDb) : Prop :=
  ∀ loc, eventsAt db loc ≠ [] → (db.stockLevels loc).isSome = true → Summed (eventsAt db loc)

theorem detected_iff (rt : Runtime) (db : StockDb) (loc : StockLocation)
    (logged : eventsAt db loc ≠ []) : Detected rt db loc ↔ AllSummed db ∧ Differs db loc := by
  have pass : Detects rt (listDistinctEventLocations rt db) db :=
    reconcileAll_detects (listDistinctEventLocations rt db) db
  have listed := (mem_listDistinctEventLocations rt db loc).2 logged
  constructor
  · rintro ⟨drifts, ok, reported, -⟩
    refine ⟨fun other events => ?_, ((pass.reports drifts ok loc).1 reported).2⟩
    exact pass.ends.1 ⟨drifts, ok⟩ other ((mem_listDistinctEventLocations rt db other).2 events)
  · rintro ⟨all, differs⟩
    obtain ⟨drifts, ok⟩ := pass.ends.2 fun other member =>
      all other ((mem_listDistinctEventLocations rt db other).1 member)
    exact ⟨drifts, ok, (pass.reports drifts ok loc).2 ⟨listed, differs⟩,
      (pass.locks drifts ok loc).2 (.inr ⟨listed, differs⟩)⟩

/-- A pass tells a drift from an agreement exactly where the buckets agree in
the integers, or where every sum fits in 64 bits and they differ in 32. A row
whose buckets agree is left as it is by every pass. -/
theorem drift_detected_iff (rt : Runtime) (db : StockDb) (loc : StockLocation)
    (level : StockLevel) (row : db.stockLevels loc = some level) (logged : eventsAt db loc ≠ []) :
    ((Detected rt db loc ↔ derivedAt db loc ≠ buckets level) ↔
      derivedAt db loc = buckets level ∨
        (AllSummed db ∧ ¬Congruent (derivedAt db loc) (buckets level))) ∧
    (derivedAt db loc = buckets level → (reconcile rt db).2.stockLevels loc = some level) := by
  have differs : Differs db loc ↔ ¬Congruent (derivedAt db loc) (buckets level) := by
    rw [Differs, row]
    simp
  have refl (same : derivedAt db loc = buckets level) :
      Congruent (derivedAt db loc) (buckets level) := by
    rw [same]
    simp [Congruent]
  constructor
  · rw [detected_iff rt db loc logged, differs]
    tauto
  · intro same
    rw [← row]
    refine (reconcileAll_detects (listDistinctEventLocations rt db) db).keeps loc ?_
    rw [differs, not_not]
    exact refl same

def receipt (delta : Int32) : StockEvent :=
  ⟨sampleTenant, "SKU", "W1", delta, "receive", "adjust", ""⟩

/-- Twice 2 ^ 31 - 1 and twice 1 received, and an empty row. -/
def wrappedTables : StockDb where
  stockLevels := fun loc => if loc = sampleLocation then some ⟨0, 0, 0, false⟩ else none
  stockEvents := [receipt 2147483647, receipt 2147483647, receipt 1, receipt 1]
  outbox := []
  processedKeys := fun _ _ => none

theorem wrapped_missed : wrappedTables.stockLevels sampleLocation = some ⟨0, 0, 0, false⟩ ∧
    derivedAt wrappedTables sampleLocation = (4294967296, 0, 0) ∧
    (reconcile (reference []) wrappedTables).1 = .ok [] ∧
    ¬Detected (reference []) wrappedTables sampleLocation := by
  have derived : derivedAt wrappedTables sampleLocation = (4294967296, 0, 0) := by decide +kernel
  have none : (reconcile (reference []) wrappedTables).1 = .ok [] := by decide +kernel
  refine ⟨by decide +kernel, derived, none, ?_⟩
  rintro ⟨drifts, ok, ⟨d, member, -⟩, -⟩
  rw [none] at ok
  cases ok
  cases member

def shortTables : StockDb := { wrappedTables with stockEvents := [receipt 3] }

theorem drift_detected_short : Detected (reference []) shortTables sampleLocation := by
  have found : derivedAt shortTables sampleLocation = (3, 0, 0) := by decide +kernel
  have summed : AllSummed shortTables := by
    intro loc _ _
    exact (sums_ok_iff (reference []) _ loc).1 (sumDeltasByReason_ok _ (by decide +kernel) loc)
  have differs : ¬Congruent (derivedAt shortTables sampleLocation) (buckets ⟨0, 0, 0, false⟩) := by
    rw [found]
    decide
  exact ((drift_detected_iff (reference []) shortTables sampleLocation ⟨0, 0, 0, false⟩
    (by decide +kernel) (by decide +kernel)).1.2 (.inr ⟨summed, differs⟩)).2 (by rw [found]; decide)

end Taper.DriftExact
