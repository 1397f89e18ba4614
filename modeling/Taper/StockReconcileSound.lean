import Taper.StockConservation
import Taper.GroupedSums
import Mathlib.Algebra.Module.BigOperators

set_option autoImplicit false

/-!
# Reconciliation against the event log

The log and the rows agree as long as every release is logged under a reason the
derivation reads as a release, and no adjustment borrows the reason of a
movement.
-/
namespace Taper.StockReconcileSound
open Messages Platform StockTables StockHandlers StockSteps StockReconcile StockConservation
open MachineInt GroupedSums

def effect (reason : String) : Buckets :=
  if reason = "allocate" then (0, -1, 1)
  else if reason = "fulfill" then (0, 0, -1)
  else if reason = "reserve" ∨ reason = "release" then (1, -1, 0)
  else (1, 0, 0)

def logged (e : StockEvent) : Buckets := e.delta.toInt • effect e.reason

def derivedAt (db : StockDb) (loc : StockLocation) : Buckets := ((eventsAt db loc).map logged).sum

def ofBuckets (b : Buckets) : Derived := ⟨Int64.ofInt b.1, Int64.ofInt b.2.1, Int64.ofInt b.2.2⟩

theorem deriveReason_ofInt (b : Buckets) (reason : String) (n : ℤ) :
    deriveReason (ofBuckets b) ⟨reason, Int64.ofInt n⟩ = ofBuckets (b + n • effect reason) := by
  obtain ⟨avail, reserved, allocated⟩ := b
  unfold deriveReason effect
  split_ifs <;> simp [ofBuckets, Int64.ofInt_add, Int64.ofInt_neg, Int64.sub_eq_add_neg]

theorem deriveBuckets_ofInt (totals : List (String × ℤ)) :
    deriveBuckets (totals.map fun r => ⟨r.1, Int64.ofInt r.2⟩) =
      ofBuckets (totals.map fun r => r.2 • effect r.1).sum := by
  have fold : ∀ b : Buckets, (totals.map fun r => ⟨r.1, Int64.ofInt r.2⟩).foldl deriveReason
      (ofBuckets b) = ofBuckets (b + (totals.map fun r => r.2 • effect r.1).sum) := by
    induction totals with
    | nil => simp
    | cons r rest ih =>
      intro b
      rw [List.map_cons, List.foldl_cons, deriveReason_ofInt, ih, List.map_cons, List.sum_cons,
        add_assoc]
  have start := fold 0
  rwa [zero_add] at start

theorem deriveBuckets_ofBuckets (reasons : List ReasonSum) : deriveBuckets reasons =
    ofBuckets (reasons.map fun r => r.totalDelta.toInt • effect r.reason).sum := by
  have exact := deriveBuckets_ofInt (reasons.map fun r => (r.reason, r.totalDelta.toInt))
  simpa only [List.map_map, Function.comp_def, Int64.ofInt_toInt, List.map_id'] using exact

variable {events : List StockEvent} {reason : String} {reasons : List ReasonSum} {rt : Runtime}
  {db db' : StockDb} {loc : StockLocation} {m : Movement} {tenantID : UUID} {level : StockLevel}

theorem reasonSum_ok {r : ReasonSum} (h : reasonSum events reason = .ok r) :
    r.reason = reason ∧ r.totalDelta.toInt = reasonTotal events reason := by
  unfold reasonSum at h
  dsimp only at h
  split at h
  · rename_i range
    cases h
    exact ⟨rfl, Int64.toInt_ofInt_of_le range.1 (by omega)⟩
  · cases h

theorem reasonTotal_effect (events : List StockEvent) (reason : String) :
    reasonTotal events reason • effect reason =
      ((events.filter fun e => e.reason = reason).map logged).sum := by
  unfold reasonTotal
  rw [List.sum_smul, List.map_map]
  congr 1
  apply List.map_congr_left
  intro e he
  have same : e.reason = reason := by simpa using (List.mem_filter.1 he).2
  simp only [Function.comp, logged, same]

theorem mapM_reasonSum {names : List String} (h : names.mapM (reasonSum events) = .ok reasons) :
    (reasons.map fun r => r.totalDelta.toInt • effect r.reason) =
      names.map fun name => ((events.filter fun e => e.reason = name).map logged).sum := by
  induction names generalizing reasons with
  | nil =>
    cases h
    rfl
  | cons name rest ih =>
    rw [List.mapM_cons] at h
    cases first : reasonSum events name with
    | error e => simp [first, bind, Except.bind] at h
    | ok r =>
      cases tail : rest.mapM (reasonSum events) with
      | error e => simp [first, tail, bind, Except.bind] at h
      | ok rs =>
        simp only [first, tail, bind, Except.bind, pure, Except.pure, Except.ok.injEq] at h
        subst h
        obtain ⟨same, total⟩ := reasonSum_ok first
        rw [List.map_cons, List.map_cons, ih tail, total, same, reasonTotal_effect]

/-- The reasons come in any order; the derivation is the integer one, wrapped. -/
theorem deriveBuckets_sums (h : sumDeltasByReason rt db loc = .ok reasons) :
    deriveBuckets reasons = ofBuckets (derivedAt db loc) := by
  rw [deriveBuckets_ofBuckets, mapM_reasonSum h]
  congr 1
  exact sum_of_groups StockEvent.reason logged (eventsAt db loc) (rt.rows_perm _)

def Derives (db : StockDb) : Prop := ∀ loc, derivedAt db loc = held db loc

/-- The logged event of a movement stands for `u` per unit. -/
def Logs (m : Movement) (u : Buckets) : Prop :=
  ∀ (level : StockLevel) (q : Int32), level.check = .ok () → (m.level level q).check = .ok () →
    (m.delta q).toInt • effect m.reason = q.toInt • u

theorem releaseMove_logs (orderID reason : String) :
    Logs (releaseMove orderID reason) (effect reason) := fun _ _ _ _ => rfl

theorem confirmMove_logs : Logs confirmMove (0, -1, 1) := fun _ _ _ _ => rfl

theorem fulfillMove_logs : Logs fulfillMove (0, 0, -1) := fun _ _ _ _ => rfl

/-- The delta is negated in 32 bits. The least value has no negation, but no
row has room for it. -/
theorem reserveMove_logs (orderID : String) : Logs (reserveMove orderID) (-1, 1, 0) := by
  intro level q old new
  have oldNonneg := (check_ok_iff level).1 old
  have newNonneg := (check_ok_iff _).1 new
  have left : (level.availableQty - q).toInt = level.availableQty.toInt - q.toInt :=
    sub_exact oldNonneg.1 newNonneg.1
  have room := int32_bounds (level.availableQty - q)
  have least : q.toInt ≠ -2147483648 := by omega
  have negated : (-q).toInt = -q.toInt := neg_exact least
  change (-q).toInt • effect "reserve" = _
  rw [negated, show effect "reserve" = (1, -1, 0) by decide]
  simp

theorem effect_column (reason : String) : effect (column 255 reason) = effect reason := by
  have allocate : column 255 reason = "allocate" ↔ reason = "allocate" :=
    column_eq_short (by decide)
  have fulfill : column 255 reason = "fulfill" ↔ reason = "fulfill" := column_eq_short (by decide)
  have reserve : column 255 reason = "reserve" ↔ reason = "reserve" := column_eq_short (by decide)
  have release : column 255 reason = "release" ↔ reason = "release" := column_eq_short (by decide)
  simp only [effect, allocate, fulfill, reserve, release]

theorem derivedAt_append (db : StockDb) (loc : StockLocation) (e : StockEvent) :
    ∀ db' : StockDb, db'.stockEvents = db.stockEvents ++ [e.stored] →
      derivedAt db' loc = derivedAt db loc + if e.location.stored = loc then logged e else 0 := by
  intro db' same
  have place : e.stored.location = e.location.stored := rfl
  have effect_ : logged e.stored = logged e := by
    rw [logged, logged, StockEvent.stored, effect_column]
  unfold derivedAt eventsAt
  rw [same, List.filter_append, List.map_append, List.sum_append]
  by_cases here : e.location.stored = loc
  · simp [place, effect_, here]
  · simp [place, here]

theorem derivedAt_congr (same : db'.stockEvents = db.stockEvents) (loc : StockLocation) :
    derivedAt db' loc = derivedAt db loc := by
  simp only [derivedAt, eventsAt, same]

/-- A run of lines is logged, at each location, as the sum of its quantities
there; a location without a row gets no event. -/
theorem lineRun_logged {u : Buckets} (logs : Logs m u) {orderID : String} {lines : List StockLine}
    (run : LineRun m tenantID orderID lines db db') (checked : Checked db) (loc : StockLocation) :
    derivedAt db' loc = derivedAt db loc +
      if (db.stockLevels loc).isSome then quantityAt tenantID loc lines • u else 0 := by
  induction run with
  | nil db => simp [quantityAt]
  | @skip l rest db db' absent tail ih =>
    rw [ih checked]
    by_cases here : lineLocation tenantID l = loc
    · rw [here, checked.find] at absent
      simp [absent]
    · rw [quantityAt_cons, if_neg here, zero_add]
  | @move l rest db db' old row check fits tail ih =>
    rw [ih (applyLine_checked checked row check),
      derivedAt_append db loc (m.event tenantID l) _ rfl, add_assoc]
    congr 1
    obtain ⟨within, found⟩ := find_some_iff.1 row
    have place : (m.event tenantID l).location.stored = lineLocation tenantID l := within
    rw [place]
    by_cases here : lineLocation tenantID l = loc
    · have exact : logged (m.event tenantID l) = l.quantity.toInt • u :=
        logs old l.quantity (checked _ _ found).2 check
      rw [here] at found
      rw [if_pos here, applyLine_self here, found, quantityAt_cons, if_pos here, add_smul, exact]
      simp
    · rw [if_neg here, applyLine_other here, quantityAt_cons, if_neg here, zero_add, zero_add]

theorem lineRun_derives {u d : Buckets} (logs : Logs m u) (along : Along m d) {orderID : String}
    {lines : List StockLine} (run : LineRun m tenantID orderID lines db db')
    (checked : Checked db) (derives : Derives db)
    (agree : ∀ loc, quantityAt tenantID loc lines • u = quantityAt tenantID loc lines • d) :
    Derives db' := by
  intro loc
  rw [lineRun_logged logs run checked loc, derives loc]
  cases row : db.stockLevels loc with
  | none => simp [held, row, lineRun_absent run row]
  | some level =>
    obtain ⟨level', row', moved, -⟩ := lineRun_exact along run checked loc level row
    simp [held, row, row', moved, agree loc]

/-- The condition under which a request keeps log and rows together: a release
that moves anything is logged as one, and an adjustment that adds anything is
not logged under the reason of a movement. -/
def StockCall.Faithful : StockCall → Prop
  | .releaseStock req => req.reason = "release" ∨ req.reason = "reserve" ∨
      ∀ tenantID loc, quantityAt tenantID loc req.lines = 0
  | .adjustStock req => req.quantityDelta = 0 ∨
      req.reason ∉ ["reserve", "release", "allocate", "fulfill"]
  | _ => True

theorem movement_logs {call : StockCall} (moves : call.movement = some m)
    (faithful : StockCall.Faithful call) : ∃ u d, Logs m u ∧ Along m d ∧
      ∀ tenantID loc,
        quantityAt tenantID loc call.lines • u = quantityAt tenantID loc call.lines • d := by
  cases call with
  | adjustStock req => simp [StockCall.movement] at moves
  | unlockStockForAudit req => simp [StockCall.movement] at moves
  | reconcile => simp [StockCall.movement] at moves
  | reserveStock req =>
    cases moves
    exact ⟨_, _, reserveMove_logs req.orderId, reserveMove_along req.orderId, fun _ _ => rfl⟩
  | confirmStockAllocation req =>
    cases moves
    exact ⟨_, _, confirmMove_logs, confirmMove_along, fun _ _ => rfl⟩
  | fulfillStock req =>
    cases moves
    exact ⟨_, _, fulfillMove_logs, fulfillMove_along, fun _ _ => rfl⟩
  | releaseStock req =>
    cases moves
    refine ⟨_, _, releaseMove_logs req.orderId req.reason,
      releaseMove_along req.orderId req.reason, fun tenantID loc => ?_⟩
    rcases faithful with reason | reason | none
    · rw [reason, show effect "release" = (1, -1, 0) by decide]
    · rw [reason, show effect "reserve" = (1, -1, 0) by decide]
    · have zero : quantityAt tenantID loc (StockCall.releaseStock req).lines = 0 :=
        none tenantID loc
      rw [zero, zero_smul, zero_smul]

theorem claimKey_derives {key : String} {msg : Message} (derives : Derives db) :
    Derives (claimKey rt tenantID key msg db) := by
  intro loc
  rw [derivedAt_congr (claimKey_events rt tenantID key msg db) loc, derives loc]
  simp only [held, claimKey_levels]

theorem effect_default (other : reason ∉ ["reserve", "release", "allocate", "fulfill"]) :
    effect reason = (1, 0, 0) := by
  simp only [List.mem_cons, List.not_mem_nil, or_false, not_or] at other
  simp [effect, other]

/-- An upsert is exact in the integers, whether or not the row was there. -/
theorem upserted_buckets {old : Option StockLevel} {delta : Int32}
    (checked : ∀ level, old = some level → level.check = .ok ())
    (check : (upserted old delta).check = .ok ()) :
    buckets (upserted old delta) = (old.map buckets).getD 0 + delta.toInt • (1, 0, 0) := by
  cases old with
  | none => simp [upserted, buckets]
  | some level =>
    have sum := add_exact ((check_ok_iff level).1 (checked level rfl)).1
      ((check_ok_iff _).1 check).1
    simp [upserted, buckets, sum]

theorem applyAdjust_derives {req : AdjustStockRequest} (checked : Checked db)
    (derives : Derives db) (within : nameFits ⟨tenantID, req.skuId, req.warehouseId⟩ = true)
    (check : (upserted (db.stockLevels ⟨tenantID, req.skuId, req.warehouseId⟩)
      req.quantityDelta).check = .ok ()) (faithful : StockCall.Faithful (.adjustStock req)) :
    Derives (applyAdjust tenantID req ⟨tenantID, req.skuId, req.warehouseId⟩ db) := by
  intro loc
  have place : (adjustEvent tenantID req).location.stored =
      ⟨tenantID, req.skuId, req.warehouseId⟩ := stored_of_nameFits within
  rw [derivedAt_append db loc (adjustEvent tenantID req) _ rfl, derives loc, place]
  by_cases here : loc = ⟨tenantID, req.skuId, req.warehouseId⟩
  · have added : logged (adjustEvent tenantID req) = req.quantityDelta.toInt • (1, 0, 0) := by
      change req.quantityDelta.toInt • effect req.reason = _
      rcases faithful with zero | other
      · rw [zero, show (0 : Int32).toInt = 0 by decide, zero_smul, zero_smul]
      · rw [effect_default other]
    rw [if_pos here.symm, added]
    subst here
    have exact := upserted_buckets (fun level row => (checked _ level row).2) check
    simp only [held, applyAdjust, setLevel_self, Option.map_some, Option.getD_some]
    exact exact.symm
  · rw [if_neg fun eq => here eq.symm, add_zero]
    simp only [held, applyAdjust]
    rw [setLevel_of_ne db _ here]

theorem unlock_derives {e : StockEvent} (derives : Derives db)
    (row : db.stockLevels loc = some level) (zero : e.delta = 0) :
    Derives { db.setLevel loc { level with isLockedForAudit := false } with
      stockEvents := db.stockEvents ++ [e.stored] } := by
  intro other
  rw [derivedAt_append db other e _ rfl, derives other]
  have nothing : logged e = 0 := by
    rw [logged, zero, show (0 : Int32).toInt = 0 by decide, zero_smul]
  rw [nothing, ite_self, add_zero]
  by_cases same : other = loc
  · subst same
    simp [held, row, buckets]
  · simp only [held]
    rw [setLevel_of_ne db _ same]

theorem derives_row (derives : Derives db) (row : db.stockLevels loc = some level) :
    derivedAt db loc = buckets level := by
  rw [derives loc, held, row, Option.map_some, Option.getD_some]

theorem drift_agrees (sums : sumDeltasByReason rt db loc = .ok reasons)
    (agree : derivedAt db loc = buckets level) :
    (drift loc level (deriveBuckets reasons)).found = false := by
  rw [deriveBuckets_sums sums, agree]
  simp [Drift.found, drift, ofBuckets, buckets]

theorem drift_not_found (derives : Derives db) (row : db.stockLevels loc = some level)
    (sums : sumDeltasByReason rt db loc = .ok reasons) :
    (drift loc level (deriveBuckets reasons)).found = false :=
  drift_agrees sums (derives_row derives row)

theorem reconcileAll_quiet (rt : Runtime) (derives : Derives db) (locs : List StockLocation) :
    (reconcileAll rt locs db).2 = db ∧
      ∀ drifts, (reconcileAll rt locs db).1 = .ok drifts → drifts = [] := by
  induction locs with
  | nil => exact ⟨rfl, fun drifts h => by cases h; rfl⟩
  | cons loc rest ih =>
    rw [reconcileAll]
    split
    · exact ih
    · rename_i level row
      split
      · exact ⟨rfl, fun drifts h => by cases h⟩
      · rename_i reasons sums
        simp only [drift_not_found derives row sums, Bool.false_eq_true, ↓reduceIte]
        exact ih

theorem delta_sum_bounds (events : List StockEvent) :
    -2147483648 * (events.length : ℤ) ≤ (events.map fun e => e.delta.toInt).sum ∧
      (events.map fun e => e.delta.toInt).sum ≤ 2147483647 * (events.length : ℤ) := by
  induction events with
  | nil => simp
  | cons e rest ih =>
    have bound := int32_bounds e.delta
    simp only [List.map_cons, List.sum_cons, List.length_cons, Nat.cast_add, Nat.cast_one]
    omega

def Summed (events : List StockEvent) : Prop :=
  ∀ reason, -9223372036854775808 ≤ reasonTotal events reason ∧
    reasonTotal events reason ≤ 9223372036854775807

theorem mapM_ok_iff {α β : Type} {f : α → Except Failure β} {names : List α} :
    (∃ out, names.mapM f = .ok out) ↔ ∀ name ∈ names, ∃ b, f name = .ok b := by
  induction names with
  | nil => exact ⟨fun _ => nofun, fun _ => ⟨[], rfl⟩⟩
  | cons name rest ih =>
    rw [List.forall_mem_cons, ← ih, List.mapM_cons]
    cases f name with
    | error e => exact iff_of_false (fun ⟨_, h⟩ => nomatch h) fun ⟨⟨_, h⟩, _⟩ => nomatch h
    | ok b =>
      cases rest.mapM f with
      | error e => exact iff_of_false (fun ⟨_, h⟩ => nomatch h) fun ⟨_, _, h⟩ => nomatch h
      | ok out => exact iff_of_true ⟨b :: out, rfl⟩ ⟨⟨b, rfl⟩, out, rfl⟩

theorem reasonSum_ok_iff :
    (∃ r, reasonSum events reason = .ok r) ↔ -9223372036854775808 ≤ reasonTotal events reason ∧
      reasonTotal events reason ≤ 9223372036854775807 := by
  unfold reasonSum
  dsimp only
  split_ifs with range
  · exact iff_of_true ⟨_, rfl⟩ range
  · exact iff_of_false (fun ⟨_, h⟩ => nomatch h) range

/-- A reason without events adds up to zero. -/
theorem sums_ok_iff (rt : Runtime) (db : StockDb) (loc : StockLocation) :
    (∃ reasons, sumDeltasByReason rt db loc = .ok reasons) ↔ Summed (eventsAt db loc) := by
  unfold sumDeltasByReason
  dsimp only
  rw [mapM_ok_iff]
  constructor
  · intro each reason
    by_cases named : reason ∈ (eventsAt db loc).map StockEvent.reason
    · refine reasonSum_ok_iff.1 (each reason ?_)
      rwa [(rt.rows_perm _).mem_iff, List.mem_dedup]
    · have none : (eventsAt db loc).filter (fun e => e.reason = reason) = [] := by
        refine List.filter_eq_nil_iff.2 fun e member same => named ?_
        exact List.mem_map.2 ⟨e, member, of_decide_eq_true same⟩
      rw [reasonTotal, none]
      decide
  · exact fun summed reason _ => reasonSum_ok_iff.2 (summed reason)

/-- Below 2 ^ 32 events no sum leaves 64 bits. -/
theorem summed_of_few (few : events.length < 2 ^ 32) :
    Summed events := by
  intro reason
  have bounds := delta_sum_bounds (events.filter fun e => e.reason = reason)
  have fewer := List.length_filter_le (fun e => decide (e.reason = reason)) events
  have few' : (events.filter fun e => e.reason = reason).length < 4294967296 :=
    lt_of_le_of_lt fewer few
  unfold reasonTotal
  omega

theorem sumDeltasByReason_ok (rt : Runtime) (few : db.stockEvents.length < 2 ^ 32)
    (loc : StockLocation) :
    ∃ reasons, sumDeltasByReason rt db loc = .ok reasons :=
  (sums_ok_iff rt db loc).2 (summed_of_few (lt_of_le_of_lt (List.length_filter_le _ _) few))

theorem reconcileAll_reports (rt : Runtime) (derives : Derives db)
    (few : db.stockEvents.length < 2 ^ 32) (locs : List StockLocation) :
    (reconcileAll rt locs db).1 = .ok [] := by
  induction locs with
  | nil => rfl
  | cons loc rest ih =>
    rw [reconcileAll]
    split
    · exact ih
    · rename_i level row
      obtain ⟨reasons, sums⟩ := sumDeltasByReason_ok rt few loc
      simp only [sums, drift_not_found derives row sums, Bool.false_eq_true, ↓reduceIte]
      exact ih

/-- Every request that meets the condition keeps the two accounts together. -/
theorem apply_derives (rt : Runtime) (call : StockCall) (faithful : StockCall.Faithful call)
    (db : StockDb) (checked : Checked db) (derives : Derives db) : Derives (call.apply rt db) := by
  have movement : ∀ m, call.movement = some m → Derives (call.apply rt db) := by
    intro m moves
    rcases movement_cases rt call m moves db with ⟨-, same⟩ | ⟨-, tenantID, orderID, msg, -, moved⟩
    · rwa [same]
    · cases moved with
      | duplicate seen same => rwa [same]
      | fresh unseen fits run =>
        obtain ⟨u, d, logs, along, agree⟩ := movement_logs moves faithful
        refine lineRun_derives logs along run (claimKey_checked checked)
          (claimKey_derives derives) fun loc => ?_
        rw [quantityAt_sorted]
        exact agree tenantID loc
  cases call with
  | reserveStock req => exact movement _ rfl
  | releaseStock req => exact movement _ rfl
  | confirmStockAllocation req => exact movement _ rfl
  | fulfillStock req => exact movement _ rfl
  | adjustStock req =>
    rw [StockCall.apply]
    rcases adjust_cases rt req db with same | ⟨tenantID, -, -, within, -, check, same⟩
    · rwa [same]
    · rw [same]
      refine applyAdjust_derives (claimKey_checked checked) (claimKey_derives derives) within ?_
        faithful
      rwa [claimKey_levels]
  | unlockStockForAudit req =>
    rw [StockCall.apply]
    rcases unlock_cases rt req db with same | ⟨tenantID, level, -, row, same⟩
    · rwa [same]
    · rw [same]
      exact unlock_derives derives (find_some_iff.1 row).2 rfl
  | reconcile =>
    rw [StockCall.apply, reconcile, (reconcileAll_quiet rt derives _).1]
    exact derives

theorem empty_derives : Derives StockDb.empty := fun _ => rfl

theorem runCalls_derives (rt : Runtime) (calls : List StockCall) (db : StockDb)
    (faithful : ∀ call ∈ calls, StockCall.Faithful call) (checked : Checked db)
    (derives : Derives db) : Derives (runCalls rt calls db) := by
  induction calls generalizing db with
  | nil => exact derives
  | cons call rest ih =>
    have here := faithful call List.mem_cons_self
    exact ih _ (fun c hc => faithful c (List.mem_cons_of_mem _ hc))
      (apply_checked rt call db checked) (apply_derives rt call here db checked derives)

/-- After any run of requests that meet the condition, from empty tables: the
derivation gives the buckets of every row, and a pass finds no drift and
changes nothing. -/
theorem reconcile_sound (rt : Runtime) (calls : List StockCall)
    (faithful : ∀ call ∈ calls, StockCall.Faithful call) :
    (∀ loc level reasons, (runCalls rt calls StockDb.empty).stockLevels loc = some level →
      sumDeltasByReason rt (runCalls rt calls StockDb.empty) loc = .ok reasons →
      ((deriveBuckets reasons).avail.toInt, (deriveBuckets reasons).reserved.toInt,
        (deriveBuckets reasons).allocated.toInt) = buckets level) ∧
    (reconcile rt (runCalls rt calls StockDb.empty)).2 = runCalls rt calls StockDb.empty ∧
    (∀ drifts, (reconcile rt (runCalls rt calls StockDb.empty)).1 = .ok drifts → drifts = []) ∧
    ((runCalls rt calls StockDb.empty).stockEvents.length < 2 ^ 32 →
      (reconcile rt (runCalls rt calls StockDb.empty)).1 = .ok []) := by
  have derives := runCalls_derives rt calls _ faithful empty_checked empty_derives
  generalize runCalls rt calls StockDb.empty = db at derives ⊢
  refine ⟨fun loc level reasons row sums => ?_, (reconcileAll_quiet rt derives _).1,
    (reconcileAll_quiet rt derives _).2, fun few => reconcileAll_reports rt derives few _⟩
  have exact : ∀ x : Int32, (Int64.ofInt x.toInt).toInt = x.toInt := Int32.toInt_toInt64
  rw [deriveBuckets_sums sums, derives_row derives row]
  simp only [ofBuckets, buckets, exact]

def expiredCalls (reason : String) : List StockCall :=
  [.adjustStock ⟨sampleTenant.text, "SKU", "W1", 5, "adjust", "erp", ""⟩,
    .reserveStock ⟨sampleTenant.text, "ord-1", "ord-1:reserve", [⟨"SKU", "W1", 2⟩]⟩,
    .releaseStock ⟨sampleTenant.text, "ord-1", reason,
      compensationKey sampleTenant.text "ord-1", [⟨"SKU", "W1", 2⟩]⟩]

theorem reconcile_sound_release :
    (reconcile (reference []) (runCalls (reference []) (expiredCalls "release")
      StockDb.empty)).1 = .ok [] := by
  have faithful : ∀ call ∈ expiredCalls "release", StockCall.Faithful call := by
    simp [expiredCalls, StockCall.Faithful]
  refine (reconcile_sound (reference []) _ faithful).2.2.2 ?_
  rw [reference_recognizing]
  decide +kernel

/-- The sweeper's own reason is read as an adjustment: the row is back to five
available units, the derivation still sees two of them held, and the row is
locked. -/
theorem ttl_expiry_drifts :
    (runCalls (reference []) (expiredCalls "ttl_expiry") StockDb.empty).stockLevels
      sampleLocation = some ⟨5, 0, 0, false⟩ ∧
    (reconcile (reference []) (runCalls (reference []) (expiredCalls "ttl_expiry")
      StockDb.empty)).1 = .ok [⟨sampleTenant.text, "SKU", "W1", 5, 5, 2, 0, 0, 0⟩] ∧
    (reconcile (reference []) (runCalls (reference []) (expiredCalls "ttl_expiry")
      StockDb.empty)).2.stockLevels sampleLocation = some ⟨5, 0, 0, true⟩ := by
  rw [reference_recognizing]
  decide +kernel

end Taper.StockReconcileSound
