import Taper.StockReconcileSound

set_option autoImplicit false

/-!
# Summing first and replaying

The pass sums the events of a location by reason before it derives the buckets;
the contract is stated for single events.
-/
namespace Taper.SumFirst
open Platform StockTables StockReconcile StockConservation StockReconcileSound
open MachineInt GroupedSums

def contract (b : Buckets) (e : StockEvent) : Buckets :=
  let delta := e.delta.toInt
  if e.reason = "reserve" then (b.1 + delta, b.2.1 + -delta, b.2.2)
  else if e.reason = "release" then (b.1 + delta, b.2.1 + -delta, b.2.2)
  else if e.reason = "allocate" then (b.1, b.2.1 + -delta, b.2.2 + delta)
  else if e.reason = "fulfill" then (b.1, b.2.1, b.2.2 + -delta)
  else (b.1 + delta, b.2.1, b.2.2)

def replay (events : List StockEvent) : Buckets := events.foldl contract (0, 0, 0)

def total (events : List StockEvent) (reason : String) : ReasonSum :=
  ⟨reason, Int64.ofInt (reasonTotal events reason)⟩

def exactly (d : Derived) : Buckets := (d.avail.toInt, d.reserved.toInt, d.allocated.toInt)

theorem contract_logged (b : Buckets) (e : StockEvent) : contract b e = b + logged e := by
  obtain ⟨avail, reserved, allocated⟩ := b
  unfold contract logged effect
  by_cases reserve : e.reason = "reserve"
  · simp [reserve]
  by_cases release : e.reason = "release"
  · simp [release]
  by_cases allocate : e.reason = "allocate"
  · simp [allocate]
  by_cases fulfill : e.reason = "fulfill"
  · simp [fulfill]
  · simp [reserve, release, allocate, fulfill]

theorem replay_logged (events : List StockEvent) : replay events = (events.map logged).sum := by
  have fold : ∀ b : Buckets, events.foldl contract b = b + (events.map logged).sum := by
    induction events with
    | nil => simp
    | cons e rest ih =>
      intro b
      rw [List.foldl_cons, contract_logged, ih, List.map_cons, List.sum_cons, add_assoc]
  have start := fold 0
  rwa [zero_add] at start

theorem replay_perm {events events' : List StockEvent} (order : events.Perm events') :
    replay events = replay events' := by
  rw [replay_logged, replay_logged, (order.map logged).sum_eq]

theorem deriveBuckets_totals {events : List StockEvent} {names : List String}
    (groups : names.Perm (events.map StockEvent.reason).dedup) :
    deriveBuckets (names.map (total events)) = ofBuckets (replay events) := by
  have derived := deriveBuckets_ofInt (names.map fun name => (name, reasonTotal events name))
  rw [List.map_map, List.map_map] at derived
  refine derived.trans ?_
  rw [replay_logged, ← sum_of_groups StockEvent.reason logged events groups]
  congr 2
  exact List.map_congr_left fun name _ => reasonTotal_effect events name

/-- An event moves no bucket by more than its delta. -/
theorem replay_bounds (events : List StockEvent) :
    (-2147483648 * (events.length : ℤ) ≤ (replay events).1 ∧
      (replay events).1 ≤ 2147483648 * (events.length : ℤ)) ∧
    (-2147483648 * (events.length : ℤ) ≤ (replay events).2.1 ∧
      (replay events).2.1 ≤ 2147483648 * (events.length : ℤ)) ∧
    (-2147483648 * (events.length : ℤ) ≤ (replay events).2.2 ∧
      (replay events).2.2 ≤ 2147483648 * (events.length : ℤ)) := by
  rw [replay_logged]
  induction events with
  | nil => simp
  | cons e rest ih =>
    have delta := int32_bounds e.delta
    have moved : logged e = contract 0 e := by rw [contract_logged, zero_add]
    rw [List.map_cons, List.sum_cons, moved, List.length_cons]
    generalize (rest.map logged).sum = later at ih ⊢
    unfold contract
    dsimp only
    push_cast
    split_ifs
    all_goals
      simp only [Prod.fst_add, Prod.snd_add, Prod.fst_zero, Prod.snd_zero]
      omega

theorem exactly_ofBuckets {events : List StockEvent} (few : events.length < 2 ^ 32) :
    exactly (ofBuckets (replay events)) = replay events := by
  obtain ⟨avail, reserved, allocated⟩ := replay_bounds events
  have short : (events.length : ℤ) < 4294967296 := by exact_mod_cast few
  refine Prod.ext ?_ (Prod.ext ?_ ?_)
  · exact Int64.toInt_ofInt_of_le (by omega) (by omega)
  · exact Int64.toInt_ofInt_of_le (by omega) (by omega)
  · exact Int64.toInt_ofInt_of_le (by omega) (by omega)

/-- For all events of a location, whatever the order of the groups and of the replay: the derived
buckets are those of the replay, in 64 bits. The same holds of what the query answers. Below
2 ^ 32 events it answers, and the buckets are exact. -/
theorem sum_first_eq_replay (events replayed : List StockEvent) (order : replayed.Perm events)
    (names : List String) (groups : names.Perm (events.map StockEvent.reason).dedup) :
    deriveBuckets (names.map (total events)) = ofBuckets (replay replayed) ∧
    (∀ rt db loc reasons, eventsAt db loc = events → sumDeltasByReason rt db loc = .ok reasons →
      deriveBuckets reasons = ofBuckets (replay replayed)) ∧
    (events.length < 2 ^ 32 → exactly (ofBuckets (replay replayed)) = replay replayed ∧
      ∀ rt db loc, eventsAt db loc = events →
        ∃ reasons, sumDeltasByReason rt db loc = .ok reasons) := by
  rw [replay_perm order]
  refine ⟨deriveBuckets_totals groups, ?_, fun few => ⟨exactly_ofBuckets few, ?_⟩⟩
  · intro rt db loc reasons here sums
    rw [deriveBuckets_sums sums, derivedAt, here, replay_logged]
  · intro rt db loc here
    refine (sums_ok_iff rt db loc).2 ?_
    rw [here]
    exact summed_of_few few

/-- Ten units arrive, four of them are held, allocated and shipped, and two are booked for a
reason of the operator's own. -/
def lifecycle : List StockEvent :=
  [("adjust", 10), ("reserve", -4), ("allocate", 4), ("recount", 1), ("fulfill", 4),
    ("recount", 1)].map fun (reason, delta) =>
      ⟨sampleTenant, "SKU", "W1", delta, reason, "erp", ""⟩

theorem sum_first_eq_replay_lifecycle :
    replay lifecycle.reverse = (8, 0, 0) ∧
    deriveBuckets (["fulfill", "recount", "adjust", "allocate", "reserve"].map
      (total lifecycle)) = ofBuckets (replay lifecycle.reverse) :=
  ⟨by decide +kernel, (sum_first_eq_replay lifecycle lifecycle.reverse (List.reverse_perm _)
    ["fulfill", "recount", "adjust", "allocate", "reserve"] (by decide +kernel)).1⟩

end Taper.SumFirst
