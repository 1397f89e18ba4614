import Mathlib.Data.Rat.Floor
import Taper.RateLimit

set_option autoImplicit false

/-!
# The Retry-After header

The wait is long enough when the bucket can hold a whole token and the missing
part flows in within the longest duration.
-/
namespace Taper.RetryAfter
open Gateway RateLimit Times

def limited (core : Core) (conv : Conversion) (l : Limiter) (order : Order) (now : ℤ) : Core :=
  { core with take := fun tenant => (l.take conv order tenant now).1 }

def level (rate burst : ℚ) (b : Bucket) (now : ℤ) : ℚ :=
  min burst (b.tokens + seconds (sub now b.last) * rate)

def wait (rate tokens : ℚ) : ℚ := (1 - tokens) / rate * 1000000000

section Waiting

variable {rate burst : ℚ} {conv : Conversion} {b : Bucket} {now : ℤ}

theorem spend_refused (short : level rate burst b now < 1) :
    spend conv rate burst b now =
      (⟨false, (conv.duration (wait rate (level rate burst b now))).toInt⟩,
        ⟨level rate burst b now, now⟩) :=
  if_pos short

theorem spend_granted (enough : ¬ level rate burst b now < 1) :
    spend conv rate burst b now = (⟨true, 0⟩, ⟨level rate burst b now - 1, now⟩) :=
  if_neg enough

theorem truncate_floor {q : ℚ} (nonneg : 0 ≤ q) : truncate q = ⌊q⌋ := by
  rw [truncate, Int.tdiv_eq_ediv_of_nonneg (Rat.num_nonneg.2 nonneg), Rat.floor_def']

theorem le_header (conv : Conversion) {q : ℚ} (nonneg : 0 ≤ q) (fits : q ≤ 9223372036854775807) :
    q ≤ (((conv.duration q).toInt.tdiv 1000000000 + 1) * 1000000000 : ℤ) := by
  have start : 0 ≤ ⌊q⌋ := Int.floor_nonneg.2 nonneg
  have short : ⌊q⌋ ≤ 9223372036854775807 := by
    have floored : ((⌊q⌋ : ℤ) : ℚ) ≤ (9223372036854775807 : ℤ) :=
      (Int.floor_le q).trans (by exact_mod_cast fits)
    exact_mod_cast floored
  have exact_ : (conv.duration q).toInt = ⌊q⌋ := by
    rw [conv.duration_toInt, truncate_floor nonneg] <;> rw [truncate_floor nonneg] <;> omega
  have rounded : ⌊q⌋ + 1 ≤ (⌊q⌋.tdiv 1000000000 + 1) * 1000000000 := by
    rw [Int.tdiv_eq_ediv_of_nonneg start]
    omega
  rw [exact_]
  calc q ≤ (⌊q⌋ : ℚ) + 1 := (Int.lt_floor_add_one q).le
    _ ≤ ((⌊q⌋.tdiv 1000000000 + 1) * 1000000000 : ℤ) := by exact_mod_cast rounded

theorem level_again (rate_pos : 0 < rate) (tokens : ℚ) (now' : ℤ) :
    1 ≤ level rate burst ⟨tokens, now⟩ now' ↔
      1 ≤ burst ∧ wait rate tokens ≤ (sub now' now).toInt := by
  have scaled : wait rate tokens ≤ (sub now' now).toInt ↔
      (1 - tokens) * 1000000000 ≤ (sub now' now).toInt * rate := by
    rw [wait, div_mul_eq_mul_div, div_le_iff₀ rate_pos]
  rw [level, le_min_iff, scaled, seconds]
  refine and_congr_right fun _ => ⟨fun enough => ?_, fun enough => ?_⟩
  · linarith
  · linarith

theorem level_new : level rate burst ⟨burst, now⟩ now = burst := by
  have none : (sub now now).toInt = 0 := by
    rw [sub_toInt]
    omega
  rw [level, seconds, none]
  simp

end Waiting

section Others

variable (conv : Conversion) {l : Limiter} {tenant : String}

theorem evictLocked_lookup (order : Order) :
    (l.evictLocked order).buckets.lookup tenant = l.buckets.lookup tenant ∨
      (l.evictLocked order).buckets.lookup tenant = none := by
  unfold Limiter.evictLocked
  split_ifs
  · exact .inl rfl
  dsimp only
  split_ifs
  · generalize ((order.walk l.buckets.entries).foldl older ("", zeroTime)).1 = victim
    by_cases same : tenant = victim
    · rw [same]
      exact .inr (AList.lookup_erase victim l.buckets)
    · exact .inl (AList.lookup_erase_ne same)
  · exact .inl rfl

/-- The limiter may have forgotten the bucket, but has not changed it. -/
structure Spared (l : Limiter) (tenant : String) (b : Bucket) (l' : Limiter) : Prop where
  rate : l'.rate = l.rate
  burst : l'.burst = l.burst
  spared : l'.buckets.lookup tenant = some b ∨ l'.buckets.lookup tenant = none

theorem take_spared (rate_pos : 0 < l.rate) (burst_pos : 0 < l.burst) {l' : Limiter} {b : Bucket}
    (h : Spared l tenant b l') (c : Call) (other : c.tenant ≠ tenant) :
    Spared l tenant b (l'.take conv c.order c.tenant c.now).2 := by
  rw [take_eq (h.rate ▸ rate_pos) (h.burst ▸ burst_pos)]
  refine ⟨h.rate, h.burst, ?_⟩
  dsimp only
  rw [AList.lookup_insert_ne (Ne.symm other), Limiter.room]
  split_ifs
  · exact h.spared
  · rcases evictLocked_lookup c.order with same | gone
    · rw [same]
      exact h.spared
    · exact .inr gone

theorem after_spared (rate_pos : 0 < l.rate) (burst_pos : 0 < l.burst) {l' : Limiter} {b : Bucket}
    (h : Spared l tenant b l') {others : List Call} (apart : ∀ c ∈ others, c.tenant ≠ tenant) :
    Spared l tenant b (l'.after conv others) := by
  induction others generalizing l' with
  | nil => exact h
  | cons c rest ih =>
    have next := take_spared conv rate_pos burst_pos h c (apart c List.mem_cons_self)
    exact ih next fun c' member => apart c' (List.mem_cons_of_mem c member)

end Others

section Header

variable {core : Core} {conv : Conversion} {l : Limiter} {order : Order} {tenant : String} {now : ℤ}

theorem admit_none_iff (rate_pos : 0 < l.rate) (burst_pos : 0 < l.burst) :
    Core.admit (limited core conv l order now) tenant = none ↔
      1 ≤ level l.rate l.burst (l.bucket tenant now) now := by
  unfold Core.admit limited
  dsimp only
  rw [take_eq rate_pos burst_pos]
  by_cases short : level l.rate l.burst (l.bucket tenant now) now < 1
  · rw [spend_refused short]
    exact ⟨nofun, fun enough => absurd short (not_lt.2 enough)⟩
  · rw [spend_granted short]
    exact ⟨fun _ => not_lt.1 short, fun _ => rfl⟩

theorem admit_header (rate_pos : 0 < l.rate) (burst_pos : 0 < l.burst) {refusal : Refusal} {s : ℤ}
    (refused : Core.admit (limited core conv l order now) tenant = some refusal)
    (header : refusal.retryAfter = some s) :
    level l.rate l.burst (l.bucket tenant now) now < 1 ∧
    s = (conv.duration (wait l.rate (level l.rate l.burst (l.bucket tenant now) now))).toInt.tdiv
      1000000000 + 1 := by
  have short : level l.rate l.burst (l.bucket tenant now) now < 1 := by
    refine not_le.1 fun enough => ?_
    rw [(admit_none_iff rate_pos burst_pos).2 enough] at refused
    cases refused
  refine ⟨short, ?_⟩
  unfold Core.admit limited at refused
  dsimp only at refused
  rw [take_eq rate_pos burst_pos, spend_refused short] at refused
  obtain rfl := Option.some.inj refused
  exact (Option.some.inj header).symm

/-- Every later request is admitted, whatever other tenants do in between. -/
def Honest (core : Core) (conv : Conversion) (l : Limiter) (tenant : String) (now s : ℤ) : Prop :=
  ∀ others : List Call, (∀ c ∈ others, c.tenant ≠ tenant) → ∀ order now', now ≤ now' →
    now + s * 1000000000 ≤ now' →
      Core.admit (limited core conv (l.after conv others) order now') tenant = none

end Header

/-- The header is right exactly if the bucket can hold a token and the time that is missing can
be measured. -/
theorem retry_after_honest_iff (core : Core) (conv : Conversion) (l : Limiter)
    (rate_pos : 0 < l.rate) (burst_pos : 0 < l.burst) (order : Order) (tenant : String) (now : ℤ)
    (refusal : Refusal) (s : ℤ)
    (refused : Core.admit (limited core conv l order now) tenant = some refusal)
    (header : refusal.retryAfter = some s) :
    Honest core conv (l.take conv order tenant now).2 tenant now s ↔
      1 ≤ l.burst ∧
        wait l.rate (level l.rate l.burst (l.bucket tenant now) now) ≤ 9223372036854775807 := by
  obtain ⟨short, seconds⟩ := admit_header rate_pos burst_pos refused header
  have left : (l.take conv order tenant now).2.rate = l.rate ∧
      (l.take conv order tenant now).2.burst = l.burst ∧
      (l.take conv order tenant now).2.buckets.lookup tenant =
        some ⟨level l.rate l.burst (l.bucket tenant now) now, now⟩ := by
    rw [take_eq rate_pos burst_pos, spend_refused short]
    exact ⟨rfl, rfl, AList.lookup_insert _⟩
  generalize (l.take conv order tenant now).2 = l' at left ⊢
  generalize level l.rate l.burst (l.bucket tenant now) now = tokens at short seconds left ⊢
  obtain ⟨rate, burst, own⟩ := left
  constructor
  · intro honest
    -- Nobody comes in between, and the tenant comes back as early as it may.
    have again := honest [] nofun order (max now (now + s * 1000000000)) (le_max_left _ _)
      (le_max_right _ _)
    rw [Limiter.after, admit_none_iff (rate ▸ rate_pos) (burst ▸ burst_pos), rate, burst,
      Limiter.bucket, own, Option.getD_some, level_again rate_pos] at again
    refine ⟨again.1, again.2.trans ?_⟩
    exact_mod_cast Int.le_of_lt_add_one (Int64.toInt_lt _)
  · rintro ⟨whole, fits⟩ others apart order' now' forward arrived
    have kept : Spared l tenant ⟨tokens, now⟩ l' := ⟨rate, burst, .inl own⟩
    have found := after_spared conv rate_pos burst_pos kept apart
    rw [admit_none_iff (found.rate ▸ rate_pos) (found.burst ▸ burst_pos), found.rate, found.burst]
    have nonneg : 0 ≤ wait l.rate tokens := by
      have missing := sub_pos.2 short
      unfold wait
      positivity
    rcases found.spared with same | gone
    · rw [Limiter.bucket, same, Option.getD_some, level_again rate_pos]
      refine ⟨whole, ?_⟩
      have elapsed : wait l.rate tokens ≤ (now' - now : ℤ) := by
        refine (le_header conv nonneg fits).trans ?_
        rw [← seconds]
        exact_mod_cast (by omega : s * 1000000000 ≤ now' - now)
      rw [sub_toInt]
      push_cast at elapsed ⊢
      exact le_max_of_le_right (le_min fits elapsed)
    · rw [Limiter.bucket, gone, Option.getD_none, found.burst, level_new]
      exact whole

def bare : Core := ⟨fun _ => none, fun _ => ⟨true, 0⟩, fun _ => none, fun _ => ""⟩

def exhausted (s : ℤ) : Refusal :=
  ⟨⟨429, "resource_exhausted", "rate limit exceeded, retry after "⟩, some s⟩

def drained : Limiter := ((new 2 1).take lowest stored "t1" 0).2

theorem retry_after_honest_drained :
    Core.admit (limited bare lowest drained stored 100000000) "t1" = some (exhausted 1) ∧
    Honest bare lowest (drained.take lowest stored "t1" 100000000).2 "t1" 100000000 1 := by
  have refused : Core.admit (limited bare lowest drained stored 100000000) "t1" =
      some (exhausted 1) := by decide +kernel
  exact ⟨refused, (retry_after_honest_iff bare lowest drained (by decide) (by decide) stored "t1"
    100000000 (exhausted 1) 1 refused rfl).2 (by decide +kernel)⟩

/-- A bucket for half a token never has one: an hour after the header asked for a second the
tenant is refused again. -/
theorem half_token_refused :
    Core.admit (limited bare lowest (new 1 (1 / 2)) stored 0) "t1" = some (exhausted 1) ∧
    Core.admit (limited bare lowest ((new 1 (1 / 2)).take lowest stored "t1" 0).2 stored
      3600000000000) "t1" = some (exhausted 1) := by
  decide +kernel

end Taper.RetryAfter
