import Mathlib.Data.Int.ConditionallyCompleteOrder
import Mathlib.Data.List.AList
import Taper.Gateway
import Taper.Times
import Taper.TokenBucket

set_option autoImplicit false

/-!
# The rate limiter

One bucket per tenant in a map. The floating-point fields are exact rationals;
times are readings of the clock in nanoseconds.
-/
namespace Taper.RateLimit
open Gateway Times

abbrev Bucket := TokenBucket.Bucket ℤ ℚ

abbrev Entry := Sigma fun _ : String => Bucket

structure Limiter where
  rate : ℚ
  burst : ℚ
  max : ℤ
  buckets : AList fun _ : String => Bucket

def newLimited (rate burst : ℚ) (maxBuckets : ℤ) : Limiter := ⟨rate, burst, maxBuckets, ∅⟩

def new (rate burst : ℚ) : Limiter := newLimited rate burst 0

def truncate (q : ℚ) : ℤ := q.num.tdiv q.den

/-- A number becomes a duration by truncation. What does not fit in 64 bits is left
to the machine. -/
structure Conversion where
  duration : ℚ → Int64
  duration_toInt : ∀ q, -9223372036854775808 ≤ truncate q → truncate q ≤ 9223372036854775807 →
    (duration q).toInt = truncate q

structure Order where
  walk : List Entry → List Entry
  walk_perm : ∀ entries, (walk entries).Perm entries

def older (oldest : String × ℤ) (e : Entry) : String × ℤ :=
  if oldest.1 = "" ∨ e.2.last < oldest.2 then (e.1, e.2.last) else oldest

def Limiter.evictLocked (l : Limiter) (order : Order) : Limiter :=
  if l.max ≤ 0 ∨ (l.buckets.entries.length : ℤ) < l.max then l
  else
    let oldestKey := ((order.walk l.buckets.entries).foldl older ("", zeroTime)).1
    if oldestKey ≠ "" then { l with buckets := l.buckets.erase oldestKey } else l

def seconds (d : Int64) : ℚ := d.toInt / 1000000000

def spend (conv : Conversion) (rate burst : ℚ) (b : Bucket) (now : ℤ) : Decision × Bucket :=
  let elapsed := seconds (sub now b.last)
  let tokens := min burst (b.tokens + elapsed * rate)
  if tokens < 1 then
    let needed := (1 - tokens) / rate
    (⟨false, (conv.duration (needed * 1000000000)).toInt⟩, ⟨tokens, now⟩)
  else (⟨true, 0⟩, ⟨tokens - 1, now⟩)

def Limiter.take (conv : Conversion) (l : Limiter) (order : Order) (tenant : String) (now : ℤ) :
    Decision × Limiter :=
  if l.rate ≤ 0 ∨ l.burst ≤ 0 then (⟨true, 0⟩, l)
  else
    match l.buckets.lookup tenant with
    | some b =>
      let spent := spend conv l.rate l.burst b now
      (spent.1, { l with buckets := l.buckets.insert tenant spent.2 })
    | none =>
      let l := l.evictLocked order
      let spent := spend conv l.rate l.burst ⟨l.burst, now⟩ now
      (spent.1, { l with buckets := l.buckets.insert tenant spent.2 })

structure Call where
  tenant : String
  now : ℤ
  order : Order

def Limiter.after (conv : Conversion) (l : Limiter) : List Call → Limiter
  | [] => l
  | c :: rest => Limiter.after conv (l.take conv c.order c.tenant c.now).2 rest

def Limiter.decisions (conv : Conversion) (l : Limiter) : List Call → List (Call × Decision)
  | [] => []
  | c :: rest =>
    (c, (l.take conv c.order c.tenant c.now).1) ::
      Limiter.decisions conv (l.take conv c.order c.tenant c.now).2 rest

section Steps

variable {conv : Conversion} {l : Limiter} {order : Order} {tenant : String} {now : ℤ}

def Limiter.bucket (l : Limiter) (tenant : String) (now : ℤ) : Bucket :=
  (l.buckets.lookup tenant).getD ⟨l.burst, now⟩

def Limiter.room (l : Limiter) (order : Order) (tenant : String) : AList fun _ : String => Bucket :=
  if tenant ∈ l.buckets then l.buckets else (l.evictLocked order).buckets

theorem evictLocked_fields (l : Limiter) (order : Order) :
    (l.evictLocked order).rate = l.rate ∧ (l.evictLocked order).burst = l.burst ∧
      (l.evictLocked order).max = l.max := by
  unfold Limiter.evictLocked
  split_ifs
  · exact ⟨rfl, rfl, rfl⟩
  · dsimp only
    split_ifs
    · exact ⟨rfl, rfl, rfl⟩
    · exact ⟨rfl, rfl, rfl⟩

/-- Whether or not the tenant is known, its bucket is used and stored. -/
theorem take_eq (rate : 0 < l.rate) (burst : 0 < l.burst) :
    l.take conv order tenant now =
      ((spend conv l.rate l.burst (l.bucket tenant now) now).1, { l with
        buckets := AList.insert tenant (spend conv l.rate l.burst (l.bucket tenant now) now).2
          (l.room order tenant) }) := by
  unfold Limiter.take Limiter.bucket Limiter.room
  rw [if_neg (not_or.2 ⟨not_le.2 rate, not_le.2 burst⟩)]
  cases found : l.buckets.lookup tenant with
  | some b =>
    have known : tenant ∈ l.buckets := AList.lookup_isSome.1 (by rw [found]; rfl)
    rw [if_pos known]
    rfl
  | none =>
    have unknown : tenant ∉ l.buckets := AList.lookup_eq_none.1 found
    obtain ⟨rate, burst, max⟩ := evictLocked_fields l order
    rw [if_neg unknown]
    simp only [rate, burst, max, Option.getD_none]

/-- A limiter without a floor forgets nothing. -/
theorem evictLocked_free (free : l.max ≤ 0) : l.evictLocked order = l := by
  rw [Limiter.evictLocked, if_pos (Or.inl free)]

end Steps

section Bound

variable {conv : Conversion} {l : Limiter} {order : Order} {tenant : String} {now : ℤ}

def instant (now : ℤ) : ℚ := now / 1000000000

theorem seconds_sub_nonneg {u v : ℤ} (later : u ≤ v) : 0 ≤ seconds (sub v u) := by
  have forward : 0 ≤ (sub v u).toInt := by
    rw [sub_toInt]
    omega
  unfold seconds
  positivity

theorem seconds_sub_le {u v : ℤ} (later : u ≤ v) : seconds (sub v u) ≤ instant v - instant u := by
  have short : (sub v u).toInt ≤ v - u := by
    rw [sub_toInt]
    omega
  unfold seconds instant
  rw [← sub_div]
  gcongr
  exact_mod_cast short

def policy {rate burst : ℚ} (rate_pos : 0 < rate) (burst_pos : 0 < burst) :
    TokenBucket.Policy ℤ ℚ where
  rate := rate
  burst := burst
  axis := instant
  elapsed u v := seconds (sub v u)
  rate_nonneg := rate_pos.le
  burst_nonneg := burst_pos.le
  elapsed_nonneg _ _ := seconds_sub_nonneg
  elapsed_le _ _ := seconds_sub_le

theorem spend_use {rate burst : ℚ} (rate_pos : 0 < rate) (burst_pos : 0 < burst) (b : Bucket) :
    (((spend conv rate burst b now).1.allowed, (spend conv rate burst b now).2) :
      Bool × Bucket) = (policy rate_pos burst_pos).use b now := by
  unfold spend TokenBucket.Policy.use
  dsimp only [policy, TokenBucket.Policy.refill]
  split_ifs
  · rfl
  · rfl

structure Free (rate burst : ℚ) (l : Limiter) : Prop where
  rate : l.rate = rate
  burst : l.burst = burst
  free : l.max ≤ 0

variable {rate burst : ℚ} (conv) (rate_pos : 0 < rate) (burst_pos : 0 < burst)

include rate_pos burst_pos

theorem take_free (h : Free rate burst l) (c : Call) :
    Free rate burst (l.take conv c.order c.tenant c.now).2 := by
  rw [take_eq (h.rate ▸ rate_pos) (h.burst ▸ burst_pos)]
  exact ⟨h.rate, h.burst, h.free⟩

theorem take_own (h : Free rate burst l) (c : Call) :
    (l.take conv c.order c.tenant c.now).1 =
      (spend conv rate burst ((l.buckets.lookup c.tenant).getD ⟨burst, c.now⟩) c.now).1 ∧
    (l.take conv c.order c.tenant c.now).2.buckets.lookup c.tenant =
      some (spend conv rate burst ((l.buckets.lookup c.tenant).getD ⟨burst, c.now⟩) c.now).2 := by
  have bucket : l.bucket c.tenant c.now = (l.buckets.lookup c.tenant).getD ⟨burst, c.now⟩ := by
    rw [Limiter.bucket, h.burst]
  rw [take_eq (h.rate ▸ rate_pos) (h.burst ▸ burst_pos), bucket, h.rate, h.burst]
  exact ⟨rfl, AList.lookup_insert _⟩

theorem take_other (h : Free rate burst l) (c : Call) (other : tenant ≠ c.tenant) :
    (l.take conv c.order c.tenant c.now).2.buckets.lookup tenant = l.buckets.lookup tenant := by
  have room : l.room c.order c.tenant = l.buckets := by
    rw [Limiter.room, evictLocked_free h.free, ite_self]
  rw [take_eq (h.rate ▸ rate_pos) (h.burst ▸ burst_pos), room]
  exact AList.lookup_insert_ne other

theorem decisions_filter {l' : Limiter} (h : Free rate burst l) (h' : Free rate burst l')
    (same : l.buckets.lookup tenant = l'.buckets.lookup tenant) (calls : List Call) :
    (l.decisions conv calls).filter (fun d => d.1.tenant = tenant) =
      l'.decisions conv (calls.filter fun c => c.tenant = tenant) := by
  induction calls generalizing l l' with
  | nil => rfl
  | cons c rest ih =>
    have next := take_free conv rate_pos burst_pos h c
    by_cases own : c.tenant = tenant
    · obtain ⟨answer, stored⟩ := take_own conv rate_pos burst_pos h c
      obtain ⟨answer', stored'⟩ := take_own conv rate_pos burst_pos h' c
      have next' := take_free conv rate_pos burst_pos h' c
      rw [← own] at same
      rw [same] at answer stored
      rw [Limiter.decisions, List.filter_cons_of_pos (by simp [own]),
        List.filter_cons_of_pos (by simp [own]), Limiter.decisions, answer, answer',
        ih next next']
      rw [← own, stored, stored']
    · rw [Limiter.decisions, List.filter_cons_of_neg (by simp [own]),
        List.filter_cons_of_neg (by simp [own])]
      refine ih next h' ?_
      rw [take_other conv rate_pos burst_pos h c (Ne.symm own)]
      exact same

theorem decisions_uses (h : Free rate burst l) {calls : List Call}
    (own : ∀ c ∈ calls, c.tenant = tenant) :
    (l.decisions conv calls).map (fun d => (d.1.now, d.2.allowed)) =
      (policy rate_pos burst_pos).uses (l.buckets.lookup tenant) (calls.map (·.now)) := by
  induction calls generalizing l with
  | nil => rfl
  | cons c rest ih =>
    obtain ⟨answer, stored⟩ := take_own conv rate_pos burst_pos h c
    have next := take_free conv rate_pos burst_pos h c
    have here := own c List.mem_cons_self
    have later := ih next fun c' member => own c' (List.mem_cons_of_mem c member)
    rw [here] at answer stored
    rw [here, stored] at later
    let used := spend conv rate burst ((l.buckets.lookup tenant).getD ⟨burst, c.now⟩) c.now
    have use : ((used.1.allowed, used.2) : Bool × Bucket) = (policy rate_pos burst_pos).use
        ((policy rate_pos burst_pos).start (l.buckets.lookup tenant) c.now) c.now :=
      spend_use rate_pos burst_pos _
    rw [Limiter.decisions, List.map_cons, List.map_cons, TokenBucket.Policy.uses, ← use, here,
      answer, later]

def admittedIn (tenant : String) (s t : ℚ) (d : Call × Decision) : Bool :=
  d.1.tenant = tenant ∧ d.2.allowed = true ∧ s ≤ instant d.1.now ∧ instant d.1.now ≤ t

theorem admittedIn_le (free : Free rate burst l) {calls : List Call}
    (ordered : calls.Pairwise fun c c' => c.now ≤ c'.now)
    (filled : ∀ b, l.buckets.lookup tenant = some b → 0 ≤ b.tokens ∧ ∀ c ∈ calls, b.last ≤ c.now)
    {s t : ℚ} (forward : s ≤ t) :
    ((l.decisions conv calls).countP (admittedIn tenant s t) : ℚ) ≤ burst + rate * (t - s) := by
  have own : ∀ c ∈ calls.filter (fun c => c.tenant = tenant), c.tenant = tenant :=
    fun c member => of_decide_eq_true (List.mem_filter.1 member).2
  have counts : (l.decisions conv calls).countP (admittedIn tenant s t) =
      (policy rate_pos burst_pos).granted s t (((l.decisions conv calls).filter
        fun d => d.1.tenant = tenant).map fun d => (d.1.now, d.2.allowed)) := by
    rw [TokenBucket.Policy.granted, List.countP_map, List.countP_filter]
    refine List.countP_congr fun d _ => ?_
    simp only [admittedIn, TokenBucket.Policy.counts, policy, Function.comp_apply,
      decide_eq_true_eq, Bool.and_eq_true]
    tauto
  rw [counts, decisions_filter conv rate_pos burst_pos free free rfl calls,
    decisions_uses conv rate_pos burst_pos free own]
  refine TokenBucket.granted_le (List.pairwise_map.2 (ordered.filter _)) forward fun b used => ?_
  refine ⟨(filled b used).1, fun now member => ?_⟩
  obtain ⟨c, there, rfl⟩ := List.mem_map.1 member
  exact (filled b used).2 c (List.mem_of_mem_filter there)

end Bound

/-- In every window a tenant is admitted at most as often as the capacity and the
rate allow, and its decisions are those of its own calls alone. -/
theorem admitted_bounded (conv : Conversion) (rate burst : ℚ) (rate_pos : 0 < rate)
    (burst_pos : 0 < burst) (calls : List Call)
    (ordered : calls.Pairwise fun c c' => c.now ≤ c'.now) (tenant : String) :
    (∀ s t, s ≤ t → (((new rate burst).decisions conv calls).countP (admittedIn tenant s t) : ℚ) ≤
      burst + rate * (t - s)) ∧
    ((new rate burst).decisions conv calls).filter (fun d => d.1.tenant = tenant) =
      (new rate burst).decisions conv (calls.filter fun c => c.tenant = tenant) := by
  have free : Free rate burst (new rate burst) := ⟨rfl, rfl, le_refl 0⟩
  refine ⟨fun s t forward => ?_, decisions_filter conv rate_pos burst_pos free free rfl calls⟩
  exact admittedIn_le conv rate_pos burst_pos free ordered nofun forward

/-- What does not fit becomes the least duration. -/
def lowest : Conversion where
  duration q :=
    if -9223372036854775808 ≤ truncate q ∧ truncate q ≤ 9223372036854775807 then
      Int64.ofInt (truncate q)
    else Int64.minValue
  duration_toInt q low high := by
    rw [if_pos ⟨low, high⟩]
    exact Int64.toInt_ofInt_of_le low (by omega)

def stored : Order := ⟨id, fun entries => .refl entries⟩

/-- Four calls at once and one of another tenant; a tenth of a second later one
token is back. -/
def crowd : List Call :=
  [⟨"t1", 0, stored⟩, ⟨"t1", 0, stored⟩, ⟨"t2", 0, stored⟩, ⟨"t1", 0, stored⟩, ⟨"t1", 0, stored⟩,
    ⟨"t1", 100000000, stored⟩]

theorem admitted_bounded_crowd :
    ((new 10 3).decisions lowest crowd).countP (admittedIn "t1" 0 (1 / 10)) = 4 ∧
    (((new 10 3).decisions lowest crowd).countP (admittedIn "t1" 0 (1 / 10)) : ℚ) ≤
      3 + 10 * (1 / 10 - 0) := by
  have ordered : crowd.Pairwise fun c c' => c.now ≤ c'.now := by decide
  exact ⟨by decide +kernel, (admitted_bounded lowest 10 3 (by decide) (by decide) crowd ordered
    "t1").1 0 (1 / 10) (by decide +kernel)⟩

end Taper.RateLimit
