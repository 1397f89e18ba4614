import Taper.RateLimit

set_option autoImplicit false

/-!
# Eviction from the rate limiter

A new tenant that finds the map full displaces the one whose last call is the
longest ago, in whatever order the map is walked.
-/
namespace Taper.Eviction
open RateLimit Times

def len (l : Limiter) : ℕ := l.buckets.entries.length

section Walk

def stamp (e : Entry) : String × ℤ := (e.1, e.2.last)

def Oldest (p : String × ℤ) (stamps : List (String × ℤ)) : Prop :=
  p ∈ stamps ∧ ∀ p' ∈ stamps, p.2 ≤ p'.2

theorem older_oldest {p : String × ℤ} {e : Entry} (named : p.1 ≠ "") :
    Oldest (older p e) [p, stamp e] := by
  by_cases earlier : e.2.last < p.2
  · have next : older p e = stamp e := if_pos (.inr earlier)
    rw [next]
    refine ⟨by simp, fun p' member => ?_⟩
    rcases List.mem_pair.1 member with rfl | rfl
    · exact earlier.le
    · exact le_refl _
  · have next : older p e = p := if_neg (not_or.2 ⟨named, earlier⟩)
    rw [next]
    refine ⟨by simp, fun p' member => ?_⟩
    rcases List.mem_pair.1 member with rfl | rfl
    · exact le_refl _
    · exact not_lt.1 earlier

theorem foldl_older (entries : List Entry) (p : String × ℤ) (named : p.1 ≠ "")
    (names : ∀ e ∈ entries, e.1 ≠ "") :
    Oldest (entries.foldl older p) (p :: entries.map stamp) := by
  induction entries generalizing p with
  | nil =>
    exact ⟨List.mem_singleton_self p, fun p' member => (List.mem_singleton.1 member) ▸ le_rfl⟩
  | cons e rest ih =>
    obtain ⟨chosen, least⟩ := older_oldest (e := e) named
    have next : (older p e).1 ≠ "" := by
      rcases List.mem_pair.1 chosen with same | same
      · rw [same]
        exact named
      · rw [same]
        exact names e List.mem_cons_self
    obtain ⟨found, below⟩ := ih (older p e) next fun e' member =>
      names e' (List.mem_cons_of_mem e member)
    have first := below (older p e) List.mem_cons_self
    rw [List.foldl_cons, List.map_cons]
    constructor
    · rcases List.mem_cons.1 found with same | later
      · rw [same]
        rcases List.mem_pair.1 chosen with same | same
        · rw [same]
          exact List.mem_cons_self
        · rw [same]
          exact List.mem_cons_of_mem p List.mem_cons_self
      · exact List.mem_cons_of_mem p (List.mem_cons_of_mem (stamp e) later)
    · intro p' member
      rcases List.mem_cons.1 member with same | member
      · exact first.trans (least p' (same ▸ List.mem_cons_self))
      rcases List.mem_cons.1 member with same | member
      · exact first.trans (least p' (same ▸ List.mem_cons_of_mem p List.mem_cons_self))
      · exact below p' (List.mem_cons_of_mem (older p e) member)

theorem foldl_oldest {entries : List Entry} (some_ : entries ≠ [])
    (names : ∀ e ∈ entries, e.1 ≠ "") :
    Oldest (entries.foldl older ("", zeroTime)) (entries.map stamp) := by
  cases entries with
  | nil => exact absurd rfl some_
  | cons e rest =>
    have first : older ("", zeroTime) e = stamp e := if_pos (.inl rfl)
    rw [List.foldl_cons, first]
    exact foldl_older rest (stamp e) (names e List.mem_cons_self) fun e' member =>
      names e' (List.mem_cons_of_mem e member)

end Walk

section Floor

variable {l : Limiter}

def LeastRecent (l : Limiter) (victim : String) : Prop :=
  ∃ b, l.buckets.lookup victim = some b ∧
    ∀ k b', l.buckets.lookup k = some b' → b.last ≤ b'.last

theorem evictLocked_cases (order : Order) (floor : 1 ≤ l.max) (names : ∀ k ∈ l.buckets, k ≠ "") :
    ((len l : ℤ) < l.max ∧ l.evictLocked order = l) ∨
    (l.max ≤ len l ∧ ∃ victim, LeastRecent l victim ∧
      l.evictLocked order = { l with buckets := l.buckets.erase victim }) := by
  unfold Limiter.evictLocked
  by_cases space : (len l : ℤ) < l.max
  · exact .inl ⟨space, if_pos (.inr space)⟩
  have full : l.max ≤ len l := not_lt.1 space
  have perm := order.walk_perm l.buckets.entries
  have held : ∀ e ∈ order.walk l.buckets.entries, l.buckets.lookup e.1 = some e.2 :=
    fun e member => AList.mem_lookup_iff.2 (perm.mem_iff.1 member)
  have walked : order.walk l.buckets.entries ≠ [] := by
    intro none
    have empty : l.buckets.entries.length = 0 := by rw [← perm.length_eq, none]; rfl
    rw [len, empty] at full
    omega
  have named : ∀ e ∈ order.walk l.buckets.entries, e.1 ≠ "" := fun e member =>
    names e.1 (AList.lookup_isSome.1 (by rw [held e member]; rfl))
  obtain ⟨found, least⟩ := foldl_oldest walked named
  obtain ⟨e, member, same⟩ := List.mem_map.1 found
  refine .inr ⟨full, e.1, ⟨e.2, held e member, fun k b' known => ?_⟩, ?_⟩
  · have listed : (⟨k, b'⟩ : Entry) ∈ order.walk l.buckets.entries :=
      perm.mem_iff.2 (AList.mem_lookup_iff.1 known)
    have below := least (stamp ⟨k, b'⟩) (List.mem_map_of_mem listed)
    rw [← same] at below
    exact below
  · have closed : ¬ (l.max ≤ 0 ∨ (l.buckets.entries.length : ℤ) < l.max) :=
      not_or.2 ⟨by omega, space⟩
    rw [if_neg closed, ← same]
    exact if_pos (named e member)

structure Bounded (rate burst : ℚ) (max : ℤ) (l : Limiter) : Prop where
  rate : l.rate = rate
  burst : l.burst = burst
  bounded : (len l : ℤ) ≤ max
  names : ∀ k ∈ l.buckets, k ≠ ""
  max : l.max = max

/-- One bucket went, the least recently used, and nothing else changed for the others. -/
structure Displaced (l l' : Limiter) (tenant victim : String) : Prop where
  least : LeastRecent l victim
  gone : victim ∉ l'.buckets
  kept : ∀ k, k ≠ tenant → k ≠ victim → l'.buckets.lookup k = l.buckets.lookup k

structure Fair (max : ℤ) (l l' : Limiter) (tenant : String) : Prop where
  bounded : (len l' : ℤ) ≤ max
  stored : tenant ∈ l'.buckets
  evicted : tenant ∉ l.buckets → (len l : ℤ) = max → ∃ victim, Displaced l l' tenant victim
  kept : tenant ∈ l.buckets ∨ (len l : ℤ) < max →
    ∀ k, k ≠ tenant → l'.buckets.lookup k = l.buckets.lookup k

theorem length_keys (m : AList fun _ : String => Bucket) : m.keys.length = m.entries.length := by
  rw [AList.keys, List.keys, List.length_map]

variable {m : AList fun _ : String => Bucket} {k : String}

theorem length_insert_known {b : Bucket} (known : k ∈ m) :
    (AList.insert k b m).entries.length = m.entries.length := by
  have filled : 0 < m.keys.length := List.length_pos_of_mem known
  rw [← length_keys, AList.keys_insert, List.length_cons, List.length_erase_of_mem known,
    ← length_keys]
  omega

theorem length_insert_new {b : Bucket} (new : k ∉ m) :
    (AList.insert k b m).entries.length = m.entries.length + 1 := by
  rw [← length_keys, AList.keys_insert, List.length_cons, List.erase_of_not_mem new, length_keys]

theorem length_erase_known (known : k ∈ m) :
    (m.erase k).entries.length + 1 = m.entries.length := by
  have filled : 0 < m.keys.length := List.length_pos_of_mem known
  rw [← length_keys, AList.keys_erase, List.length_erase_of_mem known, ← length_keys]
  omega

theorem Fair.known {max : ℤ} {l l' : Limiter} {tenant : String} (fair : Fair max l l' tenant)
    (bounded : (len l : ℤ) ≤ max) (member : k ∈ l'.buckets) : k = tenant ∨ k ∈ l.buckets := by
  by_cases own : k = tenant
  · exact .inl own
  have unchanged : l'.buckets.lookup k = l.buckets.lookup k := by
    by_cases space : tenant ∈ l.buckets ∨ (len l : ℤ) < max
    · exact fair.kept space k own
    · obtain ⟨new, full⟩ := not_or.1 space
      obtain ⟨victim, displaced⟩ := fair.evicted new (by omega)
      exact displaced.kept k own fun same => displaced.gone (same ▸ member)
  exact .inr (AList.lookup_isSome.1 (unchanged ▸ AList.lookup_isSome.2 member))

variable {rate burst : ℚ} {max : ℤ} (conv : Conversion) (order : Order) (tenant : String) (now : ℤ)
  (rate_pos : 0 < rate) (burst_pos : 0 < burst) (floor : 1 ≤ max)

include rate_pos burst_pos floor

theorem take_fair (h : Bounded rate burst max l) :
    Fair max l (l.take conv order tenant now).2 tenant := by
  rw [take_eq (h.rate ▸ rate_pos) (h.burst ▸ burst_pos)]
  dsimp only
  generalize (spend conv l.rate l.burst (l.bucket tenant now) now).2 = b
  have stored : tenant ∈ AList.insert tenant b (l.room order tenant) :=
    (AList.mem_insert _).2 (.inl rfl)
  have bounded := h.bounded
  by_cases known : tenant ∈ l.buckets
  · have room : l.room order tenant = l.buckets := if_pos known
    rw [room] at stored ⊢
    refine ⟨?_, stored, fun new => absurd known new, fun _ k other => AList.lookup_insert_ne other⟩
    rw [len, length_insert_known known]
    exact bounded
  have room : l.room order tenant = (l.evictLocked order).buckets := if_neg known
  rw [room] at stored ⊢
  rcases evictLocked_cases order (h.max ▸ floor) h.names with
    ⟨space, same⟩ | ⟨full, victim, least, erased⟩
  · rw [same] at stored ⊢
    rw [h.max] at space
    refine ⟨?_, stored, fun _ full => absurd full space.ne, fun _ k other =>
      AList.lookup_insert_ne other⟩
    rw [len, length_insert_new known]
    exact_mod_cast space
  · rw [erased] at stored ⊢
    rw [h.max] at full
    obtain ⟨last, found, _⟩ := id least
    have held : victim ∈ l.buckets := AList.lookup_isSome.1 (by rw [found]; rfl)
    have other : victim ≠ tenant := fun same => known (same ▸ held)
    have absent : tenant ∉ l.buckets.erase victim := fun member =>
      known (AList.mem_erase.1 member).2
    refine ⟨?_, stored, fun _ _ => ⟨victim, least, fun member => ?_, fun k own spared => ?_⟩,
      fun space => ?_⟩
    · rw [len, length_insert_new absent, length_erase_known held]
      exact bounded
    · rcases (AList.mem_insert _).1 member with same | member
      · exact other same
      · exact (AList.mem_erase.1 member).1 rfl
    · exact (AList.lookup_insert_ne own).trans (AList.lookup_erase_ne spared)
    · rcases space with member | space
      · exact absurd member known
      · exact absurd full (not_le.2 space)

theorem take_bounded (h : Bounded rate burst max l) (named : tenant ≠ "") :
    Bounded rate burst max (l.take conv order tenant now).2 := by
  have fair := take_fair conv order tenant now rate_pos burst_pos floor h
  have names : ∀ k ∈ (l.take conv order tenant now).2.buckets, k ≠ "" := by
    intro k member
    rcases fair.known h.bounded member with same | held
    · rw [same]
      exact named
    · exact h.names k held
  have bounded := fair.bounded
  rw [take_eq (h.rate ▸ rate_pos) (h.burst ▸ burst_pos)] at names bounded ⊢
  exact ⟨h.rate, h.burst, bounded, names, h.max⟩

theorem after_bounded (h : Bounded rate burst max l) {calls : List Call}
    (named : ∀ c ∈ calls, c.tenant ≠ "") : Bounded rate burst max (l.after conv calls) := by
  induction calls generalizing l with
  | nil => exact h
  | cons c rest ih =>
    have next := take_bounded conv c.order c.tenant c.now rate_pos burst_pos floor h
      (named c List.mem_cons_self)
    exact ih next fun c' member => named c' (List.mem_cons_of_mem c member)

end Floor

/-- After any calls the next one leaves at most as many buckets as the floor, its own
among them. Only when its tenant is new and the map is full does a bucket go, one that
was used no later than any other. The clock may even go back. -/
theorem take_evicts_least_recent (conv : Conversion) (rate burst : ℚ) (max : ℤ)
    (rate_pos : 0 < rate) (burst_pos : 0 < burst) (floor : 1 ≤ max) (calls : List Call) (c : Call)
    (named : ∀ c' ∈ calls ++ [c], c'.tenant ≠ "") :
    Fair max ((newLimited rate burst max).after conv calls)
      (((newLimited rate burst max).after conv calls).take conv c.order c.tenant c.now).2
      c.tenant := by
  have start : Bounded rate burst max (newLimited rate burst max) :=
    ⟨rfl, rfl, zero_le_one.trans floor, nofun, rfl⟩
  have reached := after_bounded conv rate_pos burst_pos floor start fun c' member =>
    named c' (List.mem_append_left [c] member)
  exact take_fair conv c.order c.tenant c.now rate_pos burst_pos floor reached

def returning : List Call := [⟨"t1", 0, stored⟩, ⟨"t2", 5, stored⟩, ⟨"t1", 7, stored⟩]

theorem take_evicts_least_recent_returning :
    (((newLimited 10 3 2).after lowest returning).take lowest stored "t3" 9).2.buckets.keys =
      ["t3", "t1"] ∧
    Fair 2 ((newLimited 10 3 2).after lowest returning)
      (((newLimited 10 3 2).after lowest returning).take lowest stored "t3" 9).2 "t3" :=
  ⟨by decide +kernel, take_evicts_least_recent lowest 10 3 2 (by decide) (by decide) (by decide)
    returning ⟨"t3", 9, stored⟩ (by decide)⟩

end Taper.Eviction
