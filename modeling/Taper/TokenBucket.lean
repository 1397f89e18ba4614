import Mathlib.Algebra.Order.Field.Basic
import Mathlib.Tactic.Linarith

set_option autoImplicit false

/-!
# Token buckets

A bucket is refilled at a constant rate, lazily, when it is used. In any window
of time it grants no more than its capacity and what flows in.
-/
namespace Taper.TokenBucket

/-- The rate, the capacity, the place of each time on the axis, and what counts as
the time between two uses, which is at most their distance. -/
structure Policy (T K : Type) [Preorder T] [Field K] [LinearOrder K] where
  rate : K
  burst : K
  axis : T → K
  elapsed : T → T → K
  rate_nonneg : 0 ≤ rate
  burst_nonneg : 0 ≤ burst
  elapsed_nonneg : ∀ u v, u ≤ v → 0 ≤ elapsed u v
  elapsed_le : ∀ u v, u ≤ v → elapsed u v ≤ axis v - axis u

structure Bucket (T K : Type) where
  tokens : K
  last : T

section Uses

variable {T K : Type} [Preorder T] [Field K] [LinearOrder K] (p : Policy T K)

def Policy.refill (b : Bucket T K) (now : T) : K :=
  min p.burst (b.tokens + p.elapsed b.last now * p.rate)

def Policy.use (b : Bucket T K) (now : T) : Bool × Bucket T K :=
  let tokens := p.refill b now
  if tokens < 1 then (false, ⟨tokens, now⟩) else (true, ⟨tokens - 1, now⟩)

def Policy.start (b : Option (Bucket T K)) (now : T) : Bucket T K := b.getD ⟨p.burst, now⟩

def Policy.uses : Option (Bucket T K) → List T → List (T × Bool)
  | _, [] => []
  | b, now :: rest =>
    let used := p.use (p.start b now) now
    (now, used.1) :: Policy.uses (some used.2) rest

def Policy.counts (s t : K) (use : T × Bool) : Bool :=
  use.2 && decide (s ≤ p.axis use.1 ∧ p.axis use.1 ≤ t)

def Policy.granted (s t : K) (uses : List (T × Bool)) : ℕ := uses.countP (p.counts s t)

variable {p} {s t : K}

theorem granted_cons (s t : K) (use : T × Bool) (rest : List (T × Bool)) :
    (p.granted s t (use :: rest) : K) = p.granted s t rest + (p.counts s t use).toNat := by
  unfold Policy.granted
  rw [List.countP_cons]
  cases p.counts s t use <;> simp

theorem granted_beyond {times : List T} (beyond : ∀ now ∈ times, t < p.axis now)
    (b : Option (Bucket T K)) : p.granted s t (p.uses b times) = 0 := by
  induction times generalizing b with
  | nil => rfl
  | cons now rest ih =>
    have over_ : ¬(s ≤ p.axis now ∧ p.axis now ≤ t) := fun inside =>
      absurd (beyond now List.mem_cons_self) (not_lt.2 inside.2)
    have later := ih (fun v member => beyond v (List.mem_cons_of_mem now member))
      (some (p.use (p.start b now) now).2)
    rw [Policy.uses, Policy.granted, List.countP_cons_of_neg]
    · exact later
    · simp only [Policy.counts, over_, decide_false, Bool.and_false, Bool.false_eq_true,
        not_false_eq_true]

end Uses

section Bound

variable {T K : Type} [Preorder T] [Field K] [LinearOrder K] [IsStrictOrderedRing K]
  {p : Policy T K} {s t : K} {now : T} {b : Bucket T K}

theorem axis_mono {u v : T} (le : u ≤ v) : p.axis u ≤ p.axis v := by
  have short := p.elapsed_le u v le
  have forward := p.elapsed_nonneg u v le
  linarith

theorem refill_nonneg (tokens : 0 ≤ b.tokens) (later : b.last ≤ now) : 0 ≤ p.refill b now := by
  refine le_min p.burst_nonneg ?_
  have inflow := mul_nonneg (p.elapsed_nonneg b.last now later) p.rate_nonneg
  linarith

theorem refill_le (later : b.last ≤ now) :
    p.refill b now ≤ b.tokens + p.rate * (p.axis now - p.axis b.last) := by
  have inflow := mul_le_mul_of_nonneg_right (p.elapsed_le b.last now later) p.rate_nonneg
  calc
    p.refill b now ≤ b.tokens + p.elapsed b.last now * p.rate := min_le_right _ _
    _ ≤ b.tokens + (p.axis now - p.axis b.last) * p.rate := by linarith
    _ = b.tokens + p.rate * (p.axis now - p.axis b.last) := by rw [mul_comm p.rate]

theorem use_spends (b : Bucket T K) (now : T) : (p.use b now).2.last = now ∧
    (p.use b now).2.tokens + (p.use b now).1.toNat = p.refill b now ∧
    (0 ≤ p.refill b now → 0 ≤ (p.use b now).2.tokens) := by
  by_cases short : p.refill b now < 1
  · have left : p.use b now = (false, ⟨p.refill b now, now⟩) := if_pos short
    rw [left]
    exact ⟨rfl, by simp, id⟩
  · have left : p.use b now = (true, ⟨p.refill b now - 1, now⟩) := if_neg short
    rw [left]
    exact ⟨rfl, by simp, fun _ => sub_nonneg.2 (not_lt.1 short)⟩

theorem counts_le (used : Bool) : ((p.counts s t (now, used)).toNat : K) ≤ used.toNat := by
  rw [Nat.cast_le]
  cases used with
  | false => exact le_refl 0
  | true => exact Bool.toNat_le _

theorem granted_within {times : List T} (tokens : 0 ≤ b.tokens) (inside : p.axis b.last ≤ t)
    (later : ∀ now ∈ times, b.last ≤ now) (ordered : times.Pairwise (· ≤ ·)) :
    (p.granted s t (p.uses (some b) times) : K) ≤
      b.tokens + p.rate * (t - p.axis b.last) := by
  induction times generalizing b with
  | nil =>
    have inflow := mul_nonneg p.rate_nonneg (sub_nonneg.2 inside)
    have none : (p.granted s t (p.uses (some b) []) : K) = 0 := Nat.cast_zero
    rw [none]
    linarith
  | cons now rest ih =>
    obtain ⟨after, ordered⟩ := List.pairwise_cons.1 ordered
    have here := later now List.mem_cons_self
    rcases lt_or_ge t (p.axis now) with beyond | within
    · have none : p.granted s t (p.uses (some b) (now :: rest)) = 0 := by
        refine granted_beyond (fun v member => ?_) _
        rcases List.mem_cons.1 member with rfl | member
        · exact beyond
        · exact beyond.trans_le (axis_mono (after v member))
      have inflow := mul_nonneg p.rate_nonneg (sub_nonneg.2 inside)
      rw [none, Nat.cast_zero]
      linarith
    · obtain ⟨last, spent, nonneg⟩ := use_spends (p := p) b now
      have kept := nonneg (refill_nonneg tokens here)
      have rest_ := ih (b := (p.use b now).2) kept (last.symm ▸ within)
        (fun v member => last.symm ▸ after v member) ordered
      have limit := refill_le (p := p) here
      have counted : ((p.counts s t (now, (p.use b now).1)).toNat : K) ≤ (p.use b now).1.toNat :=
        counts_le _
      rw [last] at rest_
      have split : p.rate * (t - p.axis b.last) =
          p.rate * (t - p.axis now) + p.rate * (p.axis now - p.axis b.last) := by
        rw [← mul_add, sub_add_sub_cancel]
      rw [Policy.uses, granted_cons, split]
      dsimp only [Policy.start, Option.getD_some]
      linarith

def Filled (b : Option (Bucket T K)) (times : List T) : Prop :=
  ∀ used, b = some used → 0 ≤ used.tokens ∧ ∀ now ∈ times, used.last ≤ now

/-- In any window, with uses at any times that do not go back, a bucket grants at
most its capacity and the inflow of the window. -/
theorem granted_le {times : List T} (ordered : times.Pairwise (· ≤ ·))
    (forward : s ≤ t) {b : Option (Bucket T K)} (filled : Filled b times) :
    (p.granted s t (p.uses b times) : K) ≤ p.burst + p.rate * (t - s) := by
  have window := mul_nonneg p.rate_nonneg (sub_nonneg.2 forward)
  have full := p.burst_nonneg
  induction times generalizing b with
  | nil =>
    have none : (p.granted s t (p.uses b []) : K) = 0 := Nat.cast_zero
    rw [none]
    linarith
  | cons now rest ih =>
    obtain ⟨after, ordered⟩ := List.pairwise_cons.1 ordered
    have begun : 0 ≤ (p.start b now).tokens ∧ (p.start b now).last ≤ now := by
      cases b with
      | none => exact ⟨full, le_refl now⟩
      | some used => exact ⟨(filled used rfl).1, (filled used rfl).2 now List.mem_cons_self⟩
    obtain ⟨last, spent, nonneg⟩ := use_spends (p := p) (p.start b now) now
    have kept := nonneg (refill_nonneg begun.1 begun.2)
    rw [Policy.uses, granted_cons]
    rcases lt_or_ge (p.axis now) s with before | from_
    · have outside : p.counts s t (now, (p.use (p.start b now) now).1) = false := by
        simp only [Policy.counts, not_le.2 before, false_and, decide_false, Bool.and_false]
      have later := ih ordered (b := some (p.use (p.start b now) now).2) fun used same => by
        cases same
        exact ⟨kept, fun v member => last.symm ▸ after v member⟩
      rw [outside, Bool.toNat_false, Nat.cast_zero, add_zero]
      exact later
    · rcases lt_or_ge t (p.axis now) with beyond | within
      · have outside : p.counts s t (now, (p.use (p.start b now) now).1) = false := by
          simp only [Policy.counts, not_le.2 beyond, and_false, decide_false, Bool.and_false]
        have none : p.granted s t (p.uses (some (p.use (p.start b now) now).2) rest) = 0 :=
          granted_beyond (fun v member => beyond.trans_le (axis_mono (after v member))) _
        rw [outside, none, Bool.toNat_false, Nat.cast_zero, add_zero]
        linarith
      · have rest_ := granted_within (p := p) (s := s) (t := t)
          (b := (p.use (p.start b now) now).2) kept (last.symm ▸ within)
          (fun v member => last.symm ▸ after v member) ordered
        have counted : ((p.counts s t (now, (p.use (p.start b now) now).1)).toNat : K) ≤
            (p.use (p.start b now) now).1.toNat := counts_le _
        have limit : p.refill (p.start b now) now ≤ p.burst := min_le_left _ _
        have shorter : p.rate * (t - p.axis now) ≤ p.rate * (t - s) :=
          mul_le_mul_of_nonneg_left (by linarith) p.rate_nonneg
        rw [last] at rest_
        linarith

end Bound

end Taper.TokenBucket
