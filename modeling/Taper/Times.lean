import Mathlib.Data.Int.Init
import Mathlib.Tactic.Common

set_option autoImplicit false

/-!
# Times and durations

A time is a 64-bit number of seconds since the beginning of the year 1 with the
nanoseconds on top; sums and differences that leave their range stop at its end.
-/
namespace Taper.Times

structure Time where
  sec : Int64
  nsec : ℕ
  below : nsec < 1000000000

/-- Seconds from the beginning of the year 1 to the beginning of 1970. -/
def epoch : Int64 := 62135596800

def Time.unix (t : Time) : Int64 := t.sec - epoch

def Time.nanos (t : Time) : ℤ := (t.sec.toInt - epoch.toInt) * 1000000000 + t.nsec

def Time.floor (t : Time) : ℤ := t.nanos / 1000000000

def addSec (sec d : Int64) : Int64 :=
  let sum := sec + d
  if decide (sec < sum) = decide (0 < d) then sum
  else if 0 < d then Int64.maxValue
  else -Int64.maxValue

structure Parts (d : Int64) (q r : ℤ) : Prop where
  quotient : (d / 1000000000).toInt = q
  next : (d / 1000000000 + 1).toInt = q + 1
  previous : (d / 1000000000 - 1).toInt = q - 1
  left : (d % 1000000000).toInt = r
  whole : d.toInt = 1000000000 * q + r
  bounds : -1000000000 < r ∧ r < 1000000000
  sign : 0 ≤ d.toInt → 0 ≤ r

theorem parts (d : Int64) : Parts d (d.toInt.tdiv 1000000000) (d.toInt.tmod 1000000000) := by
  have low := d.le_toInt
  have high := d.toInt_lt
  have whole := Int.mul_tdiv_add_tmod d.toInt 1000000000
  have below := Int.tmod_lt_of_pos d.toInt (by decide : (0 : ℤ) < 1000000000)
  have above := Int.lt_tmod_of_pos d.toInt (by decide : (0 : ℤ) < 1000000000)
  have billion : (1000000000 : Int64).toInt = 1000000000 := by decide
  have one : (1 : Int64).toInt = 1 := by decide
  have quotient : (d / 1000000000).toInt = d.toInt.tdiv 1000000000 := by
    rw [Int64.toInt_div, billion, Int.bmod_def]
    omega
  refine ⟨quotient, ?_, ?_, ?_, whole.symm, ⟨above, below⟩, Int.tmod_nonneg _⟩
  · rw [Int64.toInt_add, quotient, one, Int.bmod_def]
    omega
  · rw [Int64.toInt_sub, quotient, one, Int.bmod_def]
    omega
  · rw [Int64.toInt_mod, billion]

def Time.add (t : Time) (d : Int64) : Time :=
  let dsec := d / 1000000000
  let n : ℤ := t.nsec + (d % 1000000000).toInt
  if large : 1000000000 ≤ n then
    ⟨addSec t.sec (dsec + 1), (n - 1000000000).toNat, by
      have below := t.below
      have bounds := (parts d).left ▸ (parts d).bounds
      omega⟩
  else if small : n < 0 then
    ⟨addSec t.sec (dsec - 1), (n + 1000000000).toNat, by omega⟩
  else ⟨addSec t.sec dsec, n.toNat, by omega⟩

theorem floor_eq (t : Time) : t.floor = t.sec.toInt - epoch.toInt := by
  have below := t.below
  unfold Time.floor Time.nanos
  omega

theorem addSec_exact {sec d : Int64} (low : -9223372036854775808 ≤ sec.toInt + d.toInt)
    (high : sec.toInt + d.toInt < 9223372036854775808) :
    (addSec sec d).toInt = sec.toInt + d.toInt := by
  have sum : (sec + d).toInt = sec.toInt + d.toInt := by
    rw [Int64.toInt_add, Int.bmod_def]
    omega
  have same : decide (sec < sec + d) = decide (0 < d) := by
    rw [decide_eq_decide, Int64.lt_iff_toInt_lt, Int64.lt_iff_toInt_lt, sum]
    have zero : (0 : Int64).toInt = 0 := by decide
    omega
  rw [addSec, if_pos same, sum]

theorem add_nanos (t : Time) (d : Int64)
    (low : -9223372036854775808 ≤ (t.nanos + d.toInt) / 1000000000 + epoch.toInt)
    (high : (t.nanos + d.toInt) / 1000000000 + epoch.toInt < 9223372036854775808) :
    (t.add d).nanos = t.nanos + d.toInt := by
  have below := t.below
  obtain ⟨quotient, next, previous, left, whole, bounds, -⟩ := parts d
  have start : epoch.toInt = 62135596800 := by decide
  unfold Time.nanos at low high ⊢
  unfold Time.add
  simp only [left]
  split_ifs with large small
  · dsimp only
    rw [addSec_exact (by omega) (by omega), next]
    omega
  · dsimp only
    rw [addSec_exact (by omega) (by omega), previous]
    omega
  · dsimp only
    rw [addSec_exact (by omega) (by omega), quotient]
    omega

theorem addSec_top {sec d : Int64} (beyond : 9223372036854775808 ≤ sec.toInt + d.toInt) :
    addSec sec d = Int64.maxValue := by
  have secHigh := sec.toInt_lt
  have dHigh := d.toInt_lt
  have zero : (0 : Int64).toInt = 0 := by decide
  have positive : 0 < d := by
    rw [Int64.lt_iff_toInt_lt]
    omega
  have back : ¬sec < sec + d := by
    rw [Int64.lt_iff_toInt_lt, Int64.toInt_add, Int.bmod_def]
    omega
  have differ : decide (sec < sec + d) ≠ decide (0 < d) := by
    rw [decide_eq_false back, decide_eq_true positive]
    exact Bool.false_ne_true
  rw [addSec, if_neg differ, if_pos positive]

theorem addSec_mono (sec : Int64) {d : Int64} (forward : 0 ≤ d.toInt) :
    sec.toInt ≤ (addSec sec d).toInt := by
  have low := sec.le_toInt
  by_cases fits : sec.toInt + d.toInt < 9223372036854775808
  · rw [addSec_exact (by omega) fits]
    omega
  · have high := sec.toInt_lt
    have top : Int64.maxValue.toInt = 9223372036854775807 := by decide
    rw [addSec_top (by omega)]
    omega

theorem add_floor {t : Time} {d : Int64} (forward : 0 ≤ d.toInt) :
    t.floor ≤ (t.add d).floor := by
  obtain ⟨quotient, next, -, left, whole, bounds, sign⟩ := parts d
  have nonneg := sign forward
  rw [floor_eq, floor_eq]
  unfold Time.add
  simp only [left]
  split_ifs with large small
  · have later : t.sec.toInt ≤ (addSec t.sec (d / 1000000000 + 1)).toInt :=
      addSec_mono t.sec (by omega)
    dsimp only
    omega
  · omega
  · have later : t.sec.toInt ≤ (addSec t.sec (d / 1000000000)).toInt :=
      addSec_mono t.sec (by omega)
    dsimp only
    omega

theorem unix_toInt {t : Time} (from_ : 0 ≤ t.nanos) : t.unix.toInt = t.floor := by
  have high := t.sec.toInt_lt
  have start : epoch.toInt = 62135596800 := by decide
  have floor := floor_eq t
  have positive : 0 ≤ t.floor := by
    unfold Time.floor
    omega
  rw [Time.unix, Int64.toInt_sub, Int.bmod_def]
  omega

def zeroTime : ℤ := -epoch.toInt * 1000000000

/-- The duration from one reading of the clock to another, both in nanoseconds. A
difference that leaves the range stops at its end. -/
def sub (t u : ℤ) : Int64 :=
  Int64.ofInt (max (-9223372036854775808) (min 9223372036854775807 (t - u)))

theorem sub_toInt (t u : ℤ) :
    (sub t u).toInt = max (-9223372036854775808) (min 9223372036854775807 (t - u)) := by
  rw [sub, Int64.toInt_ofInt_of_le]
  · omega
  · omega

/-- A difference reaches a duration, whether or not it leaves the range. -/
theorem le_sub_iff {d : Int64} (positive : 0 < d.toInt) (t u : ℤ) :
    d ≤ sub t u ↔ d.toInt ≤ t - u := by
  have high := d.toInt_lt
  rw [Int64.le_iff_toInt_le, sub_toInt]
  omega

end Taper.Times
