import Taper.Times

set_option autoImplicit false

/-!
# The circuit breaker

The specification of the breaker keeps nothing but the history of the calls: the
failures since the last success, and which of them opened it.
-/
namespace Taper.CircuitBreaker
open Times

inductive State where
  | closed
  | opened
  | halfOpen
  deriving DecidableEq

structure Config where
  failureThreshold : Int64
  cooldown : Int64

/-- `openedAt` is a reading of the clock, in nanoseconds. -/
structure Breaker where
  cfg : Config
  state : State
  failures : Int64
  openedAt : ℤ

def errOpen : String := "circuit breaker open: dependency unavailable"

def Config.defaulted (cfg : Config) : Config where
  failureThreshold := if cfg.failureThreshold ≤ 0 then 5 else cfg.failureThreshold
  cooldown := if cfg.cooldown ≤ 0 then 10000000000 else cfg.cooldown

def new (cfg : Config) : Breaker := ⟨cfg.defaulted, .closed, 0, zeroTime⟩

/-- The error, if the call may not proceed, and the breaker after it. -/
def Breaker.allow (b : Breaker) (now : ℤ) : Option String × Breaker :=
  match b.state with
  | .closed => (none, b)
  | .opened =>
    if b.cfg.cooldown ≤ sub now b.openedAt then (none, { b with state := .halfOpen })
    else (some errOpen, b)
  | .halfOpen => (none, b)

def Breaker.recordSuccess (b : Breaker) : Breaker := { b with state := .closed, failures := 0 }

def Breaker.recordFailure (b : Breaker) (now : ℤ) : Breaker :=
  match b.state with
  | .halfOpen => { b with state := .opened, openedAt := now }
  | .closed =>
    if b.cfg.failureThreshold ≤ b.failures + 1 then
      { b with failures := b.failures + 1, state := .opened, openedAt := now }
    else { b with failures := b.failures + 1 }
  | .opened => b

inductive Call where
  | allow
  | recordSuccess
  | recordFailure
  deriving DecidableEq

structure Event where
  call : Call
  time : ℤ
  deriving DecidableEq

abbrev History := List Event

def Breaker.apply (b : Breaker) (e : Event) : Breaker :=
  match e.call with
  | .allow => (b.allow e.time).2
  | .recordSuccess => b.recordSuccess
  | .recordFailure => b.recordFailure e.time

def after (cfg : Config) : History → Breaker
  | [] => new cfg
  | e :: past => (after cfg past).apply e

def Breaker.replay (b : Breaker) (calls : List Event) : Breaker := calls.foldl Breaker.apply b

theorem replay_append (b : Breaker) (before later : List Event) :
    b.replay (before ++ later) = (b.replay before).replay later := List.foldl_append

def Ordered (past : History) : Prop := past.Pairwise fun e e' => e'.time ≤ e.time

instance (past : History) : Decidable (Ordered past) :=
  inferInstanceAs (Decidable (List.Pairwise _ _))

section Specification

def failuresSince : History → ℕ
  | [] => 0
  | e :: past =>
    match e.call with
    | .allow => failuresSince past
    | .recordSuccess => 0
    | .recordFailure => failuresSince past + 1

variable (n cooldown : ℤ)

def Closed (past : History) : Prop := failuresSince past < n

instance (past : History) : Decidable (Closed n past) := inferInstanceAs (Decidable (_ < _))

def Passed (opening : Option ℤ) (now : ℤ) : Prop := ∃ t, opening = some t ∧ cooldown ≤ now - t

instance (opening : Option ℤ) (now : ℤ) : Decidable (Passed cooldown opening now) :=
  match opening with
  | none => .isFalse nofun
  | some t => decidable_of_iff (cooldown ≤ now - t) ⟨fun h => ⟨t, rfl, h⟩, fun ⟨_, h, passed⟩ => by
      cases h
      exact passed⟩

mutual

/-- No failure came after some `Allow` that was admitted while the breaker was
not closed. -/
def probed : History → Bool
  | [] => false
  | e :: past =>
    match e.call with
    | .allow =>
      (decide (¬Closed n past) && decide (Passed cooldown (latestOpening past) e.time)) ||
        probed past
    | .recordSuccess => probed past
    | .recordFailure => false

/-- A failure opens the breaker if it is the `n`-th since the last success or the
first after an admitted probe. -/
def latestOpening : History → Option ℤ
  | [] => none
  | e :: past =>
    match e.call with
    | .recordFailure =>
      if (failuresSince past + 1 : ℤ) = n ∨ probed past = true then some e.time
      else latestOpening past
    | _ => latestOpening past

end

def Admits (past : History) (now : ℤ) : Prop :=
  Closed n past ∨ Passed cooldown (latestOpening n cooldown past) now

instance (past : History) (now : ℤ) : Decidable (Admits n cooldown past now) :=
  inferInstanceAs (Decidable (_ ∨ _))

end Specification

section Refinement

variable {cfg : Config} {past : History} {b : Breaker} {t : ℤ}

/-- The breaker is as the history has left it. In the half-open state every time
from now on is past the cooldown. -/
inductive Tracks (cfg : Config) (past : History) : Breaker → Prop where
  | closed (failures : Int64) (openedAt : ℤ) (count : failures.toInt = failuresSince past)
      (few : Closed cfg.failureThreshold.toInt past) :
      Tracks cfg past ⟨cfg, .closed, failures, openedAt⟩
  | opened (failures : Int64) (openedAt : ℤ) (many : ¬Closed cfg.failureThreshold.toInt past)
      (latest : latestOpening cfg.failureThreshold.toInt cfg.cooldown.toInt past = some openedAt)
      (unprobed : probed cfg.failureThreshold.toInt cfg.cooldown.toInt past = false) :
      Tracks cfg past ⟨cfg, .opened, failures, openedAt⟩
  | halfOpen (failures : Int64) (openedAt : ℤ) (many : ¬Closed cfg.failureThreshold.toInt past)
      (latest : latestOpening cfg.failureThreshold.toInt cfg.cooldown.toInt past = some openedAt)
      (probing : probed cfg.failureThreshold.toInt cfg.cooldown.toInt past = true)
      (passed : ∀ now, (∀ e ∈ past, e.time ≤ now) → cfg.cooldown.toInt ≤ now - openedAt) :
      Tracks cfg past ⟨cfg, .halfOpen, failures, openedAt⟩

theorem threshold_toInt (threshold : 1 ≤ cfg.failureThreshold) :
    1 ≤ cfg.failureThreshold.toInt := Int64.le_iff_toInt_le.1 threshold

theorem cooldown_toInt (cooldown : 0 < cfg.cooldown) : 0 < cfg.cooldown.toInt :=
  Int64.lt_iff_toInt_lt.1 cooldown

theorem defaulted_eq (threshold : 1 ≤ cfg.failureThreshold) (cooldown : 0 < cfg.cooldown) :
    cfg.defaulted = cfg := by
  have some_ : ¬cfg.failureThreshold ≤ 0 := by
    have positive := threshold_toInt threshold
    rw [Int64.le_iff_toInt_le, Int64.toInt_zero]
    omega
  rw [Config.defaulted, if_neg some_, if_neg (Int64.not_le.2 cooldown)]

theorem new_tracks (threshold : 1 ≤ cfg.failureThreshold) (cooldown : 0 < cfg.cooldown) :
    Tracks cfg [] (new cfg) := by
  rw [new, defaulted_eq threshold cooldown]
  refine .closed 0 _ rfl ?_
  have positive := threshold_toInt threshold
  simp only [Closed, failuresSince]
  omega

theorem allow_tracks (cooldown : 0 < cfg.cooldown.toInt)
    (h : Tracks cfg past b) : Tracks cfg (⟨.allow, t⟩ :: past) (b.allow t).2 := by
  cases h with
  | closed failures openedAt count few => exact .closed failures openedAt count few
  | opened failures openedAt many latest unprobed =>
    rw [Breaker.allow]
    dsimp only
    split_ifs with passed
    · rw [le_sub_iff cooldown] at passed
      refine .halfOpen failures openedAt many latest ?_ fun now times => ?_
      · simp only [probed, latest, Bool.or_eq_true, Bool.and_eq_true, decide_eq_true_eq]
        exact .inl ⟨many, openedAt, rfl, passed⟩
      · have here : t ≤ now := times _ List.mem_cons_self
        omega
    · refine .opened failures openedAt many latest ?_
      rw [le_sub_iff cooldown] at passed
      have waiting : ¬Passed cfg.cooldown.toInt (some openedAt) t := by
        rintro ⟨_, same, enough⟩
        cases same
        exact passed enough
      simp only [probed, latest, unprobed, waiting, decide_false, Bool.and_false, Bool.or_false]
  | halfOpen failures openedAt many latest probing passed =>
    refine .halfOpen failures openedAt many latest ?_ fun now times => ?_
    · simp only [probed, probing, Bool.or_true]
    · exact passed now fun e member => times e (List.mem_cons_of_mem _ member)

theorem recordSuccess_tracks (threshold : 1 ≤ cfg.failureThreshold) (h : Tracks cfg past b) :
    Tracks cfg (⟨.recordSuccess, t⟩ :: past) b.recordSuccess := by
  have few : Closed cfg.failureThreshold.toInt (⟨.recordSuccess, t⟩ :: past) := by
    have positive := threshold_toInt threshold
    simp only [Closed, failuresSince]
    omega
  cases h with
  | closed failures openedAt count few' => exact .closed 0 openedAt rfl few
  | opened failures openedAt many latest unprobed => exact .closed 0 openedAt rfl few
  | halfOpen failures openedAt many latest probing passed => exact .closed 0 openedAt rfl few

theorem recordFailure_tracks (h : Tracks cfg past b) :
    Tracks cfg (⟨.recordFailure, t⟩ :: past) (b.recordFailure t) := by
  have more : ¬Closed cfg.failureThreshold.toInt past →
      ¬Closed cfg.failureThreshold.toInt (⟨.recordFailure, t⟩ :: past) := by
    simp only [Closed, failuresSince]
    omega
  cases h with
  | closed failures openedAt count few =>
    have high := cfg.failureThreshold.toInt_lt
    have one : (1 : Int64).toInt = 1 := by decide
    unfold Closed at few
    have next : (failures + 1).toInt = failuresSince past + 1 := by
      rw [Int64.toInt_add, one, count, Int.bmod_def]
      omega
    rw [Breaker.recordFailure]
    dsimp only
    split_ifs with reached
    · rw [Int64.le_iff_toInt_le, next] at reached
      refine .opened (failures + 1) t ?_ ?_ rfl
      · simp only [Closed, failuresSince]
        omega
      · have nth : (failuresSince past + 1 : ℤ) = cfg.failureThreshold.toInt := by omega
        simp only [latestOpening, if_pos (Or.inl nth)]
    · rw [Int64.le_iff_toInt_le, next] at reached
      refine .closed (failures + 1) openedAt next ?_
      simp only [Closed, failuresSince]
      omega
  | opened failures openedAt many latest unprobed =>
    refine .opened failures openedAt (more many) ?_ rfl
    have later : ¬((failuresSince past + 1 : ℤ) = cfg.failureThreshold.toInt ∨
        probed cfg.failureThreshold.toInt cfg.cooldown.toInt past = true) := by
      unfold Closed at many
      rw [unprobed]
      simp only [Bool.false_eq_true, or_false]
      omega
    simp only [latestOpening, if_neg later, latest]
  | halfOpen failures openedAt many latest probing passed =>
    refine .opened failures t (more many) ?_ rfl
    simp only [latestOpening, if_pos (Or.inr probing)]

theorem after_tracks (threshold : 1 ≤ cfg.failureThreshold) (cooldown : 0 < cfg.cooldown)
    (past : History) : Tracks cfg past (after cfg past) := by
  induction past with
  | nil => exact new_tracks threshold cooldown
  | cons e past ih =>
    obtain ⟨call, t⟩ := e
    cases call with
    | allow => exact allow_tracks (cooldown_toInt cooldown) ih
    | recordSuccess => exact recordSuccess_tracks threshold ih
    | recordFailure => exact recordFailure_tracks ih

theorem tracks_closed (h : Tracks cfg past b) :
    b.state = .closed ↔ Closed cfg.failureThreshold.toInt past := by
  cases h with
  | closed failures openedAt count few => exact iff_of_true rfl few
  | opened failures openedAt many latest unprobed => exact iff_of_false nofun many
  | halfOpen failures openedAt many latest probing passed => exact iff_of_false nofun many

theorem tracks_allow (cooldown : 0 < cfg.cooldown.toInt) (later : ∀ e ∈ past, e.time ≤ t)
    (h : Tracks cfg past b) : (b.allow t).1 = none ↔
      Admits cfg.failureThreshold.toInt cfg.cooldown.toInt past t := by
  cases h with
  | closed failures openedAt count few => exact iff_of_true rfl (.inl few)
  | opened failures openedAt many latest unprobed =>
    have open_ : Admits cfg.failureThreshold.toInt cfg.cooldown.toInt past t ↔
        cfg.cooldown.toInt ≤ t - openedAt := by
      constructor
      · rintro (few | ⟨_, same, passed⟩)
        · exact absurd few many
        · rw [latest] at same
          cases same
          exact passed
      · exact fun passed => .inr ⟨openedAt, latest, passed⟩
    rw [open_, ← le_sub_iff cooldown, Breaker.allow]
    dsimp only
    split_ifs with passed
    · exact iff_of_true rfl passed
    · exact iff_of_false nofun passed
  | halfOpen failures openedAt many latest probing passed =>
    exact iff_of_true rfl (.inr ⟨openedAt, latest, passed t later⟩)

/-- After any calls the breaker is closed and admits exactly as its history says,
with a clock that does not go back. -/
theorem breaker_refines_history (cfg : Config) (threshold : 1 ≤ cfg.failureThreshold)
    (cooldown : 0 < cfg.cooldown) (past : History) :
    ((after cfg past).state = .closed ↔ Closed cfg.failureThreshold.toInt past) ∧
    ∀ now, Ordered (⟨.allow, now⟩ :: past) → (((after cfg past).allow now).1 = none ↔
      Admits cfg.failureThreshold.toInt cfg.cooldown.toInt past now) := by
  have h := after_tracks threshold cooldown past
  exact ⟨tracks_closed h, fun now ordered =>
    tracks_allow (cooldown_toInt cooldown) (List.pairwise_cons.1 ordered).1 h⟩

/-- The second failure opens the breaker, the probe at 11 fails at 12, and a late
failure at 13 changes nothing. -/
def reopened : History :=
  [⟨.recordFailure, 13⟩, ⟨.recordFailure, 12⟩, ⟨.allow, 11⟩, ⟨.recordFailure, 1⟩,
    ⟨.recordFailure, 0⟩]

theorem breaker_refines_history_reopened :
    ((after ⟨2, 10⟩ reopened).allow 21).1 ≠ none ∧
      ((after ⟨2, 10⟩ reopened).allow 22).1 = none := by
  have refines := (breaker_refines_history ⟨2, 10⟩ (by decide) (by decide) reopened).2
  constructor
  · intro admitted
    exact absurd ((refines 21 (by decide)).1 admitted) (by decide)
  · exact (refines 22 (by decide)).2 (by decide)

end Refinement

end Taper.CircuitBreaker
