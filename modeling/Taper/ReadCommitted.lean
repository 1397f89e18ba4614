import Mathlib.Tactic.Common

set_option autoImplicit false

/-!
# Transactions at READ COMMITTED

A statement sees what is committed when it runs, with the writes of its own
transaction on top. A write waits as long as another transaction has written the
resource and not ended.
-/
namespace Taper.ReadCommitted

structure Effects (σ W R : Type) where
  apply : σ → W → σ
  takes : W → Option R

structure Store (σ W R : Type) where
  committed : σ
  pending : ℕ → List W
  holder : R → Option ℕ

variable {σ W R : Type} (E : Effects σ W R)

def Store.quiet (data : σ) : Store σ W R := ⟨data, fun _ => [], fun _ => none⟩

def Store.view (s : Store σ W R) (me : ℕ) : σ := (s.pending me).foldl E.apply s.committed

def Store.push (s : Store σ W R) (me : ℕ) (w : W) : Store σ W R :=
  { s with pending := Function.update s.pending me (s.pending me ++ [w]) }

/-- No result means that the transaction has to wait. -/
def Store.write [DecidableEq R] (s : Store σ W R) (me : ℕ) (w : W) : Option (Store σ W R) :=
  match E.takes w with
  | none => some (s.push me w)
  | some r =>
    if s.holder r = none ∨ s.holder r = some me then
      some { s.push me w with holder := Function.update s.holder r (some me) }
    else none

def Store.close (s : Store σ W R) (me : ℕ) (data : σ) : Store σ W R where
  committed := data
  pending := Function.update s.pending me []
  holder r := if s.holder r = some me then none else s.holder r

def Store.commit (s : Store σ W R) (me : ℕ) : Store σ W R := s.close me (s.view E me)

def Store.abort (s : Store σ W R) (me : ℕ) : Store σ W R := s.close me s.committed

section Lemmas

variable {E} {s s' : Store σ W R} {me : ℕ} {w : W}

theorem view_of_pending {ws : List W} (h : s.pending me = ws) :
    s.view E me = ws.foldl E.apply s.committed := by
  rw [Store.view, h]

@[simp] theorem close_committed (data : σ) : (s.close me data).committed = data := rfl

theorem close_pending_self (data : σ) : (s.close me data).pending me = [] :=
  Function.update_self ..

theorem close_pending_other {j : ℕ} (data : σ) (other : j ≠ me) :
    (s.close me data).pending j = s.pending j := Function.update_of_ne other ..

/-- The last transaction to end leaves nothing held. -/
theorem close_free (data : σ) (own : ∀ r, s.holder r = none ∨ s.holder r = some me) (r : R) :
    (s.close me data).holder r = none := by
  rcases own r with free | mine
  · simp only [Store.close, free, ite_self]
  · simp only [Store.close, mine, if_true]

variable (E) in
def Guarded (s : Store σ W R) : Prop :=
  ∀ i, ∀ w ∈ s.pending i, ∀ r, E.takes w = some r → s.holder r = some i

theorem guarded_quiet (data : σ) : Guarded E (Store.quiet data : Store σ W R) :=
  fun _ _ member => by cases member

theorem Guarded.close (h : Guarded E s) (data : σ) : Guarded E (s.close me data) := by
  intro i w member r takes
  by_cases same : i = me
  · rw [same, close_pending_self] at member
    cases member
  · rw [close_pending_other data same] at member
    have held := h i w member r takes
    have kept : s.holder r ≠ some me := by
      rw [held]
      exact fun eq => same (Option.some.inj eq)
    exact (if_neg kept).trans held

/-- Two transactions have not both written one resource. -/
theorem Guarded.exclusive (h : Guarded E s) {i j : ℕ} {w w' : W} {r : R}
    (mine : w ∈ s.pending i) (theirs : w' ∈ s.pending j) (takes : E.takes w = some r)
    (takes' : E.takes w' = some r) : i = j :=
  Option.some.inj ((h i w mine r takes).symm.trans (h j w' theirs r takes'))

section Writes

variable [DecidableEq R]

theorem write_committed (h : s.write E me w = some s') : s'.committed = s.committed := by
  unfold Store.write at h
  split at h
  · cases h
    rfl
  · split at h
    · cases h
      rfl
    · cases h

theorem write_pending (h : s.write E me w = some s') :
    s'.pending = Function.update s.pending me (s.pending me ++ [w]) := by
  unfold Store.write at h
  split at h
  · cases h
    rfl
  · split at h
    · cases h
      rfl
    · cases h

theorem write_pending_self (h : s.write E me w = some s') :
    s'.pending me = s.pending me ++ [w] := by
  rw [write_pending h, Function.update_self]

theorem write_pending_other {j : ℕ} (h : s.write E me w = some s') (other : j ≠ me) :
    s'.pending j = s.pending j := by
  rw [write_pending h, Function.update_of_ne other]

theorem write_holder (h : s.write E me w = some s') (r : R) :
    s'.holder r = s.holder r ∨ s'.holder r = some me := by
  unfold Store.write at h
  split at h
  · cases h
    exact .inl rfl
  · rename_i taken _
    split at h
    · cases h
      by_cases same : r = taken
      · rw [same]
        exact .inr (Function.update_self ..)
      · exact .inl (Function.update_of_ne same ..)
    · cases h

theorem write_alone (free : ∀ r, E.takes w = some r → s.holder r = none ∨ s.holder r = some me) :
    ∃ s', s.write E me w = some s' := by
  unfold Store.write
  split
  · exact ⟨_, rfl⟩
  · rename_i r takes
    rw [if_pos (free r takes)]
    exact ⟨_, rfl⟩

theorem Guarded.write (h : Guarded E s) (run : s.write E me w = some s') : Guarded E s' := by
  have pending := write_pending run
  have taken : ∀ r, E.takes w = some r → s'.holder r = some me := by
    intro r takes
    simp only [Store.write, takes] at run
    split at run
    · cases run
      exact Function.update_self ..
    · cases run
  have kept : ∀ r i, s.holder r = some i → s'.holder r = some i := by
    intro r i held
    unfold Store.write at run
    split at run
    · cases run
      exact held
    · rename_i r' takes
      split at run
      · rename_i free
        cases run
        by_cases same : r = r'
        · subst same
          rw [held] at free
          have mine : i = me := by simpa using free
          rw [mine]
          exact Function.update_self ..
        · exact (Function.update_of_ne same _ _).trans held
      · cases run
  intro i w' member r takes
  rw [pending] at member
  by_cases same : i = me
  · subst same
    rw [Function.update_self, List.mem_append, List.mem_singleton] at member
    rcases member with old | rfl
    · exact kept r i (h i w' old r takes)
    · exact taken r takes
  · rw [Function.update_of_ne same] at member
    exact kept r i (h i w' member r takes)

end Writes

end Lemmas

end Taper.ReadCommitted
