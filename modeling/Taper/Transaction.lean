import Mathlib.Tactic.Common

set_option autoImplicit false

/-!
# Transactions over a store

The store a transaction has changed is kept only when it commits.
-/
namespace Taper.Transaction

/-- Statements over a store `σ` that end with a value or an error `ε`. -/
structure Tx (σ ε α : Type) where
  run : σ → Except ε (α × σ)

variable {σ ε α β : Type}

namespace Tx

instance : Monad (Tx σ ε) where
  pure a := ⟨fun s => .ok (a, s)⟩
  bind m f := ⟨fun s =>
    match m.run s with
    | .error e => .error e
    | .ok (a, t) => (f a).run t⟩

def read : Tx σ ε σ := ⟨fun s => .ok (s, s)⟩

def modify (f : σ → σ) : Tx σ ε Unit := ⟨fun s => .ok ((), f s)⟩

def throw (e : ε) : Tx σ ε α := ⟨fun _ => .error e⟩

/-- A statement that the store accepts only when `b` holds. -/
def require (b : Bool) (e : ε) : Tx σ ε Unit := if b then pure () else throw e

def collect (visit : α → Tx σ ε (Option β)) : List α → Tx σ ε (List β)
  | [] => pure []
  | a :: rest => do
    let found ← visit a
    let later ← collect visit rest
    pure (found.toList ++ later)

def commit (m : Tx σ ε α) (s : σ) : Except ε α × σ :=
  match m.run s with
  | .ok (a, t) => (.ok a, t)
  | .error e => (.error e, s)

@[simp] theorem pure_run (a : α) (s : σ) : (pure a : Tx σ ε α).run s = .ok (a, s) := rfl

@[simp] theorem read_run (s : σ) : (read : Tx σ ε σ).run s = .ok (s, s) := rfl

@[simp] theorem modify_run (f : σ → σ) (s : σ) :
    (modify f : Tx σ ε Unit).run s = .ok ((), f s) := rfl

@[simp] theorem throw_run (e : ε) (s : σ) : (throw e : Tx σ ε α).run s = .error e := rfl

theorem bind_run (m : Tx σ ε α) (f : α → Tx σ ε β) (s : σ) : (m >>= f).run s =
    match m.run s with
    | .error e => .error e
    | .ok (a, t) => (f a).run t := rfl

variable {m : Tx σ ε α} {f : α → Tx σ ε β} {s t : σ} {a : α} {e : ε}

theorem bind_of_ok (h : m.run s = .ok (a, t)) : (m >>= f).run s = (f a).run t := by
  rw [bind_run, h]

theorem bind_of_error (h : m.run s = .error e) : (m >>= f).run s = .error e := by
  rw [bind_run, h]

theorem bind_ok_iff {b : β} :
    (m >>= f).run s = .ok (b, t) ↔ ∃ a u, m.run s = .ok (a, u) ∧ (f a).run u = .ok (b, t) := by
  rw [bind_run]
  constructor
  · intro h
    cases hm : m.run s with
    | error e => simp [hm] at h
    | ok r => exact ⟨r.1, r.2, rfl, by simpa [hm] using h⟩
  · rintro ⟨a, u, hm, hf⟩
    rw [hm]
    exact hf

theorem require_ok_iff {b : Bool} {u : Unit} :
    (require b e : Tx σ ε Unit).run s = .ok (u, t) ↔ b = true ∧ t = s := by
  cases b with
  | false => simp [require]
  | true => simp [require, eq_comm]

theorem collect_nil (visit : α → Tx σ ε (Option β)) (s : σ) :
    (collect visit []).run s = .ok ([], s) := rfl

theorem collect_cons_ok_iff {visit : α → Tx σ ε (Option β)} {rest : List α} {out : List β} :
    (collect visit (a :: rest)).run s = .ok (out, t) ↔
      ∃ found u later, (visit a).run s = .ok (found, u) ∧
        (collect visit rest).run u = .ok (later, t) ∧ out = found.toList ++ later := by
  rw [collect, bind_ok_iff]
  constructor
  · rintro ⟨found, u, hv, h⟩
    obtain ⟨later, v, hc, h⟩ := bind_ok_iff.1 h
    simp only [pure_run, Except.ok.injEq, Prod.mk.injEq] at h
    obtain ⟨rfl, rfl⟩ := h
    exact ⟨found, u, later, hv, hc, rfl⟩
  · rintro ⟨found, u, later, hv, hc, rfl⟩
    exact ⟨found, u, hv, bind_ok_iff.2 ⟨later, t, hc, rfl⟩⟩

def Fails (P : ε → Prop) (m : Tx σ ε α) : Prop := ∀ s e, m.run s = .error e → P e

section Fails

variable {P : ε → Prop}

theorem fails_pure (a : α) : Fails P (pure a : Tx σ ε α) := fun _ _ h => by cases h

theorem fails_read : Fails P (read : Tx σ ε σ) := fun _ _ h => by cases h

theorem fails_modify (f : σ → σ) : Fails P (modify f : Tx σ ε Unit) := fun _ _ h => by cases h

theorem fails_throw (h : P e) : Fails P (throw e : Tx σ ε α) := by
  rintro s _ ⟨⟩
  exact h

theorem fails_require {b : Bool} (h : P e) : Fails P (require b e : Tx σ ε Unit) := by
  cases b with
  | false => exact fails_throw h
  | true => exact fails_pure ()

theorem fails_bind (first : Fails P m) (rest : ∀ a, Fails P (f a)) : Fails P (m >>= f) := by
  intro s e h
  rw [bind_run] at h
  cases run : m.run s with
  | error e' =>
    rw [run] at h
    cases h
    exact first s e run
  | ok out =>
    rw [run] at h
    exact rest out.1 out.2 e h

theorem fails_collect {visit : α → Tx σ ε (Option β)} (each : ∀ a, Fails P (visit a))
    (items : List α) : Fails P (collect visit items) := by
  induction items with
  | nil => exact fails_pure []
  | cons a rest ih =>
    exact fails_bind (each a) fun found => fails_bind ih fun later => fails_pure _

end Fails

theorem commit_of_ok (h : m.run s = .ok (a, t)) :
    commit m s = (.ok a, t) := by
  simp only [commit, h]

theorem commit_of_error (h : m.run s = .error e) :
    commit m s = (.error e, s) := by
  simp only [commit, h]

theorem commit_cases (m : Tx σ ε α) (s : σ) :
    (∃ a t, m.run s = .ok (a, t) ∧ commit m s = (.ok a, t)) ∨
      (∃ e, m.run s = .error e ∧ commit m s = (.error e, s)) := by
  cases h : m.run s with
  | ok r => exact .inl ⟨r.1, r.2, rfl, commit_of_ok h⟩
  | error e => exact .inr ⟨e, rfl, commit_of_error h⟩

end Tx
end Taper.Transaction
