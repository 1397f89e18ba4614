import Taper.Transaction
import Taper.Program
import Mathlib.Data.List.Forall2
import Mathlib.Data.Option.Basic
import Mathlib.Order.Basic

set_option autoImplicit false

/-!
# Stores that are shared by several owners

Two runs are compared on the part of the store that belongs to one owner. What
is generated on the way differs between them and is paired by a naming, which
grows as the runs go on.
-/
namespace Taper.Isolation
open Transaction Program

/-- `Alike u w s s'`: the parts of `u` in two stores correspond under the naming
`w`. `Kept v s t`: what belongs to `v` is in `t` as it is in `s`. -/
structure Parts (ι W σ : Type) [Preorder W] where
  Alike : ι → W → σ → σ → Prop
  Kept : ι → σ → σ → Prop
  kept_refl : ∀ v s, Kept v s s
  kept_trans : ∀ {v s t r}, Kept v s t → Kept v t r → Kept v s r

variable {ι W σ ε α β γ δ : Type} [Preorder W] (P : Parts ι W σ) (u : ι)

inductive Outcome (R : W → α → β → Prop) (w : W) (s : σ) :
    Except ε (α × σ) → Except ε (β × σ) → Prop where
  | failed (e : ε) : Outcome R w s (.error e) (.error e)
  | done {w' : W} {a : α} {b : β} {t t' : σ} (le : w ≤ w') (value : R w' a b)
      (alike : P.Alike u w' t t') (kept : ∀ v, v ≠ u → P.Kept v s t) :
      Outcome R w s (.ok (a, t)) (.ok (b, t'))

def Confined (R : W → α → β → Prop) (w : W) (m : Tx σ ε α) (m' : Tx σ ε β) : Prop :=
  ∀ w', w ≤ w' → ∀ s s', P.Alike u w' s s' → Outcome P u R w' s (m.run s) (m'.run s')

variable {m : Tx σ ε α} {m' : Tx σ ε β}

section Statements

variable {P u} {R : W → α → β → Prop} {w : W}

theorem Confined.mono {S : W → α → β → Prop} (h : Confined P u R w m m')
    (weaken : ∀ w' a b, R w' a b → S w' a b) :
    Confined P u S w m m' := by
  intro w' le s s' alike
  have out := h w' le s s' alike
  generalize m.run s = x at out
  generalize m'.run s' = y at out
  cases out with
  | failed e => exact .failed e
  | done le' value alike' kept => exact .done le' (weaken _ _ _ value) alike' kept

theorem confined_pure {a : α} {b : β} (value : ∀ w', w ≤ w' → R w' a b) :
    Confined P u R w (pure a : Tx σ ε α) (pure b) :=
  fun w' le s _ alike => .done le_rfl (value w' le) alike fun v _ => P.kept_refl v s

theorem confined_throw (e : ε) : Confined P u R w (.throw e : Tx σ ε α) (.throw e) :=
  fun _ _ _ _ _ => .failed e

theorem confined_require (b : Bool) (e : ε) :
    Confined P u (fun _ => Eq) w (.require b e : Tx σ ε Unit) (.require b e) := by
  cases b with
  | false => exact confined_throw e
  | true => exact confined_pure fun _ _ => rfl

theorem confined_bind {S : W → γ → δ → Prop} {f : α → Tx σ ε γ} {f' : β → Tx σ ε δ}
    (first : Confined P u R w m m')
    (rest : ∀ w' a b, w ≤ w' → R w' a b → Confined P u S w' (f a) (f' b)) :
    Confined P u S w (m >>= f) (m' >>= f') := by
  intro w₁ le s s' alike
  have out := first w₁ le s s' alike
  rw [Tx.bind_run, Tx.bind_run]
  generalize m.run s = x at out
  generalize m'.run s' = y at out
  cases out with
  | failed e => exact .failed e
  | @done w₂ a b t t' le₂ value alike' kept =>
    have out' := rest w₂ a b (le_trans le le₂) value w₂ le_rfl t t' alike'
    change Outcome P u S w₁ s ((f a).run t) ((f' b).run t')
    generalize (f a).run t = x at out'
    generalize (f' b).run t' = y at out'
    cases out' with
    | failed e => exact .failed e
    | done le₃ value' alike'' kept' =>
      exact .done (le_trans le₂ le₃) value' alike'' fun v other =>
        P.kept_trans (kept v other) (kept' v other)

theorem confined_bind_eq {S : W → γ → δ → Prop} {m' : Tx σ ε α} {f : α → Tx σ ε γ}
    {f' : α → Tx σ ε δ} (first : Confined P u (fun _ => Eq) w m m')
    (rest : ∀ w' a, w ≤ w' → Confined P u S w' (f a) (f' a)) :
    Confined P u S w (m >>= f) (m' >>= f') :=
  confined_bind first fun w' a _ le same => same ▸ rest w' a le

theorem confined_read {k : σ → Tx σ ε α} {k' : σ → Tx σ ε β} (view : σ → γ)
    (same : ∀ w' s s', P.Alike u w' s s' → view s = view s')
    (rest : ∀ w' s s', w ≤ w' → view s = view s' → Confined P u R w' (k s) (k' s')) :
    Confined P u R w (.read >>= k) (.read >>= k') := by
  intro w' le s s' alike
  exact rest w' s s' le (same w' s s' alike) w' le_rfl s s' alike

theorem confined_modify {f f' : σ → σ}
    (step : ∀ w' s s', P.Alike u w' s s' → P.Alike u w' (f s) (f' s'))
    (kept : ∀ v s, v ≠ u → P.Kept v s (f s)) :
    Confined P u (fun _ => Eq) w (.modify f : Tx σ ε Unit) (.modify f') :=
  fun w' _ s s' alike => .done le_rfl rfl (step w' s s' alike) fun v other => kept v s other

theorem confined_collect {I : W → α → β → Prop} {V : γ → δ → Prop}
    {visit : α → Tx σ ε (Option γ)} {visit' : β → Tx σ ε (Option δ)}
    (up : ∀ {w₁ w₂ a b}, w₁ ≤ w₂ → I w₁ a b → I w₂ a b)
    (each : ∀ w' a b, w ≤ w' → I w' a b →
      Confined P u (fun _ x y => Option.Rel V x y) w' (visit a) (visit' b))
    {items : List α} {items' : List β} (pairs : List.Forall₂ (I w) items items') :
    Confined P u (fun _ x y => List.Forall₂ V x y) w (Tx.collect visit items)
      (Tx.collect visit' items') := by
  suffices from_here : ∀ w', w ≤ w' → List.Forall₂ (I w') items items' →
      Confined P u (fun _ x y => List.Forall₂ V x y) w' (Tx.collect visit items)
        (Tx.collect visit' items') from from_here w le_rfl pairs
  clear pairs
  induction items generalizing items' with
  | nil =>
    intro w' le pairs
    cases pairs
    exact confined_pure fun _ _ => .nil
  | cons a rest ih =>
    intro w' le pairs
    cases pairs with
    | @cons _ b _ rest' head tail =>
      refine confined_bind (each w' a b le head) fun w₁ found found' le₁ value => ?_
      have later : List.Forall₂ (I w₁) rest rest' := tail.imp fun _ _ => up le₁
      refine confined_bind (ih w₁ (le_trans le le₁) later) fun w₂ out out' _ values => ?_
      refine confined_pure fun _ _ => ?_
      cases value with
      | none => exact values
      | some value => exact .cons value values

end Statements

def Served (R : α → β → Prop) (w : W) (s : σ) (out : α × σ) (out' : β × σ) : Prop :=
  ∃ w', w ≤ w' ∧ R out.1 out'.1 ∧ P.Alike u w' out.2 out'.2 ∧ ∀ v, v ≠ u → P.Kept v s out.2

inductive Answers (R : α → β → Prop) : Except ε α → Except ε β → Prop where
  | error (e : ε) : Answers R (.error e) (.error e)
  | ok {a : α} {b : β} (value : R a b) : Answers R (.ok a) (.ok b)

section Requests

variable {P u} {R : W → α → β → Prop} {w : W} {s s' : σ}

theorem served_refused (alike : P.Alike u w s s') {S : γ → δ → Prop} {a : γ} {b : δ}
    (value : S a b) : Served P u S w s (a, s) (b, s') :=
  ⟨w, le_rfl, value, alike, fun v _ => P.kept_refl v s⟩

theorem served_after {S : γ → δ → Prop} {t : σ} {out : γ × σ} {out' : δ × σ} {w' : W}
    (le : w ≤ w') (kept : ∀ v, v ≠ u → P.Kept v s t) (next : Served P u S w' t out out') :
    Served P u S w s out out' := by
  obtain ⟨w₂, le₂, value, alike, kept'⟩ := next
  exact ⟨w₂, le_trans le le₂, value, alike,
    fun v other => P.kept_trans (kept v other) (kept' v other)⟩

/-- A transaction commits on both sides or on neither. -/
theorem served_commit {R : α → β → Prop} (confined : Confined P u (fun _ => R) w m m')
    (alike : P.Alike u w s s') :
    Served P u (Answers R) w s (m.commit s) (m'.commit s') := by
  have out := confined w le_rfl s s' alike
  unfold Tx.commit
  generalize m.run s = x at out
  generalize m'.run s' = y at out
  cases out with
  | failed e => exact served_refused alike (.error e)
  | done le value alike' kept => exact ⟨_, le, .ok value, alike', kept⟩

end Requests

section Programs

variable {Op : Type} {Resp : Op → Type} {Choice : Type} (M : Machine Op Resp σ Choice) (me : ℕ)

def complete : Prog Op Resp α → (ℕ → Choice) → σ → Option (α × σ)
  | .pure a, _, s => some (a, s)
  | .step o k, env, s =>
    match M.exec me o (env 0) s with
    | some (r, t) => complete (k r) (fun n => env (n + 1)) t
    | none => none

/-- Two programs get through together: they perform their operations in step,
under choices that correspond, and `Q` holds when both return. -/
def Joint (C : Choice → Choice → Prop) (Q : α → β → σ → σ → Prop) :
    Prog Op Resp α → Prog Op Resp β → σ → σ → Prop
  | .pure a, .pure b, s, s' => Q a b s s'
  | .step o k, .step o' k', s, s' => ∀ c c', C c c' → ∃ r t r' t',
    M.exec me o c s = some (r, t) ∧ M.exec me o' c' s' = some (r', t') ∧
      Joint C Q (k r) (k' r') t t'
  | _, _, _, _ => False

variable {M me} {C : Choice → Choice → Prop}

variable {Q : α → β → σ → σ → Prop} {p : Prog Op Resp α} {p' : Prog Op Resp β}

theorem joint_mono {S : α → β → σ → σ → Prop} {s s' : σ}
    (weaken : ∀ a b t t', Q a b t t' → S a b t t') (h : Joint M me C Q p p' s s') :
    Joint M me C S p p' s s' := by
  induction p generalizing p' s s' with
  | pure a =>
    cases p' with
    | pure b => exact weaken _ _ _ _ h
    | step o' k' => exact h.elim
  | step o k ih =>
    cases p' with
    | pure b => exact h.elim
    | step o' k' =>
      intro c c' choice
      obtain ⟨r, t, r', t', run, run', rest⟩ := h c c' choice
      exact ⟨r, t, r', t', run, run', ih r rest⟩

theorem joint_bind {Q : γ → δ → σ → σ → Prop} {f : α → Prog Op Resp γ} {f' : β → Prog Op Resp δ}
    {s s' : σ} (h : Joint M me C (fun a b => Joint M me C Q (f a) (f' b)) p p' s s') :
    Joint M me C Q (p >>= f) (p' >>= f') s s' := by
  induction p generalizing p' s s' with
  | pure a =>
    cases p' with
    | pure b => exact h
    | step o' k' => exact h.elim
  | step o k ih =>
    cases p' with
    | pure b => exact h.elim
    | step o' k' =>
      intro c c' choice
      obtain ⟨r, t, r', t', run, run', rest⟩ := h c c' choice
      exact ⟨r, t, r', t', run, run', ih r rest⟩

theorem joint_perform {o o' : Op} {f : Resp o → Prog Op Resp α} {f' : Resp o' → Prog Op Resp β}
    {s s' : σ}
    (h : ∀ c c', C c c' → ∃ r t r' t', M.exec me o c s = some (r, t) ∧
      M.exec me o' c' s' = some (r', t') ∧ Joint M me C Q (f r) (f' r') t t') :
    Joint M me C Q (.perform o >>= f) (.perform o' >>= f') s s' := h

theorem joint_complete {s s' : σ} {env env' : ℕ → Choice} (h : Joint M me C Q p p' s s')
    (choices : ∀ n, C (env n) (env' n)) : ∃ a t b t', complete M me p env s = some (a, t) ∧
      complete M me p' env' s' = some (b, t') ∧ Q a b t t' := by
  induction p generalizing p' s s' env env' with
  | pure a =>
    cases p' with
    | pure b => exact ⟨a, s, b, s', rfl, rfl, h⟩
    | step o' k' => exact h.elim
  | step o k ih =>
    cases p' with
    | pure b => exact h.elim
    | step o' k' =>
      obtain ⟨r, t, r', t', run, run', rest⟩ := h _ _ (choices 0)
      simp only [complete, run, run']
      exact ih r rest fun n => choices (n + 1)

end Programs

end Taper.Isolation
