import Mathlib.Tactic.Common

set_option autoImplicit false

/-!
# Programs over answered operations

A program performs one operation at a time and goes on with the answer. What an
operation does to the shared state is left to a machine, whose environment
resolves what the code does not decide.
-/
namespace Taper.Program

inductive Prog (Op : Type) (Resp : Op → Type) (α : Type) : Type where
  | pure (a : α)
  | step (o : Op) (next : Resp o → Prog Op Resp α)

variable {Op : Type} {Resp : Op → Type} {α β σ Choice H : Type}

namespace Prog

def bind (p : Prog Op Resp α) (f : α → Prog Op Resp β) : Prog Op Resp β :=
  match p with
  | .pure a => f a
  | .step o next => .step o fun r => (next r).bind f

instance : Monad (Prog Op Resp) where
  pure := Prog.pure
  bind := Prog.bind

def perform (o : Op) : Prog Op Resp (Resp o) := .step o .pure

def forEach (body : β → Prog Op Resp Unit) : List β → Prog Op Resp Unit
  | [] => .pure ()
  | b :: rest => do
    body b
    forEach body rest

end Prog

/-- `exec` runs one operation of a thread; no result means that it has to wait.
`stop` is what the state loses with a thread. -/
structure Machine (Op : Type) (Resp : Op → Type) (σ Choice : Type) where
  exec : ℕ → (o : Op) → Choice → σ → Option (Resp o × σ)
  stop : ℕ → σ → σ

variable {p : Prog Op Resp α} {s : σ} {f : α → Prog Op Resp β} {body : β → Prog Op Resp Unit}

section Sequential

variable (M : Machine Op Resp σ Choice) (me : ℕ) (adm : Op → Choice → σ → Prop)

/-- A program run alone for some operations, under admissible choices; what is
left of it comes with the state. -/
inductive Exec : Prog Op Resp α → σ → Prog Op Resp α → σ → Prop where
  | refl (p : Prog Op Resp α) (s : σ) : Exec p s p s
  | next {o : Op} {k : Resp o → Prog Op Resp α} {c : Choice} {s t u : σ} {r : Resp o}
      {p : Prog Op Resp α} (ok : adm o c s) (h : M.exec me o c s = some (r, t))
      (tail : Exec (k r) t p u) : Exec (.step o k) s p u

def runWith (check : Op → Choice → σ → Bool) :
    List Choice → Prog Op Resp α → σ → Option (α × σ)
  | [], .pure a, s => some (a, s)
  | c :: rest, .step o k, s =>
    if check o c s then
      match M.exec me o c s with
      | some (r, t) => runWith check rest (k r) t
      | none => none
    else none
  | _, _, _ => none

variable {t : σ} {a : α}

theorem exec_of_runWith {check : Op → Choice → σ → Bool} {choices : List Choice}
    (h : runWith M me check choices p s = some (a, t)) :
    Exec M me (fun o c s => check o c s = true) p s (.pure a) t := by
  induction choices generalizing p s with
  | nil =>
    cases p with
    | pure b =>
      cases h
      exact .refl _ _
    | step o k => cases h
  | cons c rest ih =>
    cases p with
    | pure b => cases h
    | step o k =>
      simp only [runWith] at h
      split at h
      · rename_i ok
        cases run : M.exec me o c s with
        | none => simp [run] at h
        | some result =>
          simp only [run] at h
          exact .next ok run (ih h)
      · cases h

def runFor (check : Op → Choice → σ → Bool) : List Choice → Prog Op Resp α → σ → Option σ
  | [], _, s => some (M.stop me s)
  | c :: rest, .step o k, s =>
    if check o c s then
      match M.exec me o c s with
      | some (r, t) => runFor check rest (k r) t
      | none => none
    else none
  | _ :: _, .pure _, _ => none

theorem exec_of_runFor {check : Op → Choice → σ → Bool} {choices : List Choice}
    (h : runFor M me check choices p s = some t) :
    ∃ p' u, Exec M me (fun o c s => check o c s = true) p s p' u ∧ t = M.stop me u := by
  induction choices generalizing p s with
  | nil =>
    cases h
    exact ⟨p, s, .refl _ _, rfl⟩
  | cons c rest ih =>
    cases p with
    | pure b => cases h
    | step o k =>
      simp only [runFor] at h
      split at h
      · rename_i ok
        cases run : M.exec me o c s with
        | none => simp [run] at h
        | some result =>
          simp only [run] at h
          obtain ⟨p', u, tail, stopped⟩ := ih h
          exact ⟨p', u, .next ok run tail, stopped⟩
      · cases h

/-- `I` holds wherever the program can be stopped, and `Q` when it returns. -/
def Wp (I : σ → Prop) (Q : α → σ → Prop) : Prog Op Resp α → σ → Prop
  | .pure a, s => Q a s
  | .step o k, s =>
    I s ∧ ∀ c r t, adm o c s → M.exec me o c s = some (r, t) → Wp I Q (k r) t

variable {M me adm} {I : σ → Prop} {Q : α → σ → Prop}

theorem wp_pure (h : Q a s) : Wp M me adm I Q (pure a) s := h

theorem wp_perform {o : Op} {Q : Resp o → σ → Prop} (here : I s)
    (h : ∀ c r t, adm o c s → M.exec me o c s = some (r, t) → Q r t) :
    Wp M me adm I Q (Prog.perform o) s := ⟨here, h⟩

theorem wp_mono {Q' : α → σ → Prop} (weaker : ∀ a t, Q a t → Q' a t) (h : Wp M me adm I Q p s) :
    Wp M me adm I Q' p s := by
  induction p generalizing s with
  | pure a => exact weaker a s h
  | step o k ih => exact ⟨h.1, fun c r t ok run => ih r (h.2 c r t ok run)⟩

theorem wp_weaken {J : σ → Prop} (weaker : ∀ s, I s → J s) (h : Wp M me adm I Q p s) :
    Wp M me adm J Q p s := by
  induction p generalizing s with
  | pure a => exact h
  | step o k ih => exact ⟨weaker s h.1, fun c r t ok run => ih r (h.2 c r t ok run)⟩

theorem wp_bind {Q : β → σ → Prop} (h : Wp M me adm I (fun a t => Wp M me adm I Q (f a) t) p s) :
    Wp M me adm I Q (p >>= f) s := by
  induction p generalizing s with
  | pure a => exact h
  | step o k ih => exact ⟨h.1, fun c r t ok run => ih r (h.2 c r t ok run)⟩

/-- A loop whose body keeps `J`, told which elements are still to come. -/
theorem wp_forEach {J : List β → σ → Prop} {items : List β} (start : J items s)
    (step : ∀ b rest t, J (b :: rest) t →
      Wp M me adm I (fun _ u => J rest u) (body b) t) :
    Wp M me adm I (fun _ u => J [] u) (Prog.forEach body items) s := by
  induction items generalizing s with
  | nil => exact start
  | cons b rest ih => exact wp_bind (wp_mono (fun _ _ h => ih h) (step b rest s start))

theorem wp_exec {p' : Prog Op Resp α} (run : Exec M me adm p s p' t) (h : Wp M me adm I Q p s) :
    Wp M me adm I Q p' t := by
  induction run with
  | refl p s => exact h
  | next ok run tail ih => exact ih (h.2 _ _ _ ok run)

theorem wp_returns (run : Exec M me adm p s (.pure a) t) (h : Wp M me adm I Q p s) : Q a t :=
  wp_exec run h

theorem wp_stopped {p' : Prog Op Resp α} (run : Exec M me adm p s p' t) (h : Wp M me adm I Q p s) :
    I t ∨ ∃ a, p' = .pure a ∧ Q a t := by
  have left := wp_exec run h
  cases p' with
  | pure a => exact .inr ⟨a, rfl, left⟩
  | step o k => exact .inl left.1

end Sequential

section Safe

variable (ok : (o : Op) → Resp o → Prop) (bad : Op → Prop)

/-- As long as the answers are of the kind `ok`, the program performs no bad
operation, and `Q` holds of what it returns. -/
def Safe (Q : α → Prop) : Prog Op Resp α → Prop
  | .pure a => Q a
  | .step o k => ¬bad o ∧ ∀ r, ok o r → Safe Q (k r)

variable {ok bad} {Q : α → Prop}

theorem safe_perform {o : Op} {Q : Resp o → Prop} (good : ¬bad o) (h : ∀ r, ok o r → Q r) :
    Safe ok bad Q (Prog.perform o) := ⟨good, h⟩

theorem safe_mono {Q Q' : α → Prop} (weaker : ∀ a, Q a → Q' a) (h : Safe ok bad Q p) :
    Safe ok bad Q' p := by
  induction p with
  | pure a => exact weaker a h
  | step o k ih => exact ⟨h.1, fun r answer => ih r (h.2 r answer)⟩

theorem safe_mono_ok {ok' : (o : Op) → Resp o → Prop}
    (stronger : ∀ o r, ok' o r → ok o r) (h : Safe ok bad Q p) :
    Safe ok' bad Q p := by
  induction p with
  | pure a => exact h
  | step o k ih => exact ⟨h.1, fun r answer => ih r (h.2 r (stronger o r answer))⟩

theorem safe_mono_bad {bad' : Op → Prop} (fewer : ∀ o, bad' o → bad o)
    (h : Safe ok bad Q p) : Safe ok bad' Q p := by
  induction p with
  | pure a => exact h
  | step o k ih => exact ⟨fun h' => h.1 (fewer o h'), fun r answer => ih r (h.2 r answer)⟩

variable {Q' : β → Prop}

theorem safe_bind (h : Safe ok bad Q p) (rest : ∀ a, Q a → Safe ok bad Q' (f a)) :
    Safe ok bad Q' (p >>= f) := by
  induction p with
  | pure a => exact rest a h
  | step o k ih => exact ⟨h.1, fun r answer => ih r (h.2 r answer)⟩

theorem safe_of_bind {Q : β → Prop} (h : Safe ok bad Q (p >>= f)) :
    Safe ok bad (fun _ => True) p := by
  induction p with
  | pure a => trivial
  | step o k ih => exact ⟨h.1, fun r answer => ih r (h.2 r answer)⟩

theorem safe_forEach {items : List β} (each : ∀ b ∈ items, Safe ok bad (fun _ => True) (body b)) :
    Safe ok bad (fun _ => True) (Prog.forEach body items) := by
  induction items with
  | nil => trivial
  | cons b rest ih =>
    refine safe_bind (each b List.mem_cons_self) fun _ _ => ih fun x hx => ?_
    exact each x (List.mem_cons_of_mem b hx)

theorem wp_of_safe {M : Machine Op Resp σ Choice} {me : ℕ} {adm : Op → Choice → σ → Prop}
    {I J : σ → Prop} (holds : ∀ s, J s → I s)
    (keeps : ∀ o c r s t, ¬bad o → adm o c s → M.exec me o c s = some (r, t) → J s →
      J t ∧ ok o r) (safe : Safe ok bad Q p) (start : J s) :
    Wp M me adm I (fun a t => Q a ∧ J t) p s := by
  induction p generalizing s with
  | pure a => exact ⟨safe, start⟩
  | step o k ih =>
    refine ⟨holds s start, fun c r t admitted run => ?_⟩
    obtain ⟨kept, answer⟩ := keeps o c r s t safe.1 admitted run start
    exact ih r (safe.2 r answer) kept

def SafeAfter (fair mark ok : (o : Op) → Resp o → Prop) (bad : Op → Prop) (Q : α → Prop) :
    Prog Op Resp α → Prop
  | .pure _ => True
  | .step o k => ∀ r, fair o r →
    (mark o r → Safe ok bad Q (k r)) ∧ SafeAfter fair mark ok bad Q (k r)

variable {fair mark : (o : Op) → Resp o → Prop}

theorem safeAfter_perform {o : Op} {Q : Resp o → Prop} (h : ∀ r, fair o r → mark o r → Q r) :
    SafeAfter fair mark ok bad Q (Prog.perform o) := fun r answer => ⟨h r answer, trivial⟩

theorem safeAfter_bind (h : SafeAfter fair mark ok bad Q p)
    (after : ∀ a, Q a → Safe ok bad Q' (f a)) (rest : ∀ a, SafeAfter fair mark ok bad Q' (f a)) :
    SafeAfter fair mark ok bad Q' (p >>= f) := by
  induction p with
  | pure a => exact rest a
  | step o k ih =>
    intro r answer
    exact ⟨fun marked => safe_bind ((h r answer).1 marked) after, ih r (h r answer).2⟩

/-- A program without marked answers has nothing to show for itself. -/
theorem safeAfter_unmarked (h : Safe fair (fun o => ∃ r, mark o r) Q p)
    (rest : ∀ a, Q a → SafeAfter fair mark ok bad Q' (f a)) :
    SafeAfter fair mark ok bad Q' (p >>= f) := by
  induction p with
  | pure a => exact rest a h
  | step o k ih =>
    intro r answer
    exact ⟨fun marked => absurd ⟨r, marked⟩ h.1, ih r (h.2 r answer)⟩

theorem safeAfter_of_unmarked (h : Safe fair (fun o => ∃ r, mark o r) (fun _ => True) p) :
    SafeAfter fair mark ok bad Q p := by
  induction p with
  | pure a => trivial
  | step o k ih =>
    intro r answer
    exact ⟨fun marked => absurd ⟨r, marked⟩ h.1, ih r (h.2 r answer)⟩

end Safe

section Watched

variable {M : Type} (after : M → (o : Op) → Resp o → M) (good : M → Op → Prop)

/-- An observer follows the program from answer to answer, and every operation
is good in the state in which it comes. -/
def Watched (Q : M → α → Prop) : Prog Op Resp α → M → Prop
  | .pure a, m => Q m a
  | .step o k, m => good m o ∧ ∀ r, Watched Q (k r) (after m o r)

variable {after good} {m : M}

theorem watched_bind {Q : M → α → Prop} {Q' : M → β → Prop} (h : Watched after good Q p m)
    (rest : ∀ m a, Q m a → Watched after good Q' (f a) m) :
    Watched after good Q' (p >>= f) m := by
  induction p generalizing m with
  | pure a => exact rest m a h
  | step o k ih => exact ⟨h.1, fun r => ih r (h.2 r)⟩

end Watched

section Interleaving

variable (M : Machine Op Resp σ Choice) (program : H → Prog Op Resp Unit)

structure Pool (Op : Type) (Resp : Op → Type) (σ : Type) where
  threads : ℕ → Option (Prog Op Resp Unit)
  state : σ

inductive Move (H Choice : Type) where
  | spawn (i : ℕ) (h : H)
  | step (i : ℕ) (c : Choice)
  | stop (i : ℕ)

def Move.thread : Move H Choice → ℕ
  | .spawn i _ => i
  | .step i _ => i
  | .stop i => i

def Pool.set (pool : Pool Op Resp σ) (i : ℕ) (p : Option (Prog Op Resp Unit)) (s : σ) :
    Pool Op Resp σ := ⟨Function.update pool.threads i p, s⟩

def Pool.next (pool : Pool Op Resp σ) : Move H Choice → Option (Pool Op Resp σ)
  | .spawn i h =>
    match pool.threads i with
    | none => some (pool.set i (some (program h)) pool.state)
    | some _ => none
  | .step i c =>
    match pool.threads i with
    | some (.step o k) =>
      match M.exec i o c pool.state with
      | some (r, t) => some (pool.set i (some (k r)) t)
      | none => none
    | _ => none
  | .stop i =>
    match pool.threads i with
    | some _ => some (pool.set i none (M.stop i pool.state))
    | none => none

def Pool.run : List (Move H Choice) → Pool Op Resp σ → Option (Pool Op Resp σ)
  | [], pool => some pool
  | m :: rest, pool =>
    match pool.next M program m with
    | some after => Pool.run rest after
    | none => none

def Pool.Keeps (cond : Pool Op Resp σ → Move H Choice → Prop) :
    List (Move H Choice) → Pool Op Resp σ → Prop
  | [], _ => True
  | m :: rest, pool =>
    cond pool m ∧ ∀ after, pool.next M program m = some after → Pool.Keeps cond rest after

def Pool.checks (check : Pool Op Resp σ → Move H Choice → Bool) :
    List (Move H Choice) → Pool Op Resp σ → Bool
  | [], _ => true
  | m :: rest, pool =>
    check pool m &&
      match pool.next M program m with
      | some after => Pool.checks check rest after
      | none => true

def Pool.count (event : Pool Op Resp σ → Move H Choice → Bool) :
    List (Move H Choice) → Pool Op Resp σ → ℕ
  | [], _ => 0
  | m :: rest, pool =>
    match pool.next M program m with
    | some after => (if event pool m then 1 else 0) + Pool.count event rest after
    | none => 0

variable {M program}

variable {i : ℕ} {pool : Pool Op Resp σ} {moves : List (Move H Choice)}
  {cond : Pool Op Resp σ → Move H Choice → Prop} {after : Pool Op Resp σ}

theorem Pool.next_cases {m : Move H Choice}
    (h : pool.next M program m = some after) :
    (∃ i x, m = .spawn i x ∧ pool.threads i = none ∧
      after = pool.set i (some (program x)) pool.state) ∨
    (∃ i c o, ∃ k : Resp o → Prog Op Resp Unit, ∃ r t, m = .step i c ∧
      pool.threads i = some (.step o k) ∧ M.exec i o c pool.state = some (r, t) ∧
      after = pool.set i (some (k r)) t) ∨
    (∃ i, m = .stop i ∧ (pool.threads i).isSome = true ∧
      after = pool.set i none (M.stop i pool.state)) := by
  cases m with
  | spawn i x =>
    simp only [Pool.next] at h
    cases thread : pool.threads i with
    | none =>
      rw [thread] at h
      exact .inl ⟨i, x, rfl, thread, (Option.some.inj h).symm⟩
    | some p => simp [thread] at h
  | step i c =>
    simp only [Pool.next] at h
    cases thread : pool.threads i with
    | none => simp [thread] at h
    | some p =>
      cases p with
      | pure a => simp [thread] at h
      | step o k =>
        simp only [thread] at h
        cases run : M.exec i o c pool.state with
        | none => simp [run] at h
        | some result =>
          obtain ⟨r, t⟩ := result
          simp only [run, Option.some.injEq] at h
          exact .inr (.inl ⟨i, c, o, k, r, t, rfl, thread, run, h.symm⟩)
  | stop i =>
    simp only [Pool.next] at h
    cases thread : pool.threads i with
    | none => simp [thread] at h
    | some p =>
      rw [thread] at h
      exact .inr (.inr ⟨i, rfl, by rw [thread]; rfl, (Option.some.inj h).symm⟩)

theorem Pool.run_cons {m : Move H Choice}
    (run : Pool.run M program (m :: moves) pool = some after) :
    ∃ mid, pool.next M program m = some mid ∧ Pool.run M program moves mid = some after := by
  rw [Pool.run] at run
  cases made : pool.next M program m with
  | none => simp [made] at run
  | some mid => exact ⟨mid, rfl, by simpa [made] using run⟩

theorem Pool.run_invariant (Inv : Pool Op Resp σ → Prop)
    (step : ∀ pool m after, Inv pool → cond pool m → pool.next M program m = some after → Inv after)
    (keeps : Pool.Keeps M program cond moves pool)
    (run : Pool.run M program moves pool = some after) (start : Inv pool) : Inv after := by
  induction moves generalizing pool with
  | nil =>
    cases run
    exact start
  | cons m rest ih =>
    obtain ⟨mid, made, run⟩ := Pool.run_cons run
    exact ih (keeps.2 mid made) run (step pool m mid start keeps.1 made)

theorem Pool.keeps_of_moves
    (each : ∀ m ∈ moves, ∀ pool, cond pool m) : Pool.Keeps M program cond moves pool := by
  induction moves generalizing pool with
  | nil => trivial
  | cons m rest ih =>
    refine ⟨each m List.mem_cons_self pool, fun after _ => ih fun x hx => ?_⟩
    exact each x (List.mem_cons_of_mem m hx)

theorem Pool.keeps_and {cond cond' : Pool Op Resp σ → Move H Choice → Prop}
    (h : Pool.Keeps M program cond moves pool) (h' : Pool.Keeps M program cond' moves pool) :
    Pool.Keeps M program (fun p m => cond p m ∧ cond' p m) moves pool := by
  induction moves generalizing pool with
  | nil => trivial
  | cons m rest ih =>
    exact ⟨⟨h.1, h'.1⟩, fun after next => ih (h.2 after next) (h'.2 after next)⟩

/-- A condition that can be evaluated along the run. -/
theorem Pool.keeps_of_checks {check : Pool Op Resp σ → Move H Choice → Bool}
    (h : Pool.checks M program check moves pool = true) :
    Pool.Keeps M program (fun p m => check p m = true) moves pool := by
  induction moves generalizing pool with
  | nil => trivial
  | cons m rest ih =>
    rw [Pool.checks, Bool.and_eq_true] at h
    refine ⟨h.1, fun after next => ih ?_⟩
    simpa [next] using h.2

theorem Pool.next_others {m : Move H Choice}
    (next : pool.next M program m = some after) {j : ℕ} (other : j ≠ Move.thread m) :
    after.threads j = pool.threads j := by
  rcases Pool.next_cases next with ⟨i, x, rfl, -, rfl⟩ | ⟨i, c, o, k, r, t, rfl, -, -, rfl⟩ |
      ⟨i, rfl, -, rfl⟩
  · exact Function.update_of_ne other _ _
  · exact Function.update_of_ne other _ _
  · exact Function.update_of_ne other _ _

/-- A condition on the threads besides the moving one holds of a run of one
thread. -/
theorem Pool.keeps_alone
    (alone : ∀ pool m, (∀ j, j ≠ Move.thread m → pool.threads j = none) → cond pool m)
    (others : ∀ j, j ≠ i → pool.threads j = none) (own : ∀ m ∈ moves, Move.thread m = i) :
    Pool.Keeps M program cond moves pool := by
  induction moves generalizing pool with
  | nil => trivial
  | cons m rest ih =>
    have mine : Move.thread m = i := own m List.mem_cons_self
    refine ⟨alone pool m (mine ▸ others), fun after next => ih ?_ fun x hx => ?_⟩
    · intro j other
      rw [Pool.next_others next (mine ▸ other), others j other]
    · exact own x (List.mem_cons_of_mem m hx)

section Count

variable {event : Pool Op Resp σ → Move H Choice → Bool}
  (Inv : Pool Op Resp σ → Prop)
  (step : ∀ pool m after, Inv pool → cond pool m → pool.next M program m = some after → Inv after)

include step

/-- Events excluded by an invariant do not happen. -/
theorem Pool.count_eq_zero
    (quiet : ∀ pool m after, Inv pool → cond pool m → pool.next M program m = some after →
      event pool m = false) (keeps : Pool.Keeps M program cond moves pool) (start : Inv pool) :
    Pool.count M program event moves pool = 0 := by
  induction moves generalizing pool with
  | nil => rfl
  | cons m rest ih =>
    rw [Pool.count]
    cases made : pool.next M program m with
    | none => rfl
    | some after =>
      have none := quiet pool m after start keeps.1 made
      have later := ih (keeps.2 after made) (step pool m after start keeps.1 made)
      simp [none, later]

/-- An event that excludes itself from then on happens at most once. -/
theorem Pool.count_le_one (Done : Pool Op Resp σ → Prop)
    (first : ∀ pool m after, Inv pool → cond pool m → pool.next M program m = some after →
      event pool m = true → Done after)
    (stays : ∀ pool m after, Inv pool → Done pool → cond pool m →
      pool.next M program m = some after → Done after)
    (quiet : ∀ pool m after, Inv pool → Done pool → cond pool m →
      pool.next M program m = some after → event pool m = false)
    (keeps : Pool.Keeps M program cond moves pool) (start : Inv pool) :
    Pool.count M program event moves pool ≤ 1 := by
  induction moves generalizing pool with
  | nil => exact Nat.zero_le 1
  | cons m rest ih =>
    rw [Pool.count]
    cases made : pool.next M program m with
    | none => exact Nat.zero_le 1
    | some after =>
      have inv := step pool m after start keeps.1 made
      cases happened : event pool m with
      | false =>
        have later := ih (keeps.2 after made) inv
        simpa using later
      | true =>
        have done := first pool m after start keeps.1 made happened
        have later : Pool.count M program event rest after = 0 := by
          refine Pool.count_eq_zero (fun p => Inv p ∧ Done p) ?_ ?_ (keeps.2 after made) ⟨inv, done⟩
          · rintro p x q ⟨inv, done⟩ allowed next
            exact ⟨step p x q inv allowed next, stays p x q inv done allowed next⟩
          · rintro p x q ⟨inv, done⟩ allowed next
            exact quiet p x q inv done allowed next
        simp [later]

end Count

theorem Pool.keeps_append {later : List (Move H Choice)}
    (keeps : Pool.Keeps M program cond (moves ++ later) pool) :
    Pool.Keeps M program cond moves pool ∧
      ∀ mid, Pool.run M program moves pool = some mid → Pool.Keeps M program cond later mid := by
  induction moves generalizing pool with
  | nil =>
    refine ⟨trivial, fun mid run => ?_⟩
    cases run
    exact keeps
  | cons m rest ih =>
    refine ⟨⟨keeps.1, fun after made => (ih (keeps.2 after made)).1⟩, fun mid run => ?_⟩
    obtain ⟨after, made, run⟩ := Pool.run_cons run
    exact (ih (keeps.2 after made)).2 mid run

section History

variable (M program) {ε : Type}

def Pool.trace (tell : Pool Op Resp σ → Move H Choice → List ε) :
    List (Move H Choice) → Pool Op Resp σ → List ε
  | [], _ => []
  | m :: rest, pool =>
    match pool.next M program m with
    | some after => tell pool m ++ Pool.trace tell rest after
    | none => []

/-- Every move of the run is made under the condition, which also sees what the
earlier moves told. -/
def Pool.KeepsPast (tell : Pool Op Resp σ → Move H Choice → List ε)
    (cond : List ε → Pool Op Resp σ → Move H Choice → Prop) :
    List ε → List (Move H Choice) → Pool Op Resp σ → Prop
  | _, [], _ => True
  | past, m :: rest, pool =>
    cond past pool m ∧ ∀ after, pool.next M program m = some after →
      Pool.KeepsPast tell cond (past ++ tell pool m) rest after

def Pool.checksPast (tell : Pool Op Resp σ → Move H Choice → List ε)
    (check : List ε → Pool Op Resp σ → Move H Choice → Bool) :
    List ε → List (Move H Choice) → Pool Op Resp σ → Bool
  | _, [], _ => true
  | past, m :: rest, pool =>
    check past pool m &&
      match pool.next M program m with
      | some after => Pool.checksPast tell check (past ++ tell pool m) rest after
      | none => true

variable {M program} {tell : Pool Op Resp σ → Move H Choice → List ε}
  {cond : List ε → Pool Op Resp σ → Move H Choice → Prop}

theorem Pool.trace_invariant (Inv : List ε → Pool Op Resp σ → Prop)
    (step : ∀ past pool m after, Inv past pool → cond past pool m →
      pool.next M program m = some after → Inv (past ++ tell pool m) after)
    {past : List ε}
    (keeps : Pool.KeepsPast M program tell cond past moves pool)
    (run : Pool.run M program moves pool = some after) (start : Inv past pool) :
    Inv (past ++ Pool.trace M program tell moves pool) after := by
  induction moves generalizing past pool with
  | nil =>
    cases run
    simpa [Pool.trace] using start
  | cons m rest ih =>
    obtain ⟨mid, made, run⟩ := Pool.run_cons run
    have later := ih (keeps.2 mid made) run (step past pool m mid start keeps.1 made)
    simpa [Pool.trace, made] using later

theorem Pool.trace_kept (Inv : List ε → Pool Op Resp σ → Prop)
    (step : ∀ past pool m after, Inv past pool → pool.next M program m = some after →
      Inv (past ++ tell pool m) after)
    (run : Pool.run M program moves pool = some after) (start : Inv [] pool) :
    Inv (Pool.trace M program tell moves pool) after := by
  have free : ∀ past p, Pool.KeepsPast M program tell (fun _ _ _ => True) past moves p := by
    clear run start
    induction moves with
    | nil => exact fun _ _ => trivial
    | cons m rest ih => exact fun past p => ⟨trivial, fun after _ => ih _ after⟩
  have kept := Pool.trace_invariant Inv (fun past p m q inv _ next => step past p m q inv next)
    (free [] pool) run start
  simpa using kept

/-- A condition on the threads besides the moving one, and on what can be
evaluated along the run, in a run of one thread. -/
theorem Pool.keepsPast_alone {check : List ε → Pool Op Resp σ → Move H Choice → Bool}
    (alone : ∀ past pool m, (∀ j, j ≠ Move.thread m → pool.threads j = none) →
      check past pool m = true → cond past pool m) {past : List ε}
    (others : ∀ j, j ≠ i → pool.threads j = none) (own : ∀ m ∈ moves, Move.thread m = i)
    (checks : Pool.checksPast M program tell check past moves pool = true) :
    Pool.KeepsPast M program tell cond past moves pool := by
  induction moves generalizing past pool with
  | nil => trivial
  | cons m rest ih =>
    have mine : Move.thread m = i := own m List.mem_cons_self
    rw [Pool.checksPast, Bool.and_eq_true] at checks
    refine ⟨alone past pool m (mine ▸ others) checks.1, fun after next => ?_⟩
    refine ih (fun j other => ?_) (fun x hx => own x (List.mem_cons_of_mem m hx)) ?_
    · rw [Pool.next_others next (mine ▸ other), others j other]
    · simpa [next] using checks.2

end History

@[simp] theorem Pool.set_state (pool : Pool Op Resp σ) (i : ℕ) (p : Option (Prog Op Resp Unit))
    (s : σ) : (pool.set i p s).state = s := rfl

theorem Pool.set_threads {p : Option (Prog Op Resp Unit)} {F : ℕ → Prog Op Resp Unit → Prop}
    (own : ∀ q, p = some q → F i q) (others : ∀ j q, j ≠ i → pool.threads j = some q → F j q) :
    ∀ j q, (pool.set i p s).threads j = some q → F j q := by
  intro j q h
  simp only [Pool.set] at h
  by_cases same : j = i
  · subst same
    rw [Function.update_self] at h
    exact own q h
  · rw [Function.update_of_ne same] at h
    exact others j q same h

theorem Pool.set_some {p : Prog Op Resp Unit} {F : ℕ → Prog Op Resp Unit → Prop} (own : F i p)
    (old : ∀ j q, pool.threads j = some q → F j q) :
    ∀ j q, (pool.set i (some p) s).threads j = some q → F j q :=
  Pool.set_threads (fun _ new => Option.some.inj new ▸ own) fun j q _ => old j q

theorem Pool.set_none {F : ℕ → Prog Op Resp Unit → Prop}
    (old : ∀ j q, pool.threads j = some q → F j q) :
    ∀ j q, (pool.set i none s).threads j = some q → F j q :=
  Pool.set_threads nofun fun j q _ => old j q

end Interleaving

end Taper.Program
