import Taper.TwoPhase
import Mathlib.Logic.Relation
import Mathlib.Order.Defs.PartialOrder

set_option autoImplicit false

/-!
# Claims in ascending order

Transactions that make their claims in a common order and keep them to their end
never wait for each other in a circle; first for lists of claims, then for
scripts that go along such lists.
-/
namespace Taper.LockOrder
open Relation

variable {ι κ : Type}

structure State (ι κ : Type) where
  holder : κ → Option ι
  todo : ι → List κ

def start (orders : ι → List κ) : State ι κ := ⟨fun _ => none, orders⟩

def Waits (s : State ι κ) (i j : ι) : Prop :=
  ∃ k rest, s.todo i = k :: rest ∧ s.holder k = some j ∧ j ≠ i

def Ahead (s : State ι κ) (i j : ι) : Prop := ∃ k ∈ s.todo i, s.holder k = some j ∧ j ≠ i

variable {j : ι} {orders : ι → List κ}

theorem Waits.ahead {s : State ι κ} {i : ι} (h : Waits s i j) : Ahead s i j := by
  obtain ⟨k, rest, next, held⟩ := h
  exact ⟨k, by rw [next]; exact List.mem_cons_self, held⟩

section Order

variable [PartialOrder κ]

structure Ascending (s : State ι κ) : Prop where
  sorted : ∀ i, (s.todo i).Pairwise (· ≤ ·)
  above : ∀ i k, s.holder k = some i → ∀ k' ∈ s.todo i, k ≤ k'

theorem start_ascending (sorted : ∀ i, (orders i).Pairwise (· ≤ ·)) :
    Ascending (start orders) where
  sorted := sorted
  above _ _ held := by cases held

theorem Ascending.advance {s s' : State ι κ} (asc : Ascending s)
    (left : ∀ i, s'.todo i <:+ s.todo i)
    (new : ∀ i k, s'.holder k = some i → s.holder k = some i ∨ ∀ k' ∈ s'.todo i, k ≤ k') :
    Ascending s' where
  sorted i := (asc.sorted i).sublist (left i).sublist
  above i k held k' mem :=
    (new i k held).elim (fun old => asc.above i k old k' ((left i).mem mem)) fun low => low k' mem

/-- Along a chain of waits the claims ascend: the first one, held by another
than `i`, is at most the last one. -/
theorem chain_ascends {s : State ι κ} (asc : Ascending s) {i : ι} (chain : TransGen (Ahead s) i j) :
    ∃ k ∈ s.todo i, s.holder k ≠ some i ∧
      ∃ k', s.holder k' = some j ∧ k ≤ k' := by
  induction chain with
  | single first =>
    obtain ⟨k, mem, held, other⟩ := first
    refine ⟨k, mem, fun own => other ?_, k, held, le_rfl⟩
    rw [held] at own
    exact Option.some.inj own
  | tail _ last ih =>
    obtain ⟨k, mem, other, k', held, le⟩ := ih
    obtain ⟨k'', mem'', held'', -⟩ := last
    exact ⟨k, mem, other, k'', held'', le_trans le (asc.above _ k' held k'' mem'')⟩

theorem Ascending.no_circle {s : State ι κ} (asc : Ascending s) (i : ι) :
    ¬TransGen (Ahead s) i i := by
  intro chain
  obtain ⟨k, mem, other, k', held, le⟩ := chain_ascends asc chain
  have same : k = k' := le_antisymm le (asc.above i k' held k mem)
  exact other (same ▸ held)

end Order

section Steps

variable [DecidableEq ι]

theorem update_suffix {f : ι → List κ} {i : ι} {rest : List κ} (ahead : rest <:+ f i) (j : ι) :
    Function.update f i rest j <:+ f j := by
  by_cases same : j = i
  · subst same
    rwa [Function.update_self]
  · have kept : Function.update f i rest j = f j := Function.update_of_ne same ..
    exact kept ▸ List.suffix_rfl

variable [DecidableEq κ]

/-- A transaction makes its next claim if nobody else holds it, passes it over,
or ends, at any point, and gives up what it holds. -/
inductive Step : State ι κ → State ι κ → Prop where
  | claim {s : State ι κ} {i : ι} {k : κ} {rest : List κ} (next : s.todo i = k :: rest)
      (free : s.holder k = none ∨ s.holder k = some i) :
      Step s ⟨Function.update s.holder k (some i), Function.update s.todo i rest⟩
  | skip {s : State ι κ} {i : ι} {k : κ} {rest : List κ} (next : s.todo i = k :: rest) :
      Step s ⟨s.holder, Function.update s.todo i rest⟩
  | finish (s : State ι κ) (i : ι) :
      Step s ⟨fun k => if s.holder k = some i then none else s.holder k,
        Function.update s.todo i []⟩

def Reachable (orders : ι → List κ) : State ι κ → Prop := ReflTransGen Step (start orders)

variable [PartialOrder κ]

theorem Step.ascending {s s' : State ι κ} (step : Step s s') (asc : Ascending s) :
    Ascending s' := by
  cases step with
  | @claim i k rest next free =>
    have order := asc.sorted i
    have left : rest <:+ s.todo i := by
      rw [next]
      exact List.suffix_cons k rest
    refine asc.advance (update_suffix left) fun j k' held => ?_
    by_cases new : k' = k
    · subst new
      simp only [Function.update_self, Option.some.injEq] at held
      subst held
      rw [next] at order
      simp only [Function.update_self]
      exact .inr fun k'' mem => List.rel_of_pairwise_cons order mem
    · simp only [Function.update_of_ne new] at held
      exact .inl held
  | @skip i k rest next =>
    have left : rest <:+ s.todo i := by
      rw [next]
      exact List.suffix_cons k rest
    exact asc.advance (update_suffix left) fun j k' held => .inl held
  | finish i =>
    refine asc.advance (update_suffix (List.nil_suffix ..)) fun j k held => .inl ?_
    simp only at held
    split at held
    · cases held
    · exact held

theorem Reachable.ascending {s : State ι κ} (reach : Reachable orders s)
    (sorted : ∀ i, (orders i).Pairwise (· ≤ ·)) : Ascending s := by
  induction reach with
  | refl => exact start_ascending sorted
  | tail _ step ih => exact step.ascending ih

theorem no_circle_of_waits {s : State ι κ} (reach : Reachable orders s)
    (sorted : ∀ i, (orders i).Pairwise (· ≤ ·)) (i : ι) : ¬TransGen (Waits s) i i :=
  fun chain => (reach.ascending sorted).no_circle i
    (TransGen.mono (fun _ _ => Waits.ahead) _ _ chain)

end Steps

section Scripts

open TwoPhase (Script)

variable {ν : κ → Type} {ε φ α β : Type}

/-- The statements of the script go along the list: a resource is either locked
already, or it is the next one that is visited, with others passed over. `Q`
holds of the locks, of what is left of the list and of the value at the end. -/
def Along : Script κ ν ε φ α → (κ → Prop) → List κ → ((κ → Prop) → List κ → α → Prop) → Prop
  | .pure a, held, left, Q => Q held left a
  | .fail _, _, _, _ => True
  | .access k write next, held, left, Q =>
    (held k ∧ ∀ v, Along (next v) held left Q) ∨
      ∃ rest, k :: rest <:+ left ∧ ∀ v, (write v = none → Along (next v) held (k :: rest) Q) ∧
        (write v ≠ none → Along (next v) (fun j => j = k ∨ held j) rest Q)
  | .emit _ _ next, held, left, Q => Along next held left Q

section Rules

variable {held held' : κ → Prop} {left : List κ}

variable {m : Script κ ν ε φ α}

theorem along_mono {Q Q' : (κ → Prop) → List κ → α → Prop} (more : ∀ k, held k → held' k)
    (weaker : ∀ (h h' : κ → Prop) ks a, (∀ k, h k → h' k) → Q h ks a → Q' h' ks a)
    (h : Along m held left Q) : Along m held' left Q' := by
  induction m generalizing held held' left with
  | pure a => exact weaker held held' left a more h
  | fail e => trivial
  | access k write next ih =>
    rcases h with ⟨own, later⟩ | ⟨rest, visit, later⟩
    · exact .inl ⟨more k own, fun v => ih v more (later v)⟩
    · refine .inr ⟨rest, visit, fun v => ⟨fun read => ih v more ((later v).1 read), fun read => ?_⟩⟩
      exact ih v (fun j => Or.imp_right (more j)) ((later v).2 read)
  | emit k e next ih => exact ih more h

theorem along_bind {f : α → Script κ ν ε φ β} {Q : (κ → Prop) → List κ → β → Prop}
    (h : Along m held left fun held left a => Along (f a) held left Q) :
    Along (m >>= f) held left Q := by
  induction m generalizing held left with
  | pure a => exact h
  | fail e => trivial
  | access k write next ih =>
    rcases h with ⟨own, later⟩ | ⟨rest, visit, later⟩
    · exact .inl ⟨own, fun v => ih v (later v)⟩
    · exact .inr ⟨rest, visit, fun v =>
        ⟨fun read => ih v ((later v).1 read), fun read => ih v ((later v).2 read)⟩⟩
  | emit k e next ih => exact ih h

theorem along_report {answer : Except φ α → β} (h : Along m held left fun _ _ _ => True) :
    Along (m.report answer) held left fun _ _ _ => True := by
  induction m generalizing held left with
  | pure a => trivial
  | fail e => trivial
  | access k write next ih =>
    rcases h with ⟨own, later⟩ | ⟨rest, visit, later⟩
    · exact .inl ⟨own, fun v => ih v (later v)⟩
    · exact .inr ⟨rest, visit, fun v =>
        ⟨fun read => ih v ((later v).1 read), fun read => ih v ((later v).2 read)⟩⟩
  | emit k e next ih => exact ih h

theorem along_require {b : Bool} {e : φ} {Q : (κ → Prop) → List κ → Unit → Prop}
    (h : Q held left ()) : Along (Script.require b e : Script κ ν ε φ Unit) held left Q := by
  cases b with
  | false => trivial
  | true => exact h

theorem along_collect {visit : α → Script κ ν ε φ (Option β)} {place : α → κ} {items : List α}
    (each : ∀ a rest held left, place a :: rest <:+ left →
      Along (visit a) held left fun _ left _ => rest <:+ left)
    (ahead : items.map place <:+ left) :
    Along (Script.collect visit items) held left fun _ _ _ => True := by
  induction items generalizing held left with
  | nil => trivial
  | cons a rest ih =>
    refine along_bind (along_mono (fun _ own => own) ?_ (each a (rest.map place) held left ahead))
    intro _ held' left' found _ later
    exact along_bind (along_mono (fun _ own => own) (fun _ _ _ _ _ _ => trivial) (ih later))

end Rules

def Blocked (st : TwoPhase.State ι κ ν ε φ α) (i j : ι) : Prop :=
  ∃ k write next o, st.threads i = some ⟨.access k write next, o⟩ ∧ st.holder k = some j ∧ j ≠ i

structure Tracks (st : TwoPhase.State ι κ ν ε φ α) (s : State ι κ) : Prop where
  holder : s.holder = st.holder
  along : ∀ i th, st.threads i = some th →
    Along th.rest (fun k => st.holder k = some i) (s.todo i) fun _ _ _ => True

theorem Tracks.ahead {st : TwoPhase.State ι κ ν ε φ α} {s : State ι κ} (tracks : Tracks st s)
    {i : ι} (blocked : Blocked st i j) : Ahead s i j := by
  obtain ⟨k, write, next, o, at_, held, other⟩ := blocked
  rcases tracks.along i _ at_ with ⟨own, -⟩ | ⟨rest, ahead, -⟩
  · rw [held] at own
    exact absurd (Option.some.inj own) other
  · exact ⟨k, ahead.mem List.mem_cons_self, by rw [tracks.holder, held], other⟩

section Steps

variable [DecidableEq ι] {st st' : TwoPhase.State ι κ ν ε φ α} {s : State ι κ} {i : ι}
  {th : TwoPhase.Thread κ ν ε φ α} {left : List κ}

theorem Tracks.resume (tracks : Tracks st s)
    (threads : st'.threads = Function.update st.threads i (some th))
    (holder : st'.holder = st.holder)
    (along : Along th.rest (fun k => st.holder k = some i) left fun _ _ _ => True) :
    Tracks st' ⟨s.holder, Function.update s.todo i left⟩ where
  holder := tracks.holder.trans holder.symm
  along j th' at_ := by
    rw [threads] at at_
    rw [holder]
    by_cases same : j = i
    · subst same
      rw [Function.update_self] at at_
      cases at_
      simpa using along
    · rw [Function.update_of_ne same] at at_
      simpa [Function.update_of_ne same] using tracks.along j th' at_

theorem Tracks.close (tracks : Tracks st s) (outcome : Except φ α)
    (threads : st'.threads = (st.close i outcome).threads)
    (holder : st'.holder = (st.close i outcome).holder) :
    Tracks st' ⟨fun k => if s.holder k = some i then none else s.holder k,
      Function.update s.todo i []⟩ where
  holder := by
    rw [holder, tracks.holder]
    rfl
  along j th' at_ := by
    rw [threads] at at_
    rw [holder]
    by_cases same : j = i
    · subst same
      simp [TwoPhase.State.close] at at_
    · simp only [TwoPhase.State.close, Function.update_of_ne same] at at_ ⊢
      refine along_mono (fun k own => ?_) (fun _ _ _ _ _ _ => trivial) (tracks.along j th' at_)
      rw [if_neg fun mine => same ?_]
      · exact own
      · rw [own] at mine
        exact Option.some.inj mine

variable [DecidableEq κ]

theorem skips {rest : List κ} (ahead : rest <:+ s.todo i) :
    ReflTransGen Step s ⟨s.holder, Function.update s.todo i rest⟩ := by
  obtain ⟨first, split⟩ := ahead
  induction first generalizing s with
  | nil =>
    rw [List.nil_append] at split
    rw [split, Function.update_eq_self]
  | cons k more ih =>
    have step : Step s ⟨s.holder, Function.update s.todo i (more ++ rest)⟩ := .skip split.symm
    refine .head step ?_
    have tail := ih (s := ⟨s.holder, Function.update s.todo i (more ++ rest)⟩) (by simp)
    rwa [Function.update_idem] at tail

theorem Tracks.keep {k : κ} (tracks : Tracks st s)
    (threads : st'.threads = Function.update st.threads i (some th))
    (holder : st'.holder = Function.update st.holder k (some i))
    (free : st.holder k = none ∨ st.holder k = some i)
    (along : Along th.rest (fun j => j = k ∨ st.holder j = some i) left fun _ _ _ => True) :
    Tracks st' ⟨Function.update s.holder k (some i), Function.update s.todo i left⟩ where
  holder := by rw [holder, tracks.holder]
  along j th' at_ := by
    rw [threads] at at_
    rw [holder]
    by_cases same : j = i
    · subst same
      rw [Function.update_self] at at_
      cases at_
      simp only [Function.update_self]
      refine along_mono (fun k' own => ?_) (fun _ _ _ _ _ _ => trivial) along
      by_cases new : k' = k
      · rw [new, Function.update_self]
      · rw [Function.update_of_ne new]
        exact own.resolve_left new
    · rw [Function.update_of_ne same] at at_
      simp only [Function.update_of_ne same]
      refine along_mono (fun k' own => ?_) (fun _ _ _ _ _ _ => trivial) (tracks.along j th' at_)
      have other : k' ≠ k := by
        rintro rfl
        rcases free with none | mine
        · rw [none] at own
          cases own
        · rw [mine] at own
          exact same (Option.some.inj own).symm
      rwa [Function.update_of_ne other]

theorem Tracks.step (tracks : Tracks st s) (step : TwoPhase.Stepped st i st') :
    ∃ s', ReflTransGen Step s s' ∧ Tracks st' s' := by
  have stay : s = ⟨s.holder, Function.update s.todo i (s.todo i)⟩ := by
    rw [Function.update_eq_self]
  cases step with
  | @commit a o at_ => exact ⟨_, .single (.finish s i), tracks.close (.ok a) rfl rfl⟩
  | @rollback e o at_ => exact ⟨_, .single (.finish s i), tracks.close (.error e) rfl rfl⟩
  | @pass k write next o at_ free read =>
    rcases tracks.along i _ at_ with ⟨own, later⟩ | ⟨rest, ahead, later⟩
    · refine ⟨s, .refl, ?_⟩
      rw [stay]
      exact tracks.resume rfl rfl (later _)
    · exact ⟨_, skips ahead, tracks.resume rfl rfl ((later _).1 read)⟩
  | @keep k write next o v at_ free read =>
    rcases tracks.along i _ at_ with ⟨own, later⟩ | ⟨rest, ahead, later⟩
    · refine ⟨s, .refl, ?_⟩
      have held : Function.update s.holder k (some i) = s.holder := by
        rw [tracks.holder, ← own, Function.update_eq_self]
      rw [stay, ← held]
      refine tracks.keep rfl rfl free ?_
      exact along_mono (fun _ => .inr) (fun _ _ _ _ _ _ => trivial) (later _)
    · have next : Step ⟨s.holder, Function.update s.todo i (k :: rest)⟩
          ⟨Function.update s.holder k (some i), Function.update s.todo i rest⟩ := by
        have top : (⟨s.holder, Function.update s.todo i (k :: rest)⟩ : State ι κ).todo i =
            k :: rest := Function.update_self ..
        have claim := Step.claim top (by rw [tracks.holder]; exact free)
        rwa [Function.update_idem] at claim
      refine ⟨_, (skips ahead).tail next, tracks.keep rfl rfl free ((later _).2 ?_)⟩
      rw [read]
      exact Option.some_ne_none v
  | emit at_ =>
    refine ⟨s, .refl, ?_⟩
    have along := tracks.along i _ at_
    rw [stay]
    exact tracks.resume rfl rfl along

theorem run_tracks {schedule : List ι} (tracks : Tracks st s) (reach : Reachable orders s)
    (run : TwoPhase.State.run schedule st = some st') :
    ∃ s', Reachable orders s' ∧ Tracks st' s' := by
  induction schedule generalizing st s with
  | nil =>
    cases run
    exact ⟨s, reach, tracks⟩
  | cons i rest ih =>
    obtain ⟨next, first, later⟩ := Option.bind_eq_some_iff.1 run
    obtain ⟨s', steps, tracks'⟩ := tracks.step (TwoPhase.step_stepped first)
    exact ih tracks' (reach.trans steps) later

end Steps

theorem scripts_no_circle [DecidableEq ι] [DecidableEq κ] [PartialOrder κ]
    {tasks : ι → Option (Script κ ν ε φ α)} (sorted : ∀ i, (orders i).Pairwise (· ≤ ·))
    (along : ∀ i m, tasks i = some m → Along m (fun _ => False) (orders i) fun _ _ _ => True)
    {store : TwoPhase.Store ν} {schedule : List ι} {st : TwoPhase.State ι κ ν ε φ α}
    (run : TwoPhase.State.run schedule (TwoPhase.start tasks store) = some st) (i : ι) :
    ¬TransGen (Blocked st) i i := by
  have begin : Tracks (TwoPhase.start tasks store) (start orders) := by
    refine ⟨rfl, fun j th at_ => ?_⟩
    obtain ⟨m, task, rfl⟩ := Option.map_eq_some_iff.1 at_
    exact along_mono (fun _ own => own.elim) (fun _ _ _ _ _ _ => trivial) (along j m task)
  obtain ⟨s, reach, tracks⟩ := run_tracks begin .refl run
  exact fun chain => (reach.ascending sorted).no_circle i
    (TransGen.mono (fun _ _ => tracks.ahead) _ _ chain)

end Scripts

end Taper.LockOrder
