import Mathlib.Tactic.Common

set_option autoImplicit false

/-!
# Requests that are sent again

Where a machine remembers what it has committed, leaving out a request sent
again changes neither the end of the run nor another answer.
-/
namespace Taper.Replay

variable {σ α β γ : Type}

def run (step : α → σ → β × σ) (requests : List α) (s : σ) : σ :=
  requests.foldl (fun s a => (step a s).2) s

def answers (step : α → σ → β × σ) : List α → σ → List β
  | [], _ => []
  | a :: rest, s => (step a s).1 :: answers step rest (step a s).2

def unmarked : List Bool → List γ → List γ
  | true :: marks, _ :: rest => unmarked marks rest
  | false :: marks, c :: rest => c :: unmarked marks rest
  | _, rest => rest

def resends [DecidableEq α] (step : α → σ → β × σ) (commits : α → σ → Bool) :
    List α → List α → σ → List Bool
  | _, [], _ => []
  | done, a :: rest, s => decide (a ∈ done) ::
    resends step commits (if commits a s then a :: done else done) rest (step a s).2

/-- What a committed request leaves behind, for good, so that it does nothing
when it comes again. -/
structure Remembers (step : α → σ → β × σ) (commits : α → σ → Bool) (done : α → σ → Prop) :
    Prop where
  committed : ∀ a s, commits a s = true → done a (step a s).2
  kept : ∀ a b s, done a s → done a (step b s).2
  silent : ∀ a s, done a s → (step a s).2 = s

variable {step : α → σ → β × σ} {commits : α → σ → Bool} {done : α → σ → Prop}

/-- The requests remembered before a step and the one it commits are remembered
after it. -/
theorem Remembers.next (remembers : Remembers step commits done) {past : List α} {s : σ}
    (all : ∀ a ∈ past, done a s) (b : α) :
    ∀ a ∈ (if commits b s then b :: past else past), done a (step b s).2 := by
  intro a member
  split at member
  · rename_i commit
    rcases List.mem_cons.1 member with rfl | old
    · exact remembers.committed a s commit
    · exact remembers.kept a b s (all a old)
  · exact remembers.kept a b s (all a member)

variable [DecidableEq α]

theorem Remembers.run_unmarked (remembers : Remembers step commits done) (requests : List α)
    {past : List α} {s : σ} (all : ∀ a ∈ past, done a s) :
    run step (unmarked (resends step commits past requests s) requests) s =
      run step requests s := by
  induction requests generalizing past s with
  | nil => rfl
  | cons b rest ih =>
    have tail := ih (remembers.next all b)
    rw [resends]
    by_cases again : b ∈ past
    · have same := remembers.silent b s (all b again)
      rw [decide_eq_true again, unmarked]
      calc
        _ = run step (unmarked (resends step commits _ rest (step b s).2) rest) (step b s).2 := by
          rw [same]
        _ = run step rest (step b s).2 := tail
    · rw [decide_eq_false again, unmarked]
      exact tail

theorem Remembers.answers_unmarked (remembers : Remembers step commits done) (requests : List α)
    {past : List α} {s : σ} (all : ∀ a ∈ past, done a s) :
    answers step (unmarked (resends step commits past requests s) requests) s =
      unmarked (resends step commits past requests s) (answers step requests s) := by
  induction requests generalizing past s with
  | nil => rfl
  | cons b rest ih =>
    have tail := ih (remembers.next all b)
    rw [resends, answers]
    by_cases again : b ∈ past
    · have same := remembers.silent b s (all b again)
      rw [decide_eq_true again, unmarked, unmarked]
      calc
        _ = answers step (unmarked (resends step commits _ rest (step b s).2) rest)
            (step b s).2 := by rw [same]
        _ = unmarked (resends step commits _ rest (step b s).2) (answers step rest (step b s).2) :=
          tail
    · rw [decide_eq_false again, unmarked, unmarked, answers]
      exact congrArg _ tail

end Taper.Replay
