import Mathlib.Tactic.Common

set_option autoImplicit false

/-!
# Services that remember requests by a key

When a key is found recorded, some earlier move of the run has recorded it, and
the request which that move processed came under the same key as the service
stores it.
-/
namespace Taper.KeyedService

structure KeyedRequest (τ ρ : Type) where
  tenantID : τ
  key : String
  payload : ρ
  deriving DecidableEq

/-- A key is recorded by the request that comes under it, and a request is
answered as a repetition only under a recorded key. -/
structure Service (σ α τ ρ : Type) where
  next : σ → α → Option σ
  request : σ → α → Option (KeyedRequest τ ρ)
  recorded : σ → τ → String → Prop
  repeated : σ → α → Prop
  own : ∀ s a s' t k, next s a = some s' → ¬recorded s t k → recorded s' t k →
    ∃ q, request s a = some q ∧ q.tenantID = t ∧ q.key = k
  seen : ∀ s a q, repeated s a → request s a = some q → recorded s q.tenantID q.key

namespace Service

variable {σ α τ ρ : Type} (S : Service σ α τ ρ)

def run : List α → σ → Option σ
  | [], s => some s
  | a :: rest, s => (S.next s a).bind (run rest)

def requests : List α → σ → List (KeyedRequest τ ρ)
  | [], _ => []
  | a :: rest, s => (S.request s a).toList ++
    match S.next s a with
    | some s' => requests rest s'
    | none => []

def Recorder (q : KeyedRequest τ ρ) (moves : List α) (start : σ) : Prop :=
  ∃ before a after s s', moves = before ++ a :: after ∧ S.run before start = some s ∧
    S.request s a = some q ∧ S.next s a = some s' ∧ ¬S.recorded s q.tenantID q.key ∧
    S.recorded s' q.tenantID q.key

variable {S} {q : KeyedRequest τ ρ} {moves : List α} {start s : σ}

theorem Recorder.cons {a : α} {mid : σ} (step : S.next start a = some mid)
    (later : S.Recorder q moves mid) : S.Recorder q (a :: moves) start := by
  obtain ⟨before, b, after, u, u', split, run, rest⟩ := later
  refine ⟨a :: before, b, after, u, u', by rw [split]; rfl, ?_, rest⟩
  rw [Service.run, step]
  exact run

theorem Recorder.mem (recorder : S.Recorder q moves start) : q ∈ S.requests moves start := by
  obtain ⟨before, a, after, u, u', rfl, run, request, -, -, -⟩ := recorder
  induction before generalizing start with
  | nil =>
    cases run
    simp [requests, request]
  | cons b rest ih =>
    obtain ⟨mid, step, run⟩ := Option.bind_eq_some_iff.1 run
    simp only [List.cons_append, requests, step, List.mem_append]
    exact .inr (ih run)

theorem recorder_of_recorded {t : τ} {k : String} (run : S.run moves start = some s)
    (new : ¬S.recorded start t k) (found : S.recorded s t k) :
    ∃ q, q.tenantID = t ∧ q.key = k ∧ S.Recorder q moves start := by
  induction moves generalizing start with
  | nil =>
    cases run
    exact absurd found new
  | cons a rest ih =>
    obtain ⟨mid, step, tail⟩ := Option.bind_eq_some_iff.1 run
    by_cases early : S.recorded mid t k
    · obtain ⟨q, request, rfl, rfl⟩ := S.own start a mid t k step new early
      exact ⟨q, rfl, rfl, [], a, rest, start, mid, rfl, rfl, request, step, new, early⟩
    · obtain ⟨q, tenant, key, recorder⟩ := ih tail early
      exact ⟨q, tenant, key, recorder.cons step⟩

variable (S) in
/-- Whenever a request is answered as a repetition, it repeats the request that
recorded its key, if no other request of the run came under the key. -/
def TrueRepeats : Prop :=
  ∀ start moves s a q, S.run moves start = some s → S.request s a = some q → S.repeated s a →
    ¬S.recorded start q.tenantID q.key →
    (∀ p ∈ S.requests moves start, p.tenantID = q.tenantID → p.key = q.key →
      p.payload = q.payload) → S.Recorder q moves start

variable (S) in
theorem trueRepeats : S.TrueRepeats := by
  intro start moves s a q run request repeated new same
  obtain ⟨p, tenant, key, recorder⟩ := recorder_of_recorded run new (S.seen s a q repeated request)
  have payload := same p recorder.mem tenant key
  have equal : p = q := by
    cases p
    cases q
    simp_all
  exact equal ▸ recorder

end Service

end Taper.KeyedService
