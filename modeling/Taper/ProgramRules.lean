import Mathlib.Data.Finsupp.Basic
import Taper.Program

set_option autoImplicit false

/-!
# Programs inside programs, and what a program may spend

A program over one set of operations is carried out by programs over another. A
program that pays for an operation with the answers it was given never gets
ahead of them.
-/
namespace Taper.Program

section Interpretation

variable {Op Op' : Type} {Resp : Op → Type} {Resp' : Op' → Type} {α : Type}

def Prog.interpret (f : (o : Op) → Prog Op' Resp' (Resp o)) :
    Prog Op Resp α → Prog Op' Resp' α
  | .pure a => .pure a
  | .step o k => (f o).bind fun r => (k r).interpret f

variable {ok : (o : Op) → Resp o → Prop} {bad : Op → Prop} {ok' : (o : Op') → Resp' o → Prop}
  {bad' : Op' → Prop} {Q : α → Prop}

theorem safe_interpret {f : (o : Op) → Prog Op' Resp' (Resp o)}
    (each : ∀ o, ¬bad o → Safe ok' bad' (ok o) (f o)) {p : Prog Op Resp α}
    (h : Safe ok bad Q p) : Safe ok' bad' Q (p.interpret f) := by
  induction p with
  | pure a => exact h
  | step o k ih => exact safe_bind (each o h.1) fun r answer => ih r (h.2 r answer)

theorem safe_interpret_all {f : (o : Op) → Prog Op' Resp' (Resp o)}
    (each : ∀ o, Safe ok' bad' (fun _ => True) (f o)) (p : Prog Op Resp α) :
    Safe ok' bad' (fun _ => True) (p.interpret f) := by
  induction p with
  | pure a => trivial
  | step o k ih => exact safe_bind (each o) fun r _ => ih r

end Interpretation

section Quota

variable {Op : Type} {Resp : Op → Type} {α β σ : Type}
  (earns : (o : Op) → Resp o → Bool) (spends : Op → Bool)

/-- With `n` to spend at the start, the program spends no more than it has. -/
def Within : ℕ → Prog Op Resp α → Prop
  | _, .pure _ => True
  | n, .step o k => (spends o = true → 0 < n) ∧
    ∀ r, Within (n - (spends o).toNat + (earns o r).toNat) (k r)

variable {earns spends}

theorem within_of_safe {n : ℕ} {Q : α → Prop} {p : Prog Op Resp α}
    (h : Safe (fun _ _ => True) (fun o => spends o = true) Q p) : Within earns spends n p := by
  induction p generalizing n with
  | pure a => trivial
  | step o k ih => exact ⟨fun pays => absurd pays h.1, fun r => ih r (h.2 r trivial)⟩

theorem within_map {n : ℕ} {p : Prog Op Resp α} {f : α → β} (h : Within earns spends n p) :
    Within earns spends n (p >>= fun a => pure (f a)) := by
  induction p generalizing n with
  | pure a => trivial
  | step o k ih => exact ⟨h.1, fun r => ih r (h.2 r)⟩

variable (earns spends)

/-- What the threads of a pool may still spend is covered by what has been earned
and not spent. -/
def Covered (earned spent : ℕ) (pool : Pool Op Resp σ) : Prop :=
  ∃ budget : ℕ →₀ ℕ, (∀ i p, pool.threads i = some p → Within earns spends (budget i) p) ∧
    (spent + budget.sum fun _ n => n) ≤ earned

variable {earns spends} {earned spent i : ℕ} {pool : Pool Op Resp σ} {s : σ}

theorem Covered.le (h : Covered earns spends earned spent pool) : spent ≤ earned := by
  obtain ⟨budget, -, total⟩ := h
  omega

theorem covered_idle (idle : ∀ i, pool.threads i = none) (earned : ℕ) :
    Covered earns spends earned earned pool := by
  refine ⟨0, fun i p here => ?_, ?_⟩
  · rw [idle i] at here
    cases here
  · rw [Finsupp.sum_zero_index, Nat.add_zero]

theorem Covered.set {earned' spent' n : ℕ} {p : Option (Prog Op Resp Unit)} {budget : ℕ →₀ ℕ}
    (threads : ∀ i p, pool.threads i = some p → Within earns spends (budget i) p)
    (own : ∀ q, p = some q → Within earns spends n q)
    (total : (spent' + budget.sum fun _ n => n) + n ≤ earned' + budget i) :
    Covered earns spends earned' spent' (pool.set i p s) := by
  refine ⟨budget.update i n, ?_, ?_⟩
  · refine Pool.set_threads (fun q same => ?_) fun j q other here => ?_
    · rw [Finsupp.coe_update, Function.update_self]
      exact own q same
    · rw [Finsupp.coe_update, Function.update_of_ne other]
      exact threads j q here
  · have moved := Finsupp.sum_update_add budget i n (fun _ n => n) (fun _ => rfl) fun _ _ _ => rfl
    omega

theorem Covered.spawn (h : Covered earns spends earned spent pool) {p : Prog Op Resp Unit}
    (own : Within earns spends 0 p) :
    Covered earns spends earned spent (pool.set i (some p) s) := by
  obtain ⟨budget, threads, total⟩ := h
  refine Covered.set threads (n := 0) (fun q same => ?_) ?_
  · cases same
    exact own
  · omega

theorem Covered.stop (h : Covered earns spends earned spent pool) :
    Covered earns spends earned spent (pool.set i none s) := by
  obtain ⟨budget, threads, total⟩ := h
  refine Covered.set threads (n := 0) (fun q same => by cases same) ?_
  omega

theorem Covered.step (h : Covered earns spends earned spent pool) {o : Op}
    {k : Resp o → Prog Op Resp Unit} (here : pool.threads i = some (.step o k)) (r : Resp o) :
    Covered earns spends (earned + (earns o r).toNat) (spent + (spends o).toNat)
      (pool.set i (some (k r)) s) := by
  obtain ⟨budget, threads, total⟩ := h
  obtain ⟨pays, later⟩ := threads i _ here
  refine Covered.set threads (n := budget i - (spends o).toNat + (earns o r).toNat)
    (fun q same => ?_) ?_
  · cases same
    exact later r
  · have paid : (spends o).toNat ≤ budget i := by
      cases spend : spends o with
      | false => exact Nat.zero_le _
      | true => exact pays spend
    omega

end Quota

section Runs

variable {Op : Type} {Resp : Op → Type} {σ Choice H : Type} {M : Machine Op Resp σ Choice}
  {program : H → Prog Op Resp Unit} {moves : List (Move H Choice)} {pool last : Pool Op Resp σ}

structure Machine.Forward (M : Machine Op Resp σ Choice) (R : σ → σ → Prop) : Prop where
  refl : ∀ s, R s s
  trans : ∀ {s t u}, R s t → R t u → R s u
  exec : ∀ {i o c s r t}, M.exec i o c s = some (r, t) → R s t
  stop : ∀ i s, R s (M.stop i s)

theorem Machine.Forward.run {R : σ → σ → Prop} (forward : M.Forward R)
    (run : Pool.run M program moves pool = some last) : R pool.state last.state := by
  induction moves generalizing pool with
  | nil =>
    cases run
    exact forward.refl _
  | cons m rest ih =>
    obtain ⟨mid, made, run⟩ := Pool.run_cons run
    refine forward.trans ?_ (ih run)
    rcases Pool.next_cases made with ⟨i, x, -, -, rfl⟩ | ⟨i, c, o, k, r, t, -, -, ran, rfl⟩ |
        ⟨i, -, -, rfl⟩
    · exact forward.refl _
    · exact forward.exec ran
    · exact forward.stop i _

/-- If every program of a run is safe, and every operation that is not bad keeps `J`
and answers as the programs expect, then `J` holds in the end. An operation also
knows that its state comes before the last one. -/
theorem Machine.Forward.run_safe {R : σ → σ → Prop} (forward : M.Forward R)
    {ok : (o : Op) → Resp o → Prop} {bad : Op → Prop} {J : σ → Prop}
    (programs : ∀ i h, Move.spawn i h ∈ moves → Safe ok bad (fun _ => True) (program h))
    (exec : ∀ i o c s r t, M.exec i o c s = some (r, t) → R t last.state → ¬bad o → J s →
      J t ∧ ok o r)
    (stop : ∀ i s, J s → J (M.stop i s))
    (threads : ∀ i p, pool.threads i = some p → Safe ok bad (fun _ => True) p)
    (start : J pool.state) (run : Pool.run M program moves pool = some last) : J last.state := by
  induction moves generalizing pool with
  | nil =>
    cases run
    exact start
  | cons m rest ih =>
    obtain ⟨mid, made, run⟩ := Pool.run_cons run
    have later := forward.run run
    have others := fun i h member => programs i h (List.mem_cons_of_mem m member)
    rcases Pool.next_cases made with ⟨i, x, rfl, -, rfl⟩ |
        ⟨i, c, o, k, r, t, rfl, here, ran, rfl⟩ | ⟨i, rfl, -, rfl⟩
    · exact ih others (Pool.set_some (programs i x List.mem_cons_self) threads) start run
    · obtain ⟨good, rest⟩ := threads i _ here
      obtain ⟨kept, answer⟩ := exec i o c _ r t ran later good start
      exact ih others (Pool.set_some (rest r answer) threads) kept run
    · exact ih others (Pool.set_none threads) (stop i _ start) run

end Runs

end Taper.Program
