import Taper.EdgeRuns

set_option autoImplicit false

/-!
# How often the services are called

A request that is let through for a tenant makes at most one call, for this
tenant, so the limiter bounds the calls that reach the services.
-/
namespace Taper.Edge
open Gateway Program RateLimit
open TenantRuns (neighbour)

def earns (tenant : String) : (o : Op) → Resp o → Bool
  | .take key, d => key = tenant ∧ d.allowed = true
  | _, _ => false

def spends (tenant : String) : Op → Bool
  | .send rpc => rpc.tenantID = tenant
  | _ => false

section Requests

variable {w : Wiring} {tenant : String} {rpc : Rpc} {n : ℕ} {α : Type}

/-- The breaker's part of a call without the call. -/
theorem carried_within {p : Prog BreakerCalls.Op BreakerCalls.Resp α}
    (quiet : Safe (fun _ _ => True) (fun o => o = .call) (fun _ => True) p) :
    Within (earns tenant) (spends tenant) n (p.interpret (carry w rpc)) := by
  have each : ∀ o, ¬o = BreakerCalls.Op.call → Safe (fun _ _ => True)
      (fun o => spends tenant o = true) (fun _ => True) (carry w rpc o) := by
    intro o other
    cases o with
    | call => exact absurd rfl other
    | _ => exact ⟨Bool.false_ne_true, fun _ _ => trivial⟩
  exact within_of_safe (safe_interpret each quiet)

theorem invoke_within (paid : rpc.tenantID = tenant → 0 < n) :
    Within (earns tenant) (spends tenant) n (invoke w rpc) := by
  refine ⟨(by intro pays; cases pays), fun refused => ?_⟩
  cases refused with
  | some err =>
    exact ⟨(by intro pays; cases pays), fun _ => trivial⟩
  | none =>
    refine ⟨fun pays => paid (of_decide_eq_true pays), fun number => ?_⟩
    refine ⟨(by intro pays; cases pays), fun res => ?_⟩
    refine carried_within ?_
    cases res with
    | error err =>
      dsimp only [Prog.bind, Except.map]
      split <;> exact ⟨BreakerCalls.Op.noConfusion, fun _ _ =>
        ⟨BreakerCalls.Op.noConfusion, fun _ _ => trivial⟩⟩
    | ok resp =>
      refine ⟨BreakerCalls.Op.noConfusion, fun _ _ => ⟨BreakerCalls.Op.noConfusion, fun _ _ => ?_⟩⟩
      dsimp only [Prog.bind, Except.map]
      split <;> trivial

theorem pass_within {r : HttpRequest} {ctx : Passage}
    (paid : ∀ h claims rpc, ctx = .next claims →
      w.mux.dispatch r.head.method r.head.url.escapedPath = some h →
      message w h ⟨r.id, r.body, r.idempotencyKey, claims⟩ = .ok rpc → rpc.tenantID = tenant →
      0 < n) :
    Within (earns tenant) (spends tenant) n (pass w r ctx) := by
  cases ctx with
  | refused refusal => trivial
  | next claims =>
    unfold pass
    dsimp only
    cases routed : w.mux.dispatch r.head.method r.head.url.escapedPath with
    | none => trivial
    | some h =>
      dsimp only
      cases made : message w h ⟨r.id, r.body, r.idempotencyKey, claims⟩ with
      | error e => trivial
      | ok rpc => exact within_map (invoke_within (paid h claims rpc rfl routed made))

/-- A request starts with nothing and calls only after it has been let through. -/
theorem handle_within (r : HttpRequest) :
    Within (earns tenant) (spends tenant) 0 (handle w r) := by
  refine ⟨(by intro pays; cases pays), fun now => ?_⟩
  show Within _ _ 0 (Prog.bind (limited w now r.head (limitKey w now r.head)) (pass w r))
  cases key : limitKey w now r.head with
  | none =>
    refine pass_within fun h claims rpc next routed made same => ?_
    obtain ⟨-, limited, -⟩ := pass_permits next routed made
    rw [key] at limited
    cases limited
  | some name =>
    refine ⟨(by intro pays; cases pays), fun d => ?_⟩
    refine pass_within fun h claims rpc next routed made same => ?_
    obtain ⟨-, limited, allowed⟩ := pass_permits next routed made
    rw [key] at limited
    cases limited
    simp [earns, same, allowed]

theorem task_within (task : Task) : Within (earns tenant) (spends tenant) 0 (task.code w) := by
  have quiet : (∀ r, task ≠ .http r) →
      Within (earns tenant) (spends tenant) 0 (task.code w) := by
    intro other
    have safe : Safe (fun _ _ => True) (fun o => spends tenant o = true) (fun _ => True)
        (task.code w) := by
      refine task_safe Bool.false_ne_true (fun _ => Bool.false_ne_true) (fun o mine => ?_)
        fun r http => absurd http (other r)
      cases o with
      | send rpc => cases mine
      | _ => exact Bool.false_ne_true
    exact within_of_safe safe
  cases task with
  | http r => exact within_map (handle_within r)
  | _ => exact quiet fun r => Task.noConfusion

end Requests

section Limiter

variable {conv : Conversion} {l : Limiter} {rate burst : ℚ}

theorem after_append (l : Limiter) (calls later : List RateLimit.Call) :
    l.after conv (calls ++ later) = (l.after conv calls).after conv later := by
  induction calls generalizing l with
  | nil => rfl
  | cons c rest ih => exact ih _

theorem decisions_append (l : Limiter) (calls later : List RateLimit.Call) :
    l.decisions conv (calls ++ later) =
      l.decisions conv calls ++ (l.after conv calls).decisions conv later := by
  induction calls generalizing l with
  | nil => rfl
  | cons c rest ih => exact congrArg _ (ih _)

theorem decisions_calls (conv : Conversion) (l : Limiter) (calls : List RateLimit.Call) :
    (l.decisions conv calls).map (·.1) = calls := by
  induction calls generalizing l with
  | nil => rfl
  | cons c rest ih => exact congrArg _ (ih _)

theorem instant_mono {u v : ℤ} (le : u ≤ v) : instant u ≤ instant v := by
  unfold instant
  gcongr

end Limiter

def decided (w : Wiring) (pool : EdgePool) : Move Task Choice → List (RateLimit.Call × Decision)
  | .step i c =>
    match pool.threads i with
    | some (.step o _) =>
      pool.state.limiter.decisions w.conv (o.asks (pool.state.now + c.elapsed) c.order)
    | _ => []
  | _ => []

def letThrough (tenant : String) (d : RateLimit.Call × Decision) : Bool :=
  d.1.tenant = tenant ∧ d.2.allowed = true

def Shared.callsOf (s : Shared) (tenant : String) : ℕ :=
  s.messages.countP fun rpc => rpc.tenantID = tenant

section Counts

variable {w : Wiring} {tenant : String} {me : ℕ} {o : Op} {c : Choice} {s s' : Shared} {r : Resp o}

theorem countP_single {α : Type} (p : α → Bool) (a : α) : [a].countP p = (p a).toNat := by
  cases here : p a with
  | false => simp [here]
  | true => simp [here]

theorem exec_earns (h : (machine w).exec me o c s = some (r, s')) :
    (earns tenant o r).toNat = (s.limiter.decisions w.conv
      (o.asks (s.now + c.elapsed) c.order)).countP (letThrough tenant) := by
  cases o with
  | take key =>
    cases h
    exact (countP_single _ _).symm
  | _ => rfl

theorem exec_callsOf (h : (machine w).exec me o c s = some (r, s')) :
    s'.callsOf tenant = s.callsOf tenant + (spends tenant o).toNat := by
  rw [Shared.callsOf, (exec_effect h).2.1, List.countP_append]
  refine congrArg _ ?_
  cases o with
  | send rpc => exact countP_single _ rpc
  | _ => rfl

end Counts

section Runs

variable {w : Wiring} {tenant : String} {start : Shared}

/-- The limiter is what its decisions have made of it, no decision lies outside the
run, and the calls of the tenant are covered by what it was let through. -/
structure Metered (w : Wiring) (tenant : String) (start : Shared)
    (past : List (RateLimit.Call × Decision)) (pool : EdgePool) : Prop where
  history : past = start.limiter.decisions w.conv (past.map (·.1))
  limiter : pool.state.limiter = start.limiter.after w.conv (past.map (·.1))
  ordered : (past.map (·.1)).Pairwise fun c c' => c.now ≤ c'.now
  within : ∀ d ∈ past, start.now ≤ d.1.now ∧ d.1.now ≤ pool.state.now
  forward : start.now ≤ pool.state.now
  covered : Covered (earns tenant) (spends tenant)
    (start.callsOf tenant + past.countP (letThrough tenant)) (pool.state.callsOf tenant) pool

theorem asks_now {o : Op} {now : ℤ} {order : Order} {call : RateLimit.Call}
    (member : call ∈ o.asks now order) : call.now = now := by
  cases o with
  | take key => rw [List.mem_singleton.1 member]
  | _ => cases member

theorem asks_ordered (o : Op) (now : ℤ) (order : Order) :
    (o.asks now order).Pairwise fun c c' => c.now ≤ c'.now := by
  cases o with
  | take key => exact List.pairwise_singleton _ _
  | _ => exact .nil

theorem next_metered {past : List (RateLimit.Call × Decision)} {pool after : EdgePool}
    {m : Move Task Choice} (inv : Metered w tenant start past pool)
    (next : pool.next (machine w) (Task.code w) m = some after) :
    Metered w tenant start (past ++ decided w pool m) after := by
  obtain ⟨history, limiter, ordered, within, forward, covered⟩ := inv
  rcases Pool.next_cases next with ⟨i, task, rfl, -, rfl⟩ |
      ⟨i, c, o, k, r, s, rfl, here, run, rfl⟩ | ⟨i, rfl, -, rfl⟩
  · have silent : decided w pool (.spawn i task) = [] := rfl
    rw [silent, List.append_nil]
    exact ⟨history, limiter, ordered, within, forward, covered.spawn (task_within task)⟩
  · have told : decided w pool (.step i c) = pool.state.limiter.decisions w.conv
        (o.asks (pool.state.now + c.elapsed) c.order) := by
      simp only [decided, here]
    have passed := (exec_effect run).1
    have calls : (past ++ decided w pool (.step i c)).map (·.1) =
        past.map (·.1) ++ o.asks (pool.state.now + c.elapsed) c.order := by
      rw [List.map_append, told, decisions_calls]
    refine ⟨?_, ?_, ?_, fun d member => ?_, ?_, ?_⟩
    · rw [calls, decisions_append, ← history, ← limiter, told]
    · rw [calls, after_append, ← limiter, Pool.set_state, (exec_effect run).2.2.1]
    · rw [calls]
      refine List.pairwise_append.2 ⟨ordered, asks_ordered o _ _, fun c old c' new_ => ?_⟩
      obtain ⟨d, there, rfl⟩ := List.mem_map.1 old
      have before := (within d there).2
      rw [asks_now new_]
      omega
    · rw [Pool.set_state]
      rcases List.mem_append.1 member with old | new_
      · have before := within d old
        omega
      · have asked : d.1 ∈ o.asks (pool.state.now + c.elapsed) c.order := by
          rw [← decisions_calls w.conv pool.state.limiter
            (o.asks (pool.state.now + c.elapsed) c.order), ← told]
          exact List.mem_map_of_mem new_
        have time := asks_now asked
        omega
    · rw [Pool.set_state]
      omega
    · have step := covered.step (s := s) here r
      rw [exec_earns run, ← exec_callsOf run, ← told, Nat.add_assoc, ← List.countP_append] at step
      exact step
  · have silent : decided w pool (.stop i) = [] := rfl
    rw [silent, List.append_nil]
    exact ⟨history, limiter, ordered, within, forward, covered.stop⟩

end Runs

/-- Without a bucket floor, each tenant's calls to the services are at most as many
as the capacity and the rate of the limiter allow for the time of the run, whatever
the interleaving of its requests with those of others. -/
theorem calls_rate_bounded (w : Wiring) (rate burst : ℚ) (rate_pos : 0 < rate)
    (burst_pos : 0 < burst) (tenant : String) (start : Shared)
    (free : Free rate burst start.limiter)
    (filled : ∀ b, start.limiter.buckets.lookup tenant = some b →
      0 ≤ b.tokens ∧ b.last ≤ start.now) (moves : List (Move Task Choice)) (pool : EdgePool)
    (run : Pool.run (machine w) (Task.code w) moves (idle start) = some pool) :
    (pool.state.callsOf tenant : ℚ) ≤ start.callsOf tenant + burst +
      rate * (instant pool.state.now - instant start.now) := by
  obtain ⟨past, inv⟩ : ∃ past, Metered w tenant start past pool := by
    refine ⟨_, Pool.trace_kept (Metered w tenant start)
      (fun _ _ _ _ inv next => next_metered inv next) run ?_⟩
    exact ⟨rfl, rfl, .nil, fun d none_ => (by cases none_), le_refl _,
      covered_idle (fun _ => rfl) _⟩
  have filledUp : ∀ b, start.limiter.buckets.lookup tenant = some b →
      0 ≤ b.tokens ∧ ∀ c ∈ past.map (·.1), b.last ≤ c.now := by
    intro b used
    refine ⟨(filled b used).1, fun c member => ?_⟩
    obtain ⟨d, there, rfl⟩ := List.mem_map.1 member
    exact (filled b used).2.trans (inv.within d there).1
  have bound := admittedIn_le w.conv rate_pos burst_pos free inv.ordered filledUp
    (instant_mono inv.forward)
  rw [← inv.history] at bound
  have all : past.countP (letThrough tenant) =
      past.countP (admittedIn tenant (instant start.now) (instant pool.state.now)) := by
    refine List.countP_congr fun d member => ?_
    obtain ⟨low, high⟩ := inv.within d member
    simp [letThrough, admittedIn, instant_mono low, instant_mono high]
  have covered : (pool.state.callsOf tenant : ℚ) ≤
      start.callsOf tenant + past.countP (letThrough tenant) := by
    exact_mod_cast inv.covered.le
  rw [all] at covered
  linarith

theorem calls_rate_bounded_adjust : ∃ pool,
    Pool.run (machine sampleWiring) (Task.code sampleWiring) sampleMoves (idle sampleStart) =
      some pool ∧ pool.state.callsOf neighbour.text = 1 ∧
    (pool.state.callsOf neighbour.text : ℚ) ≤ sampleStart.callsOf neighbour.text + 3 +
      10 * (instant pool.state.now - instant sampleStart.now) := by
  obtain ⟨pool, run, seen⟩ := Option.map_eq_some_iff.1 sampleMoves_run
  have messages := congrArg Prod.fst seen
  refine ⟨pool, run, ?_, ?_⟩
  · rw [Shared.callsOf, show pool.state.messages = _ from messages]
    decide
  · refine calls_rate_bounded sampleWiring 10 3 (by decide) (by decide) neighbour.text sampleStart
      ⟨rfl, rfl, le_refl 0⟩ (fun b used => ?_) sampleMoves pool run
    cases used

end Taper.Edge
