import Taper.CircuitBreaker
import Taper.Gateway
import Taper.Program

set_option autoImplicit false

/-!
# Concurrent calls through a breaker

A success recorded late closes an open breaker, and a half-open one admits
whoever asks before the probe is back.
-/
namespace Taper.BreakerCalls
open Program CircuitBreaker Gateway

inductive StatusCode where
  | canceled
  | unknown
  | invalidArgument
  | deadlineExceeded
  | notFound
  | alreadyExists
  | permissionDenied
  | resourceExhausted
  | failedPrecondition
  | aborted
  | outOfRange
  | unimplemented
  | internal
  | unavailable
  | dataLoss
  | unauthenticated
  deriving DecidableEq

def StatusCode.text : StatusCode → String
  | .canceled => "Canceled"
  | .unknown => "Unknown"
  | .invalidArgument => "InvalidArgument"
  | .deadlineExceeded => "DeadlineExceeded"
  | .notFound => "NotFound"
  | .alreadyExists => "AlreadyExists"
  | .permissionDenied => "PermissionDenied"
  | .resourceExhausted => "ResourceExhausted"
  | .failedPrecondition => "FailedPrecondition"
  | .aborted => "Aborted"
  | .outOfRange => "OutOfRange"
  | .unimplemented => "Unimplemented"
  | .internal => "Internal"
  | .unavailable => "Unavailable"
  | .dataLoss => "DataLoss"
  | .unauthenticated => "Unauthenticated"

inductive CallError where
  | status (code : StatusCode) (message : String)
  | other (text : String)

def CallError.code : CallError → StatusCode
  | .status code _ => code
  | .other _ => .unknown

def httpStatusFromCode : StatusCode → ℕ
  | .invalidArgument => 400
  | .notFound => 404
  | .alreadyExists => 409
  | .failedPrecondition => 409
  | .unauthenticated => 401
  | .permissionDenied => 403
  | .resourceExhausted => 429
  | .unavailable => 503
  | .deadlineExceeded => 504
  | _ => 500

def errorFromGRPC : CallError → HttpError
  | .other text => ⟨500, "unknown", text⟩
  | .status code message => ⟨httpStatusFromCode code, code.text, message⟩

inductive Op where
  | allow
  | call
  | recordSuccess
  | recordFailure
  | state

abbrev Resp : Op → Type
  | .allow => Option String
  | .call => Except CallError (Option String)
  | .recordSuccess => Unit
  | .recordFailure => Unit
  | .state => State

def allow : Prog Op Resp (Option String) := Prog.perform Op.allow

def call : Prog Op Resp (Except CallError (Option String)) := Prog.perform Op.call

def recordSuccess : Prog Op Resp Unit := Prog.perform Op.recordSuccess

def recordFailure : Prog Op Resp Unit := Prog.perform Op.recordFailure

def publishBreaker : Prog Op Resp Unit := do
  let _ ← (Prog.perform Op.state : Prog Op Resp State)
  return

def invoke : Prog Op Resp (Except HttpError String) := do
  match ← allow with
  | some err =>
    publishBreaker
    return .error ⟨503, "unavailable", err⟩
  | none =>
    match ← call with
    | .error err =>
      -- only errors of the transport count against the dependency
      if err.code = .unavailable ∨ err.code = .deadlineExceeded then recordFailure
      else recordSuccess
      publishBreaker
      return .error (errorFromGRPC err)
    | .ok resp =>
      recordSuccess
      publishBreaker
      match resp with
      | some body => return .ok body
      | none => return .error ⟨500, "internal", "response encoding failed"⟩

def code (_ : Unit) : Prog Op Resp Unit := do
  let _ ← invoke
  return

structure Shared where
  breaker : Breaker
  now : ℤ

structure Choice where
  elapsed : ℕ
  answer : Except CallError (Option String)

def exec (o : Op) (c : Choice) (s : Shared) : Resp o × Shared :=
  let now := s.now + c.elapsed
  match o with
  | .allow => ((s.breaker.allow now).1, ⟨(s.breaker.allow now).2, now⟩)
  | .call => (c.answer, ⟨s.breaker, now⟩)
  | .recordSuccess => ((), ⟨s.breaker.recordSuccess, now⟩)
  | .recordFailure => ((), ⟨s.breaker.recordFailure now, now⟩)
  | .state => (s.breaker.state, ⟨s.breaker, now⟩)

def machine : Machine Op Resp Shared Choice where
  exec _ o c s := some (exec o c s)
  stop _ s := s

abbrev CallPool := Pool Op Resp Shared

def idle (cfg : Config) (start : ℤ) : CallPool := ⟨fun _ => none, new cfg, start⟩

def Op.event (now : ℤ) : Op → List Event
  | .allow => [⟨.allow, now⟩]
  | .recordSuccess => [⟨.recordSuccess, now⟩]
  | .recordFailure => [⟨.recordFailure, now⟩]
  | _ => []

def told (pool : CallPool) : Move Unit Choice → List Event
  | .step i c =>
    match pool.threads i with
    | some (.step o _) => o.event (pool.state.now + c.elapsed)
    | _ => []
  | _ => []

def calls (moves : List (Move Unit Choice)) (pool : CallPool) : List Event :=
  Pool.trace machine code told moves pool

section Runs

variable {cfg : Config} {past : List Event} {pool after : CallPool}

/-- The breaker is what its calls have made of it, and no call is later than the
last reading of the clock. -/
structure Inv (cfg : Config) (past : List Event) (pool : CallPool) : Prop where
  history : pool.state.breaker = (new cfg).replay past
  ordered : past.Pairwise fun e e' => e.time ≤ e'.time
  reached : ∀ e ∈ past, e.time ≤ pool.state.now

theorem exec_event (o : Op) (c : Choice) (s : Shared) :
    (exec o c s).2.breaker = s.breaker.replay (o.event (s.now + c.elapsed)) ∧
      (exec o c s).2.now = s.now + c.elapsed := by
  cases o <;> exact ⟨rfl, rfl⟩

theorem event_time {o : Op} {now : ℤ} {e : Event} (member : e ∈ o.event now) : e.time = now := by
  cases o with
  | call => cases member
  | state => cases member
  | _ => rw [List.mem_singleton.1 member]

theorem event_ordered (o : Op) (now : ℤ) :
    (o.event now).Pairwise fun e e' => e.time ≤ e'.time := by
  cases o with
  | call => exact .nil
  | state => exact .nil
  | _ => exact List.pairwise_singleton _ _

theorem next_inv {m : Move Unit Choice} (inv : Inv cfg past pool)
    (next : pool.next machine code m = some after) : Inv cfg (past ++ told pool m) after := by
  rcases Pool.next_cases next with ⟨i, x, rfl, -, rfl⟩ | ⟨i, c, o, k, r, s, rfl, at_, run, rfl⟩ |
      ⟨i, rfl, -, rfl⟩
  · have silent : told pool (.spawn i x) = [] := rfl
    rw [silent, List.append_nil]
    exact ⟨inv.history, inv.ordered, inv.reached⟩
  · have here : told pool (.step i c) = o.event (pool.state.now + c.elapsed) := by
      simp only [told, at_]
    obtain ⟨breaker, now⟩ := exec_event o c pool.state
    have same : (exec o c pool.state).2 = s := congrArg Prod.snd (Option.some.inj run)
    rw [same] at breaker now
    rw [here]
    refine ⟨?_, ?_, fun e member => ?_⟩
    · rw [Pool.set_state, breaker, inv.history, replay_append]
    · refine List.pairwise_append.2 ⟨inv.ordered, event_ordered o _, fun e old e' new_ => ?_⟩
      have before := inv.reached e old
      rw [event_time new_]
      omega
    · rw [Pool.set_state, now]
      rcases List.mem_append.1 member with old | new_
      · have before := inv.reached e old
        omega
      · rw [event_time new_]
  · have silent : told pool (.stop i) = [] := rfl
    rw [silent, List.append_nil]
    exact ⟨inv.history, inv.ordered, inv.reached⟩

theorem run_inv {start : ℤ} {moves : List (Move Unit Choice)}
    (run : Pool.run machine code moves (idle cfg start) = some pool) :
    Inv cfg (calls moves (idle cfg start)) pool :=
  Pool.trace_kept (Inv cfg) (fun _ _ _ _ inv next => next_inv inv next) run
    ⟨rfl, .nil, nofun⟩

end Runs

section Cooldown

def opens (b : Breaker) (e : Event) : Bool :=
  e.call = .recordFailure ∧ b.state ≠ .opened ∧ (b.apply e).state = .opened

def successSince : Breaker → List Event → Bool → Bool
  | _, [], since => since
  | b, e :: rest, since =>
    successSince (b.apply e) rest
      (if opens b e then false else since || decide (e.call = .recordSuccess))

/-- The breaker is opened at `t`, and `Allow` is called at `t'` before the cooldown
is over. -/
structure Cooling (cfg : Config) (calls before between : List Event) (t t' : ℤ) : Prop where
  within : ∃ rest, calls = before ++ ⟨.recordFailure, t⟩ :: (between ++ ⟨.allow, t'⟩ :: rest)
  opening : opens ((new cfg).replay before) ⟨.recordFailure, t⟩ = true
  early : t' < t + cfg.defaulted.cooldown.toInt

def StaysOpen (cfg : Config) (calls : List Event) : Prop :=
  ∀ before between t t', Cooling cfg calls before between t t' →
    (((new cfg).replay (before ++ ⟨.recordFailure, t⟩ :: between)).allow t').1 ≠ none

/-- No call asks while the breaker cools down and a success has been recorded
since it was opened. -/
def Undisturbed (cfg : Config) (calls : List Event) : Prop :=
  ∀ before between t t', Cooling cfg calls before between t t' →
    successSince ((new cfg).replay (before ++ [⟨.recordFailure, t⟩])) between false = false

variable {cfg : Config} {b : Breaker} {t t' : ℤ} {since : Bool}

def Phase (t : ℤ) (b : Breaker) (since : Bool) : Prop :=
  (b.state = .opened ∧ t ≤ b.openedAt ∧ since = false) ∨ (b.state = .closed ∧ since = true)

theorem apply_cfg (b : Breaker) (e : Event) : (b.apply e).cfg = b.cfg := by
  obtain ⟨call, u⟩ := e
  cases call with
  | allow =>
    rw [Breaker.apply, Breaker.allow]
    dsimp only
    split
    · rfl
    · split_ifs <;> rfl
    · rfl
  | recordSuccess => rfl
  | recordFailure =>
    rw [Breaker.apply, Breaker.recordFailure]
    dsimp only
    split
    · rfl
    · split_ifs <;> rfl
    · rfl

theorem replay_cfg (b : Breaker) (calls : List Event) : (b.replay calls).cfg = b.cfg := by
  induction calls generalizing b with
  | nil => rfl
  | cons e rest ih => exact (ih (b.apply e)).trans (apply_cfg b e)

theorem allow_refuses (cooldown : 0 < b.cfg.cooldown.toInt) (here : b.state = .opened)
    (early : t' < b.openedAt + b.cfg.cooldown.toInt) : b.allow t' = (some errOpen, b) := by
  have waits : ¬b.cfg.cooldown ≤ Times.sub t' b.openedAt := by
    rw [Times.le_sub_iff cooldown]
    omega
  rw [Breaker.allow, here]
  exact if_neg waits

theorem apply_phase {e : Event} (cooldown : 0 < b.cfg.cooldown.toInt)
    (phase : Phase t b since) (from_ : t ≤ e.time)
    (early : e.time < t + b.cfg.cooldown.toInt) :
    Phase t (b.apply e)
      (if opens b e then false else since || decide (e.call = .recordSuccess)) := by
  obtain ⟨call, u⟩ := e
  cases call with
  | allow =>
    have silent : opens b ⟨.allow, u⟩ = false := rfl
    rw [silent]
    rcases phase with ⟨here, opened, rfl⟩ | ⟨here, rfl⟩
    · dsimp only at early
      have refused : b.allow u = (some errOpen, b) := allow_refuses cooldown here (by omega)
      have same : b.apply ⟨.allow, u⟩ = b := congrArg Prod.snd refused
      rw [same]
      exact .inl ⟨here, opened, rfl⟩
    · have same : b.apply ⟨.allow, u⟩ = b := by
        rw [Breaker.apply, Breaker.allow, here]
      rw [same]
      exact .inr ⟨here, rfl⟩
  | recordSuccess =>
    have silent : opens b ⟨.recordSuccess, u⟩ = false := rfl
    rw [silent]
    exact .inr ⟨rfl, by simp⟩
  | recordFailure =>
    rcases phase with ⟨here, opened, rfl⟩ | ⟨here, rfl⟩
    · have same : b.apply ⟨.recordFailure, u⟩ = b := by
        rw [Breaker.apply, Breaker.recordFailure, here]
      have silent : opens b ⟨.recordFailure, u⟩ = false := by
        simp [opens, here]
      rw [same, silent]
      exact .inl ⟨here, opened, rfl⟩
    · by_cases reached : b.cfg.failureThreshold ≤ b.failures + 1
      · have next : b.apply ⟨.recordFailure, u⟩ =
            { b with failures := b.failures + 1, state := .opened, openedAt := u } := by
          rw [Breaker.apply, Breaker.recordFailure, here]
          exact if_pos reached
        have opening : opens b ⟨.recordFailure, u⟩ = true := by
          rw [opens, next, here]
          rfl
        rw [opening, next]
        exact .inl ⟨rfl, from_, rfl⟩
      · have next : b.apply ⟨.recordFailure, u⟩ = { b with failures := b.failures + 1 } := by
          rw [Breaker.apply, Breaker.recordFailure, here]
          exact if_neg reached
        have silent : opens b ⟨.recordFailure, u⟩ = false := by
          rw [opens, next, here]
          rfl
        rw [silent, next]
        exact .inr ⟨here, rfl⟩

theorem replay_phase {between : List Event} (cooldown : 0 < b.cfg.cooldown.toInt)
    (phase : Phase t b since)
    (times : ∀ e ∈ between, t ≤ e.time ∧ e.time < t + b.cfg.cooldown.toInt) :
    Phase t (b.replay between) (successSince b between since) := by
  induction between generalizing b since with
  | nil => exact phase
  | cons e rest ih =>
    obtain ⟨from_, early⟩ := times e List.mem_cons_self
    have same := apply_cfg b e
    refine ih (same ▸ cooldown) (apply_phase cooldown phase from_ early) fun e' member => ?_
    rw [same]
    exact times e' (List.mem_cons_of_mem e member)

/-- Within the cooldown a call is refused exactly if no success stands in between. -/
theorem phase_refuses (cooldown : 0 < b.cfg.cooldown.toInt) (phase : Phase t b since)
    (early : t' < t + b.cfg.cooldown.toInt) : (b.allow t').1 ≠ none ↔ since = false := by
  rcases phase with ⟨here, opened, rfl⟩ | ⟨here, rfl⟩
  · rw [allow_refuses cooldown here (by omega)]
    exact iff_of_true (Option.some_ne_none _) rfl
  · have admitted : (b.allow t').1 = none := by
      rw [Breaker.allow, here]
    exact iff_of_false (fun refused => refused admitted) (by decide)

theorem defaulted_positive (cfg : Config) : 0 < cfg.defaulted.cooldown.toInt := by
  unfold Config.defaulted
  dsimp only
  split_ifs with none
  · decide
  · exact Int64.lt_iff_toInt_lt.1 (Int64.not_le.1 none)

theorem opens_opened {e : Event} (opening : opens b e = true) :
    (b.apply e).state = .opened ∧ (b.apply e).openedAt = e.time := by
  obtain ⟨call, u⟩ := e
  simp only [opens, decide_eq_true_eq] at opening
  obtain ⟨rfl, before, opened⟩ := opening
  refine ⟨opened, ?_⟩
  rw [Breaker.apply, Breaker.recordFailure] at opened ⊢
  dsimp only at opened ⊢
  split at opened
  · rfl
  · rename_i here
    split_ifs at opened with reached
    · rw [if_pos reached]
    · rw [here] at opened
      cases opened
  · rename_i here
    exact absurd here before

theorem cooling_iff {calls before between : List Event}
    (ordered : calls.Pairwise fun e e' => e.time ≤ e'.time)
    (cooling : Cooling cfg calls before between t t') :
    (((new cfg).replay (before ++ ⟨.recordFailure, t⟩ :: between)).allow t').1 ≠ none ↔
      successSince ((new cfg).replay (before ++ [⟨.recordFailure, t⟩])) between false = false := by
  obtain ⟨⟨rest, rfl⟩, opening, early⟩ := cooling
  obtain ⟨-, ordered, -⟩ := List.pairwise_append.1 ordered
  obtain ⟨from_, ordered⟩ := List.pairwise_cons.1 ordered
  obtain ⟨-, -, until_⟩ := List.pairwise_append.1 ordered
  have last : (new cfg).replay (before ++ [⟨.recordFailure, t⟩]) =
      ((new cfg).replay before).apply ⟨.recordFailure, t⟩ := replay_append _ _ _
  have split : (new cfg).replay (before ++ ⟨.recordFailure, t⟩ :: between) =
      ((new cfg).replay (before ++ [⟨.recordFailure, t⟩])).replay between := by
    rw [last, replay_append]
    rfl
  obtain ⟨opened, at_⟩ := opens_opened opening
  rw [← last] at opened at_
  have same : ∀ calls, ((new cfg).replay calls).cfg = cfg.defaulted := replay_cfg (new cfg)
  have positive := defaulted_positive cfg
  have phase : Phase t ((new cfg).replay (before ++ [⟨.recordFailure, t⟩])) false :=
    .inl ⟨opened, at_.ge, rfl⟩
  rw [split]
  refine phase_refuses ?_ (replay_phase ?_ phase fun e member => ?_) ?_
  · rw [replay_cfg, same]
    exact positive
  · rw [same]
    exact positive
  · have low := from_ e (List.mem_append_left _ member)
    have high := until_ e member ⟨.allow, t'⟩ List.mem_cons_self
    rw [same]
    dsimp only at low high
    omega
  · rw [replay_cfg, same]
    exact early

/-- In every run of concurrent calls: no call is admitted while the breaker cools
down exactly if none asks after a success was recorded in that time. -/
theorem stays_open_iff (cfg : Config) (start : ℤ) (moves : List (Move Unit Choice))
    (pool : CallPool) (run : Pool.run machine code moves (idle cfg start) = some pool) :
    pool.state.breaker = (new cfg).replay (calls moves (idle cfg start)) ∧
    (StaysOpen cfg (calls moves (idle cfg start)) ↔
      Undisturbed cfg (calls moves (idle cfg start))) := by
  have ordered := (run_inv run).ordered
  refine ⟨(run_inv run).history, ?_, ?_⟩
  · intro stays before between t t' cooling
    exact (cooling_iff ordered cooling).1 (stays before between t t' cooling)
  · intro undisturbed before between t t' cooling
    exact (cooling_iff ordered cooling).2 (undisturbed before between t t' cooling)

theorem undisturbed_of_failures {calls : List Event}
    (none : ∀ e ∈ calls, e.call ≠ .recordSuccess) : Undisturbed cfg calls := by
  have silent : ∀ (between : List Event) (b : Breaker),
      (∀ e ∈ between, e.call ≠ .recordSuccess) → successSince b between false = false := by
    intro between
    induction between with
    | nil => exact fun _ _ => rfl
    | cons e rest ih =>
      intro b none
      have flag : (if opens b e then false else false || decide (e.call = .recordSuccess)) =
          false := by
        rw [decide_eq_false (none e List.mem_cons_self)]
        exact ite_self false
      rw [successSince, flag]
      exact ih _ fun e' member => none e' (List.mem_cons_of_mem e member)
  intro before between t t' cooling
  obtain ⟨⟨rest, rfl⟩, -, -⟩ := cooling
  refine silent between _ fun e member => none e ?_
  simp [member]

def down : Choice := ⟨1, .error (.status .unavailable "down")⟩

def well : Choice := ⟨1, .ok (some "")⟩

/-- Two calls are admitted, the first one fails and the second one answers as
given; then a third one asks. -/
def overlapping (second : Choice) : List (Move Unit Choice) :=
  [.spawn 0 (), .spawn 1 (), .spawn 2 (), .step 0 well, .step 1 well, .step 0 down, .step 0 down,
    .step 1 second, .step 1 second, .step 2 well]

def brittle : Config := ⟨1, 10⟩

theorem stays_open_failures :
    calls (overlapping down) (idle brittle 0) = [⟨.allow, 1⟩, ⟨.allow, 2⟩, ⟨.recordFailure, 4⟩,
      ⟨.recordFailure, 6⟩, ⟨.allow, 7⟩] ∧
    StaysOpen brittle (calls (overlapping down) (idle brittle 0)) := by
  have made : calls (overlapping down) (idle brittle 0) = [⟨.allow, 1⟩, ⟨.allow, 2⟩,
      ⟨.recordFailure, 4⟩, ⟨.recordFailure, 6⟩, ⟨.allow, 7⟩] := by decide +kernel
  have ends : (Pool.run machine code (overlapping down) (idle brittle 0)).isSome = true := by
    decide +kernel
  obtain ⟨pool, run⟩ := Option.isSome_iff_exists.1 ends
  refine ⟨made, (stays_open_iff brittle 0 (overlapping down) pool run).2.2
    (undisturbed_of_failures ?_)⟩
  rw [made]
  decide

/-- The breaker is opened at 4; the success of the second call at 6 closes it, and
the third one is admitted at 7, before the cooldown is over at 14. -/
theorem late_success_admits :
    calls (overlapping well) (idle brittle 0) = [⟨.allow, 1⟩, ⟨.allow, 2⟩, ⟨.recordFailure, 4⟩,
      ⟨.recordSuccess, 6⟩, ⟨.allow, 7⟩] ∧
    ¬StaysOpen brittle (calls (overlapping well) (idle brittle 0)) := by
  have made : calls (overlapping well) (idle brittle 0) = [⟨.allow, 1⟩, ⟨.allow, 2⟩,
      ⟨.recordFailure, 4⟩, ⟨.recordSuccess, 6⟩, ⟨.allow, 7⟩] := by decide +kernel
  refine ⟨made, fun stays => ?_⟩
  have cooling : Cooling brittle (calls (overlapping well) (idle brittle 0))
      [⟨.allow, 1⟩, ⟨.allow, 2⟩] [⟨.recordSuccess, 6⟩] 4 7 :=
    ⟨⟨[], made⟩, by decide, by decide⟩
  exact stays _ _ _ _ cooling (by decide)

end Cooldown

section Probe

def probes (b : Breaker) (e : Event) : Bool :=
  e.call = .allow ∧ b.state = .opened ∧ (b.apply e).state = .halfOpen

/-- After a probe `Allow` is called again, and no result is recorded in between. -/
structure Waiting (cfg : Config) (calls before between : List Event) (t t' : ℤ) : Prop where
  within : ∃ rest, calls = before ++ ⟨.allow, t⟩ :: (between ++ ⟨.allow, t'⟩ :: rest)
  probe : probes ((new cfg).replay before) ⟨.allow, t⟩ = true
  pending : ∀ e ∈ between, e.call = .allow

def SingleProbe (cfg : Config) (calls : List Event) : Prop :=
  ∀ before between t t', Waiting cfg calls before between t t' →
    (((new cfg).replay (before ++ ⟨.allow, t⟩ :: between)).allow t').1 ≠ none

def Awaited : Breaker → List Event → Prop
  | _, [] => True
  | b, e :: rest =>
    (probes b e = true → ∀ next ∈ rest.head?, next.call ≠ .allow) ∧ Awaited (b.apply e) rest

instance decidableAwaited : ∀ (b : Breaker) (calls : List Event), Decidable (Awaited b calls)
  | _, [] => .isTrue trivial
  | b, e :: rest =>
    have := decidableAwaited (b.apply e) rest
    inferInstanceAs (Decidable (_ ∧ _))

variable {cfg : Config} {b : Breaker} {t : ℤ}

theorem probes_iff {e : Event} : probes b e = true ↔
    e.call = .allow ∧ b.state = .opened ∧ (b.apply e).state = .halfOpen := by
  rw [probes, decide_eq_true_eq]

theorem awaited_split {before rest : List Event} {e : Event}
    (awaited : Awaited b (before ++ e :: rest)) (probe : probes (b.replay before) e = true) :
    ∀ next ∈ rest.head?, next.call ≠ .allow := by
  induction before generalizing b with
  | nil => exact awaited.1 probe
  | cons first before ih => exact ih awaited.2 probe

theorem awaited_of_splits {calls : List Event}
    (splits : ∀ before e rest, calls = before ++ e :: rest → probes (b.replay before) e = true →
      ∀ next ∈ rest.head?, next.call ≠ .allow) : Awaited b calls := by
  induction calls generalizing b with
  | nil => trivial
  | cons e rest ih =>
    refine ⟨splits [] e rest rfl, ih fun before e' later same probe => ?_⟩
    exact splits (e :: before) e' later (by rw [same]; rfl) probe

theorem halfOpen_admits (here : b.state = .halfOpen) (t : ℤ) : b.allow t = (none, b) := by
  rw [Breaker.allow, here]

/-- In every run of concurrent calls: no other call is admitted before the result
of a probe exactly if none asks. -/
theorem single_probe_iff (cfg : Config) (start : ℤ) (moves : List (Move Unit Choice))
    (pool : CallPool) (run : Pool.run machine code moves (idle cfg start) = some pool) :
    pool.state.breaker = (new cfg).replay (calls moves (idle cfg start)) ∧
    (SingleProbe cfg (calls moves (idle cfg start)) ↔
      Awaited (new cfg) (calls moves (idle cfg start))) := by
  refine ⟨(run_inv run).history, ?_⟩
  generalize calls moves (idle cfg start) = made
  constructor
  · intro single
    refine awaited_of_splits fun before e rest same probe next head again => ?_
    obtain ⟨later, rfl⟩ : ∃ later, rest = next :: later := by
      cases rest with
      | nil => cases head
      | cons first later =>
        cases head
        exact ⟨later, rfl⟩
    obtain ⟨call, t⟩ := e
    obtain ⟨call', t'⟩ := next
    obtain ⟨asks, -, half⟩ := probes_iff.1 probe
    dsimp only at asks again
    subst asks again
    have waiting : Waiting cfg made before [] t t' := ⟨⟨later, same⟩, probe, nofun⟩
    refine single before [] t t' waiting ?_
    have last : (new cfg).replay (before ++ [⟨.allow, t⟩]) =
        ((new cfg).replay before).apply ⟨.allow, t⟩ := replay_append _ _ _
    rw [last, halfOpen_admits half]
  · intro awaited before between t t' waiting
    obtain ⟨⟨rest, rfl⟩, probe, pending⟩ := waiting
    have next := awaited_split awaited probe
    cases between with
    | nil => exact absurd rfl (next ⟨.allow, t'⟩ rfl)
    | cons e later => exact absurd (pending e List.mem_cons_self) (next e rfl)

/-- A call fails; after the cooldown one or two others ask before the first of
them is back. -/
def probing (callers : List (Move Unit Choice)) : List (Move Unit Choice) :=
  [.spawn 0 (), .step 0 well, .step 0 down, .step 0 down, .spawn 1 (), .spawn 2 (),
    .step 1 ⟨10, .ok none⟩] ++ callers ++ [.step 1 well, .step 1 well]

theorem single_probe_alone :
    calls (probing []) (idle brittle 0) =
      [⟨.allow, 1⟩, ⟨.recordFailure, 3⟩, ⟨.allow, 13⟩, ⟨.recordSuccess, 15⟩] ∧
    SingleProbe brittle (calls (probing []) (idle brittle 0)) := by
  have made : calls (probing []) (idle brittle 0) =
      [⟨.allow, 1⟩, ⟨.recordFailure, 3⟩, ⟨.allow, 13⟩, ⟨.recordSuccess, 15⟩] := by decide +kernel
  have ends : (Pool.run machine code (probing []) (idle brittle 0)).isSome = true := by
    decide +kernel
  obtain ⟨pool, run⟩ := Option.isSome_iff_exists.1 ends
  refine ⟨made, (single_probe_iff brittle 0 (probing []) pool run).2.2 ?_⟩
  rw [made]
  decide +kernel

theorem second_probe_admitted :
    calls (probing [.step 2 well]) (idle brittle 0) = [⟨.allow, 1⟩, ⟨.recordFailure, 3⟩,
      ⟨.allow, 13⟩, ⟨.allow, 14⟩, ⟨.recordSuccess, 16⟩] ∧
    ¬SingleProbe brittle (calls (probing [.step 2 well]) (idle brittle 0)) := by
  have made : calls (probing [.step 2 well]) (idle brittle 0) = [⟨.allow, 1⟩, ⟨.recordFailure, 3⟩,
      ⟨.allow, 13⟩, ⟨.allow, 14⟩, ⟨.recordSuccess, 16⟩] := by decide +kernel
  refine ⟨made, fun single => ?_⟩
  have waiting : Waiting brittle (calls (probing [.step 2 well]) (idle brittle 0))
      [⟨.allow, 1⟩, ⟨.recordFailure, 3⟩] [] 13 14 :=
    ⟨⟨[⟨.recordSuccess, 16⟩], made⟩, by decide, nofun⟩
  exact single _ _ _ _ waiting (by decide)

end Probe

end Taper.BreakerCalls
