import Taper.Streaming

set_option autoImplicit false

/-!
# What the consumer commits

`Run` commits whatever `process` returned, so a turn leaves its message
unsettled by the exits that neither handle it nor write an envelope. A later
commit of the partition covers the message too.
-/
namespace Taper.ConsumerCommits
open Messages Platform Program Streaming

variable {β : Type}

def Wraps (env : Envelope β) (msg : KafkaMessage β) : Prop :=
  env.originalTopic = msg.topic ∧ env.originalKey = msg.key ∧ env.payload = msg.value ∧
    env.headers = headerMap msg.headers

structure Turn (β : Type) where
  message : KafkaMessage β
  events : List (Event β)

def note (e : Event β) : List (Turn β) → List (Turn β)
  | [] => []
  | turn :: earlier => { turn with events := e :: turn.events } :: earlier

def turns : List (Event β) → List (Turn β)
  | [] => []
  | .fetched msg :: before => ⟨msg, []⟩ :: turns before
  | e :: before => note e (turns before)

def Turn.Settled (turn : Turn β) : Prop :=
  .handled turn.message ∈ turn.events ∨ ∃ env, .written env ∈ turn.events ∧ Wraps env turn.message

/-- A wait was ended by the context, or an envelope was not marshalled or not
written. -/
def Turn.Failed (turn : Turn β) : Prop :=
  .interrupted ∈ turn.events ∨ .marshalFailed ∈ turn.events ∨ .writeFailed ∈ turn.events

/-- Every message whose offset was committed was settled before, in one of its
turns. -/
def Lossless (log : List (Event β)) : Prop :=
  ∀ after msg before, log = after ++ .committed msg :: before →
    ∃ turn ∈ turns before, turn.message = msg ∧ turn.Settled

def Turn.Decided (turn : Turn β) : Prop := turn.Settled ↔ ¬turn.Failed

def Exact (log : List (Event β)) : Prop :=
  ∀ after msg before, log = after ++ .committed msg :: before →
    ∀ turn ∈ turns before, turn.Decided

theorem exact_nil : Exact ([] : List (Event β)) := by
  intro after msg before split
  simp at split

theorem exact_cons {e : Event β} {log : List (Event β)}
    (here : (∃ msg, e = .committed msg) → ∀ turn ∈ turns log, turn.Decided)
    (exact_ : Exact log) : Exact (e :: log) := by
  intro after msg before split
  cases after with
  | nil =>
    simp only [List.nil_append, List.cons.injEq] at split
    obtain ⟨rfl, rfl⟩ := split
    exact here ⟨msg, rfl⟩
  | cons first rest =>
    simp only [List.cons_append, List.cons.injEq] at split
    exact exact_ rest msg before split.2

structure Between (log : List (Event β)) : Prop where
  exact_ : Exact log
  decided : ∀ turn ∈ turns log, turn.Decided

/-- While attempts are made the message is neither settled nor given up. -/
structure Pending (msg : KafkaMessage β) (log : List (Event β)) : Prop where
  exact_ : Exact log
  last : ∃ now earlier, turns log = ⟨msg, now⟩ :: earlier ∧ (∀ turn ∈ earlier, turn.Decided) ∧
    ¬Turn.Settled ⟨msg, now⟩ ∧ ¬Turn.Failed ⟨msg, now⟩

section Outcomes

variable {msg : KafkaMessage β} {log : List (Event β)}

theorem pending_fetched (between : Between log) : Pending msg (.fetched msg :: log) where
  exact_ := exact_cons (fun ⟨_, same⟩ => nomatch same) between.exact_
  last := ⟨[], turns log, rfl, between.decided, by simp [Turn.Settled], by simp [Turn.Failed]⟩

theorem Pending.over (p : Pending msg log) {e : Event β} (told : ∀ m, e ≠ .committed m)
    (turn : turns (e :: log) = note e (turns log))
    (decided : ∀ now, ¬Turn.Settled ⟨msg, now⟩ → ¬Turn.Failed ⟨msg, now⟩ →
      Turn.Decided ⟨msg, e :: now⟩) : Between (e :: log) where
  exact_ := exact_cons (fun ⟨m, same⟩ => absurd same (told m)) p.exact_
  decided := by
    obtain ⟨now, earlier, eq, old, unsettled, going⟩ := p.last
    rw [turn, eq]
    intro t member
    rcases List.mem_cons.1 member with rfl | member
    · exact decided now unsettled going
    · exact old t member

theorem Pending.handled (p : Pending msg log) : Between (.handled msg :: log) := by
  refine p.over (fun _ => nofun) rfl fun now _ going => ⟨fun _ failed => going ?_, fun _ => .inl ?_⟩
  · simpa [Turn.Failed] using failed
  · exact List.mem_cons_self

theorem Pending.written (p : Pending msg log) {env : Envelope β} (wraps : Wraps env msg) :
    Between (.written env :: log) := by
  refine p.over (fun _ => nofun) rfl fun now _ going => ⟨fun _ failed => going ?_, fun _ => .inr ?_⟩
  · simpa [Turn.Failed] using failed
  · exact ⟨env, List.mem_cons_self, wraps⟩

theorem Pending.failed (p : Pending msg log) {e : Event β}
    (broken : e = .interrupted ∨ e = .marshalFailed ∨ e = .writeFailed) : Between (e :: log) := by
  refine p.over ?_ ?_ fun now unsettled _ => iff_of_false (fun settled => unsettled ?_) ?_
  · rcases broken with rfl | rfl | rfl
    all_goals exact fun _ => nofun
  · rcases broken with rfl | rfl | rfl
    all_goals rfl
  · rcases broken with rfl | rfl | rfl
    all_goals simpa [Turn.Settled] using settled
  · rcases broken with rfl | rfl | rfl
    all_goals simp [Turn.Failed]

theorem Between.committed (between : Between log) (m : KafkaMessage β) :
    Between (.committed m :: log) where
  exact_ := exact_cons (fun _ => between.decided) between.exact_
  decided := by
    change ∀ turn ∈ note (.committed m) (turns log), turn.Decided
    have old := between.decided
    cases eq : turns log with
    | nil => exact fun _ member => nomatch member
    | cons last earlier =>
      rw [eq] at old
      intro turn member
      rcases List.mem_cons.1 member with rfl | member
      · simpa [Turn.Decided, Turn.Settled, Turn.Failed] using old last List.mem_cons_self
      · exact old turn (List.mem_cons_of_mem _ member)

theorem Between.commit {s : ConsumerState β} (between : Between s.log) (msg : KafkaMessage β) :
    Between (s.commit msg).log := by
  unfold ConsumerState.commit
  induction (fetches s.log).filter (covers msg) with
  | nil => exact between
  | cons m rest ih => exact ih.committed m

end Outcomes

section Runs

variable (rt : Runtime) (cfg : Config)
  (adm : ConsumerOp β → ConsumerChoice β → ConsumerState β → Prop)

abbrev Keeps {α : Type} (Q : α → List (Event β) → Prop) (p : ConsumerProg β α)
    (s : ConsumerState β) : Prop :=
  Wp (consumer β) 0 adm (fun s => Exact s.log) (fun a s => Q a s.log) p s

theorem deadLetter_decides (msg : KafkaMessage β) (cause : Option Failure) (attempts : ℤ)
    (s : ConsumerState β) (p : Pending msg s.log) :
    Keeps adm (fun _ => Between) (deadLetter rt cfg msg cause attempts) s := by
  refine ⟨p.exact_, fun c stamp t _ run => ?_⟩
  cases run
  refine ⟨p.exact_, fun c answer t _ run => ?_⟩
  simp only [consumer, consumerExec] at run
  split at run
  · cases run
    refine ⟨p.exact_, fun c answer t _ run => ?_⟩
    simp only [consumer, consumerExec] at run
    split at run
    · cases run
      exact p.written ⟨rfl, rfl, rfl, rfl⟩
    · cases run
      exact p.failed (.inr (.inr rfl))
  · cases run
    exact p.failed (.inr (.inl rfl))

theorem handle_decides (msg : KafkaMessage β) (left attempt : ℕ) (s : ConsumerState β)
    (p : Pending msg s.log)
    (retry : ∀ lastErr (s : ConsumerState β), Pending msg s.log →
      Keeps adm (fun _ => Between) (attemptFrom rt cfg msg left attempt lastErr) s) :
    Keeps adm (fun _ => Between) (do
      match (← ask (.handle msg) : Except Failure Unit) with
      | .ok () => pure (.ok ())
      | .error e => attemptFrom rt cfg msg left attempt (some e)) s := by
  refine ⟨p.exact_, fun c answer t _ run => ?_⟩
  simp only [consumer, consumerExec] at run
  split at run
  · cases run
    exact p.handled
  · cases run
    exact retry _ _ p

theorem attemptFrom_decides (msg : KafkaMessage β) (left attempt : ℕ) (lastErr : Option Failure)
    (s : ConsumerState β) (p : Pending msg s.log) :
    Keeps adm (fun _ => Between) (attemptFrom rt cfg msg left attempt lastErr) s := by
  induction left generalizing attempt lastErr s with
  | zero => exact deadLetter_decides rt cfg adm msg lastErr _ s p
  | succ left ih =>
    have handle : ∀ s : ConsumerState β, Pending msg s.log → _ := fun s p =>
      handle_decides rt cfg adm msg left (attempt + 1) s p (ih (attempt + 1))
    rw [attemptFrom]
    by_cases first : 0 < attempt
    · rw [if_pos first]
      refine ⟨p.exact_, fun c wait t _ run => ?_⟩
      simp only [consumer, consumerExec] at run
      split at run
      · cases run
        exact handle _ p
      split at run
      · cases run
        exact p.failed (.inl rfl)
      · cases run
    · rw [if_neg first]
      exact handle s p

theorem run_between (n : ℕ) (s : ConsumerState β) (start : Between s.log) :
    Keeps adm (fun _ => Between) (run rt cfg n) s := by
  induction n generalizing s with
  | zero => exact start
  | succ n ih =>
    refine ⟨start.exact_, fun c answer t _ fetch => ?_⟩
    simp only [consumer, consumerExec] at fetch
    split at fetch
    · rename_i msg _
      cases fetch
      change Keeps adm _ (do
        let _ ← process rt cfg msg
        let _ ← ask (.commitMessages msg)
        run rt cfg n) _
      refine wp_bind (wp_mono (fun _ u past => ?_)
        (attemptFrom_decides rt cfg adm msg _ 0 none _ (pending_fetched start)))
      refine ⟨past.exact_, fun c answer t _ commit => ?_⟩
      simp only [consumer, consumerExec] at commit
      split at commit
      · cases commit
        exact ih _ (Between.commit past msg)
      · cases commit
        by_cases takes : c.takesEffect = true
        · rw [if_pos takes]
          exact ih _ (Between.commit past msg)
        · rw [if_neg takes]
          exact ih _ past
    · cases fetch
      refine ⟨start.exact_, fun c err t _ look => ?_⟩
      simp only [consumer, consumerExec, Option.some.injEq, Prod.mk.injEq] at look
      obtain ⟨-, rfl⟩ := look
      cases (err : Option Failure) with
      | none => exact ih _ start
      | some e =>
        refine ⟨start.exact_, fun c closed t _ close => ?_⟩
        cases close
        exact start

/-- Whatever is fetched and however the handler, the dead letters and the
context behave: `Run` commits settled messages only, exactly when every message
whose offset is committed has had a turn in which the context ended no wait and
every envelope was marshalled and written. -/
theorem commits_settled_iff (n : ℕ) (cancelled : Bool)
    (rest : ConsumerProg β (Option (Except Failure Unit))) (s : ConsumerState β)
    (ran : Exec (consumer β) 0 adm (run rt cfg.withDefaults n) ⟨cancelled, []⟩ rest s) :
    Lossless s.log ↔ ∀ after msg before, s.log = after ++ .committed msg :: before →
      ∃ turn ∈ turns before, turn.message = msg ∧ ¬turn.Failed := by
  have start : Between ([] : List (Event β)) := ⟨exact_nil, fun _ member => nomatch member⟩
  have exact_ : Exact s.log := by
    rcases wp_stopped ran (run_between rt cfg.withDefaults adm n ⟨cancelled, []⟩ start) with
      stopped | ⟨_, -, returned⟩
    · exact stopped
    · exact returned.exact_
  constructor
  · intro lossless after msg before split
    obtain ⟨turn, member, mine, settled⟩ := lossless after msg before split
    exact ⟨turn, member, mine, (exact_ after msg before split turn member).1 settled⟩
  · intro clean after msg before split
    obtain ⟨turn, member, mine, going⟩ := clean after msg before split
    exact ⟨turn, member, mine, (exact_ after msg before split turn member).2 going⟩

end Runs

section Samples

def sampleMessage (offset : ℤ) : KafkaMessage String :=
  ⟨"order.events", 0, offset, "key", "payload", []⟩

def works : ConsumerChoice String := ⟨false, .ok (sampleMessage 7), true, .ok (), true, (0, "")⟩

def breaks : ConsumerChoice String :=
  { works with outcome := .error .transport, takesEffect := false }

def consume (n : ℕ) (choices : List (ConsumerChoice String)) :
    Option (Option (Except Failure Unit) × ConsumerState String) :=
  runWith (consumer String) 0 (fun _ _ _ => true) choices
    (run (reference []) (Config.withDefaults ⟨"group", 0⟩) n) ⟨false, []⟩

theorem commits_settled_iff_retried : ∃ s : ConsumerState String,
    s.log = [.committed (sampleMessage 7), .handled (sampleMessage 7),
      .fetched (sampleMessage 7)] ∧ Lossless s.log := by
  have ends : (consume 1 [works, breaks, works, works, works]).map (fun r => r.2.log) =
      some [.committed (sampleMessage 7), .handled (sampleMessage 7),
        .fetched (sampleMessage 7)] := by
    decide +kernel
  obtain ⟨⟨answer, s⟩, ran, log⟩ := Option.map_eq_some_iff.1 ends
  refine ⟨s, log, (commits_settled_iff (reference []) ⟨"group", 0⟩ _ 1 false _ s
    (exec_of_runWith _ _ ran)).2 ?_⟩
  rw [log]
  intro after msg before split
  rcases after with _ | ⟨_, _ | ⟨_, _ | ⟨_, _⟩⟩⟩
  · simp only [List.nil_append, List.cons.injEq, Event.committed.injEq] at split
    obtain ⟨rfl, rfl⟩ := split
    refine ⟨⟨sampleMessage 7, [.handled (sampleMessage 7)]⟩, List.mem_singleton.2 rfl, rfl, ?_⟩
    simp [Turn.Failed]
  · simp at split
  · simp at split
  · simp at split

/-- The log loses a message that was committed without being settled. -/
theorem lossy_of_turn {log before : List (Event β)} {msg : KafkaMessage β}
    (after now : List (Event β)) (split : log = after ++ .committed msg :: before)
    (only : ∀ turn ∈ turns before, turn.message = msg → turn = ⟨msg, now⟩)
    (unsettled : ¬Turn.Settled ⟨msg, now⟩) : ¬Lossless log := by
  intro lossless
  obtain ⟨turn, member, mine, settled⟩ := lossless after msg before split
  rw [only turn member mine] at settled
  exact unsettled settled

/-- All four attempts fail, and so does the write to the dead letters; or the
context ends the first wait. The offset is committed and the message is gone. It
is gone as well when its own commit fails and the next message is committed. -/
theorem unsettled_message_committed :
    (consume 1 [works, breaks, works, breaks, works, breaks, works, breaks, works, works, breaks,
        works]).map (fun r => r.2.log) =
      some [.committed (sampleMessage 7), .writeFailed, .fetched (sampleMessage 7)] ∧
    (consume 1 [works, breaks, { works with cancel := true, timer := false }, works]).map
        (fun r => r.2.log) =
      some [.committed (sampleMessage 7), .interrupted, .fetched (sampleMessage 7)] ∧
    (consume 2 [works, breaks, works, breaks, works, breaks, works, breaks, works, works, breaks,
        breaks, { works with message := .ok (sampleMessage 8) }, works, works]).map
        (fun r => r.2.log) =
      some [.committed (sampleMessage 8), .committed (sampleMessage 7),
        .handled (sampleMessage 8), .fetched (sampleMessage 8), .writeFailed,
        .fetched (sampleMessage 7)] ∧
    ¬Lossless [.committed (sampleMessage 7), .writeFailed, .fetched (sampleMessage 7)] ∧
    ¬Lossless [.committed (sampleMessage 7), .interrupted, .fetched (sampleMessage 7)] ∧
    ¬Lossless [.committed (sampleMessage 8), .committed (sampleMessage 7),
      .handled (sampleMessage 8), .fetched (sampleMessage 8), .writeFailed,
      .fetched (sampleMessage 7)] := by
  refine ⟨by decide +kernel, by decide +kernel, by decide +kernel, ?_, ?_, ?_⟩
  · refine lossy_of_turn [] [.writeFailed] rfl ?_ (by simp [Turn.Settled])
    simp [turns, note]
  · refine lossy_of_turn [] [.interrupted] rfl ?_ (by simp [Turn.Settled])
    simp [turns, note]
  · refine lossy_of_turn [.committed (sampleMessage 8)] [.writeFailed] rfl ?_
      (by simp [Turn.Settled])
    simp [turns, note, sampleMessage]

end Samples

end Taper.ConsumerCommits
