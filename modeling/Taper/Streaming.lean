import Taper.Platform
import Taper.Program

set_option autoImplicit false

/-!
# The Kafka consumer

What the broker, the handler and the context do is left to the environment.
-/
namespace Taper.Streaming
open Messages Platform Program

structure KafkaMessage (β : Type) where
  topic : String
  partition : ℤ
  offset : ℤ
  key : String
  value : β
  headers : List (String × String)
  deriving DecidableEq

def headerValue (headers : List (String × String)) (key : String) : String :=
  match headers.find? fun h => h.1 == key with
  | some h => h.2
  | none => ""

structure Envelope (β : Type) where
  originalTopic : String
  originalKey : String
  payload : β
  headers : List (String × String)
  consumerGroup : String
  error : String
  attempts : ℤ
  failedAtUnix : ℤ
  stackTrace : String
  deriving DecidableEq

/-- The retry settings; what only configures the client is left out. -/
structure Config where
  groupID : String
  maxRetries : ℤ

def Config.withDefaults (c : Config) : Config :=
  if c.maxRetries ≤ 0 then { c with maxRetries := 3 } else c

inductive ConsumerOp (β : Type) where
  | fetchMessage
  | ctxErr
  /-- The wait between two attempts, for the timer or the context. -/
  | backoff
  | handle (msg : KafkaMessage β)
  /-- The clock and the stack of a dead letter. -/
  | stamp
  | marshal (env : Envelope β)
  | writeMessages (key : String) (env : Envelope β)
  | commitMessages (msg : KafkaMessage β)
  | closeReader

def ConsumerOp.Resp {β : Type} : ConsumerOp β → Type
  | .fetchMessage => Except Failure (KafkaMessage β)
  | .ctxErr => Option Failure
  | .backoff => Option Failure
  | .stamp => ℤ × String
  | .handle _ | .marshal _ | .writeMessages _ _ | .commitMessages _ | .closeReader =>
    Except Failure Unit

abbrev ConsumerProg (β : Type) := Prog (ConsumerOp β) ConsumerOp.Resp

section Code

variable {β : Type}

def ask (op : ConsumerOp β) : ConsumerProg β op.Resp := .perform op

def headerMap (headers : List (String × String)) : List (String × String) :=
  headers.foldl (fun kept h => kept.filter (fun k => k.1 != h.1) ++ [h]) []

def sprint (rt : Runtime) : Option Failure → String
  | none => "<nil>"
  | some e => rt.errorText e

def envelope (rt : Runtime) (cfg : Config) (msg : KafkaMessage β) (cause : Option Failure)
    (attempts : ℤ) (stamp : ℤ × String) : Envelope β :=
  ⟨msg.topic, msg.key, msg.value, headerMap msg.headers, cfg.groupID, sprint rt cause, attempts,
    stamp.1, stamp.2⟩

def deadLetter (rt : Runtime) (cfg : Config) (msg : KafkaMessage β) (cause : Option Failure)
    (attempts : ℤ) : ConsumerProg β (Except Failure Unit) := do
  let stamp : ℤ × String ← ask .stamp
  let env := envelope rt cfg msg cause attempts stamp
  match (← ask (.marshal env) : Except Failure Unit) with
  | .error e => pure (.error (.errorf "marshal dlq envelope" e))
  | .ok () =>
    match (← ask (.writeMessages msg.key env) : Except Failure Unit) with
    | .error e => pure (.error e)
    | .ok () =>
      pure (.error (.text ("dead-lettered after " ++ toString attempts ++ " attempts: " ++
        sprint rt cause)))

def attemptFrom (rt : Runtime) (cfg : Config) (msg : KafkaMessage β) :
    ℕ → ℕ → Option Failure → ConsumerProg β (Except Failure Unit)
  | 0, _, lastErr => deadLetter rt cfg msg lastErr (cfg.maxRetries + 1)
  | left + 1, attempt, _ => do
    let wait : Option Failure ← if 0 < attempt then ask .backoff else pure none
    match wait with
    | some done => pure (.error done)
    | none =>
      match (← ask (.handle msg) : Except Failure Unit) with
      | .ok () => pure (.ok ())
      | .error e => attemptFrom rt cfg msg left (attempt + 1) (some e)

def process (rt : Runtime) (cfg : Config) (msg : KafkaMessage β) :
    ConsumerProg β (Except Failure Unit) :=
  attemptFrom rt cfg msg (cfg.maxRetries + 1).toNat 0 none

def run (rt : Runtime) (cfg : Config) : ℕ → ConsumerProg β (Option (Except Failure Unit))
  | 0 => pure none
  | n + 1 => do
    match (← ask .fetchMessage : Except Failure (KafkaMessage β)) with
    | .error _ =>
      match (← ask .ctxErr : Option Failure) with
      | some _ => do
        let closed : Except Failure Unit ← ask .closeReader
        pure (some closed)
      | none => run rt cfg n
    | .ok msg => do
      let _ ← process rt cfg msg
      let _ ← ask (.commitMessages msg)
      run rt cfg n

end Code

section Environment

variable {β : Type}

inductive Event (β : Type) where
  | fetched (msg : KafkaMessage β)
  /-- The handler returned nil. -/
  | handled (msg : KafkaMessage β)
  /-- The context ended a wait between two attempts. -/
  | interrupted
  | marshalFailed
  | writeFailed
  | written (env : Envelope β)
  /-- The offset of the message is committed, by its own commit or a later one. -/
  | committed (msg : KafkaMessage β)
  deriving DecidableEq

/-- The newest event comes first. -/
structure ConsumerState (β : Type) where
  cancelled : Bool
  log : List (Event β)

def ConsumerState.note (s : ConsumerState β) (e : Event β) : ConsumerState β :=
  { s with log := e :: s.log }

def fetches : List (Event β) → List (KafkaMessage β)
  | [] => []
  | .fetched msg :: before => msg :: fetches before
  | _ :: before => fetches before

/-- The broker keeps one offset for a partition, so that a commit covers what was
fetched from it up to the message. -/
def covers (msg m : KafkaMessage β) : Bool :=
  m.topic == msg.topic && m.partition == msg.partition && decide (m.offset ≤ msg.offset)

def ConsumerState.commit (s : ConsumerState β) (msg : KafkaMessage β) : ConsumerState β :=
  { s with log := ((fetches s.log).filter (covers msg)).map .committed ++ s.log }

/-- What the environment decides at an operation. A commit may take effect
although it answers with an error. -/
structure ConsumerChoice (β : Type) where
  cancel : Bool
  message : Except Failure (KafkaMessage β)
  timer : Bool
  outcome : Except Failure Unit
  takesEffect : Bool
  stamp : ℤ × String

def canceled : Failure := .text "context canceled"

def consumerExec (op : ConsumerOp β) (c : ConsumerChoice β) (before : ConsumerState β) :
    Option (op.Resp × ConsumerState β) :=
  let s := { before with cancelled := before.cancelled || c.cancel }
  match op with
  | .fetchMessage =>
    match c.message with
    | .ok msg => some (.ok msg, s.note (.fetched msg))
    | .error e => some (.error e, s)
  | .ctxErr => some (if s.cancelled then some canceled else none, s)
  | .backoff =>
    if c.timer then some (none, s)
    else if s.cancelled then some (some canceled, s.note .interrupted)
    else none
  | .handle msg =>
    match c.outcome with
    | .ok () => some (.ok (), s.note (.handled msg))
    | .error e => some (.error e, s)
  | .stamp => some (c.stamp, s)
  | .marshal _ =>
    match c.outcome with
    | .ok () => some (.ok (), s)
    | .error e => some (.error e, s.note .marshalFailed)
  | .writeMessages _ env =>
    match c.outcome with
    | .ok () => some (.ok (), s.note (.written env))
    | .error e => some (.error e, s.note .writeFailed)
  | .commitMessages msg =>
    match c.outcome with
    | .ok () => some (.ok (), s.commit msg)
    | .error e => some (.error e, if c.takesEffect then s.commit msg else s)
  | .closeReader => some (c.outcome, s)

def consumer (β : Type) :
    Machine (ConsumerOp β) ConsumerOp.Resp (ConsumerState β) (ConsumerChoice β) where
  exec _ := consumerExec
  stop _ s := s

end Environment

end Taper.Streaming
