import Taper.Streaming
import Taper.Utf8
import Taper.Base64
import Mathlib.Data.List.Induction
import Mathlib.Algebra.Group.Int.Defs

set_option autoImplicit false

/-!
# Dead letters and their replay

Key and headers become Go strings, the strings become JSON text, and the replay
makes bytes of them again. Go strings are arbitrary bytes; a nil slice is
`none`.
-/
namespace Taper.DeadLetters

abbrev Bytes := List UInt8

structure Header where
  key : Bytes
  value : Option Bytes
  deriving DecidableEq

structure Message where
  topic : Bytes
  key : Option Bytes
  value : Option Bytes
  headers : List Header
  deriving DecidableEq

/-- `string(b)`; nil becomes the empty string. -/
def text (b : Option Bytes) : Bytes := b.getD []

def assign (m : List (Bytes × Bytes)) (k v : Bytes) : List (Bytes × Bytes) :=
  m.filter (fun entry => entry.1 ≠ k) ++ [(k, v)]

structure Envelope where
  originalTopic : Bytes
  originalKey : Bytes
  payload : Option Bytes
  headers : List (Bytes × Bytes)
  consumerGroup : Bytes
  error : Bytes
  attempts : Int64
  failedAtUnix : Int64
  stackTrace : Bytes
  deriving DecidableEq

def headerMap (headers : List Header) : List (Bytes × Bytes) :=
  headers.foldl (fun m kv => assign m kv.key (text kv.value)) []

structure Cause where
  consumerGroup : Bytes
  error : Bytes
  attempts : Int64
  failedAtUnix : Int64
  stackTrace : Bytes

def envelope (c : Cause) (msg : Message) : Envelope :=
  ⟨msg.topic, text msg.key, msg.value, headerMap msg.headers, c.consumerGroup, c.error, c.attempts,
    c.failedAtUnix, c.stackTrace⟩

inductive Json where
  | null
  | num (n : ℤ)
  | str (s : Bytes)
  | obj (fields : List (Bytes × Json))

structure MapOrder where
  order : List (Bytes × Bytes) → List (Bytes × Bytes)
  perm : ∀ m, (order m).Perm m

def MapOrder.asis : MapOrder := ⟨id, fun _ => .refl _⟩

def MapOrder.reversed : MapOrder := ⟨List.reverse, List.reverse_perm⟩

def stringJson (s : Bytes) : Json := .str (Utf8.sanitize s)

def bytesJson : Option Bytes → Json
  | none => .null
  | some b => .str (Base64.encode b)

def mapJson (sort : MapOrder) (m : List (Bytes × Bytes)) : Json :=
  .obj ((sort.order m).map fun entry => (Utf8.sanitize entry.1, stringJson entry.2))

def marshal (sort : MapOrder) (env : Envelope) : Json :=
  .obj ([(Utf8.ascii "original_topic", stringJson env.originalTopic),
      (Utf8.ascii "original_key", stringJson env.originalKey),
      (Utf8.ascii "payload", bytesJson env.payload)] ++
    (if env.headers = [] then [] else [(Utf8.ascii "headers", mapJson sort env.headers)]) ++
    [(Utf8.ascii "consumer_group", stringJson env.consumerGroup),
      (Utf8.ascii "error", stringJson env.error),
      (Utf8.ascii "attempts", .num env.attempts.toInt),
      (Utf8.ascii "failed_at_unix", .num env.failedAtUnix.toInt),
      (Utf8.ascii "stack_trace", stringJson env.stackTrace)])

def field (fields : List (Bytes × Json)) (key : String) : Option Json :=
  (fields.reverse.find? fun entry => entry.1 = Utf8.ascii key).map (·.2)

def stringField : Option Json → Option Bytes
  | none => some []
  | some .null => some []
  | some (.str s) => some s
  | some _ => none

def bytesField : Option Json → Option (Option Bytes)
  | none => some none
  | some .null => some none
  | some (.str s) => (Base64.decodeText s).map some
  | some _ => none

def intField : Option Json → Option Int64
  | none => some 0
  | some .null => some 0
  | some (.num n) => if -2 ^ 63 ≤ n ∧ n < 2 ^ 63 then some (.ofInt n) else none
  | some _ => none

def mapField : Option Json → Option (List (Bytes × Bytes))
  | none => some []
  | some .null => some []
  | some (.obj fields) => fields.foldlM (fun m entry => (stringField (some entry.2)).map
      (assign m entry.1)) []
  | some _ => none

def unmarshal : Json → Option Envelope
  | .obj fields => do
    let originalTopic ← stringField (field fields "original_topic")
    let originalKey ← stringField (field fields "original_key")
    let payload ← bytesField (field fields "payload")
    let headers ← mapField (field fields "headers")
    let consumerGroup ← stringField (field fields "consumer_group")
    let error ← stringField (field fields "error")
    let attempts ← intField (field fields "attempts")
    let failedAtUnix ← intField (field fields "failed_at_unix")
    let stackTrace ← stringField (field fields "stack_trace")
    some ⟨originalTopic, originalKey, payload, headers, consumerGroup, error, attempts,
      failedAtUnix, stackTrace⟩
  | .null => some ⟨[], [], none, [], [], [], 0, 0, []⟩
  | _ => none

def parseEnvelope (doc : Json) : Option Envelope := do
  let env ← unmarshal doc
  if env.originalTopic = [] ∨ env.payload = none then none else some env

def deadLetter (sort : MapOrder) (c : Cause) (msg : Message) : Json := marshal sort (envelope c msg)

def produced (range : MapOrder) (env : Envelope) : Message :=
  ⟨env.originalTopic, some env.originalKey, env.payload,
    (range.order env.headers).map fun entry => ⟨entry.1, some entry.2⟩⟩

/-- The messages that the replay of the documents produces; `ranges` are the
orders in which the loop goes through the headers of each. -/
def replay (key : Bytes) (dryRun : Bool) : (ℕ → MapOrder) → List Json → List Message
  | _, [] => []
  | ranges, doc :: rest =>
    let later := replay key dryRun (fun n => ranges (n + 1)) rest
    match parseEnvelope doc with
    | none => later
    | some env =>
      if key ≠ [] ∧ env.originalKey ≠ key then later
      else if dryRun then later
      else produced (ranges 0) env :: later

variable {m : List (Bytes × Bytes)} {entry : Bytes × Bytes}

section Maps

def gather (entries : List (Bytes × Bytes)) : List (Bytes × Bytes) :=
  entries.foldl (fun m entry => assign m entry.1 entry.2) []

theorem headerMap_gather (headers : List Header) :
    headerMap headers = gather (headers.map fun h => (h.key, text h.value)) := by
  rw [headerMap, gather, List.foldl_map]

theorem gather_concat (entries : List (Bytes × Bytes)) (entry : Bytes × Bytes) :
    gather (entries ++ [entry]) = assign (gather entries) entry.1 entry.2 := by
  rw [gather, List.foldl_append]
  rfl

theorem mem_assign {k v : Bytes} (mem : entry ∈ assign m k v) : entry ∈ m ∨ entry = (k, v) := by
  rcases List.mem_append.1 mem with old | new
  · exact .inl (List.mem_filter.1 old).1
  · exact .inr (List.mem_singleton.1 new)

theorem assign_nodup (k v : Bytes) (nodup : (m.map (·.1)).Nodup) :
    ((assign m k v).map (·.1)).Nodup := by
  rw [assign, List.map_append, List.nodup_append]
  refine ⟨nodup.sublist (List.filter_sublist.map _), List.nodup_singleton k, ?_⟩
  intro a old b new same
  obtain ⟨entry, kept, rfl⟩ := List.mem_map.1 old
  have other := (List.mem_filter.1 kept).2
  rw [same, List.mem_singleton.1 new] at other
  simp at other

theorem assign_fresh {k : Bytes} (v : Bytes) (fresh : k ∉ m.map (·.1)) :
    assign m k v = m ++ [(k, v)] := by
  have kept : m.filter (fun entry => entry.1 ≠ k) = m := by
    rw [List.filter_eq_self]
    intro entry mem
    exact decide_eq_true fun same => fresh (same ▸ List.mem_map_of_mem mem)
  rw [assign, kept]

theorem gather_nodup (entries : List (Bytes × Bytes)) : ((gather entries).map (·.1)).Nodup := by
  induction entries using List.reverseRecOn with
  | nil => exact List.nodup_nil
  | append_singleton rest entry ih =>
    rw [gather_concat]
    exact assign_nodup _ _ ih

theorem mem_gather {entries : List (Bytes × Bytes)} (mem : entry ∈ gather entries) :
    entry ∈ entries := by
  induction entries using List.reverseRecOn with
  | nil => exact mem
  | append_singleton rest last ih =>
    rw [gather_concat] at mem
    rcases mem_assign mem with old | new
    · exact List.mem_append_left _ (ih old)
    · exact List.mem_append_right _ (List.mem_singleton.2 new)

theorem length_le_one_of_palindrome {α : Type} {l : List α} (nodup : l.Nodup)
    (same : l.reverse = l) : l.length ≤ 1 := by
  match l with
  | [] => exact Nat.zero_le 1
  | [_] => exact Nat.le_refl 1
  | a :: b :: rest =>
    have last : (a :: b :: rest).getLast? = some a := by
      rw [← List.head?_reverse, same]
      rfl
    have mem : a ∈ b :: rest := List.mem_of_getLast? (by rwa [List.getLast?_cons_cons] at last)
    exact absurd mem (List.nodup_cons.1 nodup).1

theorem gather_eq {entries : List (Bytes × Bytes)} (nodup : (entries.map (·.1)).Nodup) :
    gather entries = entries := by
  induction entries using List.reverseRecOn with
  | nil => rfl
  | append_singleton rest last ih =>
    rw [List.map_append, List.nodup_append] at nodup
    have fresh : last.1 ∉ rest.map (·.1) := fun mem =>
      nodup.2.2 _ mem _ (List.mem_singleton.2 rfl) rfl
    rw [gather_concat, ih nodup.1, assign_fresh _ fresh]

end Maps

section Carried

theorem bytesField_json (b : Option Bytes) : bytesField (some (bytesJson b)) = some b := by
  cases b with
  | none => rfl
  | some b => rw [bytesJson, bytesField, Base64.decodeText_encode, Option.map_some]

theorem intField_num (n : Int64) : intField (some (.num n.toInt)) = some n := by
  have lower := n.le_toInt
  have upper := n.toInt_lt
  rw [intField, if_pos ⟨lower, upper⟩, Int64.ofInt_toInt]

def carriedMap (sort : MapOrder) (m : List (Bytes × Bytes)) : List (Bytes × Bytes) :=
  gather ((sort.order m).map fun entry => (Utf8.sanitize entry.1, Utf8.sanitize entry.2))

def carried (sort : MapOrder) (env : Envelope) : Envelope :=
  ⟨Utf8.sanitize env.originalTopic, Utf8.sanitize env.originalKey, env.payload,
    carriedMap sort env.headers, Utf8.sanitize env.consumerGroup, Utf8.sanitize env.error,
    env.attempts, env.failedAtUnix, Utf8.sanitize env.stackTrace⟩

theorem foldlM_stringField (entries m : List (Bytes × Bytes)) :
    (entries.map fun entry => (Utf8.sanitize entry.1, stringJson entry.2)).foldlM
      (fun m entry => (stringField (some entry.2)).map (assign m entry.1)) m =
    some ((entries.map fun entry => (Utf8.sanitize entry.1, Utf8.sanitize entry.2)).foldl
      (fun m entry => assign m entry.1 entry.2) m) := by
  induction entries generalizing m with
  | nil => rfl
  | cons entry rest ih => exact ih _

theorem mapField_json (sort : MapOrder) (m : List (Bytes × Bytes)) :
    mapField (some (mapJson sort m)) = some (carriedMap sort m) :=
  foldlM_stringField _ _

theorem carriedMap_nil (sort : MapOrder) : carriedMap sort [] = [] := by
  rw [carriedMap, (sort.perm []).eq_nil]
  rfl

theorem unmarshal_marshal (sort : MapOrder) (env : Envelope) :
    unmarshal (marshal sort env) = some (carried sort env) := by
  unfold marshal carried
  by_cases bare : env.headers = []
  · rw [if_pos bare, bare, carriedMap_nil]
    change (do
      let payload ← bytesField (some (bytesJson env.payload))
      let attempts ← intField (some (.num env.attempts.toInt))
      let failedAtUnix ← intField (some (.num env.failedAtUnix.toInt))
      some (Envelope.mk _ _ payload _ _ _ attempts failedAtUnix _)) = _
    rw [bytesField_json, intField_num, intField_num]
    rfl
  · rw [if_neg bare]
    change (do
      let payload ← bytesField (some (bytesJson env.payload))
      let headers ← mapField (some (mapJson sort env.headers))
      let attempts ← intField (some (.num env.attempts.toInt))
      let failedAtUnix ← intField (some (.num env.failedAtUnix.toInt))
      some (Envelope.mk _ _ payload headers _ _ attempts failedAtUnix _)) = _
    rw [bytesField_json, intField_num, intField_num, mapField_json]
    rfl

theorem sanitize_eq_nil {s : Bytes} : Utf8.sanitize s = [] ↔ s = [] := by
  constructor
  · intro empty
    have length := Utf8.length_le_sanitizeFrom 0 s
    rw [show Utf8.sanitizeFrom 0 s = [] from empty] at length
    exact List.eq_nil_of_length_eq_zero (Nat.le_zero.1 length)
  · rintro rfl
    rfl

theorem parse_deadLetter (sort : MapOrder) (c : Cause) (msg : Message) :
    parseEnvelope (deadLetter sort c msg) =
      if msg.topic = [] ∨ msg.value = none then none else some (carried sort (envelope c msg)) := by
  rw [parseEnvelope, deadLetter, unmarshal_marshal]
  change (if Utf8.sanitize msg.topic = [] ∨ msg.value = none then none else _) = _
  simp only [sanitize_eq_nil]

def restored (sort range : MapOrder) (msg : Message) : Message :=
  ⟨Utf8.sanitize msg.topic, some (Utf8.sanitize (text msg.key)), msg.value,
    (range.order (carriedMap sort (headerMap msg.headers))).map fun entry =>
      ⟨entry.1, some entry.2⟩⟩

theorem replay_deadLetter (sort : MapOrder) (c : Cause) (msg : Message) (ranges : ℕ → MapOrder)
    (rest : List Json) :
    replay [] false ranges (deadLetter sort c msg :: rest) =
      (if msg.topic = [] ∨ msg.value = none then [] else [restored sort (ranges 0) msg]) ++
        replay [] false (fun n => ranges (n + 1)) rest := by
  rw [replay, parse_deadLetter]
  by_cases refused : msg.topic = [] ∨ msg.value = none
  · rw [if_pos refused, if_pos refused]
    rfl
  · rw [if_neg refused, if_neg refused]
    exact if_neg fun filtered => filtered.1 rfl

end Carried

section Restored

/-- The messages that survive: every text is UTF-8 and nothing is nil. -/
structure Restorable (msg : Message) : Prop where
  named : msg.topic ≠ []
  topic : Utf8.Valid msg.topic
  key : ∃ k, msg.key = some k ∧ Utf8.Valid k
  value : msg.value ≠ none
  headers : ∀ h ∈ msg.headers, Utf8.Valid h.key ∧ ∃ v, h.value = some v ∧ Utf8.Valid v

variable {msg : Message} (sort range : MapOrder)

def produce (entry : Bytes × Bytes) : Header := ⟨entry.1, some entry.2⟩

theorem produce_injective : Function.Injective produce := by
  intro a b same
  rw [produce, produce, Header.mk.injEq, Option.some.injEq] at same
  exact Prod.ext same.1 same.2

theorem carriedMap_valid (mem : entry ∈ carriedMap sort m) :
    Utf8.Valid entry.1 ∧ Utf8.Valid entry.2 := by
  obtain ⟨source, -, rfl⟩ := List.mem_map.1 (mem_gather mem)
  exact ⟨Utf8.valid_sanitize _, Utf8.valid_sanitize _⟩

theorem carriedMap_perm (nodup : (m.map (·.1)).Nodup)
    (valid : ∀ entry ∈ m, Utf8.Valid entry.1 ∧ Utf8.Valid entry.2) :
    (carriedMap sort m).Perm m := by
  have same : (sort.order m).map (fun entry => (Utf8.sanitize entry.1, Utf8.sanitize entry.2)) =
      sort.order m := by
    rw [List.map_congr_left (g := id), List.map_id]
    intro entry mem
    have texts := valid entry ((sort.perm m).mem_iff.1 mem)
    exact Prod.ext ((Utf8.sanitize_eq_iff _).2 texts.1) ((Utf8.sanitize_eq_iff _).2 texts.2)
  have keys : ((sort.order m).map (·.1)).Nodup := ((sort.perm m).map _).nodup_iff.2 nodup
  rw [carriedMap, same, gather_eq keys]
  exact sort.perm m

theorem headerMap_eq (nodup : (msg.headers.map (·.key)).Nodup) :
    headerMap msg.headers = msg.headers.map fun h => (h.key, text h.value) := by
  rw [headerMap_gather, gather_eq]
  rw [List.map_map]
  exact nodup

theorem produce_text {h : Header} {v : Bytes} (value : h.value = some v) :
    produce (h.key, text h.value) = h := by
  rw [produce, value, text, Option.getD_some, ← value]

theorem headers_perm (whole : Restorable msg) (nodup : (msg.headers.map (·.key)).Nodup) :
    (restored sort range msg).headers.Perm msg.headers := by
  have entries := headerMap_eq nodup
  have keys : ((headerMap msg.headers).map (·.1)).Nodup := by
    rw [headerMap_gather]
    exact gather_nodup _
  have valid : ∀ entry ∈ headerMap msg.headers, Utf8.Valid entry.1 ∧ Utf8.Valid entry.2 := by
    intro entry mem
    rw [entries] at mem
    obtain ⟨h, here, rfl⟩ := List.mem_map.1 mem
    obtain ⟨name, v, value, valid⟩ := whole.headers h here
    refine ⟨name, ?_⟩
    rw [value]
    exact valid
  have back : (headerMap msg.headers).map produce = msg.headers := by
    rw [entries, List.map_map, List.map_congr_left (g := id), List.map_id]
    intro h here
    obtain ⟨-, v, value, -⟩ := whole.headers h here
    exact produce_text value
  have kept := ((range.perm _).trans (carriedMap_perm sort keys valid)).map produce
  rw [back] at kept
  exact kept

/-- Whatever comes back has distinct names and valid texts only. -/
theorem headers_whole (perm : (restored sort range msg).headers.Perm msg.headers) :
    (msg.headers.map (·.key)).Nodup ∧
      ∀ h ∈ msg.headers, Utf8.Valid h.key ∧ ∃ v, h.value = some v ∧ Utf8.Valid v := by
  have carried : ((carriedMap sort (headerMap msg.headers)).map produce).Perm msg.headers :=
    ((range.perm _).map produce).symm.trans perm
  constructor
  · rw [← (carried.map Header.key).nodup_iff, List.map_map]
    exact gather_nodup _
  · intro h here
    obtain ⟨entry, mem, rfl⟩ := List.mem_map.1 (carried.mem_iff.2 here)
    have valid := carriedMap_valid sort mem
    exact ⟨valid.1, entry.2, rfl, valid.2⟩

theorem parts_restored_iff :
    (msg.topic ≠ [] ∧ msg.value ≠ none ∧ (restored sort range msg).topic = msg.topic ∧
      (restored sort range msg).key = msg.key) ↔
    msg.topic ≠ [] ∧ Utf8.Valid msg.topic ∧ (∃ k, msg.key = some k ∧ Utf8.Valid k) ∧
      msg.value ≠ none := by
  have key : (restored sort range msg).key = msg.key ↔ ∃ k, msg.key = some k ∧ Utf8.Valid k := by
    change some (Utf8.sanitize (text msg.key)) = msg.key ↔ _
    cases msg.key with
    | none => simp
    | some k =>
      rw [Option.some.injEq, text, Option.getD_some, Utf8.sanitize_eq_iff]
      simp
  have topic : (restored sort range msg).topic = msg.topic ↔ Utf8.Valid msg.topic :=
    Utf8.sanitize_eq_iff msg.topic
  rw [key, topic]
  tauto

def Message.Alike (a b : Message) : Prop :=
  a.topic = b.topic ∧ a.key = b.key ∧ a.value = b.value ∧ a.headers.Perm b.headers

theorem alike_restored_iff :
    (msg.topic ≠ [] ∧ msg.value ≠ none ∧ (restored sort range msg).Alike msg) ↔
      Restorable msg ∧ (msg.headers.map (·.key)).Nodup := by
  constructor
  · rintro ⟨named, value, topic, key, -, perm⟩
    obtain ⟨-, validTopic, validKey, -⟩ :=
      (parts_restored_iff sort range).1 ⟨named, value, topic, key⟩
    obtain ⟨nodup, headers⟩ := headers_whole sort range perm
    exact ⟨⟨named, validTopic, validKey, value, headers⟩, nodup⟩
  · rintro ⟨whole, nodup⟩
    obtain ⟨-, -, topic, key⟩ :=
      (parts_restored_iff sort range).2 ⟨whole.named, whole.topic, whole.key, whole.value⟩
    exact ⟨whole.named, whole.value, topic, key, rfl, headers_perm sort range whole nodup⟩

theorem replay_one (c : Cause) (ranges : ℕ → MapOrder) (out : Message) :
    replay [] false ranges [deadLetter sort c msg] = [out] ↔
      msg.topic ≠ [] ∧ msg.value ≠ none ∧ restored sort (ranges 0) msg = out := by
  rw [replay_deadLetter]
  by_cases refused : msg.topic = [] ∨ msg.value = none
  · rw [if_pos refused]
    constructor
    · exact nofun
    · rintro ⟨named, value, -⟩
      exact absurd refused (not_or.2 ⟨named, value⟩)
  · rw [if_neg refused]
    have both := not_or.1 refused
    constructor
    · intro same
      exact ⟨both.1, both.2, List.head_eq_of_cons_eq same⟩
    · rintro ⟨-, -, rfl⟩
      rfl

theorem eq_of_alike {a b : Message} (alike : a.Alike b) (short : b.headers.length ≤ 1) : a = b := by
  obtain ⟨topic, key, value, perm⟩ := alike
  have headers : a.headers = b.headers := by
    match same : b.headers, short with
    | [], _ =>
      rw [same] at perm
      exact perm.eq_nil
    | [h], _ =>
      rw [same] at perm
      exact perm.eq_singleton
  cases a
  cases b
  subst topic key value headers
  rfl

theorem names_nodup (short : msg.headers.length ≤ 1) : (msg.headers.map (·.key)).Nodup := by
  match same : msg.headers, short with
  | [], _ => exact List.nodup_nil
  | [h], _ => exact List.nodup_singleton _

theorem replay_short (c : Cause) (ranges : ℕ → MapOrder) (whole : Restorable msg)
    (short : msg.headers.length ≤ 1) :
    replay [] false ranges [deadLetter sort c msg] = [msg] := by
  obtain ⟨named, value, alike⟩ :=
    (alike_restored_iff sort (ranges 0)).2 ⟨whole, names_nodup short⟩
  exact (replay_one sort c ranges msg).2 ⟨named, value, eq_of_alike alike short⟩

theorem short_of_restored (inOrder : restored sort .asis msg = msg)
    (backwards : restored sort .reversed msg = msg) : msg.headers.length ≤ 1 := by
  have first : (carriedMap sort (headerMap msg.headers)).map produce = msg.headers :=
    congrArg Message.headers inOrder
  have second : (carriedMap sort (headerMap msg.headers)).reverse.map produce = msg.headers :=
    congrArg Message.headers backwards
  have same := produce_injective.list_map (second.trans first.symm)
  have nodup : (carriedMap sort (headerMap msg.headers)).Nodup := (gather_nodup _).of_map _
  rw [← first, List.length_map]
  exact length_le_one_of_palindrome nodup same

/-- A dead letter is replayed as the message it was made of, in whatever order
the map of headers is gone through, when the message is restorable and has at
most one header; and up to the order of the headers when their names differ. -/
theorem replay_restores_iff (c : Cause) (msg : Message) (sort : MapOrder) :
    ((∀ ranges, replay [] false ranges [deadLetter sort c msg] = [msg]) ↔
      Restorable msg ∧ msg.headers.length ≤ 1) ∧
    ∀ ranges, (∃ out, replay [] false ranges [deadLetter sort c msg] = [out] ∧ out.Alike msg) ↔
      Restorable msg ∧ (msg.headers.map (·.key)).Nodup := by
  constructor
  · constructor
    · intro always
      obtain ⟨named, value, inOrder⟩ := (replay_one sort c _ msg).1 (always fun _ => .asis)
      obtain ⟨-, -, backwards⟩ := (replay_one sort c _ msg).1 (always fun _ => .reversed)
      have alike : (restored sort .asis msg).Alike msg := by
        rw [inOrder]
        exact ⟨rfl, rfl, rfl, .refl _⟩
      exact ⟨((alike_restored_iff sort .asis).1 ⟨named, value, alike⟩).1,
        short_of_restored sort inOrder backwards⟩
    · rintro ⟨whole, short⟩ ranges
      exact replay_short sort c ranges whole short
  · intro ranges
    rw [← alike_restored_iff sort (ranges 0)]
    constructor
    · rintro ⟨out, run, alike⟩
      obtain ⟨named, value, rfl⟩ := (replay_one sort c ranges out).1 run
      exact ⟨named, value, alike⟩
    · rintro ⟨named, value, alike⟩
      exact ⟨_, (replay_one sort c ranges _).2 ⟨named, value, rfl⟩, alike⟩

/-- A tombstone is dropped, a key that is not UTF-8 is changed, a header name
used twice keeps its last value only. -/
theorem replay_loses :
    replay [] false (fun _ => .asis)
      [deadLetter .asis ⟨[], [], 4, 0, []⟩ ⟨[116], some [1], none, []⟩] = [] ∧
    replay [] false (fun _ => .asis)
      [deadLetter .asis ⟨[], [], 4, 0, []⟩ ⟨[116], some [0xFF], some [7], []⟩] =
        [⟨[116], some [0xEF, 0xBF, 0xBD], some [7], []⟩] ∧
    replay [] false (fun _ => .asis)
      [deadLetter .asis ⟨[], [], 4, 0, []⟩
        ⟨[116], some [1], some [7], [⟨[97], some [1]⟩, ⟨[97], some [2]⟩]⟩] =
        [⟨[116], some [1], some [7], [⟨[97], some [2]⟩]⟩] := by
  decide

end Restored

/-! ### The consumer's messages

The consumer is modelled over texts; they are UTF-8 here. -/
section Texts

def utf8 (s : String) : Bytes := s.toList.flatMap fun c => Utf8.encode c.toNat

theorem utf8_eq (s : String) : utf8 s = (s.toList.map Char.toNat).flatMap Utf8.encode := by
  rw [utf8, List.flatMap_map]

theorem scalars (s : String) : ∀ n ∈ s.toList.map Char.toNat, Utf8.Scalar n := by
  intro n mem
  obtain ⟨c, -, rfl⟩ := List.mem_map.1 mem
  exact c.valid

theorem utf8_valid (s : String) : Utf8.Valid (utf8 s) := ⟨_, scalars s, utf8_eq s⟩

theorem utf8_injective : Function.Injective utf8 := by
  intro s s' same
  rw [utf8_eq, utf8_eq] at same
  have codes := Utf8.flatMap_encode_injective (scalars s) (scalars s') same
  exact String.toList_injective ((List.map_injective_iff.2 fun _ _ => Char.toNat_inj.1) codes)

def utf8Entry (entry : String × String) : Bytes × Bytes := (utf8 entry.1, utf8 entry.2)

def ofMessage (msg : Streaming.KafkaMessage Bytes) : Message :=
  ⟨utf8 msg.topic, some (utf8 msg.key), some msg.value,
    msg.headers.map fun h => ⟨utf8 h.1, some (utf8 h.2)⟩⟩

def ofEnvelope (env : Streaming.Envelope Bytes) : Envelope :=
  ⟨utf8 env.originalTopic, utf8 env.originalKey, some env.payload, env.headers.map utf8Entry,
    utf8 env.consumerGroup, utf8 env.error, .ofInt env.attempts, .ofInt env.failedAtUnix,
    utf8 env.stackTrace⟩

theorem headerMap_utf8 (headers : List (String × String)) :
    (Streaming.headerMap headers).map utf8Entry =
      headerMap (headers.map fun h => ⟨utf8 h.1, some (utf8 h.2)⟩) := by
  rw [Streaming.headerMap, headerMap, List.foldl_map]
  have step : ∀ kept : List (String × String), (headers.foldl (fun kept h =>
      kept.filter (fun k => k.1 != h.1) ++ [h]) kept).map utf8Entry =
        headers.foldl (fun m h => assign m (utf8 h.1) (text (some (utf8 h.2))))
          (kept.map utf8Entry) := by
    induction headers with
    | nil => exact fun _ => rfl
    | cons h rest ih =>
      intro kept
      rw [List.foldl_cons, List.foldl_cons, ih, List.map_append, assign, List.filter_map]
      congr 3
      refine List.filter_congr fun k _ => ?_
      simp [utf8Entry, utf8_injective.eq_iff, bne, beq_eq_decide]
  exact step []

theorem ofEnvelope_envelope (rt : Platform.Runtime) (cfg : Streaming.Config)
    (msg : Streaming.KafkaMessage Bytes) (cause : Option Messages.Failure) (attempts : ℤ)
    (stamp : ℤ × String) :
    ofEnvelope (Streaming.envelope rt cfg msg cause attempts stamp) =
      envelope ⟨utf8 cfg.groupID, utf8 (Streaming.sprint rt cause), .ofInt attempts,
        .ofInt stamp.1, utf8 stamp.2⟩ (ofMessage msg) := by
  rw [Streaming.envelope, ofEnvelope, headerMap_utf8]
  rfl

theorem utf8_ne_nil {s : String} (h : s ≠ "") : utf8 s ≠ [] := fun empty =>
  h (utf8_injective empty)

theorem ofMessage_restorable {msg : Streaming.KafkaMessage Bytes} (named : msg.topic ≠ "") :
    Restorable (ofMessage msg) := by
  refine ⟨utf8_ne_nil named, utf8_valid _, ⟨_, rfl, utf8_valid _⟩, nofun, ?_⟩
  intro h mem
  obtain ⟨entry, -, rfl⟩ := List.mem_map.1 mem
  exact ⟨utf8_valid _, _, rfl, utf8_valid _⟩

theorem consumer_letter_restored (rt : Platform.Runtime) (cfg : Streaming.Config)
    (msg : Streaming.KafkaMessage Bytes) (cause : Option Messages.Failure) (attempts : ℤ)
    (stamp : ℤ × String) (sort : MapOrder) (ranges : ℕ → MapOrder) (named : msg.topic ≠ "")
    (short : msg.headers.length ≤ 1) :
    replay [] false ranges
      [marshal sort (ofEnvelope (Streaming.envelope rt cfg msg cause attempts stamp))] =
        [ofMessage msg] := by
  rw [ofEnvelope_envelope]
  refine replay_short sort _ ranges (ofMessage_restorable named) ?_
  rw [ofMessage, List.length_map]
  exact short

end Texts

end Taper.DeadLetters
