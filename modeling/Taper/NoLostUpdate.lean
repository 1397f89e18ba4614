import Taper.StockScripts

set_option autoImplicit false

/-!
# No update is lost

Over rows that exist, requests that run at the same time end with the tables and
the answers they have one at a time, in the order in which they end.
-/
namespace Taper.NoLostUpdate
open Messages TwoPhase StockConservation StockReplays StockScripts
open Platform hiding execTxWithTenant
open StockTables (StockLocation StockLevel StockEvent StockOutboxEvent StockDb)
open StockHandlers (Movement sortedLines lineLocation)

def Good (named : StockLocation → Prop) : (k : Resource) → Cell k → Prop
  | .key _ _, _ => True
  | .row loc, cell => named loc → (cell : Option StockLevel) ≠ none

def Fixed : (k : Resource) → Cell k → Prop
  | .key _ _, cell => (cell : Option String) ≠ none
  | .row _, _ => False

variable {rt : Runtime}

section Sound

variable {α β : Type} {named : StockLocation → Prop} {held : Resource → Prop}
  {loc : StockLocation}

def locked (loc : StockLocation) (held : Resource → Prop) : Resource → Prop :=
  fun k => k = .row loc ∨ held k

theorem sound_row (here : named loc)
    {run : Option StockLevel → Option (Option StockLevel) × Statements α}
    {Q : (Resource → Prop) → α → Prop}
    (each : ∀ level, ∃ level', (run (some level)).1 = some (some level') ∧
      Sound (Good named) Fixed (run (some level)).2 (locked loc held) Q) :
    Sound (Good named) Fixed (Script.statement (.row loc) run) held Q := by
  intro cell good
  obtain ⟨level, rfl⟩ := Option.ne_none_iff_exists'.1 (good here)
  obtain ⟨level', writes, later⟩ := each level
  refine ⟨fun read => ?_, fun v read => ?_⟩
  · exact absurd (writes.symm.trans read) (Option.some_ne_none _)
  · cases writes.symm.trans read
    exact ⟨fun _ => Option.some_ne_none _, False.elim, later⟩

/-- A name that is longer than its column finds no row and takes no lock. -/
theorem sound_get (here : named loc.stored) {Q : (Resource → Prop) → Option StockLevel → Prop}
    (absent : Q held none)
    (found : loc.stored = loc → ∀ level, Q (locked loc held) (some level)) :
    Sound (Good named) Fixed (getStockLevelForUpdate loc) held Q := by
  refine sound_bind (sound_require ?_)
  split
  · rename_i within
    exact sound_row (within ▸ here) fun level => ⟨level, rfl, found within level⟩
  · exact absent

variable {Q : (Resource → Prop) → Unit → Prop} {tenantID : UUID} {orderID : String} {l : StockLine}

theorem sound_write {old new : StockLevel} (done : Q held ()) :
    ∃ level, (writeLevel old new).1 = some (some level) ∧
      Sound (Good named) Fixed (writeLevel old new).2 held Q := by
  unfold writeLevel
  cases new.check with
  | error e => exact ⟨old, rfl, trivial⟩
  | ok u => exact ⟨new, rfl, done⟩

theorem sound_update (here : named loc) {level : StockLevel} (done : Q (locked loc held) ()) :
    Sound (Good named) Fixed (updateStockLevel loc level) held Q :=
  sound_row here fun _ => sound_write done

theorem sound_event {e : StockEvent} (own : held (.row e.location.stored)) (done : Q held ()) :
    Sound (Good named) Fixed (insertStockEvent e) held Q :=
  sound_bind (sound_require ⟨own, done⟩)

theorem sound_outbox {e : StockOutboxEvent} (own : held (.row e.location)) (done : Q held ()) :
    Sound (Good named) Fixed (insertOutboxEvent e) held Q :=
  sound_bind (sound_require ⟨own, done⟩)

theorem sound_upsert (here : named loc.stored) {availableQty : Int32}
    (done : Q (locked loc.stored held) ()) :
    Sound (Good named) Fixed (upsertStockLevel loc availableQty) held Q := by
  refine sound_bind (sound_require ?_)
  simp only
  split
  · trivial
  · refine sound_row here fun level => ?_
    simp only [addAvailable]
    split
    · exact sound_write done
    · exact ⟨level, rfl, trivial⟩

theorem sound_audit (here : named loc) {on : Bool} (done : Q (locked loc held) ()) :
    Sound (Good named) Fixed (setAuditLock loc on) held Q :=
  sound_row here fun level => ⟨{ level with isLockedForAudit := on }, rfl, done⟩

theorem sound_key {key hash : String} {Q : (Resource → Prop) → Bool → Prop}
    (done : ∀ held new, Q held new) :
    Sound (Good named) Fixed (checkAndInsertIdempotencyKey tenantID key hash) held Q := by
  refine sound_bind (sound_require fun cell _ => ?_)
  cases (cell : Option String) with
  | none =>
    refine ⟨fun read => absurd read (Option.some_ne_none _), fun v read => ?_⟩
    cases read
    exact ⟨trivial, fun fixed => absurd rfl fixed, done _ _⟩
  | some h =>
    refine ⟨fun _ => ⟨.inr (Option.some_ne_none h), done _ _⟩, fun v read => ?_⟩
    exact absurd read.symm (Option.some_ne_none v)

theorem sound_keyed {key : String} {msg : Message} {again work : Statements α}
    (dup : ∀ held, Sound (Good named) Fixed again held fun _ _ => True)
    (new : ∀ held, Sound (Good named) Fixed work held fun _ _ => True) :
    Sound (Good named) Fixed (keyed rt tenantID key msg again work) held fun _ _ => True := by
  have branch : ∀ held (repeated : Bool),
      Sound (Good named) Fixed (if repeated then again else work) held fun _ _ => True := by
    intro held repeated
    cases repeated with
    | true => exact dup held
    | false => exact new held
  refine sound_bind ?_
  unfold tryIdempotency
  split
  · exact branch held false
  · exact sound_bind (sound_key fun held new => branch held (!new))

theorem sound_moveLine {m : Movement} {level : StockLevel}
    (here : named (lineLocation tenantID l).stored)
    (within : (lineLocation tenantID l).stored = lineLocation tenantID l)
    (done : Q (locked (lineLocation tenantID l) held) ()) :
    Sound (Good named) Fixed (moveLine m tenantID orderID l level) held Q :=
  sound_bind (sound_update (within ▸ here)
    (sound_bind (sound_event (.inl (congrArg Resource.row within)) (sound_outbox (.inl rfl) done))))

theorem sound_reserveLine (here : named (lineLocation tenantID l).stored) :
    Sound (Good named) Fixed (reserveLine tenantID orderID l) held fun _ _ => True := by
  refine sound_bind (sound_get here trivial fun within level => ?_)
  simp only
  split
  · trivial
  · exact sound_bind (sound_moveLine here within trivial)

theorem sound_releaseLine {reason : String} (here : named (lineLocation tenantID l).stored) :
    Sound (Good named) Fixed (releaseLine tenantID orderID reason l) held fun _ _ => True :=
  sound_bind (sound_get here trivial fun within _ =>
    sound_bind (sound_moveLine here within trivial))

theorem sound_requiredLine {m : Movement} {report : StockLevel → β}
    (here : named (lineLocation tenantID l).stored) :
    Sound (Good named) Fixed (requiredLine m report tenantID orderID l) held fun _ _ => True :=
  sound_bind (sound_get here trivial fun within _ =>
    sound_bind (sound_moveLine here within trivial))

theorem sound_lines {lines : List StockLine} {visit : StockLine → Statements (Option β)}
    {rest : List β → Statements α} (names : ∀ l ∈ lines, named (lineLocation tenantID l).stored)
    (each : ∀ l, named (lineLocation tenantID l).stored → ∀ held,
      Sound (Good named) Fixed (visit l) held fun _ _ => True)
    (later : ∀ held out, Sound (Good named) Fixed (rest out) held fun _ _ => True) :
    Sound (Good named) Fixed (Script.collect visit (sortedLines rt lines) >>= rest) held
      fun _ _ => True := by
  refine sound_bind (sound_mono (fun _ own => own) (fun _ held out _ _ => later held out)
    (sound_collect (fun l mem => each l (names l ?_)) held))
  exact ((rt.sortSlice_perm lines).mem_iff).1 mem

theorem sound_execTx {tenantId : String} {m : Statements α}
    (inner : Sound (Good named) Fixed m held fun _ _ => True) :
    Sound (Good named) Fixed (execTxWithTenant rt tenantId m) held fun _ _ => True := by
  unfold execTxWithTenant
  split
  · trivial
  · split
    · trivial
    · exact inner

theorem sound_tenantRpc {tenantId context : String} {answer : Except Failure α → StockAnswer}
    {fn : UUID → Statements α}
    (inner : ∀ t, rt.scan tenantId = some t →
      Sound (Good named) Fixed (fn t) held fun _ _ => True) :
    Sound (Good named) Fixed (tenantRpc rt tenantId context answer fn) held fun _ _ => True := by
  unfold tenantRpc parseUUID
  cases parse : rt.scan tenantId with
  | none => trivial
  | some t => exact sound_report (sound_execTx (inner t parse))

theorem sound_reserve {req : ReserveStockRequest}
    (names : ∀ t, rt.scan req.tenantId = some t → ∀ l ∈ req.lines,
      named (lineLocation t l).stored) :
    Sound (Good named) Fixed (reserveStock rt req) held fun _ _ => True := by
  unfold reserveStock parseUUID
  cases parse : rt.scan req.tenantId with
  | none => trivial
  | some t =>
    simp only
    split
    · trivial
    · refine sound_report (sound_execTx (sound_keyed (fun _ => trivial) fun held => ?_))
      refine sound_lines (names t parse) (fun l here held => sound_reserveLine here)
        fun held out => ?_
      split
      · trivial
      · trivial

theorem sound_script {call : StockCall} {m : RequestScript} (h : script rt call = some m)
    (names : ∀ loc, call.Names rt loc → named loc.stored) :
    Sound (Good named) Fixed m held fun _ _ => True := by
  have at_lines : ∀ t, rt.scan call.tenantId = some t →
      call.locations t = call.lines.map (lineLocation t) →
      ∀ l ∈ call.lines, named (lineLocation t l).stored := by
    intro t parse lines l mem
    refine names _ ⟨t, parse, ?_⟩
    rw [lines]
    exact List.mem_map.2 ⟨l, mem, rfl⟩
  cases call with
  | adjustStock req =>
    cases h
    refine sound_tenantRpc fun t parse => ?_
    have here := names ⟨t, req.skuId, req.warehouseId⟩ ⟨t, parse, List.mem_singleton.2 rfl⟩
    refine sound_keyed (fun held => ?_) fun held => ?_
    · exact sound_bind (sound_get here trivial fun _ _ => trivial)
    · refine sound_bind (sound_upsert here (sound_bind
        (sound_get here trivial fun within level => ?_)))
      refine sound_bind (sound_update (within ▸ here) (sound_bind
        (sound_event (.inl (congrArg Resource.row within)) ?_)))
      refine sound_bind (sound_outbox (.inl rfl) ?_)
      split
      · exact sound_bind (sound_outbox (.inl rfl) trivial)
      · trivial
  | reserveStock req =>
    cases h
    exact sound_reserve fun t parse => at_lines t parse rfl
  | releaseStock req =>
    cases h
    refine sound_tenantRpc fun t parse => sound_keyed (fun _ => trivial) fun held => ?_
    exact sound_lines (at_lines t parse rfl) (fun l here held => sound_releaseLine here)
      fun _ _ => trivial
  | confirmStockAllocation req =>
    cases h
    refine sound_tenantRpc fun t parse => sound_keyed (fun _ => trivial) fun held => ?_
    exact sound_lines (at_lines t parse rfl) (fun l here held => sound_requiredLine here)
      fun _ _ => trivial
  | fulfillStock req =>
    cases h
    refine sound_tenantRpc fun t parse => sound_keyed (fun _ => trivial) fun held => ?_
    exact sound_lines (at_lines t parse rfl) (fun l here held => sound_requiredLine here)
      fun _ _ => trivial
  | unlockStockForAudit req =>
    cases h
    refine sound_tenantRpc fun t parse => ?_
    have here := names ⟨t, req.skuId, req.warehouseId⟩ ⟨t, parse, List.mem_singleton.2 rfl⟩
    refine sound_bind (sound_get here trivial fun within level =>
      sound_bind (sound_audit (within ▸ here) ?_))
    exact sound_bind (sound_event (.inl (congrArg Resource.row within)) trivial)
  | reconcile => cases h

end Sound

abbrev StockState := State ℕ Resource Cell Entry StockAnswer StockAnswer

def tasks (rt : Runtime) (calls : List StockCall) (i : ℕ) : Option RequestScript :=
  calls[i]?.bind (script rt)

def concurrently (rt : Runtime) (calls : List StockCall) (schedule : List ℕ) (db : StockDb) :
    Option StockState :=
  State.run schedule (start (tasks rt calls) (cells db))

def tables (db : StockDb) (st : StockState) : StockDb where
  stockLevels loc := st.store (.row loc)
  stockEvents := db.stockEvents ++ eventsOf (st.log.map (·.2))
  outbox := db.outbox ++ outboxOf (st.log.map (·.2))
  processedKeys tenantID key := st.store (.key tenantID key)

theorem filterMap_located {γ : Type} {part : Entry → Option γ} {place : γ → StockLocation}
    (agrees : ∀ e c, part e = some c → place c = e.location) {log : List (Resource × Entry)}
    (located : ∀ x ∈ log, x.1 = .row x.2.location) (loc : StockLocation) :
    (log.filterMap fun x => part x.2).filter (place · = loc) =
      (entriesAt (.row loc) log).filterMap part := by
  rw [entriesAt, List.filterMap_map, List.filterMap_filter, List.filter_filterMap]
  refine List.filterMap_congr fun x mem => ?_
  have here : x.1 = .row loc ↔ x.2.location = loc := by
    rw [located x mem]
    simp
  simp only [here, Function.comp_apply, decide_eq_true_eq]
  cases found : part x.2 with
  | none => simp
  | some c => simp [Option.filter, agrees x.2 c found]

theorem event_agrees (e : Entry) (c : StockEvent) (h : e.event? = some c) :
    c.location = e.location := by
  cases e with
  | event e =>
    cases h
    rfl
  | outbox e => cases h

theorem outbox_agrees (e : Entry) (c : StockOutboxEvent) (h : e.outbox? = some c) :
    c.location = e.location := by
  cases e with
  | event e => cases h
  | outbox e =>
    cases h
    rfl

theorem located_of_entries {log log' : List (Resource × Entry)}
    (same : ∀ k, entriesAt k log = entriesAt k log')
    (located : ∀ x ∈ log', x.1 = .row x.2.location) : ∀ x ∈ log, x.1 = .row x.2.location := by
  intro x mem
  have here : x.2 ∈ entriesAt x.1 log :=
    List.mem_map.2 ⟨x, List.mem_filter.2 ⟨mem, by simp⟩, rfl⟩
  rw [same] at here
  obtain ⟨y, mem', eq⟩ := List.mem_map.1 here
  obtain ⟨mem', key⟩ := List.mem_filter.1 mem'
  have place := located y mem'
  rw [eq, of_decide_eq_true key] at place
  exact place

theorem tasks_isSome {calls : List StockCall} (requests : ∀ call ∈ calls, call ≠ .reconcile)
    (i : ℕ) :
    (tasks rt calls i).isSome ↔ i < calls.length := by
  unfold tasks
  constructor
  · intro some_
    obtain ⟨m, found⟩ := Option.isSome_iff_exists.1 some_
    obtain ⟨call, at_, -⟩ := Option.bind_eq_some_iff.1 found
    exact (List.getElem?_eq_some_iff.1 at_).1
  · intro lt
    rw [List.getElem?_eq_getElem lt, Option.bind_some]
    cases at_ : calls[i] with
    | reconcile => exact absurd at_ (requests _ (List.getElem_mem lt))
    | _ => rfl

/-- Requests over rows that exist under their stored names, in any interleaving
in which all of them end: tables, events and answers are those of the requests
one at a time in the order in which they ended. The generated id in the answer
of an adjustment is left out. -/
theorem no_lost_update (rt : Runtime) (calls : List StockCall)
    (requests : ∀ call ∈ calls, call ≠ .reconcile) (db : StockDb)
    (exist : ∀ call ∈ calls, ∀ loc, call.Names rt loc → db.stockLevels loc.stored ≠ none)
    (schedule : List ℕ) (st : StockState) (run : concurrently rt calls schedule db = some st)
    (ended : ∀ i < calls.length, st.threads i = none) :
    let order := st.finished.map (·.1)
    let served := order.filterMap (calls[·]?)
    let after := runCalls rt served db
    order.Perm (List.range calls.length) ∧
      (tables db st).stockLevels = after.stockLevels ∧
      (tables db st).processedKeys = after.processedKeys ∧
      (∀ loc, (tables db st).stockEvents.filter (·.location = loc) =
        after.stockEvents.filter (·.location = loc)) ∧
      (∀ loc, (tables db st).outbox.filter (·.location = loc) =
        after.outbox.filter (·.location = loc)) ∧
      st.finished.map (given ·.2) = (Replay.answers (step rt) served db).map plain := by
  intro order served after
  have named : ∀ i m, tasks rt calls i = some m →
      Sound (Good fun row => ∃ call ∈ calls, ∃ loc, call.Names rt loc ∧ loc.stored = row) Fixed m
        (fun _ => False) fun _ _ => True := by
    intro i m task
    obtain ⟨call, at_, found⟩ := Option.bind_eq_some_iff.1 task
    exact sound_script found fun loc names => ⟨call, List.mem_of_getElem? at_, loc, names, rfl⟩
  have good : ∀ k, Good (fun row => ∃ call ∈ calls, ∃ loc, call.Names rt loc ∧ loc.stored = row) k
      (cells db k) := by
    intro k
    cases k with
    | key t key => trivial
    | row loc =>
      rintro ⟨call, mem, loc, names, rfl⟩
      exact exist call mem loc names
  obtain ⟨nodup, all, log, serial, entries⟩ := serializable good named run
    fun i task => ended i ((tasks_isSome requests i).1 task)
  have scripts : st.finished.filterMap (fun x => tasks rt calls x.1) =
      served.filterMap (script rt) := by
    change _ = ((st.finished.map (·.1)).filterMap (calls[·]?)).filterMap (script rt)
    rw [List.filterMap_filterMap, List.filterMap_map]
    rfl
  have mine : ∀ call ∈ served, call ≠ .reconcile := by
    intro call mem
    obtain ⟨i, -, at_⟩ := List.mem_filterMap.1 mem
    exact requests call (List.mem_of_getElem? at_)
  obtain ⟨outs, log', ran, answers, logged⟩ := serial_serves rt served mine db
  rw [scripts, ran] at serial
  obtain ⟨rfl, stored⟩ := Prod.mk.inj serial
  obtain ⟨store, rfl⟩ := Prod.mk.inj stored
  have located := located_of_entries entries logged.located
  refine ⟨?_, ?_, ?_, fun loc => ?_, fun loc => ?_, ?_⟩
  · refine (List.perm_ext_iff_of_nodup nodup List.nodup_range).2 fun i => ?_
    rw [all i, tasks_isSome requests, List.mem_range]
  · funext loc
    exact (congrFun store (.row loc)).symm
  · funext t key
    exact (congrFun store (.key t key)).symm
  · rw [logged.events]
    simp only [tables, List.filter_append, eventsOf]
    rw [filterMap_located event_agrees located, filterMap_located event_agrees logged.located,
      entries]
  · rw [logged.outbox]
    simp only [tables, List.filter_append, outboxOf]
    rw [filterMap_located outbox_agrees located, filterMap_located outbox_agrees logged.located,
      entries]
  · rw [← answers, List.map_map]
    rfl

def fiveUnits : StockDb := StockDb.empty.setLevel sampleLocation ⟨5, 0, 0, false⟩

def holdOf (orderID key : String) (quantity : Int32) : StockCall :=
  .reserveStock ⟨sampleTenant.text, orderID, key, [⟨"SKU", "W1", quantity⟩]⟩

/-- The first request claims its key first, but the second is at the row before
it and commits; what is left does not cover the first. -/
theorem no_lost_update_overtaken :
    ∃ st, concurrently (reference []) [holdOf "O1" "K1" 3, holdOf "O2" "K2" 4]
        [0, 1, 1, 1, 1, 1, 1, 0, 0] fiveUnits = some st ∧
      st.finished.map (·.1) = [1, 0] ∧
      (tables fiveUnits st).stockLevels =
        (runCalls (reference []) [holdOf "O2" "K2" 4, holdOf "O1" "K1" 3] fiveUnits).stockLevels ∧
      (runCalls (reference []) [holdOf "O2" "K2" 4, holdOf "O1" "K1" 3] fiveUnits).stockLevels
        sampleLocation = some ⟨1, 4, 0, false⟩ := by
  have ends : ((concurrently (reference []) [holdOf "O1" "K1" 3, holdOf "O2" "K2" 4]
      [0, 1, 1, 1, 1, 1, 1, 0, 0] fiveUnits).map fun st =>
        ((st.threads 0).isNone, (st.threads 1).isNone, st.finished.map (·.1))) =
      some (true, true, [1, 0]) := by
    decide +kernel
  obtain ⟨st, run, facts⟩ := Option.map_eq_some_iff.1 ends
  obtain ⟨first, second, order⟩ : (st.threads 0).isNone = true ∧ (st.threads 1).isNone = true ∧
      st.finished.map (·.1) = [1, 0] := by
    simpa using facts
  have result := no_lost_update (reference []) _ (by decide) fiveUnits ?_ _ st run ?_
  · rw [order] at result
    exact ⟨st, run, order, result.2.1, by decide +kernel⟩
  · rintro call mem loc ⟨t, parse, here⟩
    have hold : ∃ orderID key quantity, call = holdOf orderID key quantity := by
      rcases List.mem_cons.1 mem with rfl | mem
      · exact ⟨_, _, _, rfl⟩
      · exact ⟨_, _, _, List.mem_singleton.1 mem⟩
    obtain ⟨orderID, key, quantity, rfl⟩ := hold
    cases parse.symm.trans ((reference []).scan_text sampleTenant)
    cases List.mem_singleton.1 here
    exact show fiveUnits.stockLevels sampleLocation.stored ≠ none by decide
  · intro i lt
    match i, lt with
    | 0, _ => exact Option.isNone_iff_eq_none.1 first
    | 1, _ => exact Option.isNone_iff_eq_none.1 second

end Taper.NoLostUpdate
