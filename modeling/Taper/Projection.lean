import Taper.ChannelSync
import Taper.StockOutbox
import Mathlib.Data.List.Induction

set_option autoImplicit false

/-!
# The availability projection beside the stock levels

The reactor takes availability from adjustments alone, and files them under the
SKU as the aggregate id has it.
-/
namespace Taper.Projection
open Messages Transaction Platform Ledger StockTables StockHandlers StockSteps
open StockConservation StockReplays StockEffects StockOutbox ChannelSync Streaming

def stated (e : StockOutboxEvent) : Option Int32 :=
  match e.payload with
  | .adjust _ _ _ availableQty _ _ =>
    if e.eventType = "stock.adjusted" then some availableQty else none
  | _ => none

def lastOf (mine : StockOutboxEvent → Prop) [DecidablePred mine]
    (events : List StockOutboxEvent) : Option Int32 :=
  events.foldl (fun last e => if mine e then (stated e).or last else last) none

def lastStated (events : List StockOutboxEvent) (loc : StockLocation) : Option Int32 :=
  lastOf (fun e => e.location = loc) events

/-- The reactor takes the SKU from the aggregate id, of which 218 characters
are the SKU's. Without any it skips the event. -/
def FiledUnder (loc : StockLocation) (e : StockOutboxEvent) : Prop :=
  e.location.skuID ≠ "" ∧
    (⟨e.tenantID, column 218 e.location.skuID, e.location.warehouseID⟩ : StockLocation) = loc

instance FiledUnder.decidable (loc : StockLocation) : DecidablePred (FiledUnder loc) :=
  fun _ => inferInstanceAs (Decidable (_ ∧ _))

def lastFiled (events : List StockOutboxEvent) (loc : StockLocation) : Option Int32 :=
  lastOf (FiledUnder loc) events

def movedSince (events : List StockOutboxEvent) (loc : StockLocation) : ℤ :=
  (events.filter fun e => e.location = loc).foldl (fun moved e =>
    match e.payload with
    | .line _ _ _ _ quantity => moved + quantity.toInt * (direction e.eventType).1
    | .adjust _ _ _ _ _ _ => if e.eventType = "stock.adjusted" then 0 else moved
    | .deficit _ _ _ _ _ => moved) 0

variable {loc : StockLocation} {m : Movement} {db : StockDb}

section Last

variable {mine : StockOutboxEvent → Prop} [DecidablePred mine]

theorem lastOf_append (events : List StockOutboxEvent) (e : StockOutboxEvent) :
    lastOf mine (events ++ [e]) =
      if mine e then (stated e).or (lastOf mine events) else lastOf mine events := by
  simp [lastOf]

theorem lastOf_foldl (events : List StockOutboxEvent) (last : Option Int32) :
    events.foldl (fun last e => if mine e then (stated e).or last else last) last =
      (lastOf mine events).or last := by
  induction events using List.reverseRecOn with
  | nil => rfl
  | append_singleton events e ih =>
    rw [List.foldl_append, ih, lastOf_append]
    by_cases here : mine e
    · simp [here, Option.or_assoc]
    · simp [here]

theorem lastOf_cons (e : StockOutboxEvent) (rest : List StockOutboxEvent) :
    lastOf mine (e :: rest) = (lastOf mine rest).or (if mine e then stated e else none) := by
  rw [← lastOf_foldl rest (if mine e then stated e else none)]
  by_cases here : mine e
  · simp [lastOf, here]
  · simp [lastOf, here]

theorem lastOf_congr {other : StockOutboxEvent → Prop} [DecidablePred other]
    (same : ∀ e, mine e ↔ other e) (events : List StockOutboxEvent) :
    lastOf mine events = lastOf other events := by
  unfold lastOf
  simp only [same]

theorem lastOf_none (never : ∀ e, ¬mine e) (events : List StockOutboxEvent) :
    lastOf mine events = none := by
  have same : lastOf mine events = lastOf (fun _ => False) events :=
    lastOf_congr (fun e => iff_false_intro (never e)) events
  rw [same]
  simp [lastOf]

theorem lastStated_append (events : List StockOutboxEvent) (e : StockOutboxEvent)
    (loc : StockLocation) : lastStated (events ++ [e]) loc =
      if e.location = loc then (stated e).or (lastStated events loc) else lastStated events loc :=
  lastOf_append events e

/-- A SKU of 1 to 217 characters is in the aggregate id as it is, and no longer
one is cut to it. -/
theorem lastFiled_short (some_ : loc.skuID ≠ "") (short : loc.skuID.length < 218)
    (events : List StockOutboxEvent) :
    lastFiled events loc = lastStated events loc := by
  refine lastOf_congr (fun e => ?_) events
  have tenant : e.location.tenantID = e.tenantID := by
    unfold StockOutboxEvent.location
    split <;> rfl
  constructor
  · rintro ⟨-, filed⟩
    have sku : e.location.skuID = loc.skuID :=
      (column_eq_short short).1 (congrArg StockLocation.skuID filed)
    rwa [column_of_le (sku ▸ short.le), ← tenant] at filed
  · rintro rfl
    exact ⟨some_, by rw [column_of_le short.le, ← tenant]⟩

/-- An empty SKU is skipped, and no aggregate id has more than 218 characters
of one. -/
theorem lastFiled_none (lost : loc.skuID = "" ∨ 218 < loc.skuID.length)
    (events : List StockOutboxEvent) : lastFiled events loc = none := by
  refine lastOf_none (fun e filed => ?_) events
  obtain ⟨some_, rfl⟩ := filed
  rcases lost with empty | long
  · exact some_ ((column_eq_empty (by decide)).1 empty)
  · exact absurd (column_length_le 218 e.location.skuID) (by simpa using long)

end Last

theorem movedSince_append (events : List StockOutboxEvent) (e : StockOutboxEvent)
    (loc : StockLocation) : movedSince (events ++ [e]) loc =
      if e.location = loc then
        match e.payload with
        | .line _ _ _ _ quantity =>
          movedSince events loc + quantity.toInt * (direction e.eventType).1
        | .adjust _ _ _ _ _ _ => if e.eventType = "stock.adjusted" then 0 else movedSince events loc
        | .deficit _ _ _ _ _ => movedSince events loc
      else movedSince events loc := by
  unfold movedSince
  by_cases here : e.location = loc
  · simp [List.filter_append, here]
  · simp [List.filter_append, here]

theorem readLog_available (events : List StockOutboxEvent) (loc : StockLocation) :
    (readLog events loc).1 =
      ((lastStated events loc).map Int32.toInt).getD 0 + movedSince events loc := by
  induction events using List.reverseRecOn with
  | nil => rfl
  | append_singleton events e ih =>
    rw [readLog_append, lastStated_append, movedSince_append]
    by_cases here : e.location = loc
    · simp only [if_pos here]
      unfold readEvent stated
      cases e.payload with
      | line action orderID skuID warehouseID quantity =>
        simp only [Option.none_or, Prod.fst_add, Prod.smul_fst, smul_eq_mul]
        rw [ih]
        ring
      | adjust skuID warehouseID delta availableQty reason source =>
        by_cases adjusted : e.eventType = "stock.adjusted"
        · simp [adjusted]
        · simp [adjusted, ih]
      | deficit skuID warehouseID delta reason source => simp [ih]
    · simp only [if_neg here]
      exact ih

def TypeFits (e : StockOutboxEvent) : Prop :=
  match e.payload with
  | .line _ _ _ _ _ => e.eventType ≠ "stock.adjusted" ∧ e.eventType ≠ "stock.deficit_alert"
  | .adjust _ _ _ _ _ _ => e.eventType = "stock.adjusted"
  | .deficit _ _ _ _ _ => e.eventType = "stock.deficit_alert"

structure Typed (e : StockOutboxEvent) : Prop where
  type : TypeFits e
  aggregate : e.aggregateID = stockAggregate e.tenantID (column 218 e.location.skuID)
  located : e.location.stored = e.location

structure Rooted (db : StockDb) : Prop where
  typed : ∀ e ∈ db.outbox, Typed e
  rows : ∀ loc, (db.stockLevels loc).isSome = (lastStated db.outbox loc).isSome

def Plain (m : Movement) : Prop :=
  m.eventType ≠ "stock.adjusted" ∧ m.eventType ≠ "stock.deficit_alert"

theorem outboxEvent_typed (plain : Plain m) {t : UUID} {o : String} {l : StockLine}
    (within : (lineLocation t l).stored = lineLocation t l) :
    Typed (m.outboxEvent t o l).stored := ⟨plain, column_aggregate t l.skuId, within⟩

theorem Rooted.congr {db' : StockDb} (rooted : Rooted db) (outbox : db'.outbox = db.outbox)
    (rows : ∀ loc, (db'.stockLevels loc).isSome = (db.stockLevels loc).isSome) : Rooted db' where
  typed := outbox ▸ rooted.typed
  rows loc := by rw [rows loc, outbox, rooted.rows loc]

theorem applyLine_rooted (plain : Plain m) {t : UUID} {o : String} {l : StockLine}
    {level : StockLevel} (row : db.find (lineLocation t l) = some level) (rooted : Rooted db) :
    Rooted (applyLine m t o l level db) := by
  have outbox : (applyLine m t o l level db).outbox =
      db.outbox ++ [(m.outboxEvent t o l).stored] := rfl
  obtain ⟨within, row⟩ := find_some_iff.1 row
  refine ⟨fun e member => ?_, fun loc => ?_⟩
  · rw [outbox] at member
    rcases List.mem_append.1 member with old | new
    · exact rooted.typed e old
    · rw [List.mem_singleton.1 new]
      exact outboxEvent_typed plain within
  · have none_ : stated (m.outboxEvent t o l).stored = none := rfl
    rw [outbox, lastStated_append, none_, Option.none_or, ite_self]
    rw [← rooted.rows loc]
    by_cases here : lineLocation t l = loc
    · rw [applyLine_self here, ← here, row]
      rfl
    · rw [applyLine_other here]

theorem applyAdjust_rooted {t : UUID} {req : AdjustStockRequest}
    (names : StockLocation.stored ⟨t, req.skuId, req.warehouseId⟩ =
      ⟨t, req.skuId, req.warehouseId⟩) (rooted : Rooted db) :
    Rooted (applyAdjust t req ⟨t, req.skuId, req.warehouseId⟩ db) := by
  have outbox : (applyAdjust t req ⟨t, req.skuId, req.warehouseId⟩ db).outbox =
      db.outbox ++ [(adjustOutbox t req (upserted (db.stockLevels
        ⟨t, req.skuId, req.warehouseId⟩) req.quantityDelta).availableQty).stored] := rfl
  have event : ∀ available, (adjustOutbox t req available).stored.location =
      ⟨t, req.skuId, req.warehouseId⟩ := fun _ => rfl
  refine ⟨fun e member => ?_, fun loc => ?_⟩
  · rw [outbox] at member
    rcases List.mem_append.1 member with old | new
    · exact rooted.typed e old
    · rw [List.mem_singleton.1 new]
      exact ⟨rfl, column_aggregate t req.skuId, names⟩
  · have levels : (applyAdjust t req ⟨t, req.skuId, req.warehouseId⟩ db).stockLevels =
        (db.setLevel ⟨t, req.skuId, req.warehouseId⟩ (upserted (db.stockLevels
          ⟨t, req.skuId, req.warehouseId⟩) req.quantityDelta)).stockLevels := rfl
    rw [outbox, lastStated_append, event, levels]
    by_cases here : (⟨t, req.skuId, req.warehouseId⟩ : StockLocation) = loc
    · subst here
      rw [setLevel_self, if_pos rfl]
      rfl
    · rw [if_neg here, setLevel_of_ne _ _ (Ne.symm here), rooted.rows loc]

theorem movement_plain {call : StockCall} (moves : call.movement = some m) :
    Plain m := by
  cases call with
  | reserveStock req =>
    cases moves
    simp [Plain, reserveMove]
  | releaseStock req =>
    cases moves
    simp [Plain, releaseMove]
  | confirmStockAllocation req =>
    cases moves
    simp [Plain, confirmMove]
  | fulfillStock req =>
    cases moves
    simp [Plain, fulfillMove]
  | _ => cases moves

theorem effect_rooted {rt : Runtime} {call : StockCall} {db' : StockDb}
    (effect : Effect rt call db db') (rooted : Rooted db) : Rooted db' := by
  cases effect with
  | claim msg parse unseen =>
    exact rooted.congr (claimKey_outbox ..) fun loc => by rw [claimKey_levels]
  | line moves row check fits => exact applyLine_rooted (movement_plain moves) row rooted
  | adjust is names check => exact applyAdjust_rooted (stored_of_nameFits names) rooted
  | locks levels outbox keys => exact rooted.congr outbox fun loc => isSome_of_buckets (levels loc)

theorem runCalls_rooted (rt : Runtime) (calls : List StockCall) (db : StockDb)
    (rooted : Rooted db) : Rooted (runCalls rt calls db) :=
  runCalls_keep (fun _ _ _ effect rooted => effect_rooted effect rooted) calls db rooted

theorem empty_rooted : Rooted .empty where
  typed e member := by cases member
  rows _ := rfl

def handleAll (rt : Runtime) : List (Weather × StockMessage) → SyncState →
    Option SyncState
  | [], s => some s
  | (w, msg) :: rest, s =>
    match handleStockEvent rt w msg s with
    | (.ok (), s') => handleAll rt rest s'
    | (.error _, _) => none

def messages (ids : ℕ → UUID) (weather : ℕ → Weather) : ℕ → List StockOutboxEvent →
    List (Weather × StockMessage)
  | _, [] => []
  | n, e :: rest => (weather n, stockMessage (ids n) n e) :: messages ids weather (n + 1) rest

section Reactor

variable {rt : Runtime} {w : Weather} {s s' : SyncState} {id t : UUID} {offset : ℤ}

theorem channelTx_ok {tenant : String} {tx : ChannelTx Unit}
    (h : channelTx rt w tenant tx s = (.ok (), s')) :
    tx.run s.db = .ok ((), s'.db) := by
  unfold channelTx at h
  split at h
  · cases h
  · cases run : execTxWithTenant rt tenant tx s.db with
    | mk answer db =>
      rw [run] at h
      simp only [Prod.mk.injEq] at h
      obtain ⟨rfl, rfl⟩ := h
      exact execTx_ok run

theorem once_written {tenant : String} {fits : Bool} {e : Failure} {f : ChannelDb → ChannelDb}
    (h : channelTx rt w tenant (onceTx t id.text (do Tx.require fits e; Tx.modify f)) s =
      (.ok (), s')) (new : s.db.processedKeys.has t id.text = false) :
    f { s.db with processedKeys := s.db.processedKeys.insert t id.text "" } = s'.db := by
  have ran := channelTx_ok h
  rw [onceTx_run (text_fits id), new] at ran
  obtain ⟨u, db, pass, written⟩ := Tx.bind_ok_iff.1 ran
  obtain ⟨-, rfl⟩ := Tx.require_ok_iff.1 pass
  simpa using written

theorem insert_has {keys : KeyTable} {u : UUID} {key key' : String}
    (h : (keys.insert t key "").has u key' = true) : keys.has u key' = true ∨ key' = key := by
  by_cases same : key' = key
  · exact .inr same
  · rw [insert_other keys "" (.inr same)] at h
    exact .inl h

/-- What handling a new event without a failure does to the projection. -/
def Handles (e : StockOutboxEvent) (id : UUID) (s s' : SyncState) : Prop :=
  (∀ loc, s'.db.projection loc =
    if FiledUnder loc e then (stated e).or (s.db.projection loc) else s.db.projection loc) ∧
  ∀ u key, s'.db.processedKeys.has u key = true →
    s.db.processedKeys.has u key = true ∨ key = id.text

variable {e : StockOutboxEvent}

theorem handles_same (silent : stated e = none) : Handles e id s s := by
  refine ⟨fun loc => ?_, fun u key h => .inl h⟩
  rw [silent, Option.none_or, ite_self]

theorem handleAdjusted_handles {sku warehouse reason source : String} {delta availableQty : Int32}
    (payload : e.payload = .adjust sku warehouse delta availableQty reason source)
    (typed : Typed e) (some_ : sku ≠ "") (new : s.db.processedKeys.has e.tenantID id.text = false)
    (h : handleAdjusted rt w id.text e.tenantID.text (column 218 sku) (.ok e.payload) s =
      (.ok (), s')) :
    Handles e id s s' := by
  rw [payload] at h
  simp only [handleAdjusted, adjustedFields, parseUUID, rt.scan_text] at h
  split at h
  · cases h
  split at h
  · cases h
  rename_i channels told
  have written := once_written h new
  have here : e.location = ⟨e.tenantID, sku, warehouse⟩ := by
    unfold StockOutboxEvent.location
    rw [payload]
  have states : stated e = some availableQty := by
    have adjusted := typed.type
    unfold TypeFits at adjusted
    unfold stated
    rw [payload] at adjusted ⊢
    exact if_pos adjusted
  have row : (⟨e.tenantID, column 218 sku, warehouse⟩ : StockLocation).stored =
      ⟨e.tenantID, column 218 sku, warehouse⟩ := by
    have located := congrArg StockLocation.warehouseID typed.located
    rw [here] at located
    have cut : column 255 (column 218 sku) = column 218 sku :=
      column_of_le ((column_length_le 218 sku).trans (by decide))
    exact congrArg₂ (StockLocation.mk e.tenantID) cut located
  unfold Handles
  rw [← written]
  refine ⟨fun loc => ?_, fun u key has => insert_has has⟩
  have filed : FiledUnder loc e ↔
      sku ≠ "" ∧ (⟨e.tenantID, column 218 sku, warehouse⟩ : StockLocation) = loc := by
    unfold FiledUnder
    rw [here]
  rw [states]
  by_cases same : (⟨e.tenantID, column 218 sku, warehouse⟩ : StockLocation) = loc
  · rw [if_pos (filed.2 ⟨some_, same⟩)]
    subst same
    rw [row]
    exact Function.update_self ..
  · rw [if_neg fun under => same (filed.1 under).2, row]
    exact Function.update_of_ne (Ne.symm same) _ _

theorem handleDeficit_handles {sku warehouse reason source : String} {delta : Int32}
    (payload : e.payload = .deficit sku warehouse delta reason source)
    (new : s.db.processedKeys.has e.tenantID id.text = false) {cut : String}
    (h : handleDeficit rt w id.text e.tenantID.text cut (.ok e.payload) s = (.ok (), s')) :
    Handles e id s s' := by
  have silent : stated e = none := by
    unfold stated
    rw [payload]
  rw [payload] at h
  simp only [handleDeficit, deficitFields, parseUUID, rt.scan_text] at h
  split at h
  · cases h
  split at h
  · cases h
  have written := once_written h new
  unfold Handles
  rw [← written]
  refine ⟨fun loc => ?_, fun u key has => insert_has has⟩
  rw [silent, Option.none_or, ite_self]

theorem handle_handles (typed : Typed e) (new : s.db.processedKeys.has e.tenantID id.text = false)
    (h : handleStockEvent rt w (stockMessage id offset e) s = (.ok (), s')) :
    Handles e id s s' := by
  rw [handleStockEvent_message, typed.aggregate, splitKey_aggregate] at h
  by_cases empty : e.location.skuID = ""
  · rw [if_pos ((column_eq_empty (by decide)).2 empty)] at h
    cases h
    exact ⟨fun loc => (if_neg fun filed => filed.1 empty).symm, fun u key has => .inl has⟩
  rw [if_neg fun cut => empty ((column_eq_empty (by decide)).1 cut)] at h
  have type := typed.type
  unfold TypeFits at type
  cases payload : e.payload with
  | line action orderID sku warehouse quantity =>
    rw [payload] at type
    simp only [type.1, type.2, if_false] at h
    cases h
    refine handles_same ?_
    unfold stated
    rw [payload]
  | adjust sku warehouse delta availableQty reason source =>
    rw [payload] at type
    have named : e.location.skuID = sku := by
      unfold StockOutboxEvent.location
      rw [payload]
    simp only [type, if_true, named] at h
    exact handleAdjusted_handles payload typed (named ▸ empty) new h
  | deficit sku warehouse delta reason source =>
    rw [payload] at type
    simp only [type] at h
    exact handleDeficit_handles payload new h

/-- The projection after the messages of some events, from any position on. -/
theorem handleAll_projection {ids : ℕ → UUID} {weather : ℕ → Weather}
    {events : List StockOutboxEvent} (typed : ∀ e ∈ events, Typed e) {n : ℕ}
    (distinct : ∀ i j, i < n + events.length → j < n + events.length → ids i = ids j → i = j)
    (seen : ∀ u key, s.db.processedKeys.has u key = true → ∃ i < n, key = (ids i).text)
    (h : handleAll rt (messages ids weather n events) s = some s') (loc : StockLocation) :
    s'.db.projection loc = (lastFiled events loc).or (s.db.projection loc) := by
  induction events generalizing n s with
  | nil =>
    cases h
    rw [lastFiled, lastOf, List.foldl_nil, Option.none_or]
  | cons e rest ih =>
    simp only [messages, handleAll] at h
    split at h
    · rename_i u first
      have new : s.db.processedKeys.has e.tenantID (ids n).text = false := by
        by_contra old
        obtain ⟨i, lt, same⟩ := seen _ _ (by simpa using old)
        have eq : n = i := distinct n i (by rw [List.length_cons]; omega) (by omega)
          (text_injective same)
        omega
      have step := handle_handles (typed e List.mem_cons_self) new first
      rw [List.length_cons] at distinct
      have later := ih (n := n + 1) (fun e' member => typed e' (List.mem_cons_of_mem _ member))
        (fun i j hi hj => distinct i j (by omega) (by omega)) (fun u' key has => ?_) h
      · rw [later, step.1]
        unfold lastFiled
        rw [lastOf_cons, Option.or_assoc]
        by_cases here : FiledUnder loc e
        · simp [here]
        · simp [here]
      · rcases step.2 u' key has with old | rfl
        · obtain ⟨i, lt, same⟩ := seen u' key old
          exact ⟨i, by omega, same⟩
        · exact ⟨n, by omega, rfl⟩
    · cases h

end Reactor

theorem Rooted.absent_iff (rooted : Rooted db) :
    db.stockLevels loc = none ↔ lastStated db.outbox loc = none := by
  rw [← Option.isNone_iff_eq_none, ← Option.isNone_iff_eq_none, ← Option.not_isSome,
    ← Option.not_isSome, rooted.rows loc]

/-- A projection that holds what was filed last, beside a row that holds what
the log adds up to. -/
theorem agrees_iff (rooted : Rooted db) (log : readLog db.outbox loc = held db loc)
    {projected : Option Int32} (last : projected = lastFiled db.outbox loc) :
    projected = (db.stockLevels loc).map (·.availableQty) ↔
      (db.stockLevels loc = none ∧ lastFiled db.outbox loc = none) ∨
      ∃ filed own, lastFiled db.outbox loc = some filed ∧ lastStated db.outbox loc = some own ∧
        filed.toInt - own.toInt = movedSince db.outbox loc := by
  have split := readLog_available db.outbox loc
  rw [last]
  cases level : db.stockLevels loc with
  | none => simp [rooted.absent_iff.1 level]
  | some level_ =>
    have there : (lastStated db.outbox loc).isSome = true := by
      rw [← rooted.rows loc, level]
      rfl
    obtain ⟨own, there⟩ := Option.isSome_iff_exists.1 there
    have held_ : (held db loc).1 = level_.availableQty.toInt := by
      simp [held, level, buckets]
    rw [log, held_, there] at split
    simp only [Option.map_some, Option.getD_some] at split
    cases lastFiled db.outbox loc with
    | none => simp
    | some filed =>
      simp only [Option.map_some, Option.some.injEq, reduceCtorEq, false_and, false_or, there,
        exists_and_left, exists_eq_left']
      rw [← Int32.toInt_inj]
      omega

/-- After any run from empty tables and every event handled once and in order,
the projection of a location agrees with its row exactly where neither is
there, or the last adjustment filed under it differs from its own last one by
what was released less what was reserved since. For a SKU of 1 to 217 characters
the two are the same adjustment; under an empty or a longer one than 218
nothing is filed. -/
theorem projection_tracks_iff (rt : Runtime) (calls : List StockCall) (ids : ℕ → UUID)
    (distinct : ∀ i j, i < (runCalls rt calls .empty).outbox.length →
      j < (runCalls rt calls .empty).outbox.length → ids i = ids j → i = j)
    (weather : ℕ → Weather) (final : SyncState)
    (processed : handleAll rt (messages ids weather 0 (runCalls rt calls .empty).outbox) .empty =
      some final) (loc : StockLocation) :
    let db := runCalls rt calls .empty
    let tracks := final.db.projection loc = (db.stockLevels loc).map (·.availableQty)
    (tracks ↔ (db.stockLevels loc = none ∧ lastFiled db.outbox loc = none) ∨
      ∃ filed own, lastFiled db.outbox loc = some filed ∧ lastStated db.outbox loc = some own ∧
        filed.toInt - own.toInt = movedSince db.outbox loc) ∧
    (loc.skuID ≠ "" → loc.skuID.length < 218 →
      (tracks ↔ db.stockLevels loc = none ∨ movedSince db.outbox loc = 0)) ∧
    (loc.skuID = "" ∨ 218 < loc.skuID.length → final.db.projection loc = none) := by
  intro db tracks
  have rooted : Rooted db := runCalls_rooted rt calls .empty empty_rooted
  have log := runCalls_logged rt calls .empty empty_checked (fun _ => rfl) loc
  have last := handleAll_projection rooted.typed
    (fun i j hi hj => distinct i j (by simpa using hi) (by simpa using hj))
    (fun u key has => by cases has) processed loc
  have none_ : SyncState.empty.db.projection loc = none := rfl
  rw [none_, Option.or_none] at last
  have general := agrees_iff rooted log last
  refine ⟨general, fun some_ short => general.trans ?_,
    fun lost => last.trans (lastFiled_none lost _)⟩
  rw [lastFiled_short some_ short]
  cases own : lastStated db.outbox loc with
  | none =>
    have absent : db.stockLevels loc = none := rooted.absent_iff.2 own
    simp [absent]
  | some available =>
    have there : db.stockLevels loc ≠ none := fun absent => by
      rw [rooted.absent_iff.1 absent] at own
      cases own
    simp [there, eq_comm]

def reservedCalls : List StockCall :=
  [.adjustStock ⟨sampleTenant.text, "SKU", "W1", 5, "adjust", "erp", ""⟩,
    .reserveStock ⟨sampleTenant.text, "ord-1", "", [⟨"SKU", "W1", 1⟩]⟩]

def releasedCalls : List StockCall :=
  reservedCalls ++ [.releaseStock ⟨sampleTenant.text, "ord-1", "release", "", [⟨"SKU", "W1", 1⟩]⟩]

def sampleIds : ℕ → UUID
  | 0 => firstEvent
  | 1 => secondEvent
  | _ => ⟨"00000000-0000-4000-8000-00000000000c", by decide⟩

theorem projection_tracks_released : ∃ final,
    handleAll (reference []) (messages sampleIds (fun _ => .fair) 0
      (runCalls (reference []) releasedCalls .empty).outbox) .empty = some final ∧
    final.db.projection sampleLocation =
      ((runCalls (reference []) releasedCalls .empty).stockLevels sampleLocation).map
        (·.availableQty) := by
  have ends : (runCalls (reference []) releasedCalls .empty).outbox.length = 3 ∧
      (handleAll (reference []) (messages sampleIds (fun _ => .fair) 0
        (runCalls (reference []) releasedCalls .empty).outbox) .empty).isSome = true ∧
      movedSince (runCalls (reference []) releasedCalls .empty).outbox sampleLocation = 0 := by
    rw [reference_recognizing]
    decide +kernel
  obtain ⟨size, done, even_⟩ := ends
  obtain ⟨final, processed⟩ := Option.isSome_iff_exists.1 done
  refine ⟨final, processed, (projection_tracks_iff (reference []) releasedCalls sampleIds ?_
    (fun _ => .fair) final processed sampleLocation).2.1 (by decide) (by decide) |>.2
      (.inr even_)⟩
  have apart : ∀ i < 3, ∀ j < 3, sampleIds i = sampleIds j → i = j := by decide
  intro i j hi hj same
  rw [size] at hi hj
  exact apart i hi j hj same

theorem reservation_missing_in_projection :
    (handleAll (reference []) (messages sampleIds (fun _ => .fair) 0
      (runCalls (reference []) reservedCalls .empty).outbox) .empty).map (fun final =>
        (final.db.projection sampleLocation,
          ((runCalls (reference []) reservedCalls .empty).stockLevels sampleLocation).map
            (·.availableQty))) = some (some 5, some 4) := by
  rw [reference_recognizing]
  decide +kernel

end Taper.Projection
