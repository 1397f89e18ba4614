import Taper.ChannelSync
import Taper.StockConservation

set_option autoImplicit false

/-!
# Adjustments that are delivered again

The projection takes each event once, but the channel takes every delivery, and
neither knows which event is the later one.
-/
namespace Taper.Redelivery
open Messages Transaction Platform Ledger StockTables StockHandlers ChannelSync Streaming
  StockConservation

structure Adjustment where
  id : UUID
  quantityDelta : Int32
  availableQty : Int32
  reason : String
  source : String

structure Delivery where
  event : ℕ
  offset : ℤ
  weather : Weather

def adjustedMessage (loc : StockLocation) (a : Adjustment) (offset : ℤ) :
    StockMessage :=
  stockMessage a.id offset (StockOutboxEvent.stored ⟨loc.tenantID, "stock",
    stockAggregate loc.tenantID loc.skuID, "stock.adjusted",
    .adjust loc.skuID loc.warehouseID a.quantityDelta a.availableQty a.reason a.source⟩)

def deliver (rt : Runtime) (loc : StockLocation) (events : ℕ → Adjustment) (d : Delivery) :
    SyncState → Except Failure Unit × SyncState :=
  handleStockEvent rt d.weather (adjustedMessage loc (events d.event) d.offset)

def noted (handled : List ℕ) (event : ℕ) : Except Failure Unit → List ℕ
  | .ok () => handled ++ [event]
  | .error _ => handled

def deliverAll (rt : Runtime) (loc : StockLocation) (events : ℕ → Adjustment) :
    List Delivery → List ℕ → SyncState → List ℕ × SyncState
  | [], handled, s => (handled, s)
  | d :: rest, handled, s =>
    let out := deliver rt loc events d s
    deliverAll rt loc events rest (noted handled d.event out.1) out.2

/-- The database is reached, and no delivery comes after a later adjustment was
handled successfully. -/
def Orderly (rt : Runtime) (loc : StockLocation) (events : ℕ → Adjustment) :
    List Delivery → List ℕ → SyncState → Prop
  | [], _, _ => True
  | d :: rest, handled, s => d.weather.fault = false ∧ (∀ j ∈ handled, j ≤ d.event) ∧
    Orderly rt loc events rest (noted handled d.event (deliver rt loc events d s).1)
      (deliver rt loc events d s).2

instance Orderly.decidable (rt : Runtime) (loc : StockLocation) (events : ℕ → Adjustment) :
    (deliveries : List Delivery) → (handled : List ℕ) → (s : SyncState) →
      Decidable (Orderly rt loc events deliveries handled s)
  | [], _, _ => .isTrue trivial
  | d :: rest, handled, s =>
    have _rest := decidable rt loc events rest
      (noted handled d.event (deliver rt loc events d s).1) (deliver rt loc events d s).2
    inferInstanceAs (Decidable (_ ∧ _ ∧ _))

def channelAvailability (s : SyncState) (loc : StockLocation) : Option Int32 :=
  (s.channels.availability (availabilityKey loc.tenantID.text loc.skuID loc.warehouseID)).map
    (·.availableQty)

section Step

variable {rt : Runtime} {loc : StockLocation} {w : Weather} {a : Adjustment} {offset : ℤ}
  {s s' : SyncState} {answer : Except Failure Unit}

def LocationFits (loc : StockLocation) : Prop :=
  varchar 255 loc.skuID = true ∧ varchar 255 loc.warehouseID = true

structure Filed (loc : StockLocation) : Prop where
  row : loc.stored = loc
  some_ : loc.skuID ≠ ""
  whole : loc.skuID.length ≤ 218

/-- The two ends of a delivery: an error, before or after the channel was told,
or a success, with the projection written unless the event was known. -/
theorem deliver_cases (filed : Filed loc) (reached : w.fault = false)
    (h : handleStockEvent rt w (adjustedMessage loc a offset) s = (answer, s')) :
    ((∃ e, answer = .error e) ∧ s'.db = s.db ∧ (s'.channels = s.channels ∨ ¬LocationFits loc)) ∨
    (answer = .ok () ∧ channelAvailability s' loc = some a.availableQty ∧
      ((s.db.processedKeys.has loc.tenantID a.id.text = true ∧ s'.db = s.db) ∨
      (s.db.processedKeys.has loc.tenantID a.id.text = false ∧ LocationFits loc ∧
        s'.db = { s.db with
          projection := Function.update s.db.projection loc (some a.availableQty)
          processedKeys := s.db.processedKeys.insert loc.tenantID a.id.text "" }))) := by
  have key : splitKey (column 255 (stockAggregate loc.tenantID loc.skuID)) =
      some (loc.tenantID.text, loc.skuID) := by
    rw [column_aggregate, column_of_le filed.whole, splitKey_aggregate, if_neg filed.some_]
  rw [adjustedMessage, handleStockEvent_message] at h
  simp only [StockOutboxEvent.stored, key, if_true, handleAdjusted, adjustedFields, parseUUID,
    rt.scan_text] at h
  split at h
  · cases h
    exact .inl ⟨⟨_, rfl⟩, rfl, .inl rfl⟩
  split at h
  · cases h
    exact .inl ⟨⟨_, rfl⟩, rfl, .inl rfl⟩
  rename_i channels told
  have pushed := congrArg (Option.map (·.availableQty)) (setAvailability_ok told)
  have run := onceTx_run (text_fits a.id) (upsertAvailability loc a.availableQty) s.db
    (t := loc.tenantID)
  unfold channelTx at h
  rw [if_neg (by simp [reached]), execTx_eq (castable_text rt _)] at h
  cases known : s.db.processedKeys.has loc.tenantID a.id.text with
  | true =>
    rw [known, if_pos rfl] at run
    rw [Tx.commit_of_ok run] at h
    cases h
    exact .inr ⟨rfl, pushed, .inl ⟨rfl, rfl⟩⟩
  | false =>
    rw [known, if_neg Bool.false_ne_true, upsertAvailability_run] at run
    cases fits : varchar 255 loc.skuID && varchar 255 loc.warehouseID with
    | false =>
      rw [fits, if_neg Bool.false_ne_true] at run
      rw [Tx.commit_of_error run] at h
      cases h
      refine .inl ⟨⟨_, rfl⟩, rfl, .inr fun both => ?_⟩
      rw [both.1, both.2] at fits
      cases fits
    | true =>
      rw [fits, if_pos rfl, filed.row] at run
      rw [Tx.commit_of_ok run] at h
      cases h
      exact .inr ⟨rfl, pushed, .inr ⟨rfl, Bool.and_eq_true_iff.1 fits, rfl⟩⟩

end Step

section Run

variable {rt : Runtime} {loc : StockLocation} {events : ℕ → Adjustment}

/-- Both stores hold what the latest adjustment handled so far stated, and the
ids of the adjustments handled are the ones recorded. -/
structure Current (loc : StockLocation) (events : ℕ → Adjustment) (ids : List ℕ)
    (handled : List ℕ) (s : SyncState) : Prop where
  known : ∀ i ∈ ids, s.db.processedKeys.has loc.tenantID (events i).id.text = true ↔ i ∈ handled
  fits : handled ≠ [] → LocationFits loc
  latest : ∀ k ∈ handled, (∀ j ∈ handled, j ≤ k) →
    s.db.projection loc = some (events k).availableQty ∧
      channelAvailability s loc = some (events k).availableQty

theorem last_noted {handled : List ℕ} {event k : ℕ} (newest : ∀ j ∈ handled, j ≤ event)
    (member : k ∈ handled ++ [event]) (top : ∀ j ∈ handled ++ [event], j ≤ k) : k = event := by
  have below : event ≤ k := top event (by simp)
  rcases List.mem_append.1 member with before | now
  · exact le_antisymm (newest k before) below
  · exact List.mem_singleton.1 now

/-- One delivery keeps the stores at the latest adjustment, if none later than
it was handled before. -/
theorem deliver_current {ids handled : List ℕ} {s : SyncState} {d : Delivery}
    (filed : Filed loc)
    (distinct : ∀ i ∈ ids, ∀ j ∈ ids, (events i).id = (events j).id → i = j)
    (listed : d.event ∈ ids) (reached : d.weather.fault = false)
    (newest : ∀ j ∈ handled, j ≤ d.event) (current : Current loc events ids handled s) :
    Current loc events ids (noted handled d.event (deliver rt loc events d s).1)
      (deliver rt loc events d s).2 := by
  cases out : deliver rt loc events d s with
  | mk answer s' =>
    rcases deliver_cases filed reached out with
      ⟨⟨e, rfl⟩, same, kept⟩ | ⟨rfl, told, ⟨seen, same⟩ | ⟨new, fit, written⟩⟩
    · refine ⟨by rw [same]; exact current.known, current.fits, fun k member top => ?_⟩
      have fits := current.fits (List.ne_nil_of_mem member)
      have channels := kept.resolve_right (not_not_intro fits)
      rw [same, channelAvailability, channels]
      exact current.latest k member top
    · -- a repeat: only the latest adjustment may be repeated
      have member : d.event ∈ handled := (current.known _ listed).1 seen
      refine ⟨fun i here => ?_, fun _ => current.fits (List.ne_nil_of_mem member),
        fun k here top => ?_⟩
      · rw [same, current.known i here]
        simp only [noted, List.mem_append, List.mem_singleton]
        exact ⟨.inl, fun either => either.elim id fun eq => eq ▸ member⟩
      · rw [same, last_noted newest here top]
        exact ⟨(current.latest _ member newest).1, told⟩
    · refine ⟨fun i here => ?_, fun _ => fit, fun k here top => ?_⟩
      · rw [written]
        simp only [noted, List.mem_append, List.mem_singleton]
        by_cases eq : i = d.event
        · simp [eq, insert_self]
        · have differs : (events i).id.text ≠ (events d.event).id.text := fun text =>
            eq (distinct i here _ listed (text_injective text))
          rw [insert_other _ _ (.inr differs), current.known i here]
          exact ⟨.inl, fun either => either.resolve_right eq⟩
      · rw [written, last_noted newest here top]
        exact ⟨Function.update_self .., told⟩

theorem deliverAll_current {ids : List ℕ} (filed : Filed loc)
    (distinct : ∀ i ∈ ids, ∀ j ∈ ids, (events i).id = (events j).id → i = j)
    (deliveries : List Delivery) (handled : List ℕ) (s : SyncState)
    (listed : ∀ d ∈ deliveries, d.event ∈ ids)
    (orderly : Orderly rt loc events deliveries handled s)
    (current : Current loc events ids handled s) :
    Current loc events ids (deliverAll rt loc events deliveries handled s).1
      (deliverAll rt loc events deliveries handled s).2 := by
  induction deliveries generalizing handled s with
  | nil => exact current
  | cons d rest ih =>
    obtain ⟨reached, newest, later⟩ := orderly
    exact ih _ _ (fun d' member => listed d' (List.mem_cons_of_mem _ member)) later
      (deliver_current filed distinct (listed d List.mem_cons_self) reached newest current)

/-- Whatever the deliveries are, as long as they keep to the commit order of the
adjustments handled, the projection and the channel end at the latest one. -/
theorem redelivery_keeps_latest (rt : Runtime) (loc : StockLocation) (events : ℕ → Adjustment)
    (deliveries : List Delivery) (s : SyncState)
    (distinct : ∀ d ∈ deliveries, ∀ d' ∈ deliveries,
      (events d.event).id = (events d'.event).id → d.event = d'.event)
    (unknown : ∀ d ∈ deliveries,
      s.db.processedKeys.has loc.tenantID (events d.event).id.text = false)
    (filed : Filed loc) (orderly : Orderly rt loc events deliveries [] s) :
    ∀ k ∈ (deliverAll rt loc events deliveries [] s).1,
      (∀ j ∈ (deliverAll rt loc events deliveries [] s).1, j ≤ k) →
        (deliverAll rt loc events deliveries [] s).2.db.projection loc =
            some (events k).availableQty ∧
          channelAvailability (deliverAll rt loc events deliveries [] s).2 loc =
            some (events k).availableQty := by
  have separate : ∀ i ∈ deliveries.map (·.event), ∀ j ∈ deliveries.map (·.event),
      (events i).id = (events j).id → i = j := by
    intro i here j there
    obtain ⟨d, member, rfl⟩ := List.mem_map.1 here
    obtain ⟨d', member', rfl⟩ := List.mem_map.1 there
    exact distinct d member d' member'
  have start : Current loc events (deliveries.map (·.event)) [] s := by
    refine ⟨fun i here => ?_, fun none => absurd rfl none, fun k member => by cases member⟩
    obtain ⟨d, member, rfl⟩ := List.mem_map.1 here
    simp [unknown d member]
  exact (deliverAll_current filed separate deliveries [] s
    (fun d member => List.mem_map_of_mem member) orderly start).latest

end Run

def sampleEvents : ℕ → Adjustment
  | 0 => ⟨firstEvent, 5, 5, "adjust", "erp"⟩
  | _ => ⟨secondEvent, -2, 3, "adjust", "erp"⟩

def channelDown : Weather := ⟨fun _ => true, false⟩

def promptRetries : List Delivery :=
  [⟨0, 0, channelDown⟩, ⟨0, 1, .fair⟩, ⟨1, 2, .fair⟩, ⟨1, 3, .fair⟩]

theorem redelivery_keeps_latest_retried :
    (deliverAll (reference []) sampleLocation sampleEvents promptRetries [] .empty).2.db.projection
        sampleLocation = some 3 ∧
      channelAvailability (deliverAll (reference []) sampleLocation sampleEvents promptRetries []
        .empty).2 sampleLocation = some 3 := by
  have handled : (deliverAll (reference []) sampleLocation sampleEvents promptRetries []
      .empty).1 = [0, 1, 1] := by
    rw [reference_recognizing]
    decide +kernel
  refine redelivery_keeps_latest (reference []) sampleLocation sampleEvents promptRetries .empty
    (by decide) (fun _ _ => rfl) ⟨by decide, by decide, by decide⟩ (by decide +kernel) 1 ?_ ?_
  · rw [handled]
    decide
  · rw [handled]
    decide

def ends (deliveries : List Delivery) : List ℕ × Option Int32 × Option Int32 :=
  let out := deliverAll (reference []) sampleLocation sampleEvents deliveries [] .empty
  (out.1, out.2.db.projection sampleLocation, channelAvailability out.2 sampleLocation)

/-- A replay of the first adjustment after the second: one that was handled
before puts the channel back to five, and one that failed before puts both
stores back. -/
theorem late_replay_rolls_back :
    ends [⟨0, 0, .fair⟩, ⟨1, 1, .fair⟩, ⟨0, 2, .fair⟩] = ([0, 1, 0], some 3, some 5) ∧
      ends [⟨0, 0, channelDown⟩, ⟨1, 1, .fair⟩, ⟨0, 2, .fair⟩] = ([1, 0], some 5, some 5) := by
  unfold ends
  rw [reference_recognizing]
  decide +kernel

end Taper.Redelivery
