import Taper.Ledger
import Taper.StockHandlers
import Taper.Streaming

set_option autoImplicit false

/-!
# The channel sync reactor

The consumer of `stock.events` pushes the availability an adjustment states to
the sales channel and then keeps it in a projection, once per event id.
-/
namespace Taper.ChannelSync
open Messages Transaction Platform Ledger StockTables StockHandlers Streaming

abbrev StockMessage := KafkaMessage (Except Failure StockPayload)

/-- The texts before and after the first colon, neither of them empty. -/
def splitKey (key : String) : Option (String × String) :=
  let tenant := key.toList.takeWhile (· != ':')
  match key.toList.dropWhile (· != ':') with
  | [] => none
  | _ :: rest =>
    if tenant = [] ∨ rest = [] then none else some (String.ofList tenant, String.ofList rest)

structure AvailabilityUpdate where
  tenantID : String
  skuID : String
  warehouseID : String
  availableQty : Int32
  deriving DecidableEq

structure DeficitAlert where
  tenantID : String
  skuID : String
  warehouseID : String
  delta : Int32
  reason : String
  source : String
  deriving DecidableEq

/-- The sandbox channel. Times of updates are left out. -/
structure Sandbox where
  availability : String → Option AvailabilityUpdate
  alerts : List DeficitAlert

structure Alert where
  tenantID : UUID
  skuID : String
  warehouseID : String
  delta : Int32
  reason : String
  source : String
  deriving DecidableEq

def Alert.stored (a : Alert) : Alert :=
  { a with
    skuID := column 255 a.skuID
    warehouseID := column 255 a.warehouseID
    reason := column 255 a.reason
    source := column 255 a.source }

structure ChannelDb where
  projection : StockLocation → Option Int32
  alerts : List Alert
  processedKeys : KeyTable

structure SyncState where
  db : ChannelDb
  channels : Sandbox
  notifier : Sandbox

def SyncState.empty : SyncState :=
  ⟨⟨fun _ => none, [], fun _ _ => none⟩, ⟨fun _ => none, []⟩, ⟨fun _ => none, []⟩⟩

/-- What a delivery meets: the SKUs the channel refuses, and whether the
database is out of reach. -/
structure Weather where
  failListed : String → Bool
  fault : Bool

def Weather.fair : Weather := ⟨fun _ => false, false⟩

def availabilityKey (tenant sku warehouse : String) : String :=
  tenant ++ ":" ++ sku ++ ":" ++ warehouse

def setAvailability (w : Weather) (u : AvailabilityUpdate) (s : Sandbox) :
    Except Failure Unit × Sandbox :=
  if u.availableQty < 0 then
    (.error (.text ("availability must be non-negative, got " ++ toString u.availableQty)), s)
  else if w.failListed u.skuID then (.error (.text ("channel unavailable: sku " ++ u.skuID)), s)
  else
    let key := availabilityKey u.tenantID u.skuID u.warehouseID
    (.ok (), { s with availability := Function.update s.availability key (some u) })

def notifyDeficit (w : Weather) (a : DeficitAlert) (s : Sandbox) : Except Failure Unit × Sandbox :=
  if w.failListed a.skuID then (.error (.text ("channel unavailable: sku " ++ a.skuID)), s)
  else (.ok (), { s with alerts := s.alerts ++ [a] })

abbrev ChannelTx := Tx ChannelDb Failure

def channelKeys : Keyed ChannelDb where
  keys db := db.processedKeys
  put db keys := { db with processedKeys := keys }
  keys_put _ _ := rfl

def upsertAvailability (loc : StockLocation) (availableQty : Int32) : ChannelTx Unit := do
  .require (varchar 255 loc.skuID && varchar 255 loc.warehouseID) (.sql .tooLong)
  .modify fun db =>
    { db with projection := Function.update db.projection loc.stored (some availableQty) }

def insertAlert (a : Alert) : ChannelTx Unit := do
  .require (varchar 255 a.skuID && varchar 255 a.warehouseID && varchar 255 a.reason &&
    varchar 255 a.source) (.sql .tooLong)
  .modify fun db => { db with alerts := db.alerts ++ [a.stored] }

/-- The work of an event, unless its id is recorded already. -/
def onceTx (tenantUUID : UUID) (eventID : String) (work : ChannelTx Unit) : ChannelTx Unit := do
  let new ← checkAndInsertKey channelKeys tenantUUID eventID ""
  if new then work else pure ()

def channelTx (rt : Runtime) (w : Weather) (tenant : String) (tx : ChannelTx Unit)
    (s : SyncState) : Except Failure Unit × SyncState :=
  if w.fault then (.error (.sql .connection), s)
  else
    let out := execTxWithTenant rt tenant tx s.db
    (out.1, { s with db := out.2 })

def adjustedFields : StockPayload → String × Int32
  | .adjust _ warehouseID _ availableQty _ _ => (warehouseID, availableQty)
  | .line _ _ _ warehouseID _ => (warehouseID, 0)
  | .deficit _ warehouseID _ _ _ => (warehouseID, 0)

def handleAdjusted (rt : Runtime) (w : Weather) (eventID tenant sku : String)
    (value : Except Failure StockPayload) (s : SyncState) : Except Failure Unit × SyncState :=
  match value with
  | .error e => (.error (.errorf "decode stock.adjusted" e), s)
  | .ok payload =>
    let (warehouse, availableQty) := adjustedFields payload
    if warehouse = "" then (.error (.text "stock.adjusted missing warehouse_id"), s)
    else
      match parseUUID rt tenant with
      | .error e => (.error (.errorf "tenant id" e), s)
      | .ok tenantUUID =>
        match setAvailability w ⟨tenant, sku, warehouse, availableQty⟩ s.channels with
        | (.error e, _) => (.error e, s)
        | (.ok (), channels) =>
          channelTx rt w tenant (onceTx tenantUUID eventID
            (upsertAvailability ⟨tenantUUID, sku, warehouse⟩ availableQty))
            { s with channels := channels }

def deficitFields : StockPayload → String × Int32 × String × String
  | .deficit _ warehouseID delta reason source => (warehouseID, delta, reason, source)
  | .adjust _ warehouseID _ _ reason source => (warehouseID, 0, reason, source)
  | .line _ _ _ warehouseID _ => (warehouseID, 0, "", "")

def handleDeficit (rt : Runtime) (w : Weather) (eventID tenant sku : String)
    (value : Except Failure StockPayload) (s : SyncState) : Except Failure Unit × SyncState :=
  match value with
  | .error e => (.error (.errorf "decode stock.deficit_alert" e), s)
  | .ok payload =>
    let (warehouse, delta, reason, source) := deficitFields payload
    if warehouse = "" then (.error (.text "stock.deficit_alert missing warehouse_id"), s)
    else
      match parseUUID rt tenant with
      | .error e => (.error (.errorf "tenant id" e), s)
      | .ok tenantUUID =>
        match notifyDeficit w ⟨tenant, sku, warehouse, delta, reason, source⟩ s.notifier with
        | (.error e, _) => (.error e, s)
        | (.ok (), notifier) =>
          channelTx rt w tenant (onceTx tenantUUID eventID
            (insertAlert ⟨tenantUUID, sku, warehouse, delta, reason, source⟩))
            { s with notifier := notifier }

def eventID (msg : StockMessage) : String :=
  let id := headerValue msg.headers "id"
  if id = "" then "raw:" ++ msg.topic ++ ":" ++ msg.key ++ ":" ++ toString msg.offset else id

/-- No payload of the stock service has an `event_type` to fall back on, so the
type is that of the header. -/
def handleStockEvent (rt : Runtime) (w : Weather) (msg : StockMessage)
    (s : SyncState) : Except Failure Unit × SyncState :=
  let eventType := headerValue msg.headers "eventType"
  match splitKey msg.key with
  | none => (.ok (), s)
  | some (tenant, sku) =>
    if eventType = "stock.adjusted" then
      handleAdjusted rt w (eventID msg) tenant sku msg.value s
    else if eventType = "stock.deficit_alert" then
      handleDeficit rt w (eventID msg) tenant sku msg.value s
    else (.ok (), s)

def stockMessage (id : UUID) (offset : ℤ) (e : StockOutboxEvent) : StockMessage :=
  ⟨"stock.events", 0, offset, e.aggregateID, .ok e.payload,
    [("id", id.text), ("eventType", e.eventType)]⟩

section Keys

/-- A key of the stock service names its tenant and SKU, unless the SKU is
empty. -/
theorem splitKey_aggregate (u : UUID) (sku : String) :
    splitKey (stockAggregate u sku) = if sku = "" then none else some (u.text, sku) := by
  have before : (stockAggregate u sku).toList.takeWhile (· != ':') = u.text.toList :=
    key_takeWhile u sku
  have after : (stockAggregate u sku).toList.dropWhile (· != ':') = ':' :: sku.toList :=
    key_dropWhile u sku
  unfold splitKey
  simp only [before, after, text_ne_empty u, false_or, String.ofList_toList]
  by_cases empty : sku = ""
  · simp [empty]
  · simp [empty]

/-- An aggregate id takes 255 characters, and the tenant and the colon 37 of
them. -/
theorem column_aggregate (u : UUID) (sku : String) :
    column 255 (stockAggregate u sku) = stockAggregate u (column 218 sku) := by
  have tenant : (u.text ++ ":").length = 37 := by
    rw [String.length_append, text_length]
    rfl
  unfold stockAggregate
  rw [column_eq_take, column_eq_take, String.toList_append, List.take_append,
    List.take_of_length_le (by rw [String.length_toList]; omega), String.length_toList, tenant,
    String.ofList_append, String.ofList_toList]

end Keys

section Handlers

variable {w : Weather} {u : AvailabilityUpdate} {channels channels' : Sandbox}

theorem handleStockEvent_message (rt : Runtime) (w : Weather) (id : UUID) (offset : ℤ)
    (e : StockOutboxEvent) (s : SyncState) : handleStockEvent rt w (stockMessage id offset e) s =
      match splitKey e.aggregateID with
      | none => (.ok (), s)
      | some (tenant, sku) =>
        if e.eventType = "stock.adjusted" then
          handleAdjusted rt w id.text tenant sku (.ok e.payload) s
        else if e.eventType = "stock.deficit_alert" then
          handleDeficit rt w id.text tenant sku (.ok e.payload) s
        else (.ok (), s) := by
  have type : headerValue (stockMessage id offset e).headers "eventType" = e.eventType := by
    simp [stockMessage, headerValue]
  have name : eventID (stockMessage id offset e) = id.text := by
    have some_ : id.text ≠ "" := fun empty => text_ne_empty id (by rw [empty]; rfl)
    simp [eventID, stockMessage, headerValue, some_]
  simp only [handleStockEvent, type, name]
  rfl

theorem setAvailability_ok (h : setAvailability w u channels = (.ok (), channels')) :
    channels'.availability (availabilityKey u.tenantID u.skuID u.warehouseID) = some u := by
  unfold setAvailability at h
  split at h
  · cases h
  split at h
  · cases h
  cases h
  exact Function.update_self ..

theorem onceTx_run {t : UUID} {key : String} (within : fits 255 key = true)
    (work : ChannelTx Unit) (db : ChannelDb) : (onceTx t key work).run db =
      if db.processedKeys.has t key then .ok ((), db)
      else work.run { db with processedKeys := db.processedKeys.insert t key "" } := by
  have claim := checkAndInsertKey_run channelKeys t key "" db
  rw [if_pos (fits_varchar within), fits_column within] at claim
  cases known : db.processedKeys.has t key with
  | true =>
    have there : (channelKeys.keys db).has t key = true := known
    rw [if_pos there] at claim
    exact Tx.bind_of_ok claim
  | false =>
    have absent : ¬(channelKeys.keys db).has t key = true := by
      change ¬db.processedKeys.has t key = true
      simp [known]
    rw [if_neg absent] at claim
    exact Tx.bind_of_ok claim

theorem upsertAvailability_run (loc : StockLocation) (qty : Int32) (db : ChannelDb) :
    (upsertAvailability loc qty).run db =
      if varchar 255 loc.skuID && varchar 255 loc.warehouseID then
        .ok ((), { db with projection := Function.update db.projection loc.stored (some qty) })
      else .error (.sql .tooLong) := by
  unfold upsertAvailability
  cases varchar 255 loc.skuID && varchar 255 loc.warehouseID with
  | true => rfl
  | false => rfl

end Handlers

end Taper.ChannelSync
