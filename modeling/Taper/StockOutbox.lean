import Taper.StockReplays

set_option autoImplicit false

/-!
# The stock outbox as a log of the buckets

Reading the outbox events of a location from the first one on gives the buckets
of its row.
-/
namespace Taper.StockOutbox
open Messages Platform StockTables StockHandlers StockSteps StockReconcile StockConservation
open StockReplays StockEffects

def direction (eventType : String) : Buckets :=
  if eventType = "stock.reserved" then (-1, 1, 0)
  else if eventType = "stock.released" then (1, -1, 0)
  else if eventType = "stock.allocated" then (0, -1, 1)
  else if eventType = "stock.fulfilled" then (0, 0, -1)
  else 0

def readEvent (b : Buckets) (e : StockOutboxEvent) : Buckets :=
  match e.payload with
  | .line _ _ _ _ quantity => b + quantity.toInt • direction e.eventType
  | .adjust _ _ _ availableQty _ _ =>
    if e.eventType = "stock.adjusted" then (availableQty.toInt, b.2) else b
  | .deficit _ _ _ _ _ => b

def readLog (events : List StockOutboxEvent) (loc : StockLocation) : Buckets :=
  (events.filter fun e => e.location = loc).foldl readEvent 0

def Logged (db : StockDb) : Prop := ∀ loc, readLog db.outbox loc = held db loc

theorem readLog_append (events : List StockOutboxEvent) (e : StockOutboxEvent)
    (loc : StockLocation) : readLog (events ++ [e]) loc =
      if e.location = loc then readEvent (readLog events loc) e else readLog events loc := by
  unfold readLog
  by_cases here : e.location = loc
  · simp [List.filter_append, here]
  · simp [List.filter_append, here]

/-- The outbox event of a movement says where its units go. -/
def Tells (m : Movement) (d : Buckets) : Prop := direction m.eventType = d

variable {db : StockDb} {call : StockCall}

theorem applyLine_logged {m : Movement} {d : Buckets} (along : Along m d) (tells : Tells m d)
    {t : UUID} {o : String} {l : StockLine} {level : StockLevel}
    (row : db.stockLevels (lineLocation t l) = some level)
    (check : (m.level level l.quantity).check = .ok ()) (checked : Checked db)
    (logged : Logged db) : Logged (applyLine m t o l level db) := by
  intro loc
  have event : (m.outboxEvent t o l).stored.location = lineLocation t l := rfl
  have outbox : (applyLine m t o l level db).outbox =
      db.outbox ++ [(m.outboxEvent t o l).stored] := rfl
  rw [outbox, readLog_append, event, logged loc]
  by_cases here : lineLocation t l = loc
  · rw [if_pos here]
    have moved := (along level l.quantity (checked _ level row).2 check).1
    rw [here] at row
    have read : readEvent (held db loc) (m.outboxEvent t o l).stored =
        held db loc + l.quantity.toInt • direction m.eventType := rfl
    rw [read, tells]
    simp [held, applyLine_self here, row, moved]
  · rw [if_neg here]
    unfold held
    rw [applyLine_other here]

theorem movement_tells {m : Movement} (moves : call.movement = some m) :
    ∃ d, Along m d ∧ Tells m d := by
  cases call with
  | reserveStock req =>
    cases moves
    exact ⟨_, reserveMove_along _, rfl⟩
  | releaseStock req =>
    cases moves
    exact ⟨_, releaseMove_along _ _, rfl⟩
  | confirmStockAllocation req =>
    cases moves
    exact ⟨_, confirmMove_along, rfl⟩
  | fulfillStock req =>
    cases moves
    exact ⟨_, fulfillMove_along, rfl⟩
  | _ => cases moves

theorem applyAdjust_logged {tenantID : UUID} {req : AdjustStockRequest} (logged : Logged db) :
    Logged (applyAdjust tenantID req ⟨tenantID, req.skuId, req.warehouseId⟩ db) := by
  intro loc
  have outbox : (applyAdjust tenantID req ⟨tenantID, req.skuId, req.warehouseId⟩ db).outbox =
      db.outbox ++ [(adjustOutbox tenantID req (upserted (db.stockLevels
        ⟨tenantID, req.skuId, req.warehouseId⟩) req.quantityDelta).availableQty).stored] := rfl
  have event : ∀ available, (adjustOutbox tenantID req available).stored.location =
      ⟨tenantID, req.skuId, req.warehouseId⟩ := fun _ => rfl
  rw [outbox, readLog_append, event, logged loc]
  by_cases here : (⟨tenantID, req.skuId, req.warehouseId⟩ : StockLocation) = loc
  · subst here
    rw [if_pos rfl]
    simp only [readEvent, adjustOutbox, StockOutboxEvent.stored, if_true, held, applyAdjust,
      setLevel_self]
    cases db.stockLevels ⟨tenantID, req.skuId, req.warehouseId⟩ with
    | none => rfl
    | some level => rfl
  · rw [if_neg here]
    unfold held
    change _ = Option.getD (((StockDb.setLevel _ _ _).stockLevels loc).map buckets) 0
    rw [setLevel_of_ne _ _ (Ne.symm here)]

theorem effect_logged {rt : Runtime} {db' : StockDb} (effect : Effect rt call db db')
    (checked : Checked db) (logged : Logged db) : Logged db' := by
  cases effect with
  | claim msg parse unseen =>
    intro loc
    unfold held
    rw [claimKey_outbox, claimKey_levels]
    exact logged loc
  | line moves row check fits =>
    obtain ⟨d, along, tells⟩ := movement_tells moves
    exact applyLine_logged along tells (find_some_iff.1 row).2 check checked logged
  | adjust is names check => exact applyAdjust_logged logged
  | locks levels outbox keys =>
    intro loc
    unfold held
    rw [outbox, levels]
    exact logged loc

theorem runCalls_logged (rt : Runtime) (calls : List StockCall) (db : StockDb)
    (checked : Checked db) (logged : Logged db) : Logged (runCalls rt calls db) :=
  (runCalls_keep (P := fun db => Checked db ∧ Logged db)
    (fun _ _ _ effect both => ⟨effect.checked both.1, effect_logged effect both.1 both.2⟩) calls db
    ⟨checked, logged⟩).2

/-- A repetition, a refusal or an error adds no event. -/
theorem idle_outbox {rt : Runtime} (idle : call.succeeded rt db = false ∨ call.Repeats rt db) :
    (call.apply rt db).outbox = db.outbox := by
  by_cases request : call = .reconcile
  · rw [request]
    exact (reconcile_rest rt db).2
  · rcases idle with failed | repeats
    · rw [failed_apply request failed]
    · rw [repeats_apply repeats]

/-- After any run from empty tables the outbox tells the buckets of every
location, and only what took effect has added to it. -/
theorem outbox_faithful (rt : Runtime) (calls : List StockCall) :
    (∀ loc, readLog (runCalls rt calls .empty).outbox loc = held (runCalls rt calls .empty) loc) ∧
    ∀ before call after, calls = before ++ call :: after →
      (call.succeeded rt (runCalls rt before .empty) = false ∨
        call.Repeats rt (runCalls rt before .empty)) →
      (runCalls rt (before ++ [call]) .empty).outbox = (runCalls rt before .empty).outbox := by
  refine ⟨runCalls_logged rt calls .empty empty_checked fun _ => rfl, ?_⟩
  intro before call after _ idle
  have last : runCalls rt (before ++ [call]) .empty =
      call.apply rt (runCalls rt before .empty) := by
    simp [runCalls]
  rw [last]
  exact idle_outbox idle

end Taper.StockOutbox
