import Taper.StockConservation
import Taper.StockRuns

set_option autoImplicit false

/-!
# What a request can do to the stock tables

Whatever a request writes is a sequence of four kinds of effect: its key is
claimed, a line is moved, an adjustment is added, or audit locks change.
-/
namespace Taper.StockEffects
open Messages Platform StockTables StockHandlers StockSteps StockReconcile StockConservation
open StockRuns

theorem call_cases (call : StockCall) : (∃ m, call.movement = some m) ∨
    (∃ req, call = .adjustStock req) ∨ (∃ req, call = .unlockStockForAudit req) ∨
    call = .reconcile := by
  cases call with
  | adjustStock req => exact .inr (.inl ⟨req, rfl⟩)
  | unlockStockForAudit req => exact .inr (.inr (.inl ⟨req, rfl⟩))
  | reconcile => exact .inr (.inr (.inr rfl))
  | _ => exact .inl ⟨_, rfl⟩

theorem setAuditLock_rest (loc : StockLocation) (locked : Bool) (db : StockDb) :
    (setAuditLock loc locked db).processedKeys = db.processedKeys ∧
      (setAuditLock loc locked db).outbox = db.outbox := by
  unfold setAuditLock
  split
  · exact ⟨rfl, rfl⟩
  · exact ⟨rfl, rfl⟩

theorem reconcile_rest (rt : Runtime) (db : StockDb) :
    (StockCall.reconcile.apply rt db).processedKeys = db.processedKeys ∧
      (StockCall.reconcile.apply rt db).outbox = db.outbox :=
  reconcileAll_preserves
    (fun db' => db'.processedKeys = db.processedKeys ∧ db'.outbox = db.outbox)
    (fun loc db' same => ⟨(setAuditLock_rest loc true db').1.trans same.1,
      (setAuditLock_rest loc true db').2.trans same.2⟩) rt _ ⟨rfl, rfl⟩

inductive Effect (rt : Runtime) (call : StockCall) : StockDb → StockDb → Prop where
  | claim {db : StockDb} {t : UUID} (msg : Message) (parse : rt.scan call.tenantId = some t)
      (unseen : ¬Seen db t call.idempotencyKey) :
      Effect rt call db (claimKey rt t call.idempotencyKey msg db)
  | line {db : StockDb} {m : Movement} {t : UUID} {o : String} {l : StockLine}
      {level : StockLevel} (moves : call.movement = some m)
      (row : db.find (lineLocation t l) = some level)
      (check : (m.level level l.quantity).check = .ok ())
      (fits : Movement.fits m t o l = true) : Effect rt call db (applyLine m t o l level db)
  | adjust {db : StockDb} {req : AdjustStockRequest} {t : UUID} (is : call = .adjustStock req)
      (names : nameFits ⟨t, req.skuId, req.warehouseId⟩ = true)
      (check : (upserted (db.stockLevels ⟨t, req.skuId, req.warehouseId⟩)
        req.quantityDelta).check = .ok ()) :
      Effect rt call db (applyAdjust t req ⟨t, req.skuId, req.warehouseId⟩ db)
  | locks {db db' : StockDb}
      (levels : ∀ loc, (db'.stockLevels loc).map buckets = (db.stockLevels loc).map buckets)
      (outbox : db'.outbox = db.outbox) (keys : db'.processedKeys = db.processedKeys) :
      Effect rt call db db'

abbrev Effects (rt : Runtime) (call : StockCall) : StockDb → StockDb → Prop :=
  Relation.ReflTransGen (Effect rt call)

section Apply

variable {rt : Runtime} {call : StockCall} {db db' : StockDb}

theorem lineRun_effects {m : Movement} {t : UUID} {o : String} {lines : List StockLine}
    (moves : call.movement = some m) (run : LineRun m t o lines db db') :
    Effects rt call db db' := by
  induction run with
  | nil db => exact .refl
  | skip row tail ih => exact ih
  | move row check fits tail ih => exact .head (.line moves row check fits) ih

theorem apply_effects (rt : Runtime) (call : StockCall) (db : StockDb) :
    Effects rt call db (call.apply rt db) := by
  rcases call_cases call with ⟨m, moves⟩ | ⟨req, rfl⟩ | ⟨req, rfl⟩ | rfl
  · rcases movement_cases rt call m moves db with ⟨-, same⟩ | ⟨-, t, o, msg, parse, moved⟩
    · rw [same]
    · cases moved with
      | duplicate seen same => rw [same]
      | fresh unseen fits run => exact .head (.claim msg parse unseen) (lineRun_effects moves run)
  · rw [StockCall.apply]
    rcases adjust_cases rt req db with same | ⟨t, parse, unseen, names, -, check, same⟩
    · rw [same]
    · rw [same]
      refine .head (.claim _ parse unseen) (.single (.adjust rfl names ?_))
      rwa [claimKey_levels]
  · rw [StockCall.apply]
    rcases unlock_cases rt req db with same | ⟨t, level, -, row, same⟩
    · rw [same]
    · rw [same]
      refine .single (.locks (fun loc => ?_) rfl rfl)
      by_cases here : loc = ⟨t, req.skuId, req.warehouseId⟩
      · subst here
        simp [(find_some_iff.1 row).2, buckets]
      · change ((StockDb.setLevel _ _ _).stockLevels loc).map buckets = _
        rw [setLevel_of_ne _ _ here]
  · exact .single (.locks (reconcileAll_buckets rt _ db) (reconcile_rest rt db).2
      (reconcile_rest rt db).1)

theorem effects_keep {P : StockDb → Prop} (step : ∀ u v, Effect rt call u v → P u → P v)
    (effects : Effects rt call db db') (h : P db) : P db' := by
  induction effects with
  | refl => exact h
  | tail _ last ih => exact step _ _ last ih

theorem runCalls_keep {P : StockDb → Prop}
    (step : ∀ call u v, Effect rt call u v → P u → P v) (calls : List StockCall) (db : StockDb)
    (h : P db) : P (runCalls rt calls db) := by
  induction calls generalizing db with
  | nil => exact h
  | cons call rest ih => exact ih _ (effects_keep (step call) (apply_effects rt call db) h)

theorem Effect.checked (effect : Effect rt call db db') (checked : Checked db) : Checked db' := by
  cases effect with
  | claim msg parse unseen => exact claimKey_checked checked
  | line moves row check fits => exact applyLine_checked checked row check
  | adjust is names check =>
    intro loc level row
    exact setLevel_checked checked (stored_of_nameFits names) check loc level row
  | locks levels outbox keys => exact checked_of_buckets levels checked

theorem Effect.seen (effect : Effect rt call db db') {u : UUID} {key : String}
    (seen : Seen db u key) : Seen db' u key := by
  cases effect with
  | claim msg parse unseen => exact claimKey_mono rt msg seen
  | line moves row check fits => exact seen
  | adjust is names check => exact seen
  | locks levels outbox keys => exact (seen_congr keys u key).2 seen

/-- A key is recorded by the request that comes under it, as it is stored. -/
theorem Effect.claims (effect : Effect rt call db db') {u : UUID} {key : String}
    (seen : Seen db' u key) : Seen db u key ∨
      rt.scan call.tenantId = some u ∧ column 255 call.idempotencyKey = column 255 key := by
  cases effect with
  | @claim t msg parse unseen =>
    by_cases same : u = t ∧ column 255 key = column 255 call.idempotencyKey
    · exact .inr ⟨same.1 ▸ parse, same.2.symm⟩
    · exact .inl ((claimKey_other rt msg db (not_and_or.1 same)).1 seen)
  | line moves row check fits => exact .inl seen
  | adjust is names check => exact .inl seen
  | locks levels outbox keys => exact .inl ((seen_congr keys u key).1 seen)

theorem apply_claims {u : UUID} {key : String} (seen : Seen (call.apply rt db) u key) :
    Seen db u key ∨
      rt.scan call.tenantId = some u ∧ column 255 call.idempotencyKey = column 255 key := by
  have back := effects_keep (P := fun v => Seen v u key → Seen db u key ∨
      rt.scan call.tenantId = some u ∧ column 255 call.idempotencyKey = column 255 key)
    (fun v w effect before now => (effect.claims now).elim before .inr)
    (apply_effects rt call db) .inl
  exact back seen

theorem isSome_of_buckets {loc : StockLocation}
    (same : (db'.stockLevels loc).map buckets = (db.stockLevels loc).map buckets) :
    (db'.stockLevels loc).isSome = (db.stockLevels loc).isSome := by
  have eq := congrArg Option.isSome same
  simpa using eq

theorem Effect.rows (effect : Effect rt call db db') (loc : StockLocation) :
    (db'.stockLevels loc).isSome = (db.stockLevels loc).isSome ∨
      ((db'.stockLevels loc).isSome = true ∧ nameFits loc = true) := by
  cases effect with
  | claim msg parse unseen => exact .inl (by rw [claimKey_levels])
  | @line m t o l level moves row check fits =>
    left
    by_cases here : lineLocation t l = loc
    · rw [applyLine_self here, ← here, (find_some_iff.1 row).2]
      rfl
    · rw [applyLine_other here]
  | @adjust req t is names check =>
    change ((StockDb.setLevel _ _ _).stockLevels loc).isSome = _ ∨
      ((StockDb.setLevel _ _ _).stockLevels loc).isSome = true ∧ _
    by_cases here : loc = ⟨t, req.skuId, req.warehouseId⟩
    · subst here
      rw [setLevel_self]
      exact .inr ⟨rfl, names⟩
    · rw [setLevel_of_ne _ _ here]
      exact .inl rfl
  | locks levels outbox keys => exact .inl (isSome_of_buckets (levels loc))

/-- The names of every row fit, since its first adjustment wrote them. -/
def Named (db : StockDb) : Prop :=
  ∀ loc, (db.stockLevels loc).isSome = true → nameFits loc = true

theorem Effect.named (effect : Effect rt call db db') (named : Named db) : Named db' := by
  intro loc some_
  rcases effect.rows loc with same | ⟨-, names⟩
  · exact named loc (same ▸ some_)
  · exact names

theorem empty_named : Named .empty := fun _ some_ => by cases some_

theorem runCalls_named (rt : Runtime) (calls : List StockCall) :
    Named (runCalls rt calls .empty) :=
  runCalls_keep (fun _ _ _ effect named => effect.named named) calls .empty empty_named

end Apply

end Taper.StockEffects
