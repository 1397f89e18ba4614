import Taper.StockReconcile
import Taper.MachineInt
import Mathlib.Algebra.Module.Prod
import Mathlib.Algebra.Module.NatInt
import Mathlib.Algebra.BigOperators.Group.List.Basic
import Mathlib.Tactic.Ring

set_option autoImplicit false

/-!
# Stock conservation

Quantities are added and subtracted with wrap-around. The CHECK constraints see
every written row, and a wrapped bucket is negative, so a committed movement is
exact for every `int32` quantity.
-/
namespace Taper.StockConservation
open Messages Platform StockTables StockHandlers StockSteps StockReconcile MachineInt

abbrev Buckets := ℤ × ℤ × ℤ

def buckets (level : StockLevel) : Buckets :=
  (level.availableQty.toInt, level.reservedQty.toInt, level.allocatedQty.toInt)

def held (db : StockDb) (loc : StockLocation) : Buckets := ((db.stockLevels loc).map buckets).getD 0

/-- Every stored row is within its columns and satisfies its CHECK constraints. -/
def Checked (db : StockDb) : Prop :=
  ∀ loc level, db.stockLevels loc = some level → loc.stored = loc ∧ level.check = .ok ()

variable {db db' : StockDb} {m : Movement} {tenantID : UUID} {key orderID : String} {l : StockLine}
  {level : StockLevel} {loc : StockLocation} {rt : Runtime} {msg : Message} {d : Buckets}

theorem Checked.find (checked : Checked db) (loc : StockLocation) :
    db.find loc = db.stockLevels loc := by
  cases row : db.stockLevels loc with
  | none => rw [StockDb.find, row, ite_self]
  | some level => rw [find_eq (checked loc level row).1, row]

def Along (m : Movement) (d : Buckets) : Prop :=
  ∀ (level : StockLevel) (q : Int32), level.check = .ok () → (m.level level q).check = .ok () →
    buckets (m.level level q) = buckets level + q.toInt • d ∧
      (m.level level q).isLockedForAudit = level.isLockedForAudit

theorem reserveMove_along (orderID : String) : Along (reserveMove orderID) (-1, 1, 0) := by
  intro level q old new
  have oldNonneg := (check_ok_iff level).1 old
  have newNonneg := (check_ok_iff _).1 new
  have available := sub_exact oldNonneg.1 newNonneg.1
  have reserved := add_exact oldNonneg.2.1 newNonneg.2.1
  refine ⟨?_, rfl⟩
  simp only [buckets, reserveMove, Prod.smul_mk, smul_eq_mul, Prod.mk_add_mk, Prod.mk.injEq]
  exact ⟨by rw [available]; ring, by rw [reserved]; ring, by ring⟩

theorem releaseMove_along (orderID reason : String) :
    Along (releaseMove orderID reason) (1, -1, 0) := by
  intro level q old new
  have oldNonneg := (check_ok_iff level).1 old
  have newNonneg := (check_ok_iff _).1 new
  have available := add_exact oldNonneg.1 newNonneg.1
  have reserved := sub_exact oldNonneg.2.1 newNonneg.2.1
  refine ⟨?_, rfl⟩
  simp only [buckets, releaseMove, Prod.smul_mk, smul_eq_mul, Prod.mk_add_mk, Prod.mk.injEq]
  exact ⟨by rw [available]; ring, by rw [reserved]; ring, by ring⟩

theorem confirmMove_along : Along confirmMove (0, -1, 1) := by
  intro level q old new
  have oldNonneg := (check_ok_iff level).1 old
  have newNonneg := (check_ok_iff _).1 new
  have reserved := sub_exact oldNonneg.2.1 newNonneg.2.1
  have allocated := add_exact oldNonneg.2.2 newNonneg.2.2
  refine ⟨?_, rfl⟩
  simp only [buckets, confirmMove, Prod.smul_mk, smul_eq_mul, Prod.mk_add_mk, Prod.mk.injEq]
  exact ⟨by ring, by rw [reserved]; ring, by rw [allocated]; ring⟩

theorem fulfillMove_along : Along fulfillMove (0, 0, -1) := by
  intro level q old new
  have oldNonneg := (check_ok_iff level).1 old
  have newNonneg := (check_ok_iff _).1 new
  have allocated := sub_exact oldNonneg.2.2 newNonneg.2.2
  refine ⟨?_, rfl⟩
  simp only [buckets, fulfillMove, Prod.smul_mk, smul_eq_mul, Prod.mk_add_mk, Prod.mk.injEq]
  exact ⟨by ring, by ring, by rw [allocated]; ring⟩

def quantityAt (tenantID : UUID) (loc : StockLocation) (lines : List StockLine) : ℤ :=
  (lines.map fun l => if lineLocation tenantID l = loc then l.quantity.toInt else 0).sum

theorem quantityAt_cons (tenantID : UUID) (loc : StockLocation) (l : StockLine)
    (rest : List StockLine) : quantityAt tenantID loc (l :: rest) =
      (if lineLocation tenantID l = loc then l.quantity.toInt else 0) +
        quantityAt tenantID loc rest := by
  simp [quantityAt]

theorem quantityAt_perm (tenantID : UUID) (loc : StockLocation) {xs ys : List StockLine}
    (h : xs.Perm ys) : quantityAt tenantID loc xs = quantityAt tenantID loc ys :=
  (h.map _).sum_eq

theorem quantityAt_sorted (rt : Runtime) (tenantID : UUID) (loc : StockLocation)
    (lines : List StockLine) :
    quantityAt tenantID loc (sortedLines rt lines) = quantityAt tenantID loc lines :=
  quantityAt_perm tenantID loc (rt.sortSlice_perm lines)

theorem applyLine_self (h : lineLocation tenantID l = loc) :
    (applyLine m tenantID orderID l level db).stockLevels loc =
      some (m.level level l.quantity) := by
  subst h
  exact setLevel_self _ _ _

theorem applyLine_other (h : lineLocation tenantID l ≠ loc) :
    (applyLine m tenantID orderID l level db).stockLevels loc = db.stockLevels loc :=
  setLevel_of_ne db _ (Ne.symm h)

theorem applyLine_find_self {old : StockLevel}
    (row : db.find (lineLocation tenantID l) = some old) (h : lineLocation tenantID l = loc) :
    (applyLine m tenantID orderID l level db).find loc = some (m.level level l.quantity) :=
  find_some_iff.2 ⟨h ▸ (find_some_iff.1 row).1, applyLine_self h⟩

theorem applyLine_find_other (h : lineLocation tenantID l ≠ loc) :
    (applyLine m tenantID orderID l level db).find loc = db.find loc := by
  rw [StockDb.find, applyLine_other h, StockDb.find]

theorem applyLine_checked (checked : Checked db)
    (row : db.find (lineLocation tenantID l) = some level)
    (check : (m.level level l.quantity).check = .ok ()) :
    Checked (applyLine m tenantID orderID l level db) := by
  intro loc found h
  by_cases here : lineLocation tenantID l = loc
  · rw [applyLine_self here] at h
    cases h
    exact ⟨here ▸ (find_some_iff.1 row).1, check⟩
  · rw [applyLine_other here] at h
    exact checked loc found h

theorem lineRun_checked {lines : List StockLine} (run : LineRun m tenantID orderID lines db db')
    (checked : Checked db) : Checked db' := by
  induction run with
  | nil db => exact checked
  | skip row tail ih => exact ih checked
  | move row check fits tail ih => exact ih (applyLine_checked checked row check)

theorem lineRun_other {lines : List StockLine} (run : LineRun m tenantID orderID lines db db')
    (loc : StockLocation) (unnamed : ∀ l ∈ lines, lineLocation tenantID l ≠ loc) :
    db'.stockLevels loc = db.stockLevels loc := by
  induction run with
  | nil db => rfl
  | skip row tail ih => exact ih fun l hl => unnamed l (List.mem_cons_of_mem _ hl)
  | move row check fits tail ih =>
    rw [ih fun l hl => unnamed l (List.mem_cons_of_mem _ hl),
      applyLine_other (unnamed _ List.mem_cons_self)]

/-- The induction is on the lines; a row once there stays, so every later line
at the location starts from an exact row. -/
theorem lineRun_exact (along : Along m d) {lines : List StockLine}
    (run : LineRun m tenantID orderID lines db db') (checked : Checked db) (loc : StockLocation)
    (level : StockLevel) (row : db.stockLevels loc = some level) :
    ∃ level', db'.stockLevels loc = some level' ∧
      buckets level' = buckets level + quantityAt tenantID loc lines • d ∧
      level'.isLockedForAudit = level.isLockedForAudit := by
  induction run generalizing level with
  | nil db => exact ⟨level, row, by simp [quantityAt], rfl⟩
  | @skip l rest db db' absent tail ih =>
    obtain ⟨level', row', moved, lock⟩ := ih checked level row
    have elsewhere : lineLocation tenantID l ≠ loc := by
      intro here
      rw [here, checked.find, row] at absent
      cases absent
    refine ⟨level', row', ?_, lock⟩
    rw [moved, quantityAt_cons, if_neg elsewhere, zero_add]
  | @move l rest db db' old here check fits tail ih =>
    have next : Checked (applyLine m tenantID orderID l old db) :=
      applyLine_checked checked here check
    rw [checked.find] at here
    by_cases same : lineLocation tenantID l = loc
    · have eq : old = level := by
        rw [same, row] at here
        exact (Option.some.inj here).symm
      subst eq
      obtain ⟨exact, lock⟩ := along old l.quantity (checked _ _ here).2 check
      obtain ⟨level', row', moved, lock'⟩ := ih next _ (applyLine_self same)
      refine ⟨level', row', ?_, lock'.trans lock⟩
      rw [moved, exact, quantityAt_cons, if_pos same, add_smul, add_assoc]
    · obtain ⟨level', row', moved, lock⟩ := ih next level (by rw [applyLine_other same, row])
      refine ⟨level', row', ?_, lock⟩
      rw [moved, quantityAt_cons, if_neg same, zero_add]

theorem lineRun_absent {lines : List StockLine} (run : LineRun m tenantID orderID lines db db')
    (absent : db.stockLevels loc = none) : db'.stockLevels loc = none := by
  induction run with
  | nil db => exact absent
  | skip row tail ih => exact ih absent
  | @move l rest db db' old row check fits tail ih =>
    have elsewhere : lineLocation tenantID l ≠ loc := by
      intro here
      rw [here, StockDb.find, absent, ite_self] at row
      cases row
    exact ih (by rw [applyLine_other elsewhere, absent])

theorem quantityAt_eq_zero {lines : List StockLine}
    (unnamed : ∀ l ∈ lines, lineLocation tenantID l ≠ loc) : quantityAt tenantID loc lines = 0 := by
  induction lines with
  | nil => rfl
  | cons l rest ih =>
    rw [quantityAt_cons, if_neg (unnamed l List.mem_cons_self),
      ih fun x hx => unnamed x (List.mem_cons_of_mem l hx), add_zero]

inductive StockCall where
  | adjustStock (req : AdjustStockRequest)
  | reserveStock (req : ReserveStockRequest)
  | releaseStock (req : ReleaseStockRequest)
  | confirmStockAllocation (req : ConfirmStockAllocationRequest)
  | fulfillStock (req : FulfillStockRequest)
  | unlockStockForAudit (req : UnlockStockForAuditRequest)
  | reconcile

namespace StockCall

def apply (rt : Runtime) : StockCall → StockDb → StockDb
  | adjustStock req, db => (StockHandlers.adjustStock rt req db).2
  | reserveStock req, db => (StockHandlers.reserveStock rt req db).2
  | releaseStock req, db => (StockHandlers.releaseStock rt req db).2
  | confirmStockAllocation req, db => (StockHandlers.confirmStockAllocation rt req db).2
  | fulfillStock req, db => (StockHandlers.fulfillStock rt req db).2
  | unlockStockForAudit req, db => (StockHandlers.unlockStockForAudit rt req db).2
  | reconcile, db => (StockReconcile.reconcile rt db).2

/-- The handler answered without an error and with `success`. -/
def succeeded (rt : Runtime) : StockCall → StockDb → Bool
  | adjustStock req, db => (StockHandlers.adjustStock rt req db).1.toOption.any (·.success)
  | reserveStock req, db => (StockHandlers.reserveStock rt req db).1.toOption.any (·.success)
  | releaseStock req, db => (StockHandlers.releaseStock rt req db).1.toOption.any (·.success)
  | confirmStockAllocation req, db =>
    (StockHandlers.confirmStockAllocation rt req db).1.toOption.any (·.success)
  | fulfillStock req, db => (StockHandlers.fulfillStock rt req db).1.toOption.any (·.success)
  | unlockStockForAudit req, db =>
    (StockHandlers.unlockStockForAudit rt req db).1.toOption.any (·.success)
  | reconcile, db => (StockReconcile.reconcile rt db).1.toOption.isSome

def tenantId : StockCall → String
  | adjustStock req => req.tenantId
  | reserveStock req => req.tenantId
  | releaseStock req => req.tenantId
  | confirmStockAllocation req => req.tenantId
  | fulfillStock req => req.tenantId
  | unlockStockForAudit req => req.tenantId
  | reconcile => ""

def idempotencyKey : StockCall → String
  | adjustStock req => req.idempotencyKey
  | reserveStock req => req.idempotencyKey
  | releaseStock req => req.idempotencyKey
  | confirmStockAllocation req => req.idempotencyKey
  | fulfillStock req => req.idempotencyKey
  | unlockStockForAudit _ => ""
  | reconcile => ""

def lines : StockCall → List StockLine
  | reserveStock req => req.lines
  | releaseStock req => req.lines
  | confirmStockAllocation req => req.lines
  | fulfillStock req => req.lines
  | _ => []

def locations (call : StockCall) (tenantID : UUID) : List StockLocation :=
  match call with
  | adjustStock req => [⟨tenantID, req.skuId, req.warehouseId⟩]
  | unlockStockForAudit req => [⟨tenantID, req.skuId, req.warehouseId⟩]
  | _ => call.lines.map (lineLocation tenantID)

def direction : StockCall → Option Buckets
  | reserveStock _ => some (-1, 1, 0)
  | releaseStock _ => some (1, -1, 0)
  | confirmStockAllocation _ => some (0, -1, 1)
  | fulfillStock _ => some (0, 0, -1)
  | _ => none

def movement : StockCall → Option Movement
  | reserveStock req => some (reserveMove req.orderId)
  | releaseStock req => some (releaseMove req.orderId req.reason)
  | confirmStockAllocation _ => some confirmMove
  | fulfillStock _ => some fulfillMove
  | _ => none

def Repeats (rt : Runtime) (call : StockCall) (db : StockDb) : Prop :=
  ∃ tenantID, rt.scan call.tenantId = some tenantID ∧ Seen db tenantID call.idempotencyKey

def Names (rt : Runtime) (call : StockCall) (loc : StockLocation) : Prop :=
  ∃ tenantID, rt.scan call.tenantId = some tenantID ∧ loc ∈ call.locations tenantID

end StockCall

def runCalls (rt : Runtime) (calls : List StockCall) (db : StockDb) : StockDb :=
  calls.foldl (fun db call => call.apply rt db) db

theorem direction_movement (call : StockCall) (d : Buckets) (dir : call.direction = some d) :
    ∃ m, call.movement = some m ∧ Along m d := by
  cases call with
  | adjustStock req => simp [StockCall.direction] at dir
  | unlockStockForAudit req => simp [StockCall.direction] at dir
  | reconcile => simp [StockCall.direction] at dir
  | reserveStock req =>
    cases dir
    exact ⟨_, rfl, reserveMove_along req.orderId⟩
  | releaseStock req =>
    cases dir
    exact ⟨_, rfl, releaseMove_along req.orderId req.reason⟩
  | confirmStockAllocation req =>
    cases dir
    exact ⟨_, rfl, confirmMove_along⟩
  | fulfillStock req =>
    cases dir
    exact ⟨_, rfl, fulfillMove_along⟩

theorem movement_cases (rt : Runtime) (call : StockCall) (m : Movement)
    (moves : call.movement = some m) (db : StockDb) :
    (call.succeeded rt db = false ∧ call.apply rt db = db) ∨
    (call.succeeded rt db = true ∧ ∃ tenantID orderID msg, rt.scan call.tenantId = some tenantID ∧
      Moved rt m tenantID orderID call.idempotencyKey msg call.lines db (call.apply rt db)) := by
  cases call with
  | adjustStock req => simp [StockCall.movement] at moves
  | unlockStockForAudit req => simp [StockCall.movement] at moves
  | reconcile => simp [StockCall.movement] at moves
  | reserveStock req =>
    cases moves
    simp only [StockCall.apply, StockCall.succeeded]
    generalize result : StockHandlers.reserveStock rt req db = r
    obtain ⟨answer, db'⟩ := r
    rcases reserveStock_cases result with ⟨tenantID, parse, rfl, moved⟩ | ⟨⟨failed, rfl⟩, rfl⟩ |
        ⟨⟨e, rfl⟩, rfl⟩
    · exact .inr ⟨rfl, tenantID, _, _, parse, moved⟩
    · exact .inl ⟨rfl, rfl⟩
    · exact .inl ⟨rfl, rfl⟩
  | releaseStock req =>
    cases moves
    simp only [StockCall.apply, StockCall.succeeded]
    generalize result : StockHandlers.releaseStock rt req db = r
    obtain ⟨answer, db'⟩ := r
    rcases tenantRpc_cases result with ⟨tenantID, resp, parse, run, rfl⟩ | ⟨e, rfl, rfl⟩
    · obtain ⟨success, moved⟩ := releaseTx_ok run
      exact .inr ⟨success, tenantID, _, _, parse, moved⟩
    · exact .inl ⟨rfl, rfl⟩
  | confirmStockAllocation req =>
    cases moves
    simp only [StockCall.apply, StockCall.succeeded]
    generalize result : StockHandlers.confirmStockAllocation rt req db = r
    obtain ⟨answer, db'⟩ := r
    rcases tenantRpc_cases result with ⟨tenantID, resp, parse, run, rfl⟩ | ⟨e, rfl, rfl⟩
    · obtain ⟨success, moved⟩ := confirmTx_ok run
      exact .inr ⟨success, tenantID, _, _, parse, moved⟩
    · exact .inl ⟨rfl, rfl⟩
  | fulfillStock req =>
    cases moves
    simp only [StockCall.apply, StockCall.succeeded]
    generalize result : StockHandlers.fulfillStock rt req db = r
    obtain ⟨answer, db'⟩ := r
    rcases tenantRpc_cases result with ⟨tenantID, resp, parse, run, rfl⟩ | ⟨e, rfl, rfl⟩
    · obtain ⟨success, moved⟩ := fulfillTx_ok run
      exact .inr ⟨success, tenantID, _, _, parse, moved⟩
    · exact .inl ⟨rfl, rfl⟩

theorem adjust_cases (rt : Runtime) (req : AdjustStockRequest) (db : StockDb) :
    (StockHandlers.adjustStock rt req db).2 = db ∨
    ∃ tenantID, rt.scan req.tenantId = some tenantID ∧
      ¬Seen db tenantID req.idempotencyKey ∧
      nameFits ⟨tenantID, req.skuId, req.warehouseId⟩ = true ∧ 0 ≤ req.quantityDelta.toInt ∧
      (upserted (db.stockLevels ⟨tenantID, req.skuId, req.warehouseId⟩)
        req.quantityDelta).check = .ok () ∧
      (StockHandlers.adjustStock rt req db).2 =
        applyAdjust tenantID req ⟨tenantID, req.skuId, req.warehouseId⟩
          (claimKey rt tenantID req.idempotencyKey (.adjustStock req) db) := by
  generalize result : StockHandlers.adjustStock rt req db = r
  obtain ⟨answer, db'⟩ := r
  rcases tenantRpc_cases result with ⟨tenantID, resp, parse, run, rfl⟩ | ⟨e, rfl, rfl⟩
  · rcases adjustTx_ok run with ⟨-, rfl⟩ | ⟨unseen, names, nonneg, check, rfl⟩
    · exact .inl rfl
    · exact .inr ⟨tenantID, parse, unseen, names, nonneg, check, rfl⟩
  · exact .inl rfl

theorem unlock_cases (rt : Runtime) (req : UnlockStockForAuditRequest) (db : StockDb) :
    (StockHandlers.unlockStockForAudit rt req db).2 = db ∨
    ∃ tenantID level, rt.scan req.tenantId = some tenantID ∧
      db.find ⟨tenantID, req.skuId, req.warehouseId⟩ = some level ∧
      (StockHandlers.unlockStockForAudit rt req db).2 =
        { db.setLevel ⟨tenantID, req.skuId, req.warehouseId⟩
            { level with isLockedForAudit := false } with
          stockEvents := db.stockEvents ++ [(unlockEvent tenantID req).stored] } := by
  generalize result : StockHandlers.unlockStockForAudit rt req db = r
  obtain ⟨answer, db'⟩ := r
  rcases tenantRpc_cases result with ⟨tenantID, resp, parse, run, rfl⟩ | ⟨e, rfl, rfl⟩
  · rcases unlockTx_ok run with ⟨-, rfl⟩ | ⟨level, row, -, rfl⟩
    · exact .inl rfl
    · exact .inr ⟨tenantID, level, parse, row, rfl⟩
  · exact .inl rfl

theorem setAuditLock_buckets (target loc : StockLocation) (locked : Bool) (db : StockDb) :
    ((setAuditLock target locked db).stockLevels loc).map buckets =
      (db.stockLevels loc).map buckets := by
  unfold setAuditLock
  cases row : db.stockLevels target with
  | none => rfl
  | some level =>
    by_cases same : loc = target
    · subst same
      simp [row, buckets]
    · rw [setLevel_of_ne db _ same]

theorem reconcileAll_preserves (P : StockDb → Prop)
    (lock : ∀ loc db, P db → P (setAuditLock loc true db)) (rt : Runtime)
    (locs : List StockLocation) (start : P db) : P (reconcileAll rt locs db).2 := by
  induction locs generalizing db with
  | nil => exact start
  | cons target rest ih =>
    rw [reconcileAll]
    split
    · exact ih start
    · split
      · exact start
      · dsimp only
        split
        · have tail := ih (lock target db start)
          split
          · rename_i run
            rw [run] at tail
            exact tail
          · rename_i run
            rw [run] at tail
            exact tail
        · exact ih start

theorem reconcileAll_buckets (rt : Runtime) (locs : List StockLocation) (db : StockDb)
    (loc : StockLocation) : ((reconcileAll rt locs db).2.stockLevels loc).map buckets =
      (db.stockLevels loc).map buckets :=
  reconcileAll_preserves (fun db' => (db'.stockLevels loc).map buckets =
    (db.stockLevels loc).map buckets)
    (fun target db' same => (setAuditLock_buckets target loc true db').trans same) rt locs rfl

theorem check_of_buckets {a b : StockLevel} (h : buckets a = buckets b)
    (check : b.check = .ok ()) : a.check = .ok () := by
  simp only [buckets, Prod.mk.injEq] at h
  rw [check_ok_iff] at check ⊢
  rw [h.1, h.2.1, h.2.2]
  exact check

theorem checked_of_buckets (same : ∀ loc,
    (db'.stockLevels loc).map buckets = (db.stockLevels loc).map buckets) (checked : Checked db) :
    Checked db' := by
  intro loc level row
  have eq := same loc
  rw [row] at eq
  cases old : db.stockLevels loc with
  | none => simp [old] at eq
  | some before =>
    simp only [old, Option.map_some, Option.some.injEq] at eq
    exact ⟨(checked loc before old).1, check_of_buckets eq (checked loc before old).2⟩

theorem claimKey_checked (checked : Checked db) : Checked (claimKey rt tenantID key msg db) := by
  intro loc level row
  rw [claimKey_levels] at row
  exact checked loc level row

theorem setLevel_checked (checked : Checked db) (within : loc.stored = loc)
    (check : level.check = .ok ()) :
    Checked (db.setLevel loc level) := by
  intro other found row
  by_cases same : other = loc
  · subst same
    rw [setLevel_self] at row
    cases row
    exact ⟨within, check⟩
  · rw [setLevel_of_ne db level same] at row
    exact checked other found row

variable {lines : List StockLine}

theorem moved_checked
    (moved : Moved rt m tenantID orderID key msg lines db db') (checked : Checked db) :
    Checked db' := by
  cases moved with
  | duplicate seen same => rwa [same]
  | fresh unseen fits run => exact lineRun_checked run (claimKey_checked checked)

theorem apply_checked (rt : Runtime) (call : StockCall) (db : StockDb) (checked : Checked db) :
    Checked (call.apply rt db) := by
  have movement : ∀ m, call.movement = some m → Checked (call.apply rt db) := by
    intro m moves
    rcases movement_cases rt call m moves db with ⟨-, same⟩ | ⟨-, tenantID, orderID, msg, -, moved⟩
    · rwa [same]
    · exact moved_checked moved checked
  cases call with
  | reserveStock req => exact movement _ rfl
  | releaseStock req => exact movement _ rfl
  | confirmStockAllocation req => exact movement _ rfl
  | fulfillStock req => exact movement _ rfl
  | adjustStock req =>
    rw [StockCall.apply]
    rcases adjust_cases rt req db with same | ⟨tenantID, -, -, names, -, check, same⟩
    · rwa [same]
    · rw [same]
      intro loc level row
      refine setLevel_checked (claimKey_checked checked) (stored_of_nameFits names) ?_ loc level row
      rwa [claimKey_levels]
  | unlockStockForAudit req =>
    rw [StockCall.apply]
    rcases unlock_cases rt req db with same | ⟨tenantID, level, -, row, same⟩
    · rwa [same]
    · rw [same]
      obtain ⟨within, row⟩ := find_some_iff.1 row
      have unlocked : ({ level with isLockedForAudit := false } : StockLevel).check = .ok () :=
        check_of_buckets rfl (checked _ level row).2
      intro loc found h
      exact setLevel_checked checked within unlocked loc found h
  | reconcile => exact checked_of_buckets (reconcileAll_buckets rt _ db) checked

theorem runCalls_checked (rt : Runtime) (calls : List StockCall) (db : StockDb)
    (checked : Checked db) : Checked (runCalls rt calls db) := by
  induction calls generalizing db with
  | nil => exact checked
  | cons call rest ih => exact ih _ (apply_checked rt call db checked)

/-- A movement in units: its quantities along its direction where there is a row,
or nothing under a repeated key. -/
theorem moved_units (along : Along m d)
    (moved : Moved rt m tenantID orderID key msg lines db db') (checked : Checked db)
    (loc : StockLocation) : held db' loc = held db loc +
      (if Seen db tenantID key ∨ db.stockLevels loc = none then 0
        else quantityAt tenantID loc lines) • d := by
  cases moved with
  | duplicate seen same => rw [same, if_pos (.inl seen), zero_smul, add_zero]
  | fresh unseen fits run =>
    cases row : db.stockLevels loc with
    | none =>
      have gone : db'.stockLevels loc = none := lineRun_absent run (by rw [claimKey_levels, row])
      simp [held, row, gone]
    | some level =>
      have start : (claimKey rt tenantID key msg db).stockLevels loc = some level := by
        rw [claimKey_levels, row]
      obtain ⟨level', row', exact, -⟩ :=
        lineRun_exact along run (claimKey_checked checked) loc level start
      rw [quantityAt_sorted] at exact
      simp [held, row, row', exact, unseen]

theorem moved_held (along : Along m d)
    (moved : Moved rt m tenantID orderID key msg lines db db') (checked : Checked db)
    (located : ∀ l ∈ lines, db.stockLevels (lineLocation tenantID l) ≠ none) (loc : StockLocation) :
    held db' loc = held db loc +
      (if Seen db tenantID key then 0 else quantityAt tenantID loc lines) • d := by
  rw [moved_units along moved checked loc]
  by_cases gone : db.stockLevels loc = none
  · have zero : quantityAt tenantID loc lines = 0 :=
      quantityAt_eq_zero fun l hl here => located l hl (here ▸ gone)
    simp [gone, zero]
  · simp [gone]

theorem moved_effect (along : Along m d)
    (moved : Moved rt m tenantID orderID key msg lines db db') (checked : Checked db)
    (loc : StockLocation) :
    held db' loc = held db loc ∨
      held db' loc = held db loc + quantityAt tenantID loc lines • d := by
  rw [moved_units along moved checked loc]
  split
  · exact .inl (by rw [zero_smul, add_zero])
  · exact .inr rfl

theorem lineRun_located (run : LineRun m tenantID orderID lines db db')
    (located : db.stockLevels loc ≠ none) : db'.stockLevels loc ≠ none := by
  induction run with
  | nil db => exact located
  | skip row tail ih => exact ih located
  | @move l rest db db' old row check fits tail ih =>
    refine ih ?_
    by_cases here : lineLocation tenantID l = loc
    · rw [applyLine_self here]
      exact Option.some_ne_none _
    · rwa [applyLine_other here]

theorem moved_located (moved : Moved rt m tenantID orderID key msg lines db db')
    (located : db.stockLevels loc ≠ none) : db'.stockLevels loc ≠ none := by
  cases moved with
  | duplicate seen same => rwa [same]
  | fresh unseen fits run => exact lineRun_located run (by rwa [claimKey_levels])

theorem moved_other (moved : Moved rt m tenantID orderID key msg lines db db') (loc : StockLocation)
    (unnamed : loc ∉ lines.map (lineLocation tenantID)) :
    db'.stockLevels loc = db.stockLevels loc := by
  cases moved with
  | duplicate seen same => rw [same]
  | fresh unseen fits run =>
    rw [lineRun_other run loc ?_, claimKey_levels]
    intro l hl here
    exact unnamed (List.mem_map.2 ⟨l, ((rt.sortSlice_perm lines).mem_iff).1 hl, here⟩)

/-- No step moves units at a location it does not name. -/
theorem apply_other (rt : Runtime) (call : StockCall) (db : StockDb) (loc : StockLocation)
    (unnamed : ¬call.Names rt loc) :
    ((call.apply rt db).stockLevels loc).map buckets = (db.stockLevels loc).map buckets := by
  have elsewhere : ∀ {u there}, rt.scan call.tenantId = some u → there ∈ call.locations u →
      loc ≠ there := fun parse named here => unnamed ⟨_, parse, here ▸ named⟩
  have movement : ∀ m, call.movement = some m →
      (∀ tenantID, call.locations tenantID = call.lines.map (lineLocation tenantID)) →
      ((call.apply rt db).stockLevels loc).map buckets = (db.stockLevels loc).map buckets := by
    intro m moves named
    rcases movement_cases rt call m moves db with
      ⟨-, same⟩ | ⟨-, tenantID, orderID, msg, parse, moved⟩
    · rw [same]
    · rw [moved_other moved loc]
      intro here
      exact unnamed ⟨tenantID, parse, by rwa [named]⟩
  cases call with
  | reserveStock req => exact movement _ rfl fun _ => rfl
  | releaseStock req => exact movement _ rfl fun _ => rfl
  | confirmStockAllocation req => exact movement _ rfl fun _ => rfl
  | fulfillStock req => exact movement _ rfl fun _ => rfl
  | adjustStock req =>
    rw [StockCall.apply]
    rcases adjust_cases rt req db with same | ⟨tenantID, parse, -, -, -, -, same⟩
    · rw [same]
    · rw [same]
      change ((StockDb.setLevel _ _ _).stockLevels loc).map buckets = _
      rw [setLevel_of_ne _ _ (elsewhere parse (List.mem_singleton_self _)), claimKey_levels]
  | unlockStockForAudit req =>
    rw [StockCall.apply]
    rcases unlock_cases rt req db with same | ⟨tenantID, level, parse, -, same⟩
    · rw [same]
    · rw [same]
      change ((StockDb.setLevel _ _ _).stockLevels loc).map buckets = _
      rw [setLevel_of_ne _ _ (elsewhere parse (List.mem_singleton_self _))]
  | reconcile => exact reconcileAll_buckets rt _ db loc

/-- A movement that succeeds under a new key shifts, at every location with a
row, the summed quantity of its lines along its direction. -/
theorem movement_exact (rt : Runtime) (call : StockCall) (d : Buckets)
    (dir : call.direction = some d) (db : StockDb) (checked : Checked db)
    (succeeded : call.succeeded rt db = true) (fresh : ¬call.Repeats rt db) (tenantID : UUID)
    (parse : rt.scan call.tenantId = some tenantID) (loc : StockLocation) (level : StockLevel)
    (row : db.stockLevels loc = some level) : ∃ level',
      (call.apply rt db).stockLevels loc = some level' ∧
      buckets level' = buckets level + quantityAt tenantID loc call.lines • d := by
  obtain ⟨m, moves, along⟩ := direction_movement call d dir
  rcases movement_cases rt call m moves db with
    ⟨failed, -⟩ | ⟨-, tenantID', orderID, msg, parse', moved⟩
  · rw [succeeded] at failed
    cases failed
  · rw [parse] at parse'
    cases parse'
    cases moved with
    | duplicate seen same => exact absurd ⟨tenantID, parse, seen⟩ fresh
    | fresh unseen fits run =>
      have start : (claimKey rt tenantID call.idempotencyKey msg db).stockLevels loc =
          some level := by rw [claimKey_levels, row]
      obtain ⟨level', row', moved, -⟩ :=
        lineRun_exact along run (claimKey_checked checked) loc level start
      rw [quantityAt_sorted] at moved
      exact ⟨level', row', moved⟩

def InRange (level : StockLevel) : Prop :=
  (0 ≤ level.availableQty.toInt ∧ level.availableQty.toInt ≤ 2 ^ 31 - 1) ∧
  (0 ≤ level.reservedQty.toInt ∧ level.reservedQty.toInt ≤ 2 ^ 31 - 1) ∧
  (0 ≤ level.allocatedQty.toInt ∧ level.allocatedQty.toInt ≤ 2 ^ 31 - 1)

theorem inRange_of_check (check : level.check = .ok ()) : InRange level := by
  have nonneg := (check_ok_iff level).1 check
  have available := int32_bounds level.availableQty
  have reserved := int32_bounds level.reservedQty
  have allocated := int32_bounds level.allocatedQty
  unfold InRange
  omega

/-- From any tables that satisfy the constraints, after any run: every bucket
is in range; the next movement, when it commits under a new key, shifts exactly
the integer sum of its lines and otherwise changes nothing; and no step touches
a location it does not name. -/
theorem stock_conservation (rt : Runtime) (start : StockDb) (checked : Checked start)
    (calls : List StockCall) :
    (∀ loc level, (runCalls rt calls start).stockLevels loc = some level → InRange level) ∧
    ∀ call : StockCall,
      (∀ d, call.direction = some d →
        (call.succeeded rt (runCalls rt calls start) = true →
          ¬call.Repeats rt (runCalls rt calls start) →
          ∀ tenantID, rt.scan call.tenantId = some tenantID →
          ∀ loc level, (runCalls rt calls start).stockLevels loc = some level →
            ∃ level', (call.apply rt (runCalls rt calls start)).stockLevels loc = some level' ∧
              buckets level' = buckets level + quantityAt tenantID loc call.lines • d) ∧
        ((call.succeeded rt (runCalls rt calls start) = false ∨
            call.Repeats rt (runCalls rt calls start)) →
          call.apply rt (runCalls rt calls start) = runCalls rt calls start)) ∧
      ∀ loc, ¬call.Names rt loc →
        ((call.apply rt (runCalls rt calls start)).stockLevels loc).map buckets =
          ((runCalls rt calls start).stockLevels loc).map buckets := by
  have reached := runCalls_checked rt calls start checked
  generalize runCalls rt calls start = db at reached ⊢
  refine ⟨fun loc level row => inRange_of_check (reached loc level row).2, fun call => ⟨?_, ?_⟩⟩
  · intro d dir
    refine ⟨fun succeeded fresh tenantID parse loc level row =>
      movement_exact rt call d dir db reached succeeded fresh tenantID parse loc level row, ?_⟩
    intro idle
    obtain ⟨m, moves, -⟩ := direction_movement call d dir
    rcases movement_cases rt call m moves db with
      ⟨-, same⟩ | ⟨succeeded, tenantID, orderID, msg, parse, moved⟩
    · exact same
    · rcases idle with failed | ⟨tenantID', parse', seen⟩
      · rw [succeeded] at failed
        cases failed
      · rw [parse] at parse'
        cases parse'
        cases moved with
        | duplicate _ same => exact same
        | fresh unseen _ _ => exact absurd seen unseen
  · exact fun loc unnamed => apply_other rt call db loc unnamed

def sampleLocation : StockLocation := ⟨sampleTenant, "SKU", "W1"⟩

def sampleCalls : List StockCall :=
  [.adjustStock ⟨sampleTenant.text, "SKU", "W1", 5, "adjust", "erp", ""⟩,
    .reserveStock ⟨sampleTenant.text, "ord-1", "ord-1:reserve",
      [⟨"SKU", "W1", 2⟩, ⟨"SKU", "W1", 1⟩]⟩]

def sampleRelease : StockCall :=
  .releaseStock ⟨sampleTenant.text, "ord-1", "release", "", [⟨"SKU", "W1", 1⟩]⟩

theorem empty_checked : Checked StockDb.empty := by
  intro loc level row
  cases row

theorem stock_conservation_release : ∃ level',
    (sampleRelease.apply (reference []) (runCalls (reference []) sampleCalls
      StockDb.empty)).stockLevels sampleLocation = some level' ∧
    buckets level' = (2, 3, 0) + quantityAt sampleTenant sampleLocation sampleRelease.lines •
      (1, -1, 0) := by
  have step := (stock_conservation (reference []) StockDb.empty empty_checked sampleCalls).2
    sampleRelease
  have parse : (reference []).scan sampleRelease.tenantId = some sampleTenant := by decide
  have ends : sampleRelease.succeeded (reference [])
        (runCalls (reference []) sampleCalls StockDb.empty) = true ∧
      (runCalls (reference []) sampleCalls StockDb.empty).stockLevels sampleLocation =
        some ⟨2, 3, 0, false⟩ := by
    rw [reference_recognizing]
    decide +kernel
  exact (step.1 (1, -1, 0) rfl).1 ends.1 (fun ⟨_, _, seen⟩ => seen.1 rfl) sampleTenant parse
    sampleLocation ⟨2, 3, 0, false⟩ ends.2

end Taper.StockConservation
