import Taper.StockReconcileSound
import Taper.ExactRequests
import Taper.StockEffects

set_option autoImplicit false

/-!
# Reconciliation under traffic

A pass is not a transaction: each level it reads, each sum and each lock is a
statement of its own, and requests commit in between.
-/
namespace Taper.ReconcilePass
open Messages Platform StockTables StockHandlers StockSteps StockReconcile StockConservation
open StockReconcileSound ExactRequests

inductive Pass where
  | list
  | level (locs : List StockLocation) (drifts : List Drift)
  | sum (loc : StockLocation) (level : StockLevel) (rest : List StockLocation)
      (drifts : List Drift)
  | lock (loc : StockLocation) (d : Drift) (rest : List StockLocation) (drifts : List Drift)
  | done (answer : Except Failure (List Drift))

/-- One statement; `fault` is a statement that the database does not answer. A
level that cannot be read is passed over, every other fault ends the pass. -/
def Pass.step (rt : Runtime) (fault : Bool) : Pass → StockDb → Pass × StockDb
  | list, db =>
    if fault then (done (.error .transport), db)
    else (level (listDistinctEventLocations rt db) [], db)
  | level [] drifts, db => (done (.ok drifts), db)
  | level (loc :: rest) drifts, db =>
    if fault then (level rest drifts, db)
    else
      match db.stockLevels loc with
      | none => (level rest drifts, db)
      | some found => (sum loc found rest drifts, db)
  | sum loc found rest drifts, db =>
    if fault then (done (.error .transport), db)
    else
      match sumDeltasByReason rt db loc with
      | .error e => (done (.error e), db)
      | .ok reasons =>
        let d := drift loc found (deriveBuckets reasons)
        if d.found then (lock loc d rest drifts, db) else (level rest drifts, db)
  | lock loc d rest drifts, db =>
    if fault then (done (.error .transport), db)
    else (level rest (drifts ++ [d]), setAuditLock loc true db)
  | done answer, db => (done answer, db)

section Alone

variable (rt : Runtime)

/-- Statements without a fault and with nothing in between. -/
def Pass.advance : ℕ → Pass × StockDb → Pass × StockDb
  | 0, s => s
  | n + 1, s => advance n (s.1.step rt false s.2)

theorem advance_level (locs : List StockLocation) (drifts : List Drift) (db : StockDb) :
    ∃ n, Pass.advance rt n (.level locs drifts, db) =
      (.done ((reconcileAll rt locs db).1.map (drifts ++ ·)), (reconcileAll rt locs db).2) := by
  induction locs generalizing drifts db with
  | nil => exact ⟨1, by simp [Pass.advance, Pass.step, reconcileAll, Except.map]⟩
  | cons loc rest ih =>
    rw [reconcileAll]
    cases row : db.stockLevels loc with
    | none =>
      obtain ⟨n, later⟩ := ih drifts db
      refine ⟨n + 1, ?_⟩
      simp only [Pass.advance, Pass.step, row, Bool.false_eq_true, if_false, later]
    | some found =>
      cases sums : sumDeltasByReason rt db loc with
      | error e =>
        refine ⟨2, ?_⟩
        simp only [Pass.advance, Pass.step, row, sums, Bool.false_eq_true, if_false, Except.map]
      | ok reasons =>
        cases differs : (drift loc found (deriveBuckets reasons)).found with
        | false =>
          obtain ⟨n, later⟩ := ih drifts db
          refine ⟨n + 2, ?_⟩
          simp only [Pass.advance, Pass.step, row, sums, differs, Bool.false_eq_true, if_false,
            later]
        | true =>
          obtain ⟨n, later⟩ := ih (drifts ++ [drift loc found (deriveBuckets reasons)])
            (setAuditLock loc true db)
          refine ⟨n + 3, ?_⟩
          simp only [Pass.advance, Pass.step, row, sums, differs, Bool.false_eq_true, if_false,
            if_true, later]
          generalize reconcileAll rt rest (setAuditLock loc true db) = out
          obtain ⟨answer, db'⟩ := out
          cases answer with
          | error e => rfl
          | ok more => simp [Except.map]

theorem advance_reconcile (db : StockDb) :
    ∃ n, Pass.advance rt n (.list, db) = (.done (reconcile rt db).1, (reconcile rt db).2) := by
  obtain ⟨n, run⟩ := advance_level rt (listDistinctEventLocations rt db) [] db
  refine ⟨n + 1, ?_⟩
  have same : ∀ answer : Except Failure (List Drift), answer.map ([] ++ ·) = answer := by
    intro answer
    cases answer with
    | error e => rfl
    | ok drifts => rfl
  rw [same] at run
  exact run

end Alone

structure Traffic where
  db : StockDb
  passes : ℕ → Pass

def Traffic.quiet (db : StockDb) : Traffic := ⟨db, fun _ => .list⟩

inductive Act where
  | call (c : StockCall)
  | pass (i : ℕ) (fault : Bool)

def Act.apply (rt : Runtime) : Act → Traffic → Traffic
  | call c, s => { s with db := c.apply rt s.db }
  | pass i fault, s =>
    let next := (s.passes i).step rt fault s.db
    ⟨next.2, Function.update s.passes i next.1⟩

def run (rt : Runtime) (acts : List Act) (s : Traffic) : Traffic :=
  acts.foldl (fun s act => act.apply rt s) s

theorem run_append (rt : Runtime) (before after : List Act) (s : Traffic) :
    run rt (before ++ after) s = run rt after (run rt before s) := List.foldl_append ..

variable {db db' : StockDb} {loc : StockLocation} {call : StockCall} {m : Movement} {p : Pass}
  {s : Traffic}

theorem run_keep {rt : Runtime} {P : Traffic → Prop} {acts : List Act} (start : P s)
    (step : ∀ before act after, acts = before ++ act :: after → P (run rt before s) →
      P (act.apply rt (run rt before s))) : P (run rt acts s) := by
  induction acts using List.reverseRecOn with
  | nil => exact start
  | append_singleton before act ih =>
    rw [run_append]
    refine step before act [] rfl (ih fun first next rest split => ?_)
    exact step first next (rest ++ [act]) (by simp [split])

inductive Stepped (rt : Runtime) : Pass → StockDb → Pass → StockDb → Prop where
  | ends (p : Pass) (db : StockDb) (answer : Except Failure (List Drift)) :
      Stepped rt p db (.done answer) db
  | moves (p : Pass) (db : StockDb) (locs : List StockLocation) (drifts : List Drift) :
      Stepped rt p db (.level locs drifts) db
  | reads {loc : StockLocation} {level : StockLevel} {rest : List StockLocation}
      {drifts : List Drift} {db : StockDb} (row : db.stockLevels loc = some level) :
      Stepped rt (.level (loc :: rest) drifts) db (.sum loc level rest drifts) db
  | differs {loc : StockLocation} {level : StockLevel} {rest : List StockLocation}
      {drifts : List Drift} {db : StockDb} {reasons : List ReasonSum}
      (sums : sumDeltasByReason rt db loc = .ok reasons)
      (found : (drift loc level (deriveBuckets reasons)).found = true) :
      Stepped rt (.sum loc level rest drifts) db
        (.lock loc (drift loc level (deriveBuckets reasons)) rest drifts) db
  | locks {loc : StockLocation} {d : Drift} {rest : List StockLocation} {drifts : List Drift}
      {db : StockDb} : Stepped rt (.lock loc d rest drifts) db (.level rest (drifts ++ [d]))
        (setAuditLock loc true db)

theorem step_stepped (rt : Runtime) (fault : Bool) (p : Pass) (db : StockDb) :
    Stepped rt p db (p.step rt fault db).1 (p.step rt fault db).2 := by
  cases fault with
  | true =>
    match p with
    | .list => exact .ends _ _ _
    | .level [] drifts => exact .ends _ _ _
    | .level (loc :: rest) drifts => exact .moves _ _ _ _
    | .sum loc level rest drifts => exact .ends _ _ _
    | .lock loc d rest drifts => exact .ends _ _ _
    | .done answer => exact .ends _ _ _
  | false =>
    match p with
    | .list => exact .moves _ _ _ _
    | .level [] drifts => exact .ends _ _ _
    | .level (loc :: rest) drifts =>
      simp only [Pass.step, Bool.false_eq_true, if_false]
      split
      · exact .moves _ _ _ _
      · rename_i level row
        exact .reads row
    | .sum loc level rest drifts =>
      simp only [Pass.step, Bool.false_eq_true, if_false]
      split
      · exact .ends _ _ _
      · rename_i reasons sums
        split
        · rename_i found
          exact .differs sums found
        · exact .moves _ _ _ _
    | .lock loc d rest drifts => exact .locks
    | .done answer => exact .ends _ _ _

def Locked (db : StockDb) (loc : StockLocation) : Prop :=
  ∃ level, db.stockLevels loc = some level ∧ level.isLockedForAudit = true

theorem locked_setLevel_of_ne {target : StockLocation} {level : StockLevel} (other : loc ≠ target) :
    Locked (db.setLevel target level) loc ↔ Locked db loc := by
  unfold Locked
  rw [setLevel_of_ne db level other]

theorem locked_setLevel {level : StockLevel} :
    Locked (db.setLevel loc level) loc ↔ level.isLockedForAudit = true := by
  unfold Locked
  rw [setLevel_self]
  simp

theorem setAuditLock_locked (target : StockLocation) (locked : Locked db loc) :
    Locked (setAuditLock target true db) loc := by
  unfold setAuditLock
  cases row : db.stockLevels target with
  | none => exact locked
  | some level =>
    by_cases same : loc = target
    · subst same
      exact locked_setLevel.2 rfl
    · exact (locked_setLevel_of_ne same).2 locked

theorem setAuditLock_other {target : StockLocation} (other : loc ≠ target) :
    Locked (setAuditLock target true db) loc ↔ Locked db loc := by
  unfold setAuditLock
  cases row : db.stockLevels target with
  | none => rfl
  | some level => exact locked_setLevel_of_ne other

theorem movement_flag (moves : call.movement = some m) (level : StockLevel) (q : Int32) :
    (m.level level q).isLockedForAudit = level.isLockedForAudit := by
  cases call with
  | adjustStock req => simp [StockCall.movement] at moves
  | unlockStockForAudit req => simp [StockCall.movement] at moves
  | reconcile => simp [StockCall.movement] at moves
  | _ =>
    cases moves
    rfl

theorem lineRun_locked {t : UUID} {o : String} {lines : List StockLine}
    (run : LineRun m t o lines db db')
    (flag : ∀ level q, (m.level level q).isLockedForAudit = level.isLockedForAudit) :
    Locked db' loc ↔ Locked db loc := by
  induction run with
  | nil db => rfl
  | skip row tail ih => exact ih
  | @move l rest db db' level row check fits tail ih =>
    rw [ih]
    by_cases here : lineLocation t l = loc
    · subst here
      unfold Locked
      rw [applyLine_self rfl, (find_some_iff.1 row).2]
      simp [flag]
    · unfold Locked
      rw [applyLine_other here]

theorem movement_locked (rt : Runtime) (moves : call.movement = some m) (db : StockDb)
    (loc : StockLocation) :
    Locked (call.apply rt db) loc ↔ Locked db loc := by
  rcases movement_cases rt call m moves db with ⟨-, same⟩ | ⟨-, t, o, msg, -, moved⟩
  · rw [same]
  · cases moved with
    | duplicate seen same => rw [same]
    | fresh unseen fits run =>
      rw [lineRun_locked run (movement_flag moves)]
      unfold Locked
      rw [claimKey_levels]

theorem adjust_locked (rt : Runtime) (req : AdjustStockRequest) (db : StockDb)
    (loc : StockLocation) :
    Locked ((StockCall.adjustStock req).apply rt db) loc ↔ Locked db loc := by
  rw [StockCall.apply]
  rcases adjust_cases rt req db with same | ⟨t, -, -, -, -, -, same⟩
  · rw [same]
  · rw [same]
    change Locked (StockDb.setLevel _ _ _) loc ↔ _
    by_cases here : loc = ⟨t, req.skuId, req.warehouseId⟩
    · subst here
      rw [locked_setLevel, claimKey_levels]
      unfold Locked upserted
      cases db.stockLevels ⟨t, req.skuId, req.warehouseId⟩ with
      | none => simp
      | some level => simp
    · rw [locked_setLevel_of_ne here]
      unfold Locked
      rw [claimKey_levels]

def Unlocks (rt : Runtime) (loc : StockLocation) (call : StockCall) (db : StockDb) : Prop :=
  (∃ req, call = .unlockStockForAudit req) ∧ call.Names rt loc ∧ call.succeeded rt db = true

theorem unlock_locked {rt : Runtime} {req : UnlockStockForAuditRequest}
    (kept : ¬Unlocks rt loc (.unlockStockForAudit req) db) (locked : Locked db loc) :
    Locked ((StockCall.unlockStockForAudit req).apply rt db) loc := by
  generalize result : unlockStockForAudit rt req db = r
  obtain ⟨answer, db'⟩ := r
  have applied : (StockCall.unlockStockForAudit req).apply rt db = db' := by
    rw [StockCall.apply, result]
  rw [applied]
  rcases tenantRpc_cases result with ⟨t, resp, parse, tx, rfl⟩ | ⟨e, -, rfl⟩
  · rcases unlockTx_ok tx with ⟨-, rfl⟩ | ⟨level, row, rfl, rfl⟩
    · exact locked
    · change Locked (StockDb.setLevel _ _ _) loc
      refine (locked_setLevel_of_ne fun here => kept ⟨⟨req, rfl⟩, ?_, ?_⟩).2 locked
      · exact ⟨t, parse, by simp [StockCall.locations, here]⟩
      · rw [StockCall.succeeded, result]
        rfl
  · exact locked

theorem apply_locked {rt : Runtime} (kept : ¬Unlocks rt loc call db) (locked : Locked db loc) :
    Locked (call.apply rt db) loc := by
  rcases StockEffects.call_cases call with ⟨m, moves⟩ | ⟨req, rfl⟩ | ⟨req, rfl⟩ | rfl
  · exact (movement_locked rt moves db loc).2 locked
  · exact (adjust_locked rt req db loc).2 locked
  · exact unlock_locked kept locked
  · exact reconcileAll_preserves (fun db => Locked db loc)
      (fun target db held => setAuditLock_locked target held) rt _ locked

theorem stepped_locked {rt : Runtime} {q : Pass} (step : Stepped rt p db q db')
    (locked : Locked db loc) : Locked db' loc := by
  cases step with
  | locks => exact setAuditLock_locked _ locked
  | _ => exact locked

/-- A reservation at a row under audit does not go through, whatever else it asks for. -/
theorem reserve_refused {rt : Runtime} {req : ReserveStockRequest} (locked : Locked db loc)
    (named : (StockCall.reserveStock req).Names rt loc)
    (fresh : ¬(StockCall.reserveStock req).Repeats rt db) :
    (StockCall.reserveStock req).succeeded rt db = false := by
  obtain ⟨t, parse, member⟩ := named
  obtain ⟨l, hl, rfl⟩ := List.mem_map.1 member
  obtain ⟨level, row, flag⟩ := locked
  refine Bool.eq_false_iff.2 fun succeeded => ?_
  have free := reserveStock_unlocked parse (fun seen => fresh ⟨t, parse, seen⟩) succeeded
  rw [free l hl level row] at flag
  cases flag

/-- From any state in which the location is locked: until an unlock of it
commits the flag stays, and every reservation that names the location and
repeats no key is refused and leaves the tables as they were. -/
theorem audit_lock_holds (rt : Runtime) (s : Traffic) (loc : StockLocation)
    (locked : Locked s.db loc) (acts : List Act)
    (kept : ∀ before call after, acts = before ++ .call call :: after →
      ¬Unlocks rt loc call (run rt before s).db) :
    Locked (run rt acts s).db loc ∧
    ∀ req, (StockCall.reserveStock req).Names rt loc →
      ¬(StockCall.reserveStock req).Repeats rt (run rt acts s).db →
      (StockCall.reserveStock req).succeeded rt (run rt acts s).db = false ∧
        (reserveStock rt req (run rt acts s).db).2 = (run rt acts s).db := by
  have still : Locked (run rt acts s).db loc := by
    refine run_keep (P := fun s => Locked s.db loc) locked fun before act after split held => ?_
    cases act with
    | call call => exact apply_locked (kept before call after split) held
    | pass i fault => exact stepped_locked (step_stepped rt fault _ _) held
  refine ⟨still, fun req named fresh => ?_⟩
  have refused := reserve_refused still named fresh
  refine ⟨refused, ?_⟩
  rcases movement_cases rt (.reserveStock req) _ rfl (run rt acts s).db with
    ⟨-, same⟩ | ⟨succeeded, -⟩
  · exact same
  · rw [succeeded] at refused
    cases refused

/-- The requests that may commit while a pass is under way. -/
def Ordinary : StockCall → Prop
  | .adjustStock _ => True
  | .reserveStock _ => True
  | .confirmStockAllocation _ => True
  | .fulfillStock _ => True
  | _ => False

theorem ordinary_locked (rt : Runtime) (ordinary : Ordinary call) (db : StockDb)
    (loc : StockLocation) : Locked (call.apply rt db) loc ↔ Locked db loc := by
  cases call with
  | adjustStock req => exact adjust_locked rt req db loc
  | reserveStock req => exact movement_locked rt rfl db loc
  | confirmStockAllocation req => exact movement_locked rt rfl db loc
  | fulfillStock req => exact movement_locked rt rfl db loc
  | releaseStock req => cases ordinary
  | unlockStockForAudit req => cases ordinary
  | reconcile => cases ordinary

theorem held_congr (same : (db'.stockLevels loc).map buckets = (db.stockLevels loc).map buckets) :
    held db' loc = held db loc := by
  unfold held
  rw [same]

/-- What a pass knows of the location: the level it has read is still the row's,
and it is not about to lock it. -/
structure Calm (loc : StockLocation) (db : StockDb) (p : Pass) : Prop where
  level : ∀ found rest drifts, p = .sum loc found rest drifts → buckets found = held db loc
  free : ∀ d rest drifts, p ≠ .lock loc d rest drifts

theorem Calm.congr (calm : Calm loc db p) (same : held db' loc = held db loc) : Calm loc db' p where
  level found rest drifts at_ := (calm.level found rest drifts at_).trans same.symm
  free := calm.free

theorem calm_idle (locs : List StockLocation) (drifts : List Drift) :
    Calm loc db (.level locs drifts) where
  level := nofun
  free := nofun

/-- A statement of a pass changes no bucket, and it locks the location only if
that was its next statement. -/
theorem stepped_calm {rt : Runtime} {q : Pass} (step : Stepped rt p db q db')
    (healthy : held db loc = derivedAt db loc) (calm : Calm loc db p) :
    Calm loc db' q ∧ held db' loc = held db loc ∧ (Locked db' loc ↔ Locked db loc) := by
  cases step with
  | ends p db answer =>
    refine ⟨⟨fun _ _ _ at_ => ?_, fun _ _ _ at_ => ?_⟩, rfl, .rfl⟩
    · cases at_
    · cases at_
  | moves p db locs drifts => exact ⟨calm_idle locs drifts, rfl, .rfl⟩
  | @reads target level rest drifts db row =>
    refine ⟨⟨fun found more others at_ => ?_, fun _ _ _ at_ => ?_⟩, rfl, .rfl⟩
    · cases at_
      simp [held, row]
    · cases at_
  | @differs target level rest drifts db reasons sums found =>
    refine ⟨⟨fun _ _ _ at_ => ?_, fun d more others at_ => ?_⟩, rfl, .rfl⟩
    · cases at_
    · cases at_
      have agree := drift_agrees sums (healthy.symm.trans (calm.level level rest drifts rfl).symm)
      rw [agree] at found
      cases found
  | @locks target d rest drifts db =>
    have other : loc ≠ target := fun here => calm.free d rest drifts (by rw [here])
    exact ⟨calm_idle rest _, held_congr (setAuditLock_buckets target loc true db),
      setAuditLock_other other⟩

def Watched (loc : StockLocation) (flag : Prop) (s : Traffic) : Prop :=
  (∀ i, Calm loc s.db (s.passes i)) ∧ (Locked s.db loc ↔ flag)

theorem call_watched {rt : Runtime} {flag : Prop} (ordinary : Ordinary call)
    (apart : ∀ i level rest drifts, s.passes i = .sum loc level rest drifts →
      call.Names rt loc → call.apply rt s.db = s.db) (watched : Watched loc flag s) :
    Watched loc flag (Act.apply rt (.call call) s) := by
  obtain ⟨calm, same⟩ := watched
  refine ⟨fun i => ⟨fun found rest drifts at_ => ?_, (calm i).free⟩,
    (ordinary_locked rt ordinary s.db loc).trans same⟩
  rw [(calm i).level found rest drifts at_]
  by_cases named : call.Names rt loc
  · exact (congrArg (held · loc) (apart i found rest drifts at_ named)).symm
  · exact (held_congr (apply_other rt call s.db loc named)).symm

theorem pass_watched {rt : Runtime} {flag : Prop} {j : ℕ} {fault : Bool}
    (healthy : held s.db loc = derivedAt s.db loc) (watched : Watched loc flag s) :
    Watched loc flag (Act.apply rt (.pass j fault) s) := by
  obtain ⟨calm, same⟩ := watched
  obtain ⟨next, level, locks⟩ :=
    stepped_calm (step_stepped rt fault (s.passes j) s.db) healthy (calm j)
  refine ⟨fun i => ?_, locks.trans same⟩
  by_cases own : i = j
  · subst own
    simpa [Act.apply] using next
  · have others : (Act.apply rt (.pass j fault) s).passes i = s.passes i :=
      Function.update_of_ne own _ _
    rw [others]
    exact (calm i).congr level

/-- While the row agrees with its events in every committed state, and no
request that names the location commits between a pass's reading of its level
and of its sums, no pass locks it. -/
theorem healthy_row_stays_free (rt : Runtime) (start : StockDb) (loc : StockLocation)
    (acts : List Act) (ordinary : ∀ call, .call call ∈ acts → Ordinary call)
    (healthy : ∀ before, before <+: acts → held (run rt before (.quiet start)).db loc =
      derivedAt (run rt before (.quiet start)).db loc)
    (apart : ∀ before call after, acts = before ++ .call call :: after →
      ∀ i level rest drifts, (run rt before (.quiet start)).passes i = .sum loc level rest drifts →
        call.Names rt loc → call.apply rt (run rt before (.quiet start)).db =
          (run rt before (.quiet start)).db) :
    (∀ i d rest drifts, (run rt acts (.quiet start)).passes i ≠ .lock loc d rest drifts) ∧
      (Locked (run rt acts (.quiet start)).db loc ↔ Locked start loc) := by
  have kept : Watched loc (Locked start loc) (run rt acts (.quiet start)) := by
    refine run_keep ⟨fun i => ⟨nofun, nofun⟩, .rfl⟩ fun before act after split watched => ?_
    cases act with
    | call call =>
      have member : Act.call call ∈ acts := by simp [split]
      exact call_watched (ordinary call member) (apart before call after split) watched
    | pass j fault => exact pass_watched (healthy before ⟨_, split.symm⟩) watched
  exact ⟨fun i => (kept.1 i).free, kept.2⟩

def sampleHold : StockCall :=
  .reserveStock ⟨sampleTenant.text, "ord-1", "ord-1:reserve", [⟨"SKU", "W1", 2⟩]⟩

def orderlyActs : List Act :=
  [.pass 0 false, .call sampleHold, .pass 0 false, .pass 0 false, .pass 0 false]

theorem sampleTables_unlocked : ¬Locked sampleTables sampleLocation := by
  rintro ⟨level, row, flag⟩
  have free : (sampleTables.stockLevels sampleLocation).map (·.isLockedForAudit) = some false := by
    decide
  rw [row, Option.map_some, flag] at free
  cases free

theorem sampleHold_succeeds : sampleHold.succeeded (reference []) sampleTables = true := by
  rw [sampleTables, reference_recognizing]
  decide +kernel

theorem healthy_row_stays_free_between : sampleHold.succeeded (reference []) sampleTables = true ∧
    ¬Locked (run (reference []) orderlyActs (.quiet sampleTables)).db sampleLocation := by
  have agree : ∀ before ∈ orderlyActs.inits,
      held (run (reference []) before (.quiet sampleTables)).db sampleLocation =
        derivedAt (run (reference []) before (.quiet sampleTables)).db sampleLocation := by
    rw [sampleTables, reference_recognizing]
    decide +kernel
  have first : ∀ before call after, orderlyActs = before ++ .call call :: after →
      before = [.pass 0 false] := by
    intro before call after split
    rcases before with _ | ⟨a, _ | ⟨b, more⟩⟩
    · simp [orderlyActs] at split
    · simp only [orderlyActs, List.cons_append, List.cons.injEq] at split
      rw [split.1]
    · have member : Act.call call ∈ more ++ .call call :: after := by simp
      simp only [orderlyActs, List.cons_append, List.cons.injEq] at split
      rw [← split.2.2] at member
      simp at member
  have free := (healthy_row_stays_free (reference []) sampleTables sampleLocation orderlyActs
    (by simp [orderlyActs, sampleHold, Ordinary])
    (fun before start => agree before ((List.mem_inits before orderlyActs).2 start))
    (fun before call after split i level rest drifts at_ => by
      rw [first before call after split] at at_
      by_cases zero : i = 0
      · subst zero
        simp [run, Act.apply, Traffic.quiet, Pass.step] at at_
      · simp [run, Act.apply, Traffic.quiet, zero] at at_)).2
  exact ⟨sampleHold_succeeds, fun locked => sampleTables_unlocked (free.1 locked)⟩

def racedActs : List Act :=
  [.pass 0 false, .pass 0 false, .call sampleHold, .pass 0 false, .pass 0 false]

theorem racedActs_locked :
    Locked (run (reference []) racedActs (.quiet sampleTables)).db sampleLocation := by
  have row : (run (reference []) racedActs (.quiet sampleTables)).db.stockLevels sampleLocation =
      some ⟨3, 2, 0, true⟩ := by
    rw [sampleTables, reference_recognizing]
    decide +kernel
  exact ⟨⟨3, 2, 0, true⟩, row, rfl⟩

theorem hold_between_reads_locked : (∀ call, .call call ∈ racedActs → Ordinary call) ∧
    (∀ before, before <+: racedActs →
      held (run (reference []) before (.quiet sampleTables)).db sampleLocation =
        derivedAt (run (reference []) before (.quiet sampleTables)).db sampleLocation) ∧
    ¬Locked sampleTables sampleLocation ∧
    Locked (run (reference []) racedActs (.quiet sampleTables)).db sampleLocation := by
  refine ⟨by simp [racedActs, sampleHold, Ordinary], ?_, sampleTables_unlocked, racedActs_locked⟩
  intro before first
  have agree : ∀ before ∈ racedActs.inits,
      held (run (reference []) before (.quiet sampleTables)).db sampleLocation =
        derivedAt (run (reference []) before (.quiet sampleTables)).db sampleLocation := by
    rw [sampleTables, reference_recognizing]
    decide +kernel
  exact agree before ((List.mem_inits before racedActs).2 first)

theorem audit_lock_holds_raced : ∃ req : ReserveStockRequest,
    (StockCall.reserveStock req).succeeded (reference []) sampleTables = true ∧
    (StockCall.reserveStock req).succeeded (reference []) (run (reference [])
      [.call (.adjustStock (sampleAdjust 2))]
      (run (reference []) racedActs (.quiet sampleTables))).db = false := by
  have held := (audit_lock_holds (reference []) _ sampleLocation racedActs_locked
    [.call (.adjustStock (sampleAdjust 2))] (by
      rintro before call after split ⟨⟨req, rfl⟩, -⟩
      have member : Act.call (.unlockStockForAudit req) ∈
          before ++ .call (.unlockStockForAudit req) :: after := by simp
      rw [← split] at member
      simp at member)).2
  refine ⟨⟨sampleTenant.text, "ord-2", "", [⟨"SKU", "W1", 1⟩]⟩, ?_, (held _ ?_ ?_).1⟩
  · rw [sampleTables, reference_recognizing]
    decide +kernel
  · exact ⟨sampleTenant, by decide, by decide⟩
  · rintro ⟨t, -, seen⟩
    exact seen.1 rfl

end Taper.ReconcilePass
