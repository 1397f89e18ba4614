import Taper.Replay
import Taper.StockEffects

set_option autoImplicit false

/-!
# Stock requests that are sent again

Under a recorded key every handler leaves the tables alone, so the stock service
is a machine that remembers what it has committed.
-/
namespace Taper.StockReplays
open Messages Platform StockTables StockHandlers StockSteps StockReconcile StockConservation
open StockRuns StockEffects

deriving instance DecidableEq for StockCall

inductive StockAnswer where
  | adjustStock (answer : Except Failure AdjustStockResponse)
  | reserveStock (answer : Except Failure ReserveStockResponse)
  | releaseStock (answer : Except Failure ReleaseStockResponse)
  | confirmStockAllocation (answer : Except Failure ConfirmStockAllocationResponse)
  | fulfillStock (answer : Except Failure FulfillStockResponse)
  | unlockStockForAudit (answer : Except Failure UnlockStockForAuditResponse)
  | reconcile (answer : Except Failure (List Drift))

def answer (rt : Runtime) : StockCall → StockDb → StockAnswer
  | .adjustStock req, db => .adjustStock (StockHandlers.adjustStock rt req db).1
  | .reserveStock req, db => .reserveStock (StockHandlers.reserveStock rt req db).1
  | .releaseStock req, db => .releaseStock (StockHandlers.releaseStock rt req db).1
  | .confirmStockAllocation req, db =>
    .confirmStockAllocation (StockHandlers.confirmStockAllocation rt req db).1
  | .fulfillStock req, db => .fulfillStock (StockHandlers.fulfillStock rt req db).1
  | .unlockStockForAudit req, db =>
    .unlockStockForAudit (StockHandlers.unlockStockForAudit rt req db).1
  | .reconcile, db => .reconcile (StockReconcile.reconcile rt db).1

def step (rt : Runtime) (call : StockCall) (db : StockDb) : StockAnswer × StockDb :=
  (answer rt call db, call.apply rt db)

def commits (rt : Runtime) (call : StockCall) (db : StockDb) : Bool :=
  call.idempotencyKey ≠ "" && call.succeeded rt db

section Calls

variable {rt : Runtime} {call : StockCall} {db : StockDb}

/-- An adjustment fails, repeats a key or adds its delta. -/
theorem adjustStock_cases (rt : Runtime) (req : AdjustStockRequest) (db : StockDb) :
    ((StockCall.adjustStock req).succeeded rt db = false ∧
      (StockCall.adjustStock req).apply rt db = db) ∨
    ∃ t, rt.scan req.tenantId = some t ∧
      ((Seen db t req.idempotencyKey ∧ (StockCall.adjustStock req).apply rt db = db) ∨
      (¬Seen db t req.idempotencyKey ∧ (StockCall.adjustStock req).apply rt db =
        applyAdjust t req ⟨t, req.skuId, req.warehouseId⟩
          (claimKey rt t req.idempotencyKey (.adjustStock req) db))) := by
  simp only [StockCall.apply, StockCall.succeeded]
  generalize result : StockHandlers.adjustStock rt req db = r
  obtain ⟨res, db'⟩ := r
  rcases tenantRpc_cases result with ⟨t, resp, parse, run, rfl⟩ | ⟨e, rfl, rfl⟩
  · rcases adjustTx_ok run with ⟨seen, rfl⟩ | ⟨unseen, -, -, -, rfl⟩
    · exact .inr ⟨t, parse, .inl ⟨seen, rfl⟩⟩
    · exact .inr ⟨t, parse, .inr ⟨unseen, rfl⟩⟩
  · exact .inl ⟨rfl, rfl⟩

theorem apply_seen {u : UUID} {key : String} (seen : Seen db u key) :
    Seen (call.apply rt db) u key :=
  effects_keep (fun _ _ effect seen => effect.seen seen) (apply_effects rt call db) seen

theorem commits_repeats (commit : commits rt call db = true) :
    call.Repeats rt (call.apply rt db) := by
  simp only [commits, Bool.and_eq_true, decide_eq_true_eq] at commit
  obtain ⟨key, succeeded⟩ := commit
  rcases call_cases call with ⟨m, moves⟩ | ⟨req, rfl⟩ | ⟨req, rfl⟩ | rfl
  · rcases movement_cases rt call m moves db with ⟨failed, -⟩ | ⟨-, t, o, msg, parse, moved⟩
    · rw [succeeded] at failed
      cases failed
    · exact ⟨t, parse, moved_self moved key⟩
  · rcases adjustStock_cases rt req db with ⟨failed, -⟩ | ⟨t, parse, ⟨seen, same⟩ | ⟨-, same⟩⟩
    · rw [succeeded] at failed
      cases failed
    · refine ⟨t, parse, ?_⟩
      rw [same]
      exact seen
    · refine ⟨t, parse, ?_⟩
      rw [same]
      exact claimKey_self rt t _ db key
  · exact absurd rfl key
  · exact absurd rfl key

theorem repeats_apply (repeats : call.Repeats rt db) : call.apply rt db = db := by
  obtain ⟨t, parse, seen⟩ := repeats
  rcases call_cases call with ⟨m, moves⟩ | ⟨req, rfl⟩ | ⟨req, rfl⟩ | rfl
  · rcases movement_cases rt call m moves db with ⟨-, same⟩ | ⟨-, u, o, msg, parse', moved⟩
    · exact same
    · cases parse'.symm.trans parse
      cases moved with
      | duplicate _ same => exact same
      | fresh unseen _ _ => exact absurd seen unseen
  · rcases adjustStock_cases rt req db with ⟨-, same⟩ | ⟨u, parse', ⟨-, same⟩ | ⟨unseen, -⟩⟩
    · exact same
    · exact same
    · cases parse'.symm.trans parse
      exact absurd seen unseen
  · exact absurd rfl seen.1
  · exact absurd rfl seen.1

/-- Unlocking fails only where there is no row. -/
theorem unlock_failed {t : UUID} {req : UnlockStockForAuditRequest} {db' : StockDb}
    {resp : UnlockStockForAuditResponse} (run : (unlockTx t req).run db = .ok (resp, db'))
    (failed : resp.success = false) : db' = db := by
  unfold unlockTx at run
  obtain ⟨found, w, get, body⟩ := Transaction.Tx.bind_ok_iff.1 run
  obtain ⟨rfl, rfl⟩ := getLevel_ok get
  cases row : w.find ⟨t, req.skuId, req.warehouseId⟩ with
  | none =>
    simp only [row, Transaction.Tx.pure_run, Except.ok.injEq, Prod.mk.injEq] at body
    exact body.2.symm
  | some level =>
    simp only [row] at body
    obtain ⟨a, v, -, body⟩ := Transaction.Tx.bind_ok_iff.1 body
    obtain ⟨n, y, -, body⟩ := Transaction.Tx.bind_ok_iff.1 body
    simp only [Transaction.Tx.pure_run, Except.ok.injEq, Prod.mk.injEq] at body
    rw [← body.1] at failed
    cases failed

theorem failed_apply (request : call ≠ .reconcile) (failed : call.succeeded rt db = false) :
    call.apply rt db = db := by
  rcases call_cases call with ⟨m, moves⟩ | ⟨req, rfl⟩ | ⟨req, rfl⟩ | rfl
  · rcases movement_cases rt call m moves db with ⟨-, same⟩ | ⟨succeeded, -⟩
    · exact same
    · rw [failed] at succeeded
      cases succeeded
  · simp only [StockCall.succeeded, StockCall.apply] at failed ⊢
    generalize result : StockHandlers.adjustStock rt req db = r at failed ⊢
    obtain ⟨res, db'⟩ := r
    rcases tenantRpc_cases result with ⟨t, resp, parse, run, rfl⟩ | ⟨e, rfl, rfl⟩
    · rw [adjustTx, keyedTx_run] at run
      split_ifs at run with fits seen
      · exact adjustAgain_ok run
      · have success := (adjustOnce_ok run).2.2.2.1
        simp [Except.toOption, success] at failed
    · rfl
  · simp only [StockCall.succeeded, StockCall.apply] at failed ⊢
    generalize result : StockHandlers.unlockStockForAudit rt req db = r at failed ⊢
    obtain ⟨res, db'⟩ := r
    rcases tenantRpc_cases result with ⟨t, resp, parse, run, rfl⟩ | ⟨e, rfl, rfl⟩
    · refine unlock_failed run ?_
      simpa [Except.toOption] using failed
    · rfl
  · exact absurd rfl request

theorem remembers (rt : Runtime) :
    Replay.Remembers (step rt) (commits rt) (fun call db => call.Repeats rt db) where
  committed _ _ commit := commits_repeats commit
  kept := by
    rintro call other db ⟨t, parse, seen⟩
    exact ⟨t, parse, apply_seen seen⟩
  silent _ _ repeats := repeats_apply repeats

end Calls

/-- Leaving out what is sent again after it was committed changes neither the
tables at the end nor any other answer, and a request that fails leaves the
tables as they are. -/
theorem replays_invisible (rt : Runtime) (calls : List StockCall) (db : StockDb) :
    runCalls rt (Replay.unmarked (Replay.resends (step rt) (commits rt) [] calls db) calls) db =
      runCalls rt calls db ∧
    Replay.answers (step rt)
        (Replay.unmarked (Replay.resends (step rt) (commits rt) [] calls db) calls) db =
      Replay.unmarked (Replay.resends (step rt) (commits rt) [] calls db)
        (Replay.answers (step rt) calls db) ∧
    ∀ before call after, calls = before ++ call :: after → call ≠ .reconcile →
      call.succeeded rt (runCalls rt before db) = false →
      runCalls rt (before ++ [call]) db = runCalls rt before db := by
  have none_ : ∀ call ∈ ([] : List StockCall), call.Repeats rt db := fun call member => by
    cases member
  refine ⟨(remembers rt).run_unmarked calls none_, (remembers rt).answers_unmarked calls none_, ?_⟩
  intro before call after _ request failed
  have last : runCalls rt (before ++ [call]) db = call.apply rt (runCalls rt before db) := by
    simp [runCalls]
  rw [last]
  exact failed_apply request failed

end Taper.StockReplays
