import Taper.StackSteps
import Taper.StockSteps

set_option autoImplicit false

/-!
# The stock database along a run

What the requests to the stock service do there, as seen by the handler that
sent them.
-/
namespace Taper.StockRuns
open Messages Platform StockTables StockHandlers StockSteps ReservationTables
open ServiceStack StackSteps

theorem lineRun_keys {m : Movement} {t : UUID} {o : String} {lines : List StockLine}
    {db db' : StockDb} (run : LineRun m t o lines db db') :
    db'.processedKeys = db.processedKeys := by
  induction run with
  | nil db => rfl
  | skip row tail ih => exact ih
  | move row check fits tail ih => exact ih

theorem claimKey_self (rt : Runtime) (t : UUID) {key : String} (msg : Message) (db : StockDb)
    (h : key ≠ "") : Seen (claimKey rt t key msg db) t key := by
  unfold Seen claimKey
  rw [if_neg h]
  exact ⟨h, by simp [StockDb.setKey]⟩

theorem seen_stored {db : StockDb} {t : UUID} {key key' : String}
    (same : column 255 key' = column 255 key) : Seen db t key' ↔ Seen db t key := by
  have empty : key' = "" ↔ key = "" := by
    rw [← column_eq_empty (n := 255) (by decide), same, column_eq_empty (by decide)]
  unfold Seen
  rw [same, Ne, empty]

theorem claimKey_other (rt : Runtime) {t u : UUID} {key key' : String} (msg : Message)
    (db : StockDb) (h : u ≠ t ∨ column 255 key' ≠ column 255 key) :
    Seen (claimKey rt t key msg db) u key' ↔ Seen db u key' := by
  unfold Seen claimKey
  split
  · rfl
  · unfold StockDb.setKey
    by_cases same : u = t
    · subst same
      have differs : column 255 key' ≠ column 255 key := h.resolve_left fun ne => ne rfl
      simp [Function.update_of_ne differs]
    · simp [Function.update_of_ne same]

theorem claimKey_mono (rt : Runtime) {t u : UUID} {key key' : String} (msg : Message)
    {db : StockDb} (h : Seen db u key') : Seen (claimKey rt t key msg db) u key' := by
  by_cases same : u = t ∧ column 255 key' = column 255 key
  · obtain ⟨rfl, same⟩ := same
    have keyed : key ≠ "" := ((seen_stored same).1 h).1
    exact (seen_stored same).2 (claimKey_self rt u msg db keyed)
  · exact (claimKey_other rt msg db (not_and_or.1 same)).2 h

theorem seen_congr {db db' : StockDb} (same : db'.processedKeys = db.processedKeys) (t : UUID)
    (key : String) : Seen db' t key ↔ Seen db t key := by
  unfold Seen
  rw [same]

section Moved

variable {rt : Runtime} {m : Movement} {t u : UUID} {o key key' : String} {msg : Message}
  {lines : List StockLine} {db db' : StockDb}

theorem moved_seen (moved : Moved rt m t o key msg lines db db') (h : Seen db u key') :
    Seen db' u key' := by
  cases moved with
  | duplicate seen same => exact same ▸ h
  | fresh unseen fits run => exact (seen_congr (lineRun_keys run) u key').2 (claimKey_mono rt msg h)

theorem moved_self (moved : Moved rt m t o key msg lines db db') (h : key ≠ "") :
    Seen db' t key := by
  cases moved with
  | duplicate seen same => exact same ▸ seen
  | fresh unseen fits run =>
    exact (seen_congr (lineRun_keys run) t key).2 (claimKey_self rt t msg db h)

theorem moved_unseen (moved : Moved rt m t o key msg lines db db')
    (other : u ≠ t ∨ column 255 key' ≠ column 255 key) (h : ¬Seen db u key') :
    ¬Seen db' u key' := by
  cases moved with
  | duplicate seen same => exact same ▸ h
  | fresh unseen fits run =>
    rw [seen_congr (lineRun_keys run) u key', claimKey_other rt msg db other]
    exact h

end Moved

variable {rt : Runtime} {me : ℕ} {op : Op} {c : Choice} {s s' : Stack} {r : Resp op}

def Stack.withStock (s : Stack) (db : StockDb) : Stack := { s with stock := db }

theorem exec_reserveStock {req : ReserveStockRequest} {answer : Except Failure ReserveStockResponse}
    (h : exec rt me (.reserveStock req) c s = some (answer, s')) :
    (∃ t db, rt.scan req.tenantId = some t ∧ answer = .ok ⟨true, []⟩ ∧
      Moved rt (reserveMove req.orderId) t req.orderId req.idempotencyKey (.reserveStock req)
        req.lines s.stock db ∧ s' = Stack.withStock s db) ∨
    ((∀ resp, answer = .ok resp → resp.success = false) ∧ s' = s) := by
  rcases stockCall_some h with ⟨-, rfl, rfl⟩ | ⟨-, ⟨e, rfl⟩, rfl⟩
  · generalize result : reserveStock rt req s.stock = out
    obtain ⟨answer, db⟩ := out
    rcases reserveStock_cases result with ⟨t, parse, rfl, moved⟩ | ⟨⟨failed, rfl⟩, rfl⟩ |
        ⟨⟨e, rfl⟩, rfl⟩
    · exact .inl ⟨t, db, parse, rfl, moved, rfl⟩
    · refine .inr ⟨fun resp eq => ?_, rfl⟩
      cases eq
      rfl
    · exact .inr ⟨fun resp eq => (by cases eq), rfl⟩
  · exact .inr ⟨fun resp eq => (by cases eq), rfl⟩

theorem stockCall_moved {α : Type} {fn : UUID → StockTx α} {tenantId context o key : String}
    {m : Movement} {msg : Message} {lines : List StockLine} {answer : Except Failure α}
    (moves : ∀ {t resp db db'}, (fn t).run db = .ok (resp, db') →
      Moved rt m t o key msg lines db db')
    (h : stockCall (tenantRpc rt tenantId context fn) c s = some (answer, s')) :
    (∃ t resp db, rt.scan tenantId = some t ∧ answer = .ok resp ∧
      Moved rt m t o key msg lines s.stock db ∧ s' = Stack.withStock s db) ∨
    ((∃ e, answer = .error e) ∧ s' = s) := by
  rcases stockCall_some h with ⟨-, rfl, rfl⟩ | ⟨-, error, rfl⟩
  · generalize result : tenantRpc rt tenantId context fn s.stock = out
    obtain ⟨answer, db⟩ := out
    rcases tenantRpc_cases result with ⟨t, resp, parse, run, rfl⟩ | ⟨e, rfl, rfl⟩
    · exact .inl ⟨t, resp, db, parse, rfl, moves run, rfl⟩
    · exact .inr ⟨⟨e, rfl⟩, rfl⟩
  · exact .inr ⟨error, rfl⟩

theorem exec_releaseStock {req : ReleaseStockRequest} {rows : List Reservation}
    {answer : Except Failure ReleaseStockResponse}
    (h : exec rt me (.releaseStock req rows) c s = some (answer, s')) :
    (∃ t resp db, rt.scan req.tenantId = some t ∧ answer = .ok resp ∧
      Moved rt (releaseMove req.orderId req.reason) t req.orderId req.idempotencyKey
        (.releaseStock req) req.lines s.stock db ∧ s' = Stack.withStock s db) ∨
    ((∃ e, answer = .error e) ∧ s' = s) := stockCall_moved (fun run => (releaseTx_ok run).2) h

theorem exec_confirmStock {req : ConfirmStockAllocationRequest}
    {answer : Except Failure ConfirmStockAllocationResponse}
    (h : exec rt me (.confirmStockAllocation req) c s = some (answer, s')) :
    (∃ t resp db, rt.scan req.tenantId = some t ∧ answer = .ok resp ∧
      Moved rt confirmMove t req.orderId req.idempotencyKey (.confirmStockAllocation req)
        req.lines s.stock db ∧ s' = Stack.withStock s db) ∨
    ((∃ e, answer = .error e) ∧ s' = s) := stockCall_moved (fun run => (confirmTx_ok run).2) h

theorem exec_seen (h : exec rt me op c s = some (r, s')) {t : UUID} {key : String}
    (seen : Seen s.stock t key) : Seen s'.stock t key := by
  by_cases quiet : writesStock op = false
  · rw [(exec_frame h).stock quiet]
    exact seen
  · cases op with
    | reserveStock req =>
      rcases exec_reserveStock h with ⟨u, db, -, -, moved, rfl⟩ | ⟨-, rfl⟩
      · exact moved_seen moved seen
      · exact seen
    | releaseStock req rows =>
      rcases exec_releaseStock h with ⟨u, resp, db, -, -, moved, rfl⟩ | ⟨-, rfl⟩
      · exact moved_seen moved seen
      · exact seen
    | confirmStockAllocation req =>
      rcases exec_confirmStock h with ⟨u, resp, db, -, -, moved, rfl⟩ | ⟨-, rfl⟩
      · exact moved_seen moved seen
      · exact seen
    | _ => exact absurd rfl quiet

end Taper.StockRuns
