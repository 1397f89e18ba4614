import Taper.SagaPhases
import Taper.ServiceRules

set_option autoImplicit false

/-!
# Where the units of a failed order go

Calls of the saga may be lost before or after they took effect. The units of an
order that was given up are then still reserved, until the sweeper returns them
or a resumed saga allocates them or gives them back.
-/
namespace Taper.UnitAccounting
open Messages Platform Ledger StockTables StockHandlers StockConservation StockForward
open StockRuns ReservationTables ReservationSteps ReservationRuns OrderTables Program ServiceStack
open Services StackSteps HandlerRuns OrderRows OrderPhases SagaPhases
open StockSteps (Seen Moved)
open ServiceRules (Walks Moves SagaFine)

/-- The CHECK constraint on reserved quantities. -/
def Positive (db : ReservationDb) : Prop := ∀ row ∈ db.reservations, 0 < row.quantity.toInt

structure Done (x : Order) (s : Stack) : Prop where
  checked : Checked s.stock
  seen : Seen s.stock x.tenant (reserveKey x.key)
  empty : ∀ loc, (held s.stock loc).2.1 = 0
  kept : ∀ loc, (held s.stock loc).1 + (held s.stock loc).2.2 = (x.base loc).1
  filed : ∃ state, Filed x state s.order
  positive : Positive s.reservation

section Steps

variable {rt : Runtime} {me : ℕ} {op : Op} {c : Choice} {s s' : Stack} {r : Resp op} {x : Order}

theorem exec_positive (h : exec rt me op c s = some (r, s')) (positive : Positive s.reservation) :
    Positive s'.reservation := by
  cases exec_rows h with
  | same rows next =>
    unfold Positive
    rw [rows]
    exact positive
  | marked ids status by_ new rows next =>
    intro row member
    rw [rows] at member
    obtain ⟨old, here, rfl⟩ := List.mem_map.1 member
    split
    · exact positive old here
    · exact positive old here
  | inserted u req expiresAt by_ new recorded rows next fits =>
    subst by_
    intro row member
    rw [rows] at member
    rcases List.mem_append.1 member with old | new
    · exact positive row old
    · have line := List.mem_map_of_mem (f := rowLine) new
      rw [newRows_lines, List.map_map] at line
      obtain ⟨it, asked, same⟩ := List.mem_map.1 line
      have quantity : it.quantity = row.quantity := congrArg StockLine.quantity same
      simp only [exec] at h
      split at h
      · cases h
      · rcases reservationTx_some h with ⟨first, db, rfl, run, rfl⟩ | ⟨-, rfl⟩
        · have fits := (insertReservations_ok_iff.1 run).2.2.1 it asked
          simp only [itemFits, Bool.and_eq_true, decide_eq_true_eq, Int32.lt_iff_toInt_lt] at fits
          rw [← quantity]
          exact fits.1.2
        · exact positive row (rows ▸ member)

def Own (rt : Runtime) (x : Order) : Op → Prop
  | .reserveStock req => req.idempotencyKey = reserveKey x.key ∧
    rt.scan req.tenantId = some x.tenant
  | .releaseStock req _ => ∀ l ∈ req.lines, 0 ≤ l.quantity.toInt
  | .confirmStockAllocation req => ∀ l ∈ req.lines, 0 ≤ l.quantity.toInt
  | .transition _ t o _ _ _ => t = x.tenant ∧ o = x.id
  | .recordTransaction _ t o _ => t = x.tenant ∧ o = x.id
  | .createOrderRow _ _ _ => False
  | _ => True

/-- What leaves the reserved bucket cannot leave it when it is empty. -/
theorem moved_unreserved {m : Movement} {d : Buckets} {t : UUID} {o key : String} {msg : Message}
    {lines : List StockLine} {db db' : StockDb} (along : Along m d) (leaves : d.2.1 = -1)
    (moved : Moved rt m t o key msg lines db db') (checked : Checked db)
    (nonneg : ∀ l ∈ lines, 0 ≤ l.quantity.toInt) (empty : ∀ loc, (held db loc).2.1 = 0) :
    held db' = held db := by
  funext loc
  rcases moved_effect along moved checked loc with same | effect
  · exact same
  · have least := (representable_held (moved_checked moved checked) loc).2.1.1
    have units : 0 ≤ quantityAt t loc lines := quantityAt_nonneg nonneg
    have before := empty loc
    rw [effect, Prod.snd_add, Prod.fst_add, Prod.smul_snd, Prod.smul_fst, leaves, before] at least
    have zero : quantityAt t loc lines = 0 := by
      simp only [smul_eq_mul] at least
      omega
    rw [effect, zero, zero_smul, add_zero]

theorem exec_stock_done (h : exec rt me op c s = some (r, s')) (own : Own rt x op)
    (done : Done x s) : Checked s'.stock ∧ held s'.stock = held s.stock := by
  by_cases quiet : writesStock op = false
  · rw [(exec_frame h).stock quiet]
    exact ⟨done.checked, rfl⟩
  · cases op with
    | reserveStock req =>
      rcases exec_reserveStock h with ⟨u, db, parse, -, moved, rfl⟩ | ⟨-, rfl⟩
      · cases parse.symm.trans own.2
        cases moved with
        | duplicate _ eq => exact ⟨eq ▸ done.checked, congrArg held eq⟩
        | fresh unseen _ _ =>
          rw [own.1] at unseen
          exact absurd done.seen unseen
      · exact ⟨done.checked, rfl⟩
    | releaseStock req rows =>
      rcases exec_releaseStock h with ⟨u, resp, db, -, -, moved, rfl⟩ | ⟨-, rfl⟩
      · exact ⟨moved_checked moved done.checked, moved_unreserved (releaseMove_along _ _) rfl moved
          done.checked own done.empty⟩
      · exact ⟨done.checked, rfl⟩
    | confirmStockAllocation req =>
      rcases exec_confirmStock h with ⟨u, resp, db, -, -, moved, rfl⟩ | ⟨-, rfl⟩
      · exact ⟨moved_checked moved done.checked, moved_unreserved confirmMove_along rfl moved
          done.checked own done.empty⟩
      · exact ⟨done.checked, rfl⟩
    | _ => exact absurd rfl quiet

theorem exec_filed (h : exec rt me op c s = some (r, s')) (own : Own rt x op)
    (filed : ∃ state, Filed x state s.order) : ∃ state, Filed x state s'.order := by
  obtain ⟨state, filed⟩ := filed
  by_cases quiet : writesOrder op = false
  · rw [(exec_frame h).order quiet]
    exact ⟨state, filed⟩
  · cases op with
    | transition tenantID t o next step error =>
      obtain ⟨rfl, rfl⟩ := own
      rcases filed_transition filed h with ⟨-, -, -, db, after, rfl⟩ | ⟨-, rfl⟩
      · exact ⟨next, after⟩
      · exact ⟨state, filed⟩
    | recordTransaction tenantID t o txn =>
      obtain ⟨rfl, rfl⟩ := own
      obtain ⟨db, after, rfl⟩ := filed_record filed h
      exact ⟨state, after⟩
    | createOrderRow t req total => exact own.elim
    | _ => exact absurd rfl quiet

theorem exec_done (h : exec rt me op c s = some (r, s')) (own : Own rt x op) (done : Done x s) :
    Done x s' := by
  obtain ⟨checked, levels⟩ := exec_stock_done h own done
  refine ⟨checked, exec_seen h done.seen, fun loc => ?_, fun loc => ?_,
    exec_filed h own done.filed, exec_positive h done.positive⟩
  · rw [levels]
    exact done.empty loc
  · rw [levels]
    exact done.kept loc

end Steps

variable {batch : Int32} {choices : List Choice}

section Done

def Ends {α : Type} (rt : Runtime) (adm : Op → Choice → Stack → Prop) (x : Order) (p : Code α) :
    Prop := ∀ s, Done x s → Reaches rt adm (fun _ => True) (fun _ t => Done x t) p s

variable {α β : Type} {rt : Runtime} {adm : Op → Choice → Stack → Prop} {x : Order}

theorem ends_ask {o : Op} (own : Own rt x o) : Ends rt adm x (ask o) := fun _ done =>
  reaches_last trivial fun _ _ _ _ run => exec_done run own done

theorem ends_walks : Walks (Own rt x) fun _ p => Ends rt adm x p where
  pure _ := fun _ done => done
  bind first rest := fun s done => reaches_then (first s done) fun a t done => rest a t done
  ask _ := ends_ask
  neutral op idle := by cases op <;> first | exact trivial | cases idle

theorem release_ends {req : ReleaseRequest} : Ends rt adm x (release rt req) := by
  unfold release
  split
  · exact ends_walks.pure _
  rename_i t _
  intro s done
  refine reaches_ask trivial fun c found u ok run => ?_
  have done' := exec_done run trivial done
  cases found with
  | error e =>
    cases e with
    | alreadyProcessed => exact done'
    | _ => exact done'
  | ok rows =>
    cases rows with
    | nil => exact done'
    | cons first rest =>
      have fetched := (beginRelease_rows run).1
      have nonneg : ∀ l ∈ (first :: rest).map rowLine, 0 ≤ l.quantity.toInt := by
        intro l member
        obtain ⟨row, here, rfl⟩ := List.mem_map.1 member
        rw [fetched] at here
        exact le_of_lt (done.positive row (mem_activeRows.1 here).1)
      refine ends_walks.bind (ends_walks.rpc
        (ends_ask (o := .releaseStock ⟨req.tenantId, req.orderId, req.reason,
        req.idempotencyKey, (first :: rest).map rowLine⟩ (first :: rest)) nonneg))
        (fun answer => ?_) u done'
      cases answer with
      | error e => exact ends_walks.bind (ends_ask trivial) fun _ => ends_walks.pure _
      | ok resp =>
        refine ends_walks.bind (ends_ask trivial) fun answer => ?_
        cases answer with
        | error e => exact ends_walks.pure _
        | ok u => exact ends_walks.pure _

variable {tenantID msg : String} {ls : List OrderLine} {ttl : Int32} {force : Bool}

abbrev driven (x : Order) (tenantID : String) (ls : List OrderLine) (ttl : Int32) (force : Bool) :
    SagaInput := ⟨tenantID, x.tenant, x.id, ls, x.key, ttl, force⟩

theorem stockLines_nonneg (regular : x.Regular) (lines : ls.Perm x.lines) :
    ∀ l ∈ stockLines ls, 0 ≤ l.quantity.toInt := fun l member =>
  le_of_lt (regular.positive l ((stockLines_perm lines).mem_iff.1 member))

theorem moves_own (parse : rt.scan tenantID = some x.tenant) :
    Moves rt (Own rt x) tenantID x.id := fun _ _ _ _ found _ =>
  ⟨Option.some.inj (found.symm.trans parse), rfl⟩

theorem failSaga_ends (parse : rt.scan tenantID = some x.tenant) :
    Ends rt adm x (failSaga rt tenantID x.id msg) := ends_walks.failSaga (moves_own parse) msg

theorem saga_own (regular : x.Regular) (parse : rt.scan tenantID = some x.tenant)
    (lines : ls.Perm x.lines) : SagaFine rt (Own rt x) (driven x tenantID ls ttl force) :=
  ⟨moves_own parse, fun _ _ _ => ⟨rfl, rfl⟩, fun _ _ => trivial,
    fun _ => stockLines_nonneg regular lines⟩

theorem paySteps_ends (regular : x.Regular) (parse : rt.scan tenantID = some x.tenant)
    (lines : ls.Perm x.lines) : Ends rt adm x (paySteps rt (driven x tenantID ls ttl force)) :=
  ends_walks.paySteps (saga_own regular parse lines) release_ends trivial fun _ => ⟨rfl, rfl⟩

theorem runSaga_ends (regular : x.Regular) (parse : rt.scan tenantID = some x.tenant)
    (lines : ls.Perm x.lines) : Ends rt adm x (runSaga rt (driven x tenantID ls ttl force)) := by
  have nonneg : ∀ l ∈ (reserveItems ls).map itemLine, 0 ≤ l.quantity.toInt := fun l member =>
    le_of_lt (regular.positive l ((reserveItems_perm lines).mem_iff.1 member))
  refine ends_walks.runSaga (saga_own regular parse lines) ?_ (paySteps_ends regular parse lines)
  exact ends_walks.reserve (fun _ => ⟨rfl, parse⟩) (fun _ _ _ => trivial)
    (ends_ask (o := .releaseStock _ _) nonneg)

theorem markExpired_ends (row : Reservation) : Ends rt adm x (markExpired row) :=
  ends_walks.markExpired (ends_ask trivial) trivial

theorem sweepGroup_ends {k : GroupKey} {rows : List Reservation}
    (positive : ∀ row ∈ rows, 0 < row.quantity.toInt) : Ends rt adm x (sweepGroup k rows) := by
  have nonneg : ∀ l ∈ rows.map rowLine, 0 ≤ l.quantity.toInt := by
    intro l member
    obtain ⟨row, here, rfl⟩ := List.mem_map.1 member
    exact le_of_lt (positive row here)
  unfold sweepGroup
  refine ends_walks.bind (ends_walks.rpc (ends_ask (o := .releaseStock _ _) nonneg))
    fun answer => ?_
  cases answer with
  | error e => exact ends_walks.pure _
  | ok resp =>
    exact fun s done => wp_forEach (J := fun _ t => Done x t) done fun row rest t done =>
      markExpired_ends row t done

theorem sweep_ends : Ends rt adm x (sweepOnce batch) := by
  unfold sweepOnce
  refine ends_walks.bind (ends_ask trivial) fun now s done => ?_
  refine reaches_ask trivial fun c found t ok run => ?_
  have done' := exec_done run trivial done
  cases found with
  | error e => exact done'
  | ok expired =>
    refine reaches_ask trivial fun c keys u ok run' => ?_
    have done'' := exec_done run' trivial done'
    refine wp_forEach (J := fun _ t => Done x t) done'' fun k rest v still => ?_
    refine sweepGroup_ends (fun row member => ?_) v still
    exact done.positive row (getExpired_rows run (List.mem_filter.1 member).1).1

end Done

structure Fits (x : Order) : Prop where
  regular : x.Regular
  total : 0 < orderTotal x.lines
  seeded : ∀ loc, (x.base loc).2.1 = 0 ∧ (x.base loc).2.2 = 0
  alone : x.shared = false
  returns : ∀ k ∈ x.comps, keyFits k = true
  canonical : compensationKey x.tenant.text x.id ∈ x.comps

structure DrivesReturning (rt : Runtime) (x : Order) (tenantID : String) (ls : List OrderLine) :
    Prop
    extends Drives rt x tenantID ls where
  returns : compensationKey tenantID x.id ∈ x.comps

/-- The calls of the saga may be lost, apart from an allocation after it took
effect and a confirmation before it does. When all goes smoothly nothing is lost,
no breaker refuses, and the gateway's transaction ids fit their column. -/
structure Faults (x : Order) (smooth : Prop) (adm : Op → Choice → Stack → Prop) : Prop where
  inner : Inner adm
  allocated : ∀ c s, adm (.answer .sagaAllocate) c s → c.pass = true ∨
    ∀ row ∈ rowsOf s x.tenant x.id, row.status ≠ .allocated
  confirmed : ∀ c s, adm (.send .sagaConfirm) c s → c.pass = true
  allowed : smooth → ∀ b c s, adm (.allow b) c s → c.pass = true
  sent : smooth → ∀ site c s, adm (.send site) c s → c.pass = true
  answered : smooth → ∀ site c s, adm (.answer site) c s → c.pass = true
  charged : smooth → ∀ req c s, adm (.charge req) c s → varchar 255 ("sbx_" ++ c.uuid) = true

def Idle (rt : Runtime) (x : Order) (s : Stack) : Prop :=
  (∃ state, At x state .free none s) ∨
    (stored rt x = true ∧ ∃ state, At x state .held (some .active) s) ∨ Done x s

structure Taken (rt : Runtime) (x : Order) (s : Stack) : Prop where
  open_ : ∃ state, (state = .pendingPayment ∨ state = .reserved) ∧
    At x state .held (some .allocated) s
  stored : stored rt x = true
  paid : paid rt x = true
  key : keyFits (allocateKey x.key) = true
  text : storable x.id = true
  aggregate : varchar 255 (x.tenant.text ++ ":" ++ x.id) = true

def Leaves (rt : Runtime) (x : Order) (smooth : Prop) (s : Stack) : Prop :=
  Idle rt x s ∨ (Taken rt x s ∧ ¬smooth)

section Live

variable {rt : Runtime} {adm : Op → Choice → Stack → Prop} {x : Order} {smooth : Prop}
  {state : SagaState} {hold : Hold} {status : Option ReservationStatus} {s : Stack}
  {tenantID msg : String} {ls : List OrderLine} {ttl : Int32} {force : Bool}

theorem done_of (fit : Fits x) (filed : Filed x state s.order) (stock : StockAt x hold s.stock)
    (rows : RowsAt x status s) (closed : hold = .allocated ∨ hold = .returned) : Done x s where
  checked := stock.checked
  seen := stock.reserved.2 (by rcases closed with rfl | rfl <;> decide)
  empty loc := by
    have seeded := (fit.seeded loc).1
    rw [stock.levels]
    rcases closed with rfl | rfl
    · simp [Hold.shift, seeded]
    · simp [Hold.shift, seeded]
  kept loc := by
    have seeded := (fit.seeded loc).2
    rw [stock.levels]
    rcases closed with rfl | rfl
    · simp [Hold.shift, seeded]
    · simp [Hold.shift, seeded]
  filed := ⟨state, filed⟩
  positive row member := by
    have own : row.tenantID = x.tenant ∧ row.orderID = x.id := by
      by_contra other
      have shared := rows.foreign row member other
      rw [fit.alone] at shared
      cases shared
    have line := List.mem_map_of_mem (f := rowLine) (mem_rowsOf.2 ⟨member, own⟩)
    rw [rows.lines.mem_iff] at line
    split at line
    · cases line
    · exact fit.regular.positive _ line

theorem At.done (fit : Fits x) (h : At x state hold status s)
    (closed : hold = .allocated ∨ hold = .returned) : Done x s :=
  done_of fit h.filed h.stock h.rows closed

theorem failSaga_idle (parse : rt.scan tenantID = some x.tenant) (h : Idle rt x s) :
    Reaches rt adm (fun _ => True) (fun _ t => Idle rt x t) (failSaga rt tenantID x.id msg) s := by
  rcases h with ⟨state, at_⟩ | ⟨rows, state, at_⟩ | done
  · refine wp_mono (fun _ t after => .inl ?_) (failSaga_at parse trivial at_)
    exact after.elim (⟨_, ·⟩) (⟨_, ·⟩)
  · refine wp_mono (fun _ t after => .inr (.inl ⟨rows, ?_⟩)) (failSaga_at parse trivial at_)
    exact after.elim (⟨_, ·⟩) (⟨_, ·⟩)
  · exact wp_mono (fun _ _ done => .inr (.inr done)) (failSaga_ends parse s done)

theorem release_live {reason : String} (fit : Fits x) (inner : Inner adm)
    (drives : DrivesReturning rt x tenantID ls) (text : storable x.id = true)
    (fits : varchar 255 reason = true) (h : At x state .held (some .active) s) :
    Reaches rt adm (fun _ => True) (fun _ t => Done x t)
      (release rt ⟨tenantID, "", x.id, reason, compensationKey tenantID x.id⟩) s := by
  have key := fit.returns _ drives.returns
  unfold release
  simp only [parseUUID, drives.parse]
  refine reaches_ask trivial fun c found t ok run => ?_
  obtain ⟨first, rest, o, rfl, taken, -, rfl⟩ := rowsAt_begin fit.regular h.rows h.unlocked
    (inner.reached _ _ _ ok) drives.castable drives.returns key text run
  have lines : ((first :: rest).map rowLine).Perm x.stock :=
    (taken.map rowLine).trans (h.rows.stock_perm (by simp))
  have stock₁ : StockAt x .held (Stack.stock { s with openTxs := [o] }) := h.stock
  refine reaches_then (Q := fun _ u => Done x u) ?_ ?_
  · refine inner.call rfl trivial (reaches_last (o := .releaseStock _ _) trivial
      fun c res u ok run => ⟨trivial, ?_⟩)
    obtain ⟨resp, db, rfl, stock, rfl⟩ := stockAt_release fit.regular stock₁
      (inner.reached _ _ _ ok) drives.castable drives.parse lines drives.returns
      (compensationKey_ne _ _) key fits run
    exact done_of (s := Stack.withStock { s with openTxs := [o] } db) fit h.filed stock
      (RowsAt.congr h.rows rfl) (.inr rfl)
  · intro answer u done
    cases answer with
    | error e =>
      exact ends_walks.bind (ends_ask (o := .endTx) trivial) (fun _ => ends_walks.pure _) u done
    | ok resp =>
      refine reaches_ask trivial fun c answer v ok run => ?_
      have done' := exec_done run trivial done
      cases answer with
      | error e => exact done'
      | ok u => exact done'

theorem compensate_live {reason : String} (fit : Fits x) (inner : Inner adm)
    (drives : DrivesReturning rt x tenantID ls) (text : storable x.id = true)
    (rows : stored rt x = true)
    (fits : varchar 255 reason = true) (h : At x state .held (some .active) s) :
    Reaches rt adm (fun _ => True) (fun _ t => Idle rt x t)
      (compensate rt tenantID x.id reason) s := by
  have here : Idle rt x s := .inr (.inl ⟨rows, state, h⟩)
  unfold compensate
  simp only [parseUUID, drives.parse]
  refine reaches_then (Q := fun res t => (∃ e, res = .error e) ∧ Idle rt x t ∨ Done x t) ?_ ?_
  · refine reaches_rpc trivial (fun c ok lost => .inl ⟨⟨_, rfl⟩, here⟩)
      (wp_mono (fun res t done => ⟨trivial, fun c ok => ⟨fun _ => .inr done, fun _ => .inr done⟩⟩)
        (release_live fit inner drives text fits h))
  · rintro res t (⟨⟨e, rfl⟩, idle⟩ | done)
    · exact idle
    · cases res with
      | error e => exact .inr (.inr done)
      | ok resp =>
        refine reaches_last (o := .transition _ _ _ _ _ _) trivial fun c answer u ok run => ?_
        exact .inr (.inr (exec_done run ⟨rfl, rfl⟩ done))

theorem chargeStep_live (faults : Faults x smooth adm) (total : 0 < orderTotal x.lines)
    (lines : ls.Perm x.lines) :
    Reaches rt adm (fun _ => True) (fun res t => t = s ∧
        ((∃ e, res = .error e) → ¬smooth) ∧
        (∀ e, res = .ok (.error e) → force = true ∨ paid rt x = false) ∧
        (∀ txn, res = .ok (.ok txn) → paid rt x = true ∧ (smooth → varchar 255 txn = true)))
      (chargeStep (driven x tenantID ls ttl force)) s := by
  unfold chargeStep
  cases forced : force with
  | true =>
    exact ⟨rfl, fun ⟨_, eq⟩ => (by cases eq), fun _ _ => .inl rfl, fun _ eq => (by cases eq)⟩
  | false =>
    dsimp only
    rw [if_neg (by decide)]
    refine reaches_ask trivial fun c allowed t ok run => ?_
    cases run
    cases pass : c.pass with
    | false =>
      refine ⟨rfl, fun _ calm => ?_, fun _ eq => (by cases eq), fun _ eq => (by cases eq)⟩
      rw [faults.allowed calm _ _ _ ok] at pass
      cases pass
    | true =>
      refine reaches_ask trivial fun c res t ok run => ?_
      cases run
      have positive : ¬orderTotal ls ≤ 0 := by
        rw [orderTotal_perm lines]
        exact Int64.not_le.2 total
      refine ⟨rfl, fun ⟨_, eq⟩ => (by cases eq), fun e eq => .inr ?_, fun txn eq => ?_⟩
      · simp only [charge, if_neg positive, Except.ok.injEq] at eq
        unfold paid
        cases listed : rt.sandboxFailListed x.id with
        | false => simp [listed] at eq
        | true => rfl
      · simp only [charge, if_neg positive, Except.ok.injEq] at eq
        unfold paid
        cases listed : rt.sandboxFailListed x.id with
        | true => simp [listed] at eq
        | false =>
          simp only [listed, Bool.false_eq_true, if_false, Except.ok.injEq] at eq
          rw [← eq]
          exact ⟨rfl, fun calm => faults.charged calm _ _ _ ok⟩

theorem allocate_live (fit : Fits x) (faults : Faults x smooth adm)
    (drives : DrivesReturning rt x tenantID ls)
    (mine : status = some .active ∨ (status = some .allocated ∧ smooth ∧
      keyFits (allocateKey x.key) = true)) (h : At x .reserved .held status s) :
    Reaches rt adm (fun _ => True) (fun res t =>
        ((∃ e, res = .error e) ∧ At x .reserved .held (some .active) t) ∨
        ((∃ resp, res = .ok resp) ∧ keyFits (allocateKey x.key) = true ∧
          At x .reserved .held (some .allocated) t))
      (rpc .sagaAllocate (allocateReservation rt ⟨tenantID, x.id, allocateKey x.key⟩)) s := by
  refine reaches_rpc trivial (fun c ok lost => ?_) ?_
  · rcases mine with rfl | ⟨-, calm, -⟩
    · exact .inl ⟨⟨_, rfl⟩, h⟩
    · rw [faults.sent calm _ _ _ ok] at lost
      cases lost
  · unfold allocateReservation
    simp only [parseUUID, drives.parse]
    refine reaches_ask trivial fun c answer t ok run => ?_
    have reached := faults.inner.reached _ _ _ ok
    rcases mine with rfl | ⟨rfl, calm, key⟩
    · rcases rowsAt_allocate_cases fit.regular h.rows h.unlocked reached drives.castable run with
        ⟨⟨n, rfl⟩, key, rows, db, rfl⟩ | ⟨⟨e, rfl⟩, rfl⟩
      · have at_ := h.withRows rows
        refine ⟨trivial, fun c ok => ⟨fun _ => .inr ⟨⟨_, rfl⟩, key, at_⟩, fun lost => ?_⟩⟩
        -- The order has rows, and they are allocated now: this answer is not lost.
        rcases faults.allocated _ _ ok with pass | none_
        · rw [pass] at lost
          cases lost
        · have lines := at_.rows.stock_perm (by simp)
          obtain ⟨row, rest, rows_⟩ := List.exists_cons_of_ne_nil (l := rowsOf
            { s with reservation := db } x.tenant x.id) fun empty => by
              rw [empty, List.map_nil] at lines
              exact fit.regular.stock_ne lines.nil_eq.symm
          have member : row ∈ rowsOf { s with reservation := db } x.tenant x.id := by
            rw [rows_]
            exact List.mem_cons_self
          exact absurd (Option.some.inj (at_.rows.uniform row member)) (none_ row member)
      · exact ⟨trivial, fun c ok => ⟨fun _ => .inl ⟨⟨_, rfl⟩, h⟩, fun _ => .inl ⟨⟨_, rfl⟩, h⟩⟩⟩
    · obtain ⟨⟨n, rfl⟩, rfl⟩ := rowsAt_allocate_again h.rows h.unlocked reached drives.castable key
        run
      refine ⟨trivial, fun c ok => ⟨fun _ => .inr ⟨⟨_, rfl⟩, key, h⟩, fun lost => ?_⟩⟩
      rw [faults.answered calm _ _ _ ok] at lost
      cases lost

theorem room (fit : Fits x) (h : StockAt x .held s.stock) (loc : StockLocation) :
    (x.base loc).2.2 + x.units loc ≤ 2147483647 := by
  have now := representable_held h.checked loc
  have base := fit.regular.base loc
  have seeded := fit.seeded loc
  rw [h.levels] at now
  simp only [Representable, Hold.shift, Prod.fst_add, Prod.snd_add, Prod.smul_fst, Prod.smul_snd,
    smul_eq_mul] at now base
  omega

theorem confirmSteps_live {txn : String} (fit : Fits x) (faults : Faults x smooth adm)
    (drives : DrivesReturning rt x tenantID ls) (text : storable x.id = true)
    (aggregate : varchar 255 (x.tenant.text ++ ":" ++ x.id) = true) (rows : stored rt x = true)
    (accepted : paid rt x = true)
    (mine : status = some .active ∨ (status = some .allocated ∧ smooth ∧
      keyFits (allocateKey x.key) = true)) (h : At x .reserved .held status s) :
    Reaches rt adm (fun _ => True) (fun _ t => Leaves rt x smooth t)
      (confirmSteps rt (driven x tenantID ls ttl force) txn) s := by
  unfold confirmSteps
  refine reaches_then (allocate_live fit faults drives mine h) ?_
  rintro res t (⟨⟨e, rfl⟩, at_⟩ | ⟨⟨resp, rfl⟩, key, at_⟩)
  · exact reaches_then (failSaga_idle drives.parse (.inr (.inl ⟨rows, .reserved, at_⟩)))
      fun _ _ idle => .inl idle
  · refine reaches_ask trivial fun c allowed u ok run => ?_
    cases run
    cases pass : c.pass with
    | false =>
      refine .inr ⟨⟨⟨.reserved, .inr rfl, at_⟩, rows, accepted, key, text, aggregate⟩,
        fun calm => ?_⟩
      rw [faults.allowed calm _ _ _ ok] at pass
      cases pass
    | true =>
      refine reaches_then (Q := fun _ u => Done x u) ?_ ?_
      · refine reaches_rpc trivial (fun c ok lost => ?_) (reaches_last
          (o := .confirmStockAllocation _) trivial fun c res u ok run => ?_)
        · rw [faults.confirmed _ _ ok] at lost
          cases lost
        · obtain ⟨resp, db, rfl, stock, rfl⟩ := stockAt_confirm fit.regular at_.stock (.inl rfl)
            (faults.inner.reached _ _ _ ok) drives.castable drives.parse
            (stockLines_perm drives.lines) (confirmKey_fits (at_.stock.keyFits (by decide)))
            (room fit at_.stock) run
          have done := At.done fit (at_.withStock stock) (.inl rfl)
          exact ⟨trivial, fun c ok => ⟨fun _ => done, fun _ => done⟩⟩
      · intro answer u done
        cases answer with
        | error e =>
          exact reaches_then (failSaga_ends drives.parse u done) fun _ _ done =>
            .inl (.inr (.inr done))
        | ok resp =>
          refine reaches_ask trivial fun c answer v ok run => ?_
          have done' := exec_done run ⟨rfl, rfl⟩ done
          cases answer with
          | error e => exact .inl (.inr (.inr done'))
          | ok u => exact .inl (.inr (.inr done'))

/-- The rows of a held order are active, or allocated in a run without faults. -/
def Holds (rt : Runtime) (x : Order) (smooth : Prop) (force : Bool)
    (status : Option ReservationStatus) : Prop :=
  stored rt x = true ∧ (status = some .active ∨ (status = some .allocated ∧ smooth ∧
    keyFits (allocateKey x.key) = true ∧ paid rt x = true ∧ force = false))

theorem paySteps_live (fit : Fits x) (faults : Faults x smooth adm)
    (drives : DrivesReturning rt x tenantID ls) (text : storable x.id = true)
    (aggregate : varchar 255 (x.tenant.text ++ ":" ++ x.id) = true)
    (holds : Holds rt x smooth force status) (h : At x .reserved .held status s) :
    Reaches rt adm (fun _ => True) (fun _ t => Leaves rt x smooth t)
      (paySteps rt (driven x tenantID ls ttl force)) s := by
  obtain ⟨rows, mine⟩ := holds
  have kept : ∀ {u}, At x .reserved .held status u → ¬smooth → Leaves rt x smooth u := by
    intro u at_ rough
    rcases mine with rfl | ⟨-, calm, -⟩
    · exact .inl (.inr (.inl ⟨rows, .reserved, at_⟩))
    · exact absurd calm rough
  unfold paySteps
  refine reaches_then (chargeStep_live faults fit.total drives.lines) ?_
  rintro res t ⟨rfl, refused, declined, accepted⟩
  rcases res with e | (e | txnID)
  · exact kept h (refused ⟨e, rfl⟩)
  · have active : status = some .active := by
      rcases mine with active | ⟨-, -, -, paid_, unforced⟩
      · exact active
      · rcases declined e rfl with forced | unpaid
        · rw [unforced] at forced
          cases forced
        · rw [paid_] at unpaid
          cases unpaid
    subst active
    refine reaches_then (compensate_live fit faults.inner drives text rows (by decide) h)
      fun answer u idle => ?_
    cases answer with
    | error e => exact reaches_then (failSaga_idle drives.parse idle) fun _ _ idle => .inl idle
    | ok u => exact .inl idle
  · obtain ⟨paid_, short⟩ := accepted txnID rfl
    refine reaches_ask trivial fun c answer u ok run => ?_
    obtain ⟨db, filed, rfl⟩ := filed_record h.filed run
    have at_ := h.withOrder filed
    cases answer with
    | error e =>
      refine kept at_ fun calm => ?_
      have done := filed_record_forward h.filed (faults.inner.reached _ _ _ ok) drives.castable text
        (short calm) run
      cases done
    | ok u =>
      refine confirmSteps_live fit faults drives text aggregate rows paid_ ?_ at_
      exact mine.imp_right fun parts => ⟨parts.1, parts.2.1, parts.2.2.1⟩

def Resumes (rt : Runtime) (x : Order) (smooth : Prop) (force : Bool) (s : Stack) : Prop :=
  Done x s ∨ ∃ state hold status, At x state hold status s ∧
    ((hold = .free ∧ status = none) ∨ (hold = .held ∧ Holds rt x smooth force status)) ∧
    (status = some .allocated →
      storable x.id = true ∧ varchar 255 (x.tenant.text ++ ":" ++ x.id) = true)

/-- Where `Reserve` leaves the order: done, free, or held. -/
def Kept (rt : Runtime) (x : Order) (smooth : Prop) (force : Bool) (state : SagaState)
    (before : Option ReservationStatus) (res : Except Failure ReserveResponse) (s : Stack) : Prop :=
  Done x s ∨ (At x state .free none s ∧ ∀ resp, res = .ok resp → resp.success = false) ∨
    ∃ status, At x state .held status s ∧ Holds rt x smooth force status ∧
      (status = some .allocated → before = some .allocated) ∧
      ((∃ resp, res = .ok resp ∧ resp.success = true) ∨ ((∃ e, res = .error e) ∧ ¬smooth))

theorem reserved_kept {res : Except Failure ReserveResponse} (fit : Fits x)
    (h : Reserved rt x state status res s)
    (before : status = none ∨ Holds rt x smooth force status) :
    Kept rt x smooth force state status res s := by
  obtain ⟨hold', status', open_, at_, same, outcome⟩ := h
  cases hold' with
  | allocated => exact .inl (At.done fit at_ (.inl rfl))
  | returned => exact .inl (At.done fit at_ (.inr rfl))
  | free =>
    have none_ : status' = none := by
      rcases status' with _ | _ | _ | _ | _ <;> first | rfl | cases open_
    subst none_
    refine .inr (.inl ⟨at_, ?_⟩)
    rcases outcome with ⟨-, -, -, some_⟩ | ⟨refused, -, -⟩
    · exact absurd rfl some_
    · exact refused
  | held =>
    rcases outcome with ⟨resp, ok, success, some_⟩ | ⟨-, -, other⟩
    · refine .inr (.inr ⟨status', at_, ?_, ?_, .inl ⟨resp, ok, success⟩⟩)
      · rcases same with rfl | ⟨-, rfl⟩
        · exact before.resolve_left some_
        · exact ⟨open_, .inl rfl⟩
      · rintro rfl
        rcases same with rfl | ⟨-, eq⟩
        · rfl
        · cases eq
    · exact absurd rfl other

variable {before : Option ReservationStatus}

theorem Kept.lost {res : Except Failure ReserveResponse}
    (h : Kept rt x smooth force state before res s) (rough : ¬smooth) :
    Kept rt x smooth force state before (.error .transport) s := by
  rcases h with done | ⟨at_, -⟩ | ⟨status, at_, holds, same, -⟩
  · exact .inl done
  · exact .inr (.inl ⟨at_, fun resp eq => by cases eq⟩)
  · exact .inr (.inr ⟨status, at_, holds, same, .inr ⟨⟨_, rfl⟩, rough⟩⟩)

/-- A held order without a saga to finish it is left to the sweeper. -/
theorem Holds.active (holds : Holds rt x smooth force status) (rough : ¬smooth) :
    status = some .active := by
  rcases holds.2 with active | ⟨-, calm, -⟩
  · exact active
  · exact absurd calm rough

theorem Kept.idle {e : Failure} (h : Kept rt x smooth force state before (.error e) s) :
    Idle rt x s := by
  rcases h with done | ⟨free, -⟩ | ⟨status, at_, holds, -, ⟨resp, eq, -⟩ | ⟨-, rough⟩⟩
  · exact .inr (.inr done)
  · exact .inl ⟨state, free⟩
  · cases eq
  · have active := holds.active rough
    subst active
    exact .inr (.inl ⟨holds.1, state, at_⟩)

theorem Kept.refused {resp : ReserveResponse}
    (h : Kept rt x smooth force state before (.ok resp) s) (refused : resp.success = false) :
    Idle rt x s := by
  rcases h with done | ⟨free, -⟩ | ⟨status, at_, holds, -, ⟨resp', eq, success⟩ | ⟨⟨e, eq⟩, -⟩⟩
  · exact .inr (.inr done)
  · exact .inl ⟨state, free⟩
  · cases eq
    rw [refused] at success
    cases success
  · cases eq

theorem sagaReserve_kept (fit : Fits x) (faults : Faults x smooth adm)
    (drives : DrivesReturning rt x tenantID ls)
    (phase : (hold = .free ∧ status = none) ∨ (hold = .held ∧ Holds rt x smooth force status))
    (h : At x state hold status s) :
    Reaches rt adm (fun _ => True) (Kept rt x smooth force state status) (rpc .sagaReserve
      (reserve rt ⟨tenantID, x.id, reserveKey x.key, reserveItems ls, ttl⟩)) s := by
  have before : status = none ∨ Holds rt x smooth force status :=
    phase.imp (fun free => free.2) fun held_ => held_.2
  have open_ : opens (paid rt x) (stored rt x) hold status = true := by
    rcases phase with ⟨rfl, rfl⟩ | ⟨rfl, rows, rfl | ⟨rfl, -, -, accepted, -⟩⟩
    · rfl
    · exact rows
    · simp [opens, rows, accepted]
  have undoes : stored rt x = false → Undoes x tenantID hold := fun _ =>
    ⟨drives.returns, fit.returns _ drives.returns, fun eq => by
      rcases phase with ⟨rfl, -⟩ | ⟨rfl, -⟩ <;> cases eq⟩
  refine reaches_rpc trivial (fun c ok lost => ?_) (wp_mono (fun res t after => ⟨trivial,
    fun c ok => ⟨fun _ => reserved_kept fit after before, fun lost => ?_⟩⟩)
      (reserve_phase faults.inner fit.regular drives.castable drives.parse drives.lines undoes
        open_ (fun _ _ _ _ _ => trivial) (fun _ _ _ _ => trivial) h))
  · have rough : ¬smooth := fun calm => by
      rw [faults.sent calm _ _ _ ok] at lost
      cases lost
    rcases phase with ⟨rfl, rfl⟩ | ⟨rfl, holds⟩
    · refine .inr (.inl ⟨h, fun resp eq => ?_⟩)
      cases eq
    · exact .inr (.inr ⟨status, h, holds, id, .inr ⟨⟨_, rfl⟩, rough⟩⟩)
  · refine (reserved_kept fit after before).lost fun calm => ?_
    rw [faults.answered calm _ _ _ ok] at lost
    cases lost

/-- An order that is done stays so, whatever is left of its saga. -/
theorem ends_leaves {α : Type} {p : Code α} (ends : Ends rt adm x p) (done : Done x s) :
    Reaches rt adm (fun _ => True) (fun _ t => Leaves rt x smooth t) p s :=
  wp_mono (fun _ _ done => .inl (.inr (.inr done))) (ends _ done)

theorem failSaga_leaves {α : Type} {a : α} (drives : DrivesReturning rt x tenantID ls)
    (idle : Idle rt x s) :
    Reaches rt adm (fun _ => True) (fun _ t => Leaves rt x smooth t) (do
      let _ ← failSaga rt tenantID x.id msg
      pure a) s :=
  reaches_then (failSaga_idle drives.parse idle) fun _ _ idle => .inl idle

theorem runSaga_live (fit : Fits x) (faults : Faults x smooth adm)
    (drives : DrivesReturning rt x tenantID ls) (h : Resumes rt x smooth force s) :
    Reaches rt adm (fun _ => True) (fun _ t => Leaves rt x smooth t)
      (runSaga rt (driven x tenantID ls ttl force)) s := by
  rcases h with done | ⟨state, hold, status, at_, phase, texts⟩
  · exact ends_leaves (runSaga_ends fit.regular drives.parse drives.lines) done
  unfold runSaga
  refine reaches_ask trivial fun c allowed t ok run => ?_
  cases run
  cases pass : c.pass with
  | false =>
    have rough : ¬smooth := fun calm => by
      rw [faults.allowed calm _ _ _ ok] at pass
      cases pass
    rcases phase with ⟨rfl, rfl⟩ | ⟨rfl, holds⟩
    · exact .inl (.inl ⟨state, at_⟩)
    · have active := holds.active rough
      subst active
      exact .inl (.inr (.inl ⟨holds.1, state, at_⟩))
  | true =>
    refine reaches_then (sagaReserve_kept fit faults drives phase at_) fun res t kept => ?_
    cases res with
    | error e => exact failSaga_leaves drives kept.idle
    | ok resp =>
      dsimp only
      split
      · rename_i refused
        exact failSaga_leaves drives (kept.refused refused)
      · rename_i success
        rcases kept with done | ⟨-, refused⟩ | ⟨status', at', holds, same, -⟩
        · refine ends_leaves (ends_walks.bind (ends_ask (o := .transition _ _ _ _ _ _) ⟨rfl, rfl⟩)
            fun answer => ?_) done
          cases answer with
          | error e => exact ends_walks.pure _
          | ok u => exact paySteps_ends fit.regular drives.parse drives.lines
        · exact absurd (refused resp rfl) success
        · refine reaches_ask trivial fun c answer u ok run => ?_
          rcases filed_transition at'.filed run with
            ⟨rfl, text, aggregate, db, filed, rfl⟩ | ⟨⟨e, rfl⟩, rfl⟩
          · exact paySteps_live fit faults drives text aggregate holds (at'.withOrder filed)
          · rcases holds.2 with rfl | ⟨rfl, -⟩
            · exact .inl (.inr (.inl ⟨holds.1, state, at'⟩))
            · obtain ⟨text, aggregate⟩ := texts (same rfl)
              have done := filed_transition_forward at'.filed (faults.inner.reached _ _ _ ok)
                drives.castable text aggregate (by decide) (fun _ => rfl) run
              cases done.1

end Live

section Passes

variable {rt : Runtime} {adm : Op → Choice → Stack → Prop} {x : Order} {s : Stack}

def Accounted (rt : Runtime) (x : Order) (s : Stack) : Prop := Idle rt x s ∨ Taken rt x s

def Clear (x : Order) (s : Stack) : Prop := (∃ state, At x state .free none s) ∨ Done x s

theorem Accounted.resumes (h : Accounted rt x s) : Resumes rt x True false s := by
  rcases h with (⟨state, at_⟩ | ⟨rows, state, at_⟩ | done) | taken
  · exact .inr ⟨state, _, _, at_, .inl ⟨rfl, rfl⟩, fun eq => by cases eq⟩
  · exact .inr ⟨state, _, _, at_, .inr ⟨rfl, rows, .inl rfl⟩, fun eq => by cases eq⟩
  · exact .inl done
  · obtain ⟨state, -, at_⟩ := taken.open_
    exact .inr ⟨state, _, _, at_, .inr ⟨rfl, taken.stored, .inr ⟨rfl, trivial, taken.key,
      taken.paid, rfl⟩⟩, fun _ => ⟨taken.text, taken.aggregate⟩⟩

theorem Accounted.filed (h : Accounted rt x s) : ∃ state, Filed x state s.order := by
  rcases h with (⟨state, at_⟩ | ⟨-, state, at_⟩ | done) | taken
  · exact ⟨state, at_.filed⟩
  · exact ⟨state, at_.filed⟩
  · exact done.filed
  · obtain ⟨state, -, at_⟩ := taken.open_
    exact ⟨state, at_.filed⟩

theorem resume_live {limit : Int32} (fit : Fits x) (faults : Faults x True adm)
    (h : Accounted rt x s) :
    Reaches rt adm (fun _ => True)
      (fun _ t => Accounted rt x t ∧ (1 ≤ limit.toInt → Idle rt x t))
      (resumePendingSagas rt limit) s := by
  have stays : (1 ≤ limit.toInt → ¬Taken rt x s) →
      Accounted rt x s ∧ (1 ≤ limit.toInt → Idle rt x s) := fun other =>
    ⟨h, fun some_ => h.resolve_right (other some_)⟩
  obtain ⟨state, filed⟩ := h.filed
  unfold resumePendingSagas
  refine reaches_ask trivial fun c found t ok run => ?_
  have reached := faults.inner.reached _ _ _ ok
  have taken : ∀ e, 1 ≤ limit.toInt → Taken rt x s → found ≠ .error e ∧ found ≠ .ok [] := by
    intro e some_ taken
    obtain ⟨state', open_, at_⟩ := taken.open_
    obtain ⟨first, rest, rfl⟩ := filed_resumable_forward at_.filed open_ reached some_ run
    exact ⟨fun eq => (by cases eq), fun eq => (by cases eq)⟩
  obtain ⟨rfl, spec⟩ := filed_resumable filed run
  cases found with
  | error e => exact stays fun some_ there => (taken e some_ there).1 rfl
  | ok sagas =>
    rcases spec sagas rfl with rfl | ⟨saga, rfl, tenant, order, key, -, -⟩
    · exact stays fun some_ there => (taken .transport some_ there).2 rfl
    · refine reaches_ask trivial fun c found u ok run => ?_
      rw [tenant, order] at run
      have reached := faults.inner.reached _ _ _ ok
      cases found with
      | error e =>
        rcases orderTx_some run with ⟨a, db, eq, -⟩ | ⟨-, rfl⟩
        · cases eq
        · refine stays fun _ there => ?_
          obtain ⟨lines, eq⟩ :=
            filed_lines_forward reached (castable_text rt _) there.text run
          cases eq
      | ok lines =>
        obtain ⟨perm, rfl⟩ := filed_lines filed run
        have input : resumeInput saga lines = driven x x.tenant.text lines defaultTTL false := by
          unfold resumeInput
          rw [tenant, order, key]
        have drives : DrivesReturning rt x x.tenant.text lines :=
          ⟨⟨castable_text rt _, rt.scan_text _, perm⟩, fit.canonical⟩
        have saga_ : Reaches rt adm (fun _ => True) (fun _ t => Leaves rt x True t)
            (runSaga rt (driven x x.tenant.text lines defaultTTL false)) _ :=
          runSaga_live fit faults drives h.resumes
        dsimp only
        rw [input]
        refine reaches_then saga_ fun _ v leaves => ?_
        rcases leaves with idle | ⟨-, rough⟩
        · exact ⟨.inl idle, fun _ => idle⟩
        · exact absurd trivial rough

def Sweeps (adm : Op → Choice → Stack → Prop) : Prop :=
  ∀ now batch c s, adm (.getExpiredReservations now batch) c s →
    (∀ row ∈ s.reservation.reservations, row.expiresAt < now) ∧
    ((s.reservation.reservations.filter fun r => r.status = .active).length : ℤ) ≤ batch.toInt

theorem swept_batch {now : ℤ} {c : Choice} {t : Stack} {found : Except Failure (List Reservation)}
    (late : Sweeps adm) (inner : Inner adm) (unlocked : s.openTxs = [])
    (ok : adm (.getExpiredReservations now batch) c s)
    (run : exec rt 0 (.getExpiredReservations now batch) c s = some (found, t)) :
    t = s ∧ ∃ rows, found = .ok rows ∧
      rows.Perm (s.reservation.reservations.filter fun r => r.status = .active) := by
  obtain ⟨expired, room⟩ := late _ _ _ _ ok
  have reached := inner.reached _ _ _ ok
  have sign : ¬batch < 0 := by
    have zero : (0 : Int32).toInt = 0 := rfl
    rw [Int32.lt_iff_toInt_lt]
    omega
  have all : expiredRows now s.locked s.reservation =
      s.reservation.reservations.filter fun r => r.status = .active := by
    refine List.filter_congr fun row member => ?_
    simp [expired row member, Stack.locked, unlocked]
  simp only [exec, reached, Bool.false_eq_true, if_false, if_neg sign] at run
  obtain ⟨rows, taken, eq⟩ := Option.map_eq_some_iff.1 run
  cases eq
  rw [all] at taken
  exact ⟨rfl, rows, rfl, limited_all taken (by omega)⟩

theorem rows_own {status : Option ReservationStatus} (fit : Fits x) (h : RowsAt x status s) :
    rowsOf s x.tenant x.id = s.reservation.reservations := by
  refine List.filter_eq_self.2 fun row member => ?_
  by_contra other
  have shared := h.foreign row member (by simpa using other)
  rw [fit.alone] at shared
  cases shared

theorem sweep_still {status : Option ReservationStatus} (fit : Fits x) (rows : RowsAt x status s)
    (other : status ≠ some .active) :
    Reaches rt adm (fun _ => True) (fun _ t => t = s) (sweepOnce batch) s := by
  refine sweep_none trivial fun row member active => ?_
  rw [← rows_own fit rows] at member
  have same := rows.uniform row member
  rw [active] at same
  exact other same.symm

theorem sweep_held {state : SagaState} (fit : Fits x) (faults : Faults x True adm)
    (late : Sweeps adm) (h : At x state .held (some .active) s) :
    Reaches rt adm (fun _ => True) (fun _ t => Done x t) (sweepOnce batch) s := by
  have own : ∀ row ∈ rowsOf s x.tenant x.id, groupKey row = ⟨x.tenant.text, x.id⟩ := by
    intro row member
    obtain ⟨tenant, order⟩ := (mem_rowsOf.1 member).2
    rw [groupKey, tenant, order]
  have active : s.reservation.reservations.filter (fun r => r.status = .active) =
      rowsOf s x.tenant x.id := by
    rw [← rows_own fit h.rows]
    refine List.filter_eq_self.2 fun row member => ?_
    exact decide_eq_true (Option.some.inj (h.rows.uniform row member))
  unfold sweepOnce
  refine reaches_ask trivial fun c now t ok run => ?_
  cases run
  refine reaches_ask trivial fun c found t ok run => ?_
  obtain ⟨rfl, expired, rfl, perm⟩ := swept_batch late faults.inner h.unlocked ok run
  rw [active] at perm
  have lines := (perm.map rowLine).trans (h.rows.stock_perm (by simp))
  have keyed : ∀ row ∈ expired, groupKey row = ⟨x.tenant.text, x.id⟩ := fun row member =>
    own row (perm.mem_iff.1 member)
  have groups : (groupByOrder expired).map (·.1) = [⟨x.tenant.text, x.id⟩] := by
    unfold groupByOrder
    rw [List.map_map]
    have first : expired ≠ [] := by
      rintro rfl
      exact fit.regular.stock_ne lines.nil_eq.symm
    have keys : expired.map groupKey = List.replicate expired.length ⟨x.tenant.text, x.id⟩ := by
      rw [List.eq_replicate_iff, List.length_map]
      refine ⟨rfl, fun k member => ?_⟩
      obtain ⟨row, here, rfl⟩ := List.mem_map.1 member
      exact keyed row here
    have once : (expired.map groupKey).dedup = [⟨x.tenant.text, x.id⟩] := by
      rw [keys]
      exact List.replicate_dedup fun zero => first (List.length_eq_zero_iff.1 zero)
    rw [once]
    rfl
  dsimp only
  rw [groups]
  refine reaches_ask trivial fun c keys u ok run => ?_
  obtain ⟨out, ranged_, eq⟩ := Option.map_eq_some_iff.1 run
  cases eq
  obtain rfl : keys = [⟨x.tenant.text, x.id⟩] := List.perm_singleton.1 (ranged_perm ranged_)
  have whole : expired.filter (fun r => groupKey r = ⟨x.tenant.text, x.id⟩) = expired :=
    List.filter_eq_self.2 fun row member => decide_eq_true (keyed row member)
  refine reaches_then (Q := fun _ v => Done x v) ?_ fun _ v done => done
  dsimp only
  rw [whole]
  unfold sweepGroup
  refine reaches_then (Q := fun _ v => Done x v) ?_ ?_
  · refine faults.inner.call rfl trivial (reaches_last (o := .releaseStock _ _) trivial
      fun c res v ok run => ⟨trivial, ?_⟩)
    obtain ⟨resp, db, rfl, stock, rfl⟩ := stockAt_release fit.regular h.stock
      (faults.inner.reached _ _ _ ok) (castable_text rt _) (rt.scan_text _) lines fit.canonical
      (compensationKey_ne _ _) (fit.returns _ fit.canonical) (by decide) run
    exact done_of fit h.filed stock (RowsAt.congr h.rows rfl) (.inr rfl)
  · intro answer v done
    cases answer with
    | error e => exact done
    | ok resp =>
      refine wp_forEach (J := fun _ w => Done x w) done fun row rest w done => ?_
      exact markExpired_ends row w done

theorem sweep_idle (fit : Fits x) (faults : Faults x True adm) (late : Sweeps adm)
    (h : Idle rt x s) :
    Reaches rt adm (fun _ => True) (fun _ t => Clear x t) (sweepOnce batch) s := by
  rcases h with ⟨state, at_⟩ | ⟨-, state, at_⟩ | done
  · refine wp_mono ?_ (sweep_still fit at_.rows (by simp))
    rintro _ t rfl
    exact .inl ⟨state, at_⟩
  · exact wp_mono (fun _ t done => .inr done) (sweep_held fit faults late at_)
  · exact wp_mono (fun _ t done => .inr done) (sweep_ends s done)

theorem Clear.idle (h : Clear x s) : Idle rt x s := h.imp_right .inr

theorem sweep_live (fit : Fits x) (faults : Faults x True adm) (late : Sweeps adm)
    (h : Accounted rt x s) :
    Reaches rt adm (fun _ => True) (fun _ t => Accounted rt x t) (sweepOnce batch) s := by
  rcases h with idle | taken
  · exact wp_mono (fun _ t clear => .inl clear.idle) (sweep_idle fit faults late idle)
  · obtain ⟨state, open_, at_⟩ := taken.open_
    refine wp_mono ?_ (sweep_still fit at_.rows (by simp))
    rintro _ t rfl
    exact .inr taken

end Passes

section Runs

/-- While the order is created, each call of its saga may be lost before or after
it takes effect. -/
def unreliable (op : Op) (c : Choice) (_ : Stack) : Bool :=
  !c.fault && match op with
    | .send site | .answer site => site.ofSaga || c.pass
    | _ => true

def requestRows (rt : Runtime) (req : CreateOrderRequest) (s : Stack) : List Reservation :=
  match rt.scan req.tenantId with
  | some t => rowsOf s t req.orderId
  | none => []

def spared (rt : Runtime) (req : CreateOrderRequest) (op : Op) (c : Choice) (s : Stack) : Bool :=
  match op with
  | .answer .sagaAllocate => c.pass || (requestRows rt req s).all fun row => row.status ≠ .allocated
  | .send .sagaConfirm => c.pass
  | _ => true

def calm (op : Op) (c : Choice) (s : Stack) : Bool :=
  !c.fault && match op with
    | .allow _ | .send _ | .answer _ => c.pass
    | .charge _ => varchar 255 ("sbx_" ++ c.uuid)
    | .getExpiredReservations now _ => s.reservation.reservations.all fun row => row.expiresAt < now
    | _ => true

def roomy (op : Op) (_ : Choice) (s : Stack) : Bool :=
  match op with
  | .getExpiredReservations _ batch =>
    ((s.reservation.reservations.filter fun r => r.status = .active).length : ℤ) ≤ batch.toInt
  | _ => true

inductive Pass where
  | resume (limit : Int32)
  | sweep (batch : Int32)

def Pass.code (rt : Runtime) : Pass → Code Unit
  | .resume limit => serve (resumePendingSagas rt limit)
  | .sweep batch => sweepOnce batch

abbrev Check := Op → Choice → Stack → Bool

def settle (rt : Runtime) (check : Check) : List (Pass × List Choice) → Stack → Option Stack
  | [], s => some s
  | (pass, choices) :: rest, s =>
    match runWith (machine rt) 0 check choices (pass.code rt) s with
    | some (_, t) => settle rt check rest t
    | none => none

def createThenSettle (rt : Runtime) (first second : Check) (req : CreateOrderRequest)
    (choices : List Choice) (passes : List (Pass × List Choice)) (s : Stack) : Option Stack :=
  match runWith (machine rt) 0 first choices (createOrder rt req) s with
  | some (_, t) => settle rt second passes t
  | none => none

/-- Calls are lost, but not the two after which the order cannot be finished. -/
def lossy (rt : Runtime) (req : CreateOrderRequest) : Check := fun op c s =>
  unreliable op c s && spared rt req op c s

def orderly : Check := fun op c s => calm op c s && roomy op c s

variable {rt : Runtime} {t : UUID} {req : CreateOrderRequest} {s s' : Stack}
  {levels : StockLocation → Option StockLevel} {pass : Pass} {check : Check}

/-- The order of a request as it is stored, with both keys under which its hold may be
returned. -/
def seededOrder (t : UUID) (req : CreateOrderRequest) (levels : StockLocation → Option StockLevel) :
    Order :=
  ⟨t, req.orderId, column 255 req.idempotencyKey, req.lines.map storedLine,
    held (Stack.stocked levels).stock,
    [compensationKey req.tenantId req.orderId, compensationKey t.text req.orderId], false⟩

theorem unreliable_inner : Inner (fun op c s => unreliable op c s = true) := by
  refine ⟨fun op c s ok => ?_, fun site c s own ok => ?_, fun site c s own ok => ?_⟩
  · simp only [unreliable, Bool.and_eq_true] at ok
    simpa using ok.1
  · simpa [own] using (Bool.and_eq_true_iff.1 ok).2
  · simpa [own] using (Bool.and_eq_true_iff.1 ok).2

theorem lossy_faults (parse : rt.scan req.tenantId = some t) :
    Faults (seededOrder t req levels) False (fun op c s => lossy rt req op c s = true) where
  inner := ⟨fun op c s ok => unreliable_inner.reached op c s (Bool.and_eq_true_iff.1 ok).1,
    fun site c s own ok => unreliable_inner.sent site c s own (Bool.and_eq_true_iff.1 ok).1,
    fun site c s own ok => unreliable_inner.answered site c s own (Bool.and_eq_true_iff.1 ok).1⟩
  allocated c s ok := by
    have kept := (Bool.and_eq_true_iff.1 ok).2
    simp only [spared, requestRows, parse, Bool.or_eq_true, List.all_eq_true,
      decide_eq_true_eq] at kept
    exact kept
  confirmed c s ok := (Bool.and_eq_true_iff.1 ok).2
  allowed := False.elim
  sent := False.elim
  answered := False.elim
  charged := False.elim

theorem orderly_calm {op : Op} {c : Choice} (ok : orderly op c s = true) : calm op c s = true :=
  (Bool.and_eq_true_iff.1 ok).1

theorem orderly_faults {x : Order} : Faults x True (fun op c s => orderly op c s = true) where
  inner := by
    refine ⟨fun op c s ok => ?_, fun _ _ _ _ ok => (Bool.and_eq_true_iff.1 (orderly_calm ok)).2,
      fun _ _ _ _ ok => (Bool.and_eq_true_iff.1 (orderly_calm ok)).2⟩
    have reached := (Bool.and_eq_true_iff.1 (orderly_calm ok)).1
    simpa using reached
  allocated _ _ ok := .inl (Bool.and_eq_true_iff.1 (orderly_calm ok)).2
  confirmed _ _ ok := (Bool.and_eq_true_iff.1 (orderly_calm ok)).2
  allowed _ _ _ _ ok := (Bool.and_eq_true_iff.1 (orderly_calm ok)).2
  sent _ _ _ _ ok := (Bool.and_eq_true_iff.1 (orderly_calm ok)).2
  answered _ _ _ _ ok := (Bool.and_eq_true_iff.1 (orderly_calm ok)).2
  charged _ _ _ _ ok := (Bool.and_eq_true_iff.1 (orderly_calm ok)).2

theorem orderly_sweeps : Sweeps (fun op c s => orderly op c s = true) := by
  intro now batch c s ok
  have expired := (Bool.and_eq_true_iff.1 (orderly_calm ok)).2
  have room := (Bool.and_eq_true_iff.1 ok).2
  simp only [List.all_eq_true, decide_eq_true_eq] at expired
  simp only [roomy, decide_eq_true_eq] at room
  exact ⟨expired, room⟩

theorem seededOrder_fresh (checked : Checked (Stack.stocked levels).stock) :
    Fresh (seededOrder t req levels) (.stocked levels) where
  checked := checked
  numbered := numbered_empty
  listed := OrderSteps.listed_empty
  unlocked := rfl
  quiet := rfl
  lines := rfl
  rows := rfl
  foreign row member := by cases member
  base := rfl
  unseen k _ seen := by simp [Seen, Stack.stocked] at seen
  unrecorded k _ old := by
    simp [Recorded, reservationKeys, KeyTable.has, Stack.stocked, ReservationDb.empty] at old

def Seeded (levels : StockLocation → Option StockLevel) : Prop :=
  ∀ loc level, levels loc = some level → loc.stored = loc ∧
    level.check = .ok () ∧ level.reservedQty = 0 ∧ level.allocatedQty = 0

theorem Seeded.checked (seeded : Seeded levels) : Checked (Stack.stocked levels).stock :=
  fun loc level here => ⟨(seeded loc level here).1, (seeded loc level here).2.1⟩

theorem Seeded.empty (seeded : Seeded levels) (loc : StockLocation) :
    (held (Stack.stocked levels).stock loc).2.1 = 0 ∧
      (held (Stack.stocked levels).stock loc).2.2 = 0 := by
  cases here : levels loc with
  | none => simp [held, Stack.stocked, here]
  | some level =>
    obtain ⟨-, -, reserved, allocated⟩ := seeded loc level here
    simp [held, Stack.stocked, here, buckets, reserved, allocated]

def Returnable (rt : Runtime) (req : CreateOrderRequest) : Prop :=
  ∀ t, rt.scan req.tenantId = some t →
    ∀ k ∈ [compensationKey req.tenantId req.orderId, compensationKey t.text req.orderId],
      fits 255 k = true ∧ k ≠ reserveKey req.idempotencyKey

theorem Returnable.own (returns : Returnable rt req) (parse : rt.scan req.tenantId = some t) :
    column 255 req.orderId = req.orderId := by
  have key := fits_column (returns t parse (compensationKey t.text req.orderId) (by simp)).1
  have length := column_eq_iff.1 key
  rw [compensationKey, String.length_append] at length
  exact column_of_le (by omega)

theorem seededOrder_fits {total : Int64} {db : OrderDb} (seeded : Seeded levels)
    (parse : rt.scan req.tenantId = some t) (returns : Returnable rt req)
    (created : OrderSteps.Creatable t req total db) (some_ : req.lines ≠ [])
    (positive : 0 < orderTotal req.lines) : Fits (seededOrder t req levels) where
  regular := by
    refine ⟨returns.own parse, fun empty => some_ (List.map_eq_nil_iff.1 empty),
      storedLine_stored req.lines, lines_positive created,
      fun loc => representable_held seeded.checked loc, fun k member => ?_⟩
    refine reserveKey_column_ne ?_
    rw [fits_column (returns t parse k member).1]
    exact (returns t parse k member).2
  total := by
    rw [← orderTotal_stored] at positive
    exact positive
  seeded loc := seeded.empty loc
  alone := rfl
  returns k member := varchar_keyFits (fits_varchar (returns t parse k member).1)
  canonical := by simp [seededOrder]

def Asked (rt : Runtime) (req : CreateOrderRequest) (levels : StockLocation → Option StockLevel)
    (s : Stack) : Prop :=
  s = .stocked levels ∨ ∃ t, Fits (seededOrder t req levels) ∧
    Accounted rt (seededOrder t req levels) s

theorem createOrder_asked (seeded : Seeded levels) (returns : Returnable rt req) :
    Reaches rt (fun op c s => lossy rt req op c s = true) (fun _ => True)
      (fun _ u => Asked rt req levels u) (createOrder rt req) (.stocked levels) := by
  have idle : Asked rt req levels (.stocked levels) := .inl rfl
  unfold createOrder
  cases parse : rt.scan req.tenantId with
  | none =>
    simp only [parseUUID, parse]
    exact idle
  | some t =>
    simp only [parseUUID, parse]
    split
    · exact idle
    split
    · exact idle
    split
    · exact idle
    rename_i some_ total
    refine reaches_ask trivial fun c answer u ok run => ?_
    rcases exec_createOrderRow run with ⟨rfl, castable, created, rfl⟩ | ⟨⟨e, rfl⟩, rfl⟩
    · have fit := seededOrder_fits seeded parse returns created some_ (Int64.not_le.1 total)
      have fresh : Fresh (seededOrder t req levels) (.stocked levels) :=
        seededOrder_fresh seeded.checked
      have start := fresh.created rt (returns.own parse) rfl rfl created
      have faults : Faults (seededOrder t req levels) False
          (fun op c s => lossy rt req op c s = true) := lossy_faults parse
      have saga : Reaches rt (fun op c s => lossy rt req op c s = true) (fun _ => True)
          (fun _ u => Leaves rt (seededOrder t req levels) False u)
          (runSaga rt ⟨req.tenantId, t, req.orderId, req.lines, req.idempotencyKey,
            ttlOrDefault req.ttlSeconds, req.forcePaymentFailure⟩)
          { Stack.stocked levels with
            order := OrderSteps.orderCreated rt t req (orderTotal req.lines)
              (Stack.stocked levels).order } := by
        by_cases whole : column 255 req.idempotencyKey = req.idempotencyKey ∧
            req.lines.map storedLine = req.lines
        · have drives : DrivesReturning rt (seededOrder t req levels) req.tenantId req.lines :=
            ⟨⟨castable, parse, .of_eq whole.2.symm⟩, by simp [seededOrder]⟩
          have run : Reaches rt (fun op c s => lossy rt req op c s = true) (fun _ => True)
              (fun _ u => Leaves rt (seededOrder t req levels) False u)
              (runSaga rt (driven (seededOrder t req levels) req.tenantId req.lines
                (ttlOrDefault req.ttlSeconds) req.forcePaymentFailure)) _ :=
            runSaga_live fit faults drives
              (.inr ⟨_, _, _, start, .inl ⟨rfl, rfl⟩, fun eq => by cases eq⟩)
          have key : (seededOrder t req levels).key = req.idempotencyKey := whole.1
          rwa [driven, key] at run
        · refine wp_mono (fun _ u free => .inl (.inl ?_)) (runSaga_refused
            (x := seededOrder t req levels) faults.inner parse rfl whole trivial start)
          exact free.elim (fun at_ => ⟨_, at_⟩) fun at_ => ⟨_, at_⟩
      exact wp_mono (fun _ u leaves => .inr ⟨t, fit, leaves.imp_right And.left⟩) saga
    · cases e with
      | idempotentReplay =>
        refine reaches_ask trivial fun c answer v ok run => ?_
        have same : v = .stocked levels := exec_getSaga run
        subst same
        cases answer with
        | error e => exact idle
        | ok saga => exact idle
      | _ => exact idle

theorem pass_none {a : Unit} (quiet : resumableSagas s.order = [])
    (none_ : ∀ row ∈ s.reservation.reservations, row.status ≠ .active)
    (run : runWith (machine rt) 0 check choices (pass.code rt) s = some (a, s')) : s' = s := by
  refine wp_returns (Q := fun _ t => t = s) (I := fun _ => True) (exec_of_runWith _ _ run) ?_
  cases pass with
  | resume limit => exact reaches_then (resume_none trivial quiet) fun _ _ same => same
  | sweep batch => exact sweep_none trivial none_

theorem pass_asked {a : Unit} (h : Asked rt req levels s)
    (run : runWith (machine rt) 0 orderly choices (pass.code rt) s = some (a, s')) :
    Asked rt req levels s' := by
  rcases h with rfl | ⟨t, fit, at_⟩
  · exact .inl (pass_none rfl (fun row member => by cases member) run)
  · refine .inr ⟨t, fit, wp_returns (Q := fun _ u => Accounted rt (seededOrder t req levels) u)
      (I := fun _ => True) (exec_of_runWith _ _ run) ?_⟩
    cases pass with
    | resume limit =>
      exact reaches_then (resume_live fit orderly_faults at_) fun _ _ after => after.1
    | sweep batch => exact sweep_live fit orderly_faults orderly_sweeps at_

theorem settle_asked {passes : List (Pass × List Choice)} (h : Asked rt req levels s)
    (run : settle rt orderly passes s = some s') : Asked rt req levels s' := by
  induction passes generalizing s with
  | nil =>
    cases run
    exact h
  | cons pass rest ih =>
    simp only [settle] at run
    split at run
    · rename_i a u first
      exact ih (pass_asked h first) run
    · cases run

theorem settle_one (run : settle rt check [(pass, choices)] s = some s') :
    ∃ a, runWith (machine rt) 0 check choices (pass.code rt) s = some (a, s') := by
  simp only [settle] at run
  split at run
  · rename_i a u first
    cases run
    exact ⟨a, first⟩
  · cases run

/-- With nothing reserved, every unit is where it was seeded or allocated. -/
theorem clear_units {x : Order} (fit : Fits x) (h : Clear x s) (loc : StockLocation) :
    (held s.stock loc).2.1 = 0 ∧
      (held s.stock loc).1 + (held s.stock loc).2.2 = (x.base loc).1 := by
  rcases h with ⟨state, at_⟩ | done
  · obtain ⟨reserved, allocated⟩ := fit.seeded loc
    rw [at_.stock.levels]
    simp [Hold.shift, reserved, allocated]
  · exact ⟨done.empty loc, done.kept loc⟩

end Runs

/-- Whichever other calls were lost, once the passes move nothing any more, no
unit is reserved and none is missing. -/
theorem units_accounted (rt : Runtime) (req : CreateOrderRequest)
    (levels : StockLocation → Option StockLevel) (s s₁ s₂ : Stack) (first again last : List Choice)
    (passes : List (Pass × List Choice)) (limit batch : Int32) (seeded : Seeded levels)
    (returns : Returnable rt req)
    (run : createThenSettle rt (lossy rt req) orderly req first passes (.stocked levels) = some s)
    (some_ : 1 ≤ limit.toInt) (resumed : settle rt orderly [(.resume limit, again)] s = some s₁)
    (swept : settle rt orderly [(.sweep batch, last)] s₁ = some s₂)
    (still : held s₁.stock = held s.stock ∧ held s₂.stock = held s₁.stock) (loc : StockLocation) :
    (held s.stock loc).2.1 = 0 ∧ (held s.stock loc).1 + (held s.stock loc).2.2 =
      (held (Stack.stocked levels).stock loc).1 := by
  have asked : Asked rt req levels s := by
    unfold createThenSettle at run
    split at run
    · rename_i a u created
      have start : Asked rt req levels u := wp_returns (Q := fun _ u => Asked rt req levels u)
        (exec_of_runWith _ _ created) (createOrder_asked seeded returns)
      exact settle_asked start run
    · cases run
  rcases asked with rfl | ⟨t, fit, at_⟩
  · obtain ⟨reserved, allocated⟩ := seeded.empty loc
    rw [reserved, allocated, add_zero]
    exact ⟨rfl, rfl⟩
  · obtain ⟨a, resume⟩ := settle_one resumed
    obtain ⟨b, sweep⟩ := settle_one swept
    have idle := wp_returns (Q := fun _ u => Idle rt (seededOrder t req levels) u)
      (exec_of_runWith _ _ resume) (reaches_then (resume_live fit orderly_faults at_)
        fun _ _ after => after.2 some_)
    have clear := wp_returns (Q := fun _ u => Clear (seededOrder t req levels) u)
      (exec_of_runWith _ _ sweep) (sweep_idle fit orderly_faults orderly_sweeps idle)
    have units := clear_units fit clear loc
    rw [still.2, still.1] at units
    exact units

def Choice.late (picks : List ℕ) : Choice := ⟨false, true, 1000000000000, picks, "tx"⟩

def Choice.lost : Choice := ⟨false, false, 0, [], "tx"⟩

def quietStack (s : Stack) : Bool :=
  (resumableSagas s.order).isEmpty &&
    s.reservation.reservations.all fun row => row.status ≠ .active

theorem settle_quiet {rt : Runtime} {check : Check} {pass : Pass} {s : Stack}
    (quiet : quietStack s = true)
    (some_ : (settle rt check [(pass, choices)] s).isSome = true) :
    settle rt check [(pass, choices)] s = some s := by
  obtain ⟨s', run⟩ := Option.isSome_iff_exists.1 some_
  obtain ⟨a, first⟩ := settle_one run
  simp only [quietStack, Bool.and_eq_true, List.isEmpty_iff, List.all_eq_true,
    decide_eq_true_eq] at quiet
  rw [run, pass_none quiet.1 quiet.2 first]

theorem units_accounted_lost_answer : ∃ s, createThenSettle (reference [])
      (lossy (reference []) (sampleOrder "ord-1" "key-1")) orderly (sampleOrder "ord-1" "key-1")
      (List.replicate 8 .healthy ++ [Choice.lost, .healthy])
      [(.sweep 100,
        [Choice.late [], Choice.late [0], Choice.late [0]] ++ List.replicate 5 .healthy)]
      sampleStack = some s ∧ (held s.stock ⟨sampleTenant, "SKU", "W1"⟩).2.1 = 0 := by
  have ends : (createThenSettle (reference [])
      (lossy (reference []) (sampleOrder "ord-1" "key-1")) orderly (sampleOrder "ord-1" "key-1")
      (List.replicate 8 .healthy ++ [Choice.lost, .healthy])
      [(.sweep 100,
        [Choice.late [], Choice.late [0], Choice.late [0]] ++ List.replicate 5 .healthy)]
      sampleStack).map (fun s => (quietStack s,
        (settle (reference []) orderly [(.resume 100, [.healthy])] s).isSome,
        (settle (reference []) orderly
          [(.sweep 100, List.replicate 3 (Choice.late []))] s).isSome)) =
      some (true, true, true) := by
    rw [reference_recognizing]
    decide +kernel
  obtain ⟨s, run, facts⟩ := Option.map_eq_some_iff.1 ends
  obtain ⟨quiet, resumes, sweeps⟩ : _ = true ∧ _ = true ∧ _ = true := by
    simpa only [Prod.mk.injEq] using facts
  have units := units_accounted (reference []) (sampleOrder "ord-1" "key-1") _ s s s _ _ _ _ 100 100
    ?_ ?_ run (by decide) (settle_quiet quiet resumes) (settle_quiet quiet sweeps) ⟨rfl, rfl⟩
    ⟨sampleTenant, "SKU", "W1"⟩
  · exact ⟨s, run, units.1⟩
  · intro loc level here
    simp only at here
    split at here
    · rename_i same
      cases here
      exact ⟨same ▸ rfl, by decide⟩
    · cases here
  · intro t parse
    have same : t = sampleTenant := Option.some.inj (parse.symm.trans (by decide))
    subst same
    decide

/-- The confirmation is lost on its way. The saga fails with its rows allocated,
where neither pass finds them, and the units stay reserved. -/
theorem lost_confirmation_strands_units : ∃ s, createThenSettle (reference []) unreliable calm
      (sampleOrder "ord-1" "key-1") (List.replicate 17 .healthy ++ [Choice.lost, .healthy]) []
      sampleStack = some s ∧
    settle (reference []) calm [(.resume 100, [.healthy])] s = some s ∧
    settle (reference []) calm [(.sweep 100, List.replicate 3 (Choice.late []))] s = some s ∧
    sagaState s sampleTenant "ord-1" = some .failed ∧
    held s.stock ⟨sampleTenant, "SKU", "W1"⟩ = (3, 2, 0) := by
  have ends : (createThenSettle (reference []) unreliable calm (sampleOrder "ord-1" "key-1")
      (List.replicate 17 .healthy ++ [Choice.lost, .healthy]) [] sampleStack).map (fun s =>
        (quietStack s && (settle (reference []) calm [(.resume 100, [.healthy])] s).isSome &&
          (settle (reference []) calm [(.sweep 100, List.replicate 3 (Choice.late []))] s).isSome,
          sagaState s sampleTenant "ord-1", held s.stock ⟨sampleTenant, "SKU", "W1"⟩)) =
      some (true, some .failed, (3, 2, 0)) := by
    rw [reference_recognizing]
    decide +kernel
  obtain ⟨s, run, facts⟩ := Option.map_eq_some_iff.1 ends
  simp only [Prod.mk.injEq, Bool.and_eq_true] at facts
  obtain ⟨⟨⟨quiet, resumes⟩, sweeps⟩, state, units⟩ := facts
  exact ⟨s, run, settle_quiet quiet resumes, settle_quiet quiet sweeps, state, units⟩

end Taper.UnitAccounting
