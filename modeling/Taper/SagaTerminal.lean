import Taper.StackSteps
import Taper.ServiceRules

set_option autoImplicit false

/-!
# Terminal saga states under interleaving

`transition` writes the new state whatever the old one is, so a terminal state
is kept only by the handlers, which read the state before they act on it.
-/
namespace Taper.SagaTerminal
open Messages Platform OrderTables OrderSteps Program ServiceStack Services ServiceRules StackSteps

def terminal : SagaState → Bool
  | .confirmed | .compensated | .failed => true
  | _ => false

def Settled (s : Stack) (t : UUID) (o : String) : Prop :=
  ∃ state, sagaState s t o = some state ∧ terminal state = true

/-- What the operations answer about a settled saga: the order is not created
again, its state is read as terminal, and the scan does not list it. -/
def AnswersSettled (t : UUID) (o : String) : (op : Op) → Resp op → Prop
  | .createOrderRow u req _, r => u = t → req.orderId = o → r ≠ .ok ()
  | .getSagaInstance _ u orderID, r =>
    u = t → orderID = o → ∀ saga, r = .ok saga → terminal saga.state = true
  | .getResumableSagas _, r => ∀ sagas, r = .ok sagas → ∀ saga ∈ sagas, sagaKey saga ≠ (t, o)
  | _, _ => True

def WritesSaga (t : UUID) (o : String) : Op → Prop
  | .transition _ u orderID _ _ _ => u = t ∧ orderID = o
  | _ => False

def Leaves (t : UUID) (o : String) (p : Code Unit) : Prop :=
  Safe (AnswersSettled t o) (WritesSaga t o) (fun _ => True) p

theorem writesSaga_plain (t : UUID) (o : String) (op : Op) (h : special op = false) :
    ¬WritesSaga t o op := by
  cases op with
  | transition tenantID u orderID state step errMsg => cases h
  | _ => exact id

theorem sagaSafe_of_ne {rt : Runtime} {ok : (op : Op) → Resp op → Prop} {t : UUID} {o : String}
    {input : SagaInput} (coherent : rt.scan input.tenantID = some input.tenantUUID)
    (other : ¬(input.tenantUUID = t ∧ input.orderID = o)) :
    SagaSafe rt ok (WritesSaga t o) input where
  coherent := coherent
  undo _ _ _ _ := id
  insert _ _ := id
  transition _ _ _ _ _ := other
  rows := ⟨fun _ _ => id, fun _ _ _ _ => ⟨id, id⟩⟩
  allocate _ _ := id
  confirm _ _ _ := other
  charge _ := id

/-- A handler that has read nothing yet leaves every settled saga alone. -/
theorem handlers_leave (rt : Runtime) (t : UUID) (o : String) :
    HandlersSafe rt (AnswersSettled t o) (WritesSaga t o) where
  plain := writesSaga_plain t o
  undo _ _ _ _ _ _ _ := id
  insert _ _ _ := id
  release _ := ⟨fun _ _ => id, fun _ _ _ _ => ⟨id, id⟩⟩
  allocate _ _ := id
  sweep _ _ _ _ := ⟨fun _ => id, fun _ _ => id⟩
  create _ _ _ := id
  created u req total parse created := sagaSafe_of_ne parse fun same => created same.1 same.2 rfl
  cancel tenantID u orderID saga parse given state state' step msg _ _ same := by
    have settled : terminal saga.state = true := given same.1 same.2 saga rfl
    rcases state with pending | reserved
    · rw [pending] at settled
      cases settled
    · rw [reserved] at settled
      cases settled
  resumed limit sagas given saga member lines _ :=
    sagaSafe_of_ne (rt.scan_text saga.tenantID) fun same =>
      given sagas rfl saga member (Prod.ext same.1 same.2)

def ScanDistinct : (op : Op) → Resp op → Prop
  | .getResumableSagas _, r => ∀ sagas, r = .ok sagas → (sagas.map sagaKey).Nodup
  | _, _ => True

def Settles (t : UUID) (o : String) : (op : Op) → Resp op → Prop
  | .transition _ u orderID state _ _, r =>
    u = t ∧ orderID = o ∧ terminal state = true ∧ r = .ok ()
  | _, _ => False

def SettlesOnce {α : Type} (t : UUID) (o : String) (Q : α → Prop) (p : Code α) : Prop :=
  SafeAfter ScanDistinct (Settles t o) (AnswersSettled t o) (WritesSaga t o) Q p

section

variable {α : Type} {rt : Runtime} {t : UUID} {o : String}

theorem settles_plain (op : Op) (h : special op = false) : ¬∃ r, Settles t o op r := by
  cases op with
  | transition tenantID u orderID state step errMsg => cases h
  | _ => exact fun ⟨_, settled⟩ => settled

theorem releaseSafe_settles {req : ReleaseRequest} :
    ReleaseSafe rt ScanDistinct (fun op => ∃ r, Settles t o op r) req :=
  ⟨fun _ _ ⟨_, settled⟩ => settled,
    fun _ _ _ _ => ⟨fun ⟨_, settled⟩ => settled, fun ⟨_, settled⟩ => settled⟩⟩

theorem allocate_quiet {req : AllocateReservationRequest} :
    Safe ScanDistinct (fun op => ∃ r, Settles t o op r) (fun _ => True)
      (allocateReservation rt req) :=
  safe_mono (fun _ _ => trivial) (allocateReservation_safe fun _ _ ⟨_, settled⟩ => settled)

theorem reserve_quiet {req : ReserveRequest} :
    Safe ScanDistinct (fun op => ∃ r, Settles t o op r) (fun _ => True) (reserve rt req) :=
  safe_mono (fun _ _ => trivial) (reserve_safe settles_plain
    (fun _ _ _ _ _ _ ⟨_, settled⟩ => settled) fun _ _ _ _ ⟨_, settled⟩ => settled)

theorem settlesOnce_then {op : Op} {f : Resp op → Code α} {Q : α → Prop}
    (plain : special op = false) (rest : ∀ r, SettlesOnce t o Q (f r)) :
    SettlesOnce t o Q (ask op >>= f) :=
  safeAfter_unmarked (safe_ask (settles_plain op plain) fun _ _ => trivial) fun r _ => rest r

/-- A transition after which the handler returns whenever it has committed. -/
theorem settlesOnce_transition {tenantID orderID errMsg : String} {u : UUID} {state : SagaState}
    {step : Int32} {f : Except Failure Unit → Code α} {Q : α → Prop}
    (after : terminal state = true → Safe (AnswersSettled t o) (WritesSaga t o) Q (f (.ok ())))
    (rest : ∀ answer, SettlesOnce t o Q (f answer)) :
    SettlesOnce t o Q (ask (.transition tenantID u orderID state step errMsg) >>= f) := by
  intro answer _
  refine ⟨fun settled => ?_, rest answer⟩
  have committed : answer = .ok () := settled.2.2.2
  rw [committed]
  exact after settled.2.2.1

theorem compensate_settlesOnce (tenantID orderID reason : String) :
    SettlesOnce t o (fun answer => answer = .ok ()) (compensate rt tenantID orderID reason) := by
  unfold compensate
  split
  · trivial
  · refine safeAfter_unmarked (safe_rpc settles_plain trivial
      (release_safe settles_plain releaseSafe_settles)) fun answer _ => ?_
    cases answer with
    | error e => trivial
    | ok resp => exact safeAfter_perform fun r _ settled => settled.2.2.2

theorem failSaga_settlesOnce {Q : α → Prop} (tenantID orderID msg : String) (a : α) (h : Q a) :
    SettlesOnce t o Q (failSaga rt tenantID orderID msg >>= fun _ => pure a) := by
  unfold failSaga
  split
  · trivial
  · exact settlesOnce_transition (fun _ => h) fun _ => trivial

theorem confirmSteps_settlesOnce (input : SagaInput) (txnID : String) :
    SettlesOnce t o (fun _ => True) (confirmSteps rt input txnID) := by
  refine safeAfter_unmarked (safe_rpc settles_plain trivial allocate_quiet) fun answer _ => ?_
  cases answer with
  | error e => exact failSaga_settlesOnce _ _ _ _ trivial
  | ok resp =>
    refine settlesOnce_then rfl fun allowed => ?_
    cases allowed with
    | false => trivial
    | true =>
      refine safeAfter_unmarked (safe_rpc settles_plain trivial
        (confirm_safe settles_plain _)) fun answer _ => ?_
      cases answer with
      | error e => exact failSaga_settlesOnce _ _ _ _ trivial
      | ok resp =>
        refine settlesOnce_transition (fun _ => trivial) fun moved => ?_
        cases moved with
        | error e => trivial
        | ok u => trivial

theorem paySteps_settlesOnce (input : SagaInput) :
    SettlesOnce t o (fun _ => True) (paySteps rt input) := by
  refine safeAfter_unmarked (chargeStep_safe settles_plain fun ⟨_, settled⟩ => settled)
    fun charged _ => ?_
  split
  · trivial
  · refine safeAfter_bind (compensate_settlesOnce _ _ _) ?_ fun compensated => ?_
    · rintro _ rfl
      trivial
    · cases compensated with
      | error e => exact failSaga_settlesOnce _ _ _ _ trivial
      | ok u => trivial
  · refine settlesOnce_then rfl fun recorded => ?_
    cases recorded with
    | error e => trivial
    | ok u => exact confirmSteps_settlesOnce input _

theorem runSaga_settlesOnce (input : SagaInput) :
    SettlesOnce t o (fun _ => True) (runSaga rt input) := by
  refine settlesOnce_then rfl fun allowed => ?_
  cases allowed with
  | false => trivial
  | true =>
    refine safeAfter_unmarked (safe_rpc settles_plain trivial reserve_quiet) fun answer _ => ?_
    cases answer with
    | error e => exact failSaga_settlesOnce _ _ _ _ trivial
    | ok resp =>
      dsimp only
      split
      · exact failSaga_settlesOnce _ _ _ _ trivial
      · refine settlesOnce_transition (fun settled => by cases settled) fun moved => ?_
        cases moved with
        | error e => trivial
        | ok u => exact paySteps_settlesOnce input

theorem cancelOrder_settlesOnce (req : CancelOrderRequest) :
    SettlesOnce t o (fun _ => True) (cancelOrder rt req) := by
  unfold cancelOrder
  split
  · trivial
  · refine settlesOnce_then rfl fun found => ?_
    cases found with
    | error e => trivial
    | ok saga =>
      dsimp only
      split
      · trivial
      · split
        · trivial
        · refine safeAfter_bind (compensate_settlesOnce _ _ _) ?_ fun compensated => ?_
          · rintro _ rfl
            trivial
          · cases compensated with
            | error e => trivial
            | ok u => trivial

theorem resumeEach_settlesOnce {sagas : List SagaInstance} (once : (sagas.map sagaKey).Nodup) :
    SettlesOnce t o (fun _ => True) (resumeEach rt sagas) := by
  refine resumeEach_after (t, o) settles_plain (writesSaga_plain t o) once
    (fun saga lines => runSaga_settlesOnce _) fun saga lines other => ⟨?_, ?_⟩
  · have quiet : ∀ tenantID state step msg,
        ¬∃ r, Settles t o (.transition tenantID saga.tenantID saga.orderID state step msg) r := by
      rintro tenantID state step msg ⟨_, settled⟩
      exact other (Prod.ext settled.1 settled.2.1)
    exact ⟨rt.scan_text saga.tenantID, fun _ _ _ _ ⟨_, settled⟩ => settled,
      fun _ _ ⟨_, settled⟩ => settled, fun _ _ _ _ _ => quiet _ _ _ _, releaseSafe_settles,
      fun _ _ ⟨_, settled⟩ => settled, fun _ _ _ => quiet _ _ _ _, fun _ ⟨_, settled⟩ => settled⟩
  · exact sagaSafe_of_ne (rt.scan_text saga.tenantID) fun same => other (Prod.ext same.1 same.2)

theorem resumePendingSagas_settlesOnce (limit : Int32) :
    SettlesOnce t o (fun _ => True) (resumePendingSagas rt limit) := by
  intro found distinct
  refine ⟨fun settled => settled.elim, ?_⟩
  cases found with
  | error e => trivial
  | ok sagas => exact resumeEach_settlesOnce (distinct sagas rfl)

theorem handler_settlesOnce (h : Handler) : SettlesOnce t o (fun _ => True) (h.code rt) := by
  have served : ∀ {β : Type} {p : Code β}, SettlesOnce t o (fun _ => True) p →
      SettlesOnce t o (fun _ => True) (serve p) :=
    fun once => safeAfter_bind once (fun _ _ => trivial) fun _ => trivial
  have quiet : ∀ {β : Type} {p : Code β},
      Safe ScanDistinct (fun op => ∃ r, Settles t o op r) (fun _ => True) p →
        SettlesOnce t o (fun _ => True) (serve p) :=
    fun safe => safeAfter_unmarked safe fun _ _ => trivial
  have unsettled : ∀ req rows, ¬∃ r, Settles t o (.releaseStock req rows) r :=
    fun _ _ ⟨_, settled⟩ => settled
  cases h with
  | createOrder req =>
    exact served (createOrder_after settles_plain (fun _ _ ⟨_, settled⟩ => settled)
      fun _ _ => runSaga_settlesOnce _)
  | cancelOrder req => exact served (cancelOrder_settlesOnce req)
  | resumePendingSagas limit => exact served (resumePendingSagas_settlesOnce limit)
  | reserve req => exact quiet reserve_quiet
  | release req => exact quiet (release_safe settles_plain releaseSafe_settles)
  | allocateReservation req => exact quiet allocate_quiet
  | sweepOnce batch =>
    exact quiet (sweepOnce_safe settles_plain fun _ _ _ =>
      ⟨fun _ => unsettled _ _, fun _ _ ⟨_, settled⟩ => settled⟩)

end

section Steps

variable {rt : Runtime} {me : ℕ} {op : Op} {c : Choice} {s s' : Stack} {r : Resp op} {t : UUID}
  {o : String}

theorem exec_saga (h : exec rt me op c s = some (r, s')) :
    sagaState s' t o = sagaState s t o ∨
    (sagaState s t o = none ∧ sagaState s' t o = some .pendingPayment) ∨
    (WritesSaga t o op ∧ ∃ state, sagaState s' t o = some state ∧
      (terminal state = true → Settles t o op r)) := by
  unfold sagaState
  rcases exec_order_cases h with same | write
  · exact .inl (by rw [same])
  · generalize after : s'.order = db at write
    cases write with
    | @created u req total ok =>
      by_cases same : t = u ∧ o = column 255 req.orderId
      · obtain ⟨rfl, rfl⟩ := same
        refine .inr (.inl ⟨by rw [ok.noSaga]; rfl, ?_⟩)
        simp [orderCreated, newSaga]
      · refine .inl ?_
        simp only [orderCreated]
        rw [setCell_other _ _ same]
    | @moved tenantID u orderID state step errMsg row saga order found fits =>
      by_cases same : t = u ∧ o = orderID
      · obtain ⟨rfl, rfl⟩ := same
        refine .inr (.inr ⟨⟨rfl, rfl⟩, state, by simp [transitioned, movedTo], fun settled => ?_⟩)
        refine ⟨rfl, rfl, settled, ?_⟩
        rcases orderTx_some h with ⟨u, db, answer, -, -⟩ | ⟨⟨e, -⟩, idle⟩
        · exact answer
        · -- A failed transaction leaves the outbox without the new event.
          have length := congrArg (fun db : OrderDb => db.outbox.length) after
          simp [idle, transitioned] at length
      · refine .inl ?_
        simp only [transitioned]
        rw [setCell_other _ _ same]
    | recorded order => exact .inl rfl

theorem exec_scanDistinct (h : exec rt me op c s = some (r, s')) (listed : Listed s.order) :
    ScanDistinct op r := by
  cases op with
  | getResumableSagas limit =>
    intro sagas answer
    simp only [exec] at h
    split at h
    · simp [answer] at h
    · have answered := congrArg Prod.fst (Option.some.inj h)
      rcases (getResumableSagas limit).commit_cases s.order with ⟨found, db, run, eq⟩ | ⟨e, -, eq⟩
      · rw [eq, answer] at answered
        have same : found = sagas := Except.ok.inj answered
        have spec := getResumable_ok_iff.1 run
        rw [← same, spec.2.1, List.map_take]
        exact (List.take_sublist _ _).nodup (resumableSagas_spec listed).1
      · rw [eq, answer] at answered
        cases answered
  | _ => trivial

theorem exec_answersSettled (h : exec rt me op c s = some (r, s')) (listed : Listed s.order)
    (settled : Settled s t o) : AnswersSettled t o op r := by
  obtain ⟨state, at_, final⟩ := settled
  obtain ⟨saga, found, rfl⟩ := Option.map_eq_some_iff.1 at_
  cases op with
  | createOrderRow u req total =>
    rintro rfl rfl answer
    rcases orderTx_some h with ⟨_, db, -, run, -⟩ | ⟨⟨e, error⟩, -⟩
    · have absent := (createOrderRow_ok_iff.1 run).1.noSaga
      rw [listed.within u req.orderId saga found, found] at absent
      cases absent
    · rw [error] at answer
      cases answer
  | getSagaInstance tenantID u orderID =>
    rintro rfl rfl read answer
    rcases orderTx_some h with ⟨got, db, eq, run, -⟩ | ⟨⟨e, error⟩, -⟩
    · have here := (getSaga_ok_iff.1 run).2.1
      rw [eq] at answer
      have same : got = read := Except.ok.inj answer
      rw [found, same] at here
      cases here
      exact final
    · rw [error] at answer
      cases answer
  | getResumableSagas limit =>
    intro sagas answer listedSaga member same
    simp only [exec] at h
    split at h
    · simp [answer] at h
    · have answered := congrArg Prod.fst (Option.some.inj h)
      rcases (getResumableSagas limit).commit_cases s.order with ⟨got, db, run, eq⟩ | ⟨e, -, eq⟩
      · rw [eq, answer] at answered
        have equal : got = sagas := Except.ok.inj answered
        have spec := getResumable_ok_iff.1 run
        rw [← equal, spec.2.1] at member
        have row := (resumableSagas_spec listed).2 listedSaga (List.mem_of_mem_take member)
        have key := Prod.mk.inj same
        rw [key.1, key.2, found] at row
        have isSaga : saga = listedSaga := Option.some.inj row.1
        subst isSaga
        rcases row.2 with pending | reserved
        · rw [pending] at final
          cases final
        · rw [reserved] at final
          cases final
      · rw [eq, answer] at answered
        cases answered
  | _ => trivial

theorem exec_keeps (h : exec rt me op c s = some (r, s')) (settled : Settled s t o)
    (quiet : ¬WritesSaga t o op) : sagaState s' t o = sagaState s t o := by
  rcases exec_saga h with same | ⟨absent, -⟩ | ⟨writes, -⟩
  · exact same
  · obtain ⟨state, at_, -⟩ := settled
    rw [absent] at at_
    cases at_
  · exact absurd writes quiet

end Steps

/-- The condition on a move: a terminal state is written only while every other
handler in flight leaves the saga alone from there on. -/
def Exclusive (pool : StackPool) : Move Handler Choice → Prop
  | .step i _ => ∀ tenantID t o state step errMsg k,
    pool.threads i = some (.step (.transition tenantID t o state step errMsg) k) →
    terminal state = true → ∀ j q, j ≠ i → pool.threads j = some q → Leaves t o q
  | _ => True

structure Inv (pool : StackPool) : Prop where
  listed : Listed pool.state.order
  once : ∀ i p, pool.threads i = some p → ∀ t o, SettlesOnce t o (fun _ => True) p
  leaves : ∀ i p, pool.threads i = some p → ∀ t o, Settled pool.state t o → Leaves t o p

theorem next_inv {rt : Runtime} {pool after : StackPool} {m : Move Handler Choice}
    (inv : Inv pool) (exclusive : Exclusive pool m)
    (next : pool.next (machine rt) (Handler.code rt) m = some after) : Inv after := by
  rcases Pool.next_cases next with ⟨i, x, rfl, -, rfl⟩ | ⟨i, c, op, k, r, s', rfl, at_, run, rfl⟩ |
      ⟨i, rfl, -, rfl⟩
  · refine ⟨inv.listed, ?_, ?_⟩
    · exact Pool.set_some (fun t o => handler_settlesOnce x) inv.once
    · exact Pool.set_some (fun t o _ => (handlers_leave rt t o).safe x) inv.leaves
  · have fair := exec_scanDistinct run inv.listed
    have once := inv.once i _ at_
    refine ⟨exec_listed run inv.listed, ?_, ?_⟩
    · exact Pool.set_some (fun t o => (once t o r fair).2) inv.once
    · -- A saga settled before was settled for everyone; one settled now is settled by this move.
      have before : ∀ t o, Settled s' t o →
          Settled pool.state t o ∨ (WritesSaga t o op ∧ Settles t o op r) := by
        rintro t o ⟨state, now, final⟩
        rcases exec_saga run with same | ⟨-, pending⟩ | ⟨writes, state', now', settles⟩
        · exact .inl ⟨state, same ▸ now, final⟩
        · rw [pending] at now
          cases now
          cases final
        · rw [now'] at now
          cases now
          exact .inr ⟨writes, settles final⟩
      refine Pool.set_threads (fun q new => ?_) fun j q other old t o settled => ?_
      · cases new
        intro t o settled
        rcases before t o settled with earlier | ⟨-, settles⟩
        · exact (inv.leaves i _ at_ t o earlier).2 r (exec_answersSettled run inv.listed earlier)
        · exact (once t o r fair).1 settles
      · rcases before t o settled with earlier | ⟨writes, settles⟩
        · exact inv.leaves j q old t o earlier
        · cases op with
          | transition tenantID u orderID state step errMsg =>
            obtain ⟨rfl, rfl⟩ := writes
            exact exclusive _ _ _ _ _ _ k at_ settles.2.2.1 j q other old
          | _ => exact absurd writes id
  · refine ⟨inv.listed, ?_, ?_⟩
    · exact Pool.set_none inv.once
    · exact Pool.set_none inv.leaves

theorem next_keeps {rt : Runtime} {pool after : StackPool} {m : Move Handler Choice}
    (inv : Inv pool) (next : pool.next (machine rt) (Handler.code rt) m = some after) {t : UUID}
    {o : String} (settled : Settled pool.state t o) :
    sagaState after.state t o = sagaState pool.state t o := by
  rcases Pool.next_cases next with ⟨i, x, rfl, -, rfl⟩ | ⟨i, c, op, k, r, s', rfl, at_, run, rfl⟩ |
      ⟨i, rfl, -, rfl⟩
  · rfl
  · exact exec_keeps run settled (inv.leaves i _ at_ t o settled).1
  · rfl

theorem idle_inv {s : Stack} (listed : Listed s.order) : Inv (idle s) where
  listed := listed
  once i p h := by cases h
  leaves i p h := by cases h

/-- In every run in which terminal states are written exclusively, a terminal
state, once reached, is never left. -/
theorem terminal_absorbing (rt : Runtime) (start : Stack) (listed : Listed start.order)
    (moves later : List (Move Handler Choice)) (pool after : StackPool)
    (keeps : Pool.Keeps (machine rt) (Handler.code rt) Exclusive (moves ++ later) (idle start))
    (run : Pool.run (machine rt) (Handler.code rt) moves (idle start) = some pool)
    (rest : Pool.run (machine rt) (Handler.code rt) later pool = some after) (t : UUID) (o : String)
    (state : SagaState) (reached : sagaState pool.state t o = some state)
    (final : terminal state = true) : sagaState after.state t o = some state := by
  have halves := Pool.keeps_append keeps
  have inv : Inv pool := Pool.run_invariant Inv (fun _ _ _ inv cond next => next_inv inv cond next)
    halves.1 run (idle_inv listed)
  have both : Inv after ∧ sagaState after.state t o = some state := by
    refine Pool.run_invariant (fun p => Inv p ∧ sagaState p.state t o = some state) ?_
      (halves.2 pool run) rest ⟨inv, reached⟩
    rintro p m q ⟨inv, here⟩ cond next
    exact ⟨next_inv inv cond next, (next_keeps inv next ⟨state, here, final⟩).trans here⟩
  exact both.2

theorem exclusive_alone (pool : StackPool) (m : Move Handler Choice)
    (alone : ∀ j, j ≠ m.thread → pool.threads j = none) : Exclusive pool m := by
  cases m with
  | step i c =>
    intro tenantID t o state step errMsg k _ _ j q other here
    rw [alone j other] at here
    cases here
  | _ => trivial

def lateCancel : List (Move Handler Choice) :=
  [.stop 0, .spawn 0 (.cancelOrder ⟨sampleTenant.text, "ord-1", "", ""⟩), .step 0 .healthy]

theorem terminal_absorbing_confirmed :
    ((Pool.run (machine (reference [])) (Handler.code (reference [])) confirmedOrder
      (idle sampleStack)).bind fun pool =>
        (Pool.run (machine (reference [])) (Handler.code (reference [])) lateCancel pool).map
          fun after => sagaState after.state sampleTenant "ord-1") = some (some .confirmed) := by
  have ends : (Pool.run (machine (reference [])) (Handler.code (reference [])) confirmedOrder
        (idle sampleStack)).map (fun pool => sagaState pool.state sampleTenant "ord-1") =
          some (some .confirmed) ∧
      ((Pool.run (machine (reference [])) (Handler.code (reference [])) confirmedOrder
        (idle sampleStack)).bind fun pool => Pool.run (machine (reference []))
          (Handler.code (reference [])) lateCancel pool).isSome = true := by
    rw [reference_recognizing]
    decide +kernel
  obtain ⟨first, second⟩ := ends
  obtain ⟨pool, run, reached⟩ := Option.map_eq_some_iff.1 first
  rw [run] at second
  obtain ⟨after, rest⟩ := Option.isSome_iff_exists.1 second
  have rest' : Pool.run (machine (reference [])) (Handler.code (reference [])) lateCancel pool =
      some after := rest
  have own : ∀ m ∈ confirmedOrder ++ lateCancel, Move.thread m = 0 := by
    simp [confirmedOrder, lateCancel, Move.thread]
  have kept := terminal_absorbing (reference []) sampleStack listed_empty confirmedOrder lateCancel
    pool after (Pool.keeps_alone exclusive_alone (fun _ _ => rfl) own) run rest' sampleTenant
    "ord-1" .confirmed reached rfl
  rw [run, Option.bind_some, rest', Option.map_some, kept]

def cancelledOrder : List (Move Handler Choice) :=
  .spawn 0 (.createOrder (sampleOrder "ord-1" "key-1")) :: List.replicate 9 (.step 0 .healthy) ++
    .spawn 1 (.cancelOrder ⟨sampleTenant.text, "ord-1", "", ""⟩) ::
      List.replicate 9 (.step 1 .healthy)

/-- The cancelled saga is compensated; the next step of the order's own handler
writes `RESERVED` over it. -/
theorem cancelled_overwritten :
    ((Pool.run (machine (reference [])) (Handler.code (reference [])) cancelledOrder
      (idle sampleStack)).bind fun pool =>
        (pool.next (machine (reference [])) (Handler.code (reference []))
          (.step 0 .healthy)).map fun after =>
            (sagaState pool.state sampleTenant "ord-1",
              sagaState after.state sampleTenant "ord-1")) =
      some (some .compensated, some .reserved) := by
  rw [reference_recognizing]
  decide +kernel

end Taper.SagaTerminal
