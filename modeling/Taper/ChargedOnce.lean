import Taper.SagaTerminal
import Taper.HandlerRuns

set_option autoImplicit false

/-!
# How often the gateway is asked to charge an order

One run of the saga asks once, but a scan takes up every saga that is not
terminal, and a second run charges again.
-/
namespace Taper.ChargedOnce
open Messages Platform OrderTables OrderSteps Program ServiceStack Services ServiceRules StackSteps
open SagaTerminal HandlerRuns

def Charges (rt : Runtime) (t : UUID) (o : String) : Op → Prop
  | .charge req => rt.scan req.tenantID = some t ∧ req.orderID = o
  | _ => False

def TakesUp (t : UUID) (o : String) : (op : Op) → Resp op → Prop
  | .createOrderRow u req _, r => u = t ∧ req.orderId = o ∧ r = .ok ()
  | .getResumableSagas _, r => ∃ sagas, r = .ok sagas ∧ (t, o) ∈ sagas.map sagaKey
  | _, _ => False

/-- The handler charges the order no more, unless it takes it up again. -/
def Idle (rt : Runtime) (t : UUID) (o : String) (p : Code Unit) : Prop :=
  Safe (fun op r => ¬TakesUp t o op r) (Charges rt t o) (fun _ => True) p

def AsksOnce {α : Type} (rt : Runtime) (t : UUID) (o : String) (p : Code α) : Prop :=
  SafeAfter ScanDistinct (fun op _ => Charges rt t o op) (fun op r => ¬TakesUp t o op r)
    (Charges rt t o) (fun _ => True) p

/-- The saga has not moved to `RESERVED` by this answer. -/
def Unmoved (t : UUID) (o : String) : (op : Op) → Resp op → Prop
  | .transition _ u orderID state _ _, r => u = t → orderID = o → state = .reserved → r ≠ .ok ()
  | _, _ => True

/-- The handler does not charge the order before it has moved it to `RESERVED`. -/
def Early (rt : Runtime) (t : UUID) (o : String) (p : Code Unit) : Prop :=
  Safe (Unmoved t o) (Charges rt t o) (fun _ => True) p

def Reopens (t : UUID) (o : String) : Op → Prop
  | .transition _ u orderID state _ _ => u = t ∧ orderID = o ∧ state = .pendingPayment
  | _ => False

/-- The handler never moves the saga back to `PENDING_PAYMENT`. -/
def Forward (t : UUID) (o : String) (p : Code Unit) : Prop :=
  Safe (fun _ _ => True) (Reopens t o) (fun _ => True) p

section Handlers

variable {rt : Runtime} {t : UUID} {o : String} {ok : (op : Op) → Resp op → Prop}

theorem charges_plain (op : Op) (h : special op = false) : ¬Charges rt t o op := by
  cases op with
  | charge req => cases h
  | _ => exact id

theorem saga_uncharged {bad : Op → Prop} {input : SagaInput}
    (only : ∀ op, bad op → Charges rt t o op)
    (coherent : rt.scan input.tenantID = some input.tenantUUID)
    (charge : ok (.transition input.tenantID input.tenantUUID input.orderID .reserved 1 "")
      (.ok ()) → ¬(input.tenantUUID = t ∧ input.orderID = o)) : SagaSafe rt ok bad input where
  coherent := coherent
  undo _ _ _ _ h := only _ h
  insert _ _ h := only _ h
  transition _ _ _ _ _ h := only _ h
  rows := ⟨fun _ _ h => only _ h, fun _ _ _ _ => ⟨fun h => only _ h, fun h => only _ h⟩⟩
  allocate _ _ h := only _ h
  confirm _ _ _ h := only _ h
  charge moved h := by
    have same := only _ h
    refine charge moved ⟨?_, same.2⟩
    exact Option.some.inj (coherent.symm.trans same.1)

theorem handlers_uncharged (created : ∀ u req total, rt.scan req.tenantId = some u →
      ok (.createOrderRow u req total) (.ok ()) →
        SagaSafe rt ok (Charges rt t o) (createInput req u))
    (resumed : ∀ limit sagas, ok (.getResumableSagas limit) (.ok sagas) → ∀ saga ∈ sagas, ∀ lines,
      SagaSafe rt ok (Charges rt t o) (resumeInput saga lines)) :
    HandlersSafe rt ok (Charges rt t o) where
  plain := charges_plain
  undo _ _ _ _ _ _ _ := id
  insert _ _ _ := id
  release _ := ⟨fun _ _ => id, fun _ _ _ _ => ⟨id, id⟩⟩
  allocate _ _ := id
  sweep _ _ _ _ := ⟨fun _ => id, fun _ _ => id⟩
  create _ _ _ := id
  created := created
  cancel _ _ _ _ _ _ _ _ _ _ _ _ := id
  resumed limit sagas given saga member lines _ := resumed limit sagas given saga member lines

theorem handler_idle (x : Handler) : Idle rt t o (x.code rt) := by
  refine (handlers_uncharged (fun u req total parse created => ?_)
    fun limit sagas given saga member lines => ?_).safe x
  · exact saga_uncharged (fun _ h => h) parse fun _ same => created ⟨same.1, same.2, rfl⟩
  · refine saga_uncharged (fun _ h => h) (rt.scan_text saga.tenantID) fun _ same => ?_
    refine given ⟨sagas, rfl, ?_⟩
    exact List.mem_map.2 ⟨saga, member, Prod.ext same.1 same.2⟩

theorem handler_early (x : Handler) : Early rt t o (x.code rt) := by
  have saga : ∀ input, rt.scan input.tenantID = some input.tenantUUID →
      SagaSafe rt (Unmoved t o) (Charges rt t o) input := fun input coherent =>
    saga_uncharged (fun _ h => h) coherent fun moved same => moved same.1 same.2 rfl rfl
  exact (handlers_uncharged (fun _ _ _ parse _ => saga _ parse)
    fun _ _ _ found _ _ => saga _ (rt.scan_text found.tenantID)).safe x

theorem handler_forward (x : Handler) : Forward t o (x.code rt) := by
  have plain : ∀ op, special op = false → ¬Reopens t o op := by
    intro op h
    cases op with
    | transition tenantID u orderID state step errMsg => cases h
    | _ => exact id
  have saga : ∀ input, rt.scan input.tenantID = some input.tenantUUID →
      SagaSafe rt (fun _ _ => True) (Reopens t o) input := fun input coherent =>
    ⟨coherent, fun _ _ _ _ => id, fun _ _ => id, fun _ _ _ _ open_ same => open_ same.2.2,
      ⟨fun _ _ => id, fun _ _ _ _ => ⟨id, id⟩⟩, fun _ _ => id,
      fun _ _ _ same => SagaState.noConfusion same.2.2, fun _ => id⟩
  have handlers : HandlersSafe rt (fun _ _ => True) (Reopens t o) :=
    { plain := plain
      undo := fun _ _ _ _ _ _ _ => id
      insert := fun _ _ _ => id
      release := fun _ => ⟨fun _ _ => id, fun _ _ _ _ => ⟨id, id⟩⟩
      allocate := fun _ _ => id
      sweep := fun _ _ _ _ => ⟨fun _ => id, fun _ _ => id⟩
      create := fun _ _ _ => id
      created := fun _ _ _ parse _ => saga _ parse
      cancel := fun _ _ _ _ _ _ _ _ _ _ _ open_ same => open_ same.2.2
      resumed := fun _ _ _ found _ _ _ => saga _ (rt.scan_text found.tenantID) }
  exact handlers.safe x

theorem charges_quiet (op : Op) (h : special op = false) :
    ¬∃ _ : Resp op, Charges rt t o op := fun ⟨_, charges⟩ => charges_plain op h charges

theorem asksOnce_of_uncharged {α : Type} {p : Code α}
    (h : Safe (fun _ _ => True) (Charges rt t o) (fun _ => True) p) : AsksOnce rt t o p :=
  safeAfter_of_unmarked (safe_mono_bad (fun _ ⟨_, charges⟩ => charges)
    (safe_mono_ok (fun _ _ _ => trivial) h))

theorem asksOnce_then {α β : Type} {p : Code α} {f : α → Code β}
    (h : Safe (fun _ _ => True) (Charges rt t o) (fun _ => True) p)
    (rest : ∀ a, AsksOnce rt t o (f a)) : AsksOnce rt t o (p >>= f) :=
  safeAfter_unmarked (safe_mono_bad (fun _ ⟨_, charges⟩ => charges)
    (safe_mono_ok (fun _ _ _ => trivial) h)) fun a _ => rest a

theorem chargeStep_asksOnce (input : SagaInput) : AsksOnce rt t o (chargeStep input) := by
  unfold chargeStep
  split
  · trivial
  · refine asksOnce_then (safe_ask (charges_plain _ rfl) fun _ _ => trivial) fun allowed => ?_
    cases allowed with
    | false => trivial
    | true => exact fun res _ => ⟨fun _ => trivial, trivial⟩

theorem paySteps_asksOnce {input : SagaInput}
    (coherent : rt.scan input.tenantID = some input.tenantUUID) :
    AsksOnce rt t o (paySteps rt input) := by
  have settle : SettleSafe rt (fun _ _ => True) (Charges rt t o) input :=
    ⟨coherent, fun _ _ _ _ _ => id, ⟨fun _ _ => id, fun _ _ _ _ => ⟨id, id⟩⟩, id, fun _ _ _ => id⟩
  refine paySteps_rest charges_plain settle fun f rest => ?_
  refine safeAfter_bind (chargeStep_asksOnce input) (fun charged _ => ?_) fun charged => ?_
  · exact safe_mono_ok (fun _ _ _ => trivial) (rest charged)
  · exact asksOnce_of_uncharged (rest charged)

theorem runSaga_asksOnce {input : SagaInput}
    (coherent : rt.scan input.tenantID = some input.tenantUUID) :
    AsksOnce rt t o (runSaga rt input) := by
  have fails : ∀ msg, Safe (fun _ _ => True) (Charges rt t o) (fun _ => True)
      (failSaga rt input.tenantID input.orderID msg) :=
    fun msg => failSaga_safe (fun _ _ _ _ _ _ => id) msg
  refine asksOnce_then (safe_ask (charges_plain _ rfl) fun _ _ => trivial) fun allowed => ?_
  cases allowed with
  | false => trivial
  | true =>
    refine asksOnce_then (safe_rpc charges_plain trivial (safe_mono (fun _ _ => trivial)
      (reserve_safe charges_plain (fun _ _ _ _ _ _ => id) fun _ _ _ _ => id))) fun answer => ?_
    cases answer with
    | error e => exact asksOnce_then (fails _) fun _ => trivial
    | ok resp =>
      dsimp only
      split
      · exact asksOnce_then (fails _) fun _ => trivial
      · refine asksOnce_then (safe_ask id fun _ _ => trivial) fun moved => ?_
        cases moved with
        | error e => trivial
        | ok u => exact paySteps_asksOnce coherent

theorem handler_asksOnce (x : Handler) : AsksOnce rt t o (x.code rt) := by
  have served : ∀ {β : Type} {p : Code β}, AsksOnce rt t o p → AsksOnce rt t o (serve p) :=
    fun once => safeAfter_bind once (fun _ _ => trivial) fun _ => trivial
  have release : ∀ req, ReleaseSafe rt (fun _ _ => True) (Charges rt t o) req :=
    fun _ => ⟨fun _ _ => id, fun _ _ _ _ => ⟨id, id⟩⟩
  cases x with
  | createOrder req =>
    exact served (createOrder_after charges_quiet (fun _ _ ⟨_, charges⟩ => charges)
      fun _ parse => runSaga_asksOnce parse)
  | cancelOrder req =>
    exact asksOnce_then (cancelOrder_safe charges_plain fun _ _ _ _ _ =>
      ⟨fun _ _ _ _ _ => id, release _⟩) fun _ => trivial
  | resumePendingSagas limit =>
    refine served fun found distinct => ⟨fun charges => charges.elim, ?_⟩
    cases found with
    | error e => trivial
    | ok sagas =>
      refine resumeEach_after (t, o) charges_quiet charges_plain (distinct sagas rfl)
        (fun saga lines => runSaga_asksOnce (rt.scan_text saga.tenantID)) fun saga lines other => ?_
      have away : ¬(saga.tenantID = t ∧ saga.orderID = o) :=
        fun same => other (Prod.ext same.1 same.2)
      exact ⟨saga_uncharged (fun _ ⟨_, charges⟩ => charges) (rt.scan_text saga.tenantID)
        fun _ => away, saga_uncharged (fun _ h => h) (rt.scan_text saga.tenantID) fun _ => away⟩
  | reserve req =>
    exact asksOnce_then (safe_mono (fun _ _ => trivial) (reserve_safe charges_plain
      (fun _ _ _ _ _ _ => id) fun _ _ _ _ => id)) fun _ => trivial
  | release req => exact asksOnce_then (release_safe charges_plain (release req)) fun _ => trivial
  | allocateReservation req =>
    exact asksOnce_then (safe_mono (fun _ _ => trivial) (allocateReservation_safe fun _ _ => id))
      fun _ => trivial
  | sweepOnce batch =>
    exact asksOnce_then (sweepOnce_safe charges_plain fun _ _ _ => ⟨fun _ => id, fun _ _ => id⟩)
      fun _ => trivial

end Handlers

section Steps

variable {rt : Runtime} {me : ℕ} {op : Op} {c : Choice} {s s' : Stack} {r : Resp op} {t : UUID}
  {o : String}

/-- The saga does not exist or waits for its reservation. -/
def Fresh (s : Stack) (t : UUID) (o : String) : Prop :=
  ∀ state, sagaState s t o = some state → state = .pendingPayment

theorem exec_fresh (h : exec rt me op c s = some (r, s')) (forward : ¬Reopens t o op)
    (fresh : Fresh s' t o) : Fresh s t o ∧ Unmoved t o op r := by
  by_cases writes : WritesSaga t o op
  · cases op with
    | transition tenantID u orderID state step errMsg =>
      obtain ⟨rfl, rfl⟩ := writes
      rcases exec_transition h with ⟨row, saga, rfl, -, -, -, rfl⟩ | ⟨⟨e, rfl⟩, rfl⟩
      · have now := fresh state (by simp [sagaState, transitioned, movedTo])
        exact absurd ⟨rfl, rfl, now⟩ forward
      · exact ⟨fresh, fun _ _ _ eq => by cases eq⟩
    | _ => exact writes.elim
  · have before : Fresh s t o := by
      rcases exec_saga h with same | ⟨absent, -⟩ | ⟨written, -⟩
      · exact fun state at_ => fresh state (same.trans at_)
      · intro state at_
        rw [absent] at at_
        cases at_
      · exact absurd written writes
    refine ⟨before, ?_⟩
    cases op with
    | transition tenantID u orderID state step errMsg =>
      exact fun same here _ _ => writes ⟨same, here⟩
    | _ => trivial

theorem scanned_stored {limit : Int32} {sagas : List SagaInstance}
    (h : exec rt me (.getResumableSagas limit) c s = some (.ok sagas, s')) (listed : Listed s.order)
    (member : (t, o) ∈ sagas.map sagaKey) : s.order.sagas t o ≠ none := by
  obtain ⟨saga, found, key⟩ := List.mem_map.1 member
  simp only [exec] at h
  split at h
  · cases h
  · have answered := congrArg Prod.fst (Option.some.inj h)
    rcases (getResumableSagas limit).commit_cases s.order with ⟨got, db, run, eq⟩ | ⟨e, -, eq⟩
    · rw [eq] at answered
      have equal : got = sagas := Except.ok.inj answered
      rw [← equal, (getResumable_ok_iff.1 run).2.1] at found
      have row := ((resumableSagas_spec listed).2 saga (List.mem_of_mem_take found)).1
      have same := Prod.mk.inj key
      rw [same.1, same.2] at row
      rw [row]
      exact Option.some_ne_none saga
    · rw [eq] at answered
      cases answered

theorem exec_takesUp (h : exec rt me op c s = some (r, s')) (listed : Listed s.order)
    (within : column 255 o = o) (takes : TakesUp t o op r) : s'.order.sagas t o ≠ none ∧
      (s.order.sagas t o = none ∨ ∃ limit, op = .getResumableSagas limit) := by
  cases op with
  | createOrderRow u req total =>
    obtain ⟨rfl, rfl, rfl⟩ := takes
    rcases exec_createOrderRow h with ⟨-, -, creatable, rfl⟩ | ⟨⟨e, eq⟩, -⟩
    · rw [← within]
      exact ⟨by simp [orderCreated], .inl creatable.noSaga⟩
    · cases eq
  | getResumableSagas limit =>
    obtain ⟨sagas, rfl, member⟩ := takes
    have stored := scanned_stored h listed member
    have same : s'.order = s.order := (exec_frame h).order rfl
    exact ⟨same ▸ stored, .inr ⟨limit, rfl⟩⟩
  | _ => exact takes.elim

end Steps

def asked (rt : Runtime) (t : UUID) (o : String) (pool : StackPool) :
    Move Handler Choice → List (Except Failure String)
  | .step i c =>
    match pool.threads i with
    | some (.step (.charge req) _) =>
      if rt.scan req.tenantID = some t ∧ req.orderID = o then [charge rt req c.uuid] else []
    | _ => []
  | _ => []

def transactions (answers : List (Except Failure String)) : List String :=
  answers.filterMap Except.toOption

/-- The condition on a move: a scan takes the order up only while no other
handler can still charge it, and the gateway has not been asked yet or the saga
still waits for its reservation. -/
def Unshared (rt : Runtime) (t : UUID) (o : String) (past : List (Except Failure String))
    (pool : StackPool) : Move Handler Choice → Prop
  | .step i c => ∀ limit k sagas s, pool.threads i = some (.step (.getResumableSagas limit) k) →
    exec rt i (.getResumableSagas limit) c pool.state = some (.ok sagas, s) →
    (t, o) ∈ sagas.map sagaKey →
      (past = [] ∨ sagaState pool.state t o = some .pendingPayment) ∧
        ∀ j q, j ≠ i → pool.threads j = some q → Idle rt t o q
  | _ => True

structure Inv (rt : Runtime) (t : UUID) (o : String) (past : List (Except Failure String))
    (pool : StackPool) : Prop where
  listed : Listed pool.state.order
  once : ∀ i p, pool.threads i = some p → AsksOnce rt t o p
  forward : ∀ i p, pool.threads i = some p → Forward t o p
  early : Fresh pool.state t o → past = [] ∧ ∀ i p, pool.threads i = some p → Early rt t o p
  single : ∃ i, ∀ j q, pool.threads j = some q → j ≠ i → Idle rt t o q
  spent : pool.state.order.sagas t o = none ∨ past ≠ [] →
    ∀ i p, pool.threads i = some p → Idle rt t o p
  few : past.length ≤ 1

section Moves

variable {rt : Runtime} {t : UUID} {o : String} {past : List (Except Failure String)}
  {pool : StackPool} {i : ℕ} {c : Choice} {op : Op} {k : Resp op → Code Unit} {r : Resp op}
  {s' : Stack}

theorem asked_quiet (at_ : pool.threads i = some (.step op k)) (quiet : ¬Charges rt t o op) :
    asked rt t o pool (.step i c) = [] := by
  simp only [asked, at_]
  cases op with
  | charge req => exact if_neg quiet
  | _ => rfl

theorem asked_charge {req : ChargeRequest} {k : Resp (.charge req) → Code Unit}
    (at_ : pool.threads i = some (.step (.charge req) k)) (charges : Charges rt t o (.charge req)) :
    asked rt t o pool (.step i c) = [charge rt req c.uuid] := by
  simp only [asked, at_]
  exact if_pos charges

theorem Inv.spawn (inv : Inv rt t o past pool) (x : Handler) :
    Inv rt t o past (pool.set i (some (x.code rt)) pool.state) where
  listed := inv.listed
  once := Pool.set_some (handler_asksOnce x) inv.once
  forward := Pool.set_some (handler_forward x) inv.forward
  early fresh := ⟨(inv.early fresh).1, Pool.set_some (handler_early x) ((inv.early fresh).2)⟩
  single := by
    obtain ⟨runner, others⟩ := inv.single
    exact ⟨runner, Pool.set_some (fun _ => handler_idle x) others⟩
  spent none_ := Pool.set_some (handler_idle x) (inv.spent none_)
  few := inv.few

theorem Inv.stop (inv : Inv rt t o past pool) :
    Inv rt t o past (pool.set i none (pool.state.close i)) where
  listed := inv.listed
  once := Pool.set_none inv.once
  forward := Pool.set_none inv.forward
  early fresh := ⟨(inv.early fresh).1, Pool.set_none (inv.early fresh).2⟩
  single := by
    obtain ⟨runner, others⟩ := inv.single
    exact ⟨runner, Pool.set_none others⟩
  spent none_ := Pool.set_none (inv.spent none_)
  few := inv.few

theorem Inv.charge (inv : Inv rt t o past pool) {req : ChargeRequest}
    {k : Resp (.charge req) → Code Unit} (at_ : pool.threads i = some (.step (.charge req) k))
    (charges : Charges rt t o (.charge req)) :
    Inv rt t o (past ++ asked rt t o pool (.step i c))
      (pool.set i (some (k (ServiceStack.charge rt req c.uuid))) pool.state) := by
  have busy : ¬Idle rt t o (.step (.charge req) k) := fun idle => idle.1 charges
  have unspent : past = [] := by
    by_contra some_
    exact busy (inv.spent (.inr some_) i _ at_)
  have moved : ¬Fresh pool.state t o := fun fresh => ((inv.early fresh).2 i _ at_).1 charges
  obtain ⟨runner, others⟩ := inv.single
  have mine : i = runner := by
    by_contra other
    exact busy (others i _ at_ other)
  rw [asked_charge at_ charges, unspent]
  generalize ServiceStack.charge rt req c.uuid = answer
  have left : Idle rt t o (k answer) := (inv.once i _ at_ _ trivial).1 charges
  have idle : ∀ j q, (pool.set i (some (k answer)) pool.state).threads j = some q →
      Idle rt t o q :=
    Pool.set_threads (fun q new => by cases new; exact left)
      fun j q other old => others j q old (mine ▸ other)
  exact {
    listed := inv.listed
    once := Pool.set_some (inv.once i _ at_ _ trivial).2 inv.once
    forward := Pool.set_some ((inv.forward i _ at_).2 _ trivial) inv.forward
    early := fun fresh => absurd fresh moved
    single := ⟨i, fun j q here _ => idle j q here⟩
    spent := fun _ => idle
    few := le_rfl }

/-- Any other operation, by a handler that is alone with the order if it takes
it up. -/
theorem Inv.step (inv : Inv rt t o past pool) (within : column 255 o = o)
    (at_ : pool.threads i = some (.step op k)) (run : exec rt i op c pool.state = some (r, s'))
    (quiet : ¬Charges rt t o op)
    (alone : TakesUp t o op r →
      past = [] ∧ ∀ j q, pool.threads j = some q → j ≠ i → Idle rt t o q) :
    Inv rt t o (past ++ asked rt t o pool (.step i c)) (pool.set i (some (k r)) s') := by
  rw [asked_quiet at_ quiet, List.append_nil]
  have idle : ¬TakesUp t o op r → Idle rt t o (.step op k) → Idle rt t o (k r) :=
    fun takes before => before.2 r takes
  refine ⟨exec_listed run inv.listed, ?_, ?_, fun fresh => ?_, ?_, fun none_ => ?_, inv.few⟩
  · exact Pool.set_some (inv.once i _ at_ r (exec_scanDistinct run inv.listed)).2 inv.once
  · exact Pool.set_some ((inv.forward i _ at_).2 r trivial) inv.forward
  · obtain ⟨before, unmoved⟩ := exec_fresh run (inv.forward i _ at_).1 fresh
    obtain ⟨unasked, early⟩ := inv.early before
    exact ⟨unasked, Pool.set_some ((early i _ at_).2 r unmoved) early⟩
  · by_cases takes : TakesUp t o op r
    · refine ⟨i, Pool.set_threads (fun q new other => absurd rfl other) fun j q other old _ => ?_⟩
      exact (alone takes).2 j q old other
    · obtain ⟨runner, others⟩ := inv.single
      exact ⟨runner, Pool.set_some (fun other => idle takes (others i _ at_ other)) others⟩
  · have untaken : ¬TakesUp t o op r := by
      intro takes
      rcases none_ with absent | some_
      · exact (exec_takesUp run inv.listed within takes).1 absent
      · exact some_ (alone takes).1
    have before : pool.state.order.sagas t o = none ∨ past ≠ [] := by
      refine none_.imp_left fun absent => ?_
      rcases exec_lines run t o with ⟨-, same⟩ | ⟨-, -, -, -, -, stored, -⟩
      · exact same.1 absent
      · exact absurd absent stored
    exact Pool.set_some (idle untaken (inv.spent before i _ at_)) (inv.spent before)

theorem next_inv {after : StackPool} {m : Move Handler Choice} (within : column 255 o = o)
    (inv : Inv rt t o past pool) (unshared : Unshared rt t o past pool m)
    (next : pool.next (machine rt) (Handler.code rt) m = some after) :
    Inv rt t o (past ++ asked rt t o pool m) after := by
  rcases Pool.next_cases next with ⟨i, x, rfl, -, rfl⟩ | ⟨i, c, op, k, r, s', rfl, at_, run, rfl⟩ |
      ⟨i, rfl, -, rfl⟩
  · rw [show asked rt t o pool (.spawn i x) = [] from rfl, List.append_nil]
    exact inv.spawn x
  · by_cases charges : Charges rt t o op
    · cases op with
      | charge req =>
        cases run
        exact inv.charge at_ charges
      | _ => exact charges.elim
    · refine inv.step within at_ run charges fun takes => ?_
      rcases (exec_takesUp run inv.listed within takes).2 with absent | ⟨limit, rfl⟩
      · have fresh : Fresh pool.state t o := by
          intro state here
          simp [sagaState, absent] at here
        exact ⟨(inv.early fresh).1, fun j q old _ => inv.spent (.inl absent) j q old⟩
      · obtain ⟨sagas, rfl, member⟩ := takes
        obtain ⟨unasked, others⟩ := unshared limit k sagas s' at_ run member
        refine ⟨?_, fun j q old other => others j q other old⟩
        rcases unasked with unasked | pending
        · exact unasked
        · refine (inv.early fun state here => ?_).1
          rw [pending] at here
          exact (Option.some.inj here).symm
  · rw [show asked rt t o pool (.stop i) = [] from rfl, List.append_nil]
    exact inv.stop

/-- No saga is stored under an id that its column would cut, so a handler that
was given one never comes to charge. -/
structure Unstored (rt : Runtime) (t : UUID) (o : String) (past : List (Except Failure String))
    (pool : StackPool) : Prop where
  listed : Listed pool.state.order
  forward : ∀ i p, pool.threads i = some p → Forward t o p
  early : ∀ i p, pool.threads i = some p → Early rt t o p
  none : past = []

theorem next_unstored {after : StackPool} {m : Move Handler Choice} (cut : column 255 o ≠ o)
    (inv : Unstored rt t o past pool)
    (next : pool.next (machine rt) (Handler.code rt) m = some after) :
    Unstored rt t o (past ++ asked rt t o pool m) after := by
  rcases Pool.next_cases next with ⟨i, x, rfl, -, rfl⟩ | ⟨i, c, op, k, r, s', rfl, at_, run, rfl⟩ |
      ⟨i, rfl, -, rfl⟩
  · exact ⟨inv.listed,
      Pool.set_some (handler_forward x) inv.forward,
      Pool.set_some (handler_early x) inv.early, by rw [inv.none]; rfl⟩
  · have listed := exec_listed run inv.listed
    have fresh : Fresh s' t o := by
      intro state here
      obtain ⟨saga, found, -⟩ := Option.map_eq_some_iff.1 here
      exact absurd (listed.within t o saga found) cut
    have unmoved := (exec_fresh run (inv.forward i _ at_).1 fresh).2
    refine ⟨listed, ?_, ?_, by rw [asked_quiet at_ (inv.early i _ at_).1, inv.none]; rfl⟩
    · exact Pool.set_some ((inv.forward i _ at_).2 r trivial) inv.forward
    · exact Pool.set_some ((inv.early i _ at_).2 r unmoved) inv.early
  · exact ⟨inv.listed, Pool.set_none inv.forward, Pool.set_none inv.early, by rw [inv.none]; rfl⟩

end Moves

/-- However many handlers drive the order, overlapping or after stops, the
gateway produces at most one transaction id for it, in every run in which the
order is taken up unshared. -/
theorem charged_at_most_once (rt : Runtime) (t : UUID) (o : String) (start : Stack)
    (listed : Listed start.order) (moves : List (Move Handler Choice)) (pool : StackPool)
    (keeps : Pool.KeepsPast (machine rt) (Handler.code rt) (asked rt t o) (Unshared rt t o) []
      moves (idle start))
    (run : Pool.run (machine rt) (Handler.code rt) moves (idle start) = some pool) :
    (transactions (Pool.trace (machine rt) (Handler.code rt) (asked rt t o) moves
      (idle start))).length ≤ 1 := by
  have none_ : ∀ {F : ℕ → Code Unit → Prop}, ∀ i p, (idle start).threads i = some p → F i p :=
    fun i p here => by cases here
  refine (List.length_filterMap_le _ _).trans ?_
  by_cases within : column 255 o = o
  · have begin_ : Inv rt t o [] (idle start) :=
      ⟨listed, none_, none_, fun _ => ⟨rfl, none_⟩, ⟨0, none_⟩, fun _ => none_, Nat.zero_le 1⟩
    have inv := Pool.trace_invariant (Inv rt t o)
      (fun _ _ _ _ inv cond next => next_inv within inv cond next) keeps run begin_
    rw [List.nil_append] at inv
    exact inv.few
  · have inv := Pool.trace_invariant (Unstored rt t o)
      (fun _ _ _ _ inv _ next => next_unstored within inv next) keeps run
      ⟨listed, none_, none_, rfl⟩
    rw [List.nil_append] at inv
    rw [inv.none]
    exact Nat.zero_le 1

/-- A run of one thread takes orders up unshared, if each scan comes before the
gateway is asked. -/
def scansFirst (past : List (Except Failure String)) (pool : StackPool) :
    Move Handler Choice → Bool
  | .step i _ =>
    match pool.threads i with
    | some (.step (.getResumableSagas _) _) => past.isEmpty
    | _ => true
  | _ => true

theorem unshared_alone {rt : Runtime} {t : UUID} {o : String} (past : List (Except Failure String))
    (pool : StackPool) (m : Move Handler Choice)
    (alone : ∀ j, j ≠ m.thread → pool.threads j = none) (first : scansFirst past pool m = true) :
    Unshared rt t o past pool m := by
  cases m with
  | step i c =>
    intro limit k sagas s at_ _ _
    simp only [scansFirst, at_, List.isEmpty_iff] at first
    refine ⟨.inl first, fun j q other here => ?_⟩
    rw [alone j other] at here
    cases here
  | _ => trivial

def purchase (operations : ℕ) : List (Move Handler Choice) :=
  .spawn 0 (.createOrder (sampleOrder "ord-1" "key-1")) ::
    List.replicate operations (.step 0 .healthy)

def pass (i : ℕ) : List (Move Handler Choice) :=
  .spawn i (.resumePendingSagas 10) :: List.replicate 24 (.step i ⟨false, true, 0, [], "again"⟩)

def produced (moves : List (Move Handler Choice)) : List String :=
  transactions (Pool.trace (machine (reference [])) (Handler.code (reference []))
    (asked (reference []) sampleTenant "ord-1") moves (idle sampleStack))

theorem charged_at_most_once_resumed :
    produced (purchase 11 ++ .stop 0 :: pass 0) = ["sbx_again"] ∧
      (produced (purchase 11 ++ .stop 0 :: pass 0)).length ≤ 1 := by
  have ends : produced (purchase 11 ++ .stop 0 :: pass 0) = ["sbx_again"] ∧
      (Pool.run (machine (reference [])) (Handler.code (reference []))
        (purchase 11 ++ .stop 0 :: pass 0) (idle sampleStack)).isSome = true ∧
      Pool.checksPast (machine (reference [])) (Handler.code (reference []))
        (asked (reference []) sampleTenant "ord-1") scansFirst []
        (purchase 11 ++ .stop 0 :: pass 0) (idle sampleStack) = true := by
    rw [produced, reference_recognizing]
    decide +kernel
  obtain ⟨charged, ends, checks⟩ := ends
  obtain ⟨pool, run⟩ := Option.isSome_iff_exists.1 ends
  have own : ∀ m ∈ purchase 11 ++ .stop 0 :: pass 0, Move.thread m = 0 := by
    simp [purchase, pass, Move.thread]
  exact ⟨charged, charged_at_most_once (reference []) sampleTenant "ord-1" sampleStack listed_empty
    (purchase 11 ++ .stop 0 :: pass 0) pool
    (Pool.keepsPast_alone unshared_alone (fun _ _ => rfl) own checks) run⟩

/-- The handler stops after the gateway has answered, or is overtaken by the
pass just before it asks: either way the order is charged twice. -/
theorem order_charged_twice :
    produced (purchase 12 ++ .stop 0 :: pass 0) = ["sbx_tx", "sbx_again"] ∧
      produced (purchase 11 ++ pass 1 ++ [.step 0 .healthy]) = ["sbx_again", "sbx_tx"] := by
  simp only [produced, reference_recognizing]
  decide +kernel

end Taper.ChargedOnce
