import Taper.HandlerRuns
import Taper.FulfilledOnce
import Taper.ServiceRules

set_option autoImplicit false

/-!
# The saga, the order row and the outbox agree

The handlers of one order run one after the other, each of them up to any point.
What the other services answer and what happens to other orders is left open.
-/
namespace Taper.OrderAgreement
open Messages Platform OrderTables OrderSteps Program ServiceStack Services
open StackSteps ServiceRules Fulfillment

def eventsOf (t : UUID) (o : String) (db : OrderDb) : List OrderOutboxEvent :=
  db.outbox.filter fun e => e.tenantID = t ∧ e.aggregateType = "order" ∧ e.payload.orderID = o

def kinds (t : UUID) (o : String) (db : OrderDb) : List String :=
  (eventsOf t o db).map (·.eventType)

structure Elsewhere (t : UUID) (o : String) (db db' : OrderDb) : Prop where
  order : db'.orders t o = db.orders t o
  saga : db'.sagas t o = db.sagas t o
  kinds : kinds t o db' = kinds t o db
  listed : Listed db'

structure Given where
  found : OrderDb
  fault : Bool
  declined : Option Failure
  uuid : String
  answer : (op : Op) → Option (Resp op)

def Given.payment (g : Given) : Except Failure String :=
  match g.declined with
  | some e => .error e
  | none => .ok ("sbx_" ++ g.uuid)

def alone (db : OrderDb) : Stack := ⟨.empty, .empty, [], db⟩

def inTables (rt : Runtime) (op : Op) (g : Given) : Option (Resp op × OrderDb) :=
  (exec rt 0 op ⟨g.fault, true, 0, [], g.uuid⟩ (alone g.found)).map fun out => (out.1, out.2.order)

def respond (rt : Runtime) : (op : Op) → Given → Option (Resp op × OrderDb)
  | .createOrderRow t req total, g => inTables rt (.createOrderRow t req total) g
  | .getSagaInstance tenantID t o, g => inTables rt (.getSagaInstance tenantID t o) g
  | .transition tenantID t o state step errMsg, g =>
    inTables rt (.transition tenantID t o state step errMsg) g
  | .recordTransaction tenantID t o txn, g => inTables rt (.recordTransaction tenantID t o txn) g
  | .getResumableSagas limit, g => inTables rt (.getResumableSagas limit) g
  | .getOrderLines tenantID t o, g => inTables rt (.getOrderLines tenantID t o) g
  | .charge _, g => some (g.payment, g.found)
  | op, g => (g.answer op).map fun r => (r, g.found)

def machine (rt : Runtime) : Machine Op Resp OrderDb Given where
  exec _ op g _ := respond rt op g
  stop _ db := db

def Admits (t : UUID) (o : String) (_ : Op) (g : Given) (db : OrderDb) : Prop :=
  Elsewhere t o db g.found

/-- The handlers of the services and `FulfillOrder`, each after the other, and
what happens to other orders in between. -/
inductive Reached (rt : Runtime) (t : UUID) (o : String) : OrderDb → Prop where
  | start {db : OrderDb} (listed : Listed db) (order : db.orders t o = none)
      (saga : db.sagas t o = none) (events : eventsOf t o db = []) : Reached rt t o db
  | handler {db db' : OrderDb} {h : Services.Handler} {left : Code Unit}
      (before : Reached rt t o db)
      (run : Exec (machine rt) 0 (Admits t o) (h.code rt) db left db') :
      Reached rt t o db'
  | fulfillOrder {db found : OrderDb} (req : FulfillOrderRequest) (before : Reached rt t o db)
      (others : Elsewhere t o db found) : Reached rt t o (Fulfillment.fulfillOrder rt req found).2
  | others {db db' : OrderDb} (before : Reached rt t o db) (others : Elsewhere t o db db') :
      Reached rt t o db'

inductive Stage where
  | pending | reserved | charged | confirmed | fulfilled | compensated | failed
  deriving DecidableEq

def Stage.saga : Stage → SagaState
  | .pending => .pendingPayment
  | .reserved | .charged => .reserved
  | .confirmed | .fulfilled => .confirmed
  | .compensated => .compensated
  | .failed => .failed

def Stage.status : Stage → OrderStatus
  | .pending | .reserved | .charged => .pending
  | .confirmed => .confirmed
  | .fulfilled => .fulfilled
  | .compensated => .compensated
  | .failed => .failed

def Stage.paid : Stage → Bool
  | .charged | .confirmed | .fulfilled => true
  | _ => false

def Stage.isOpen : Stage → Bool
  | .pending | .reserved | .charged => true
  | _ => false

/-- `order.reserved` is written again whenever the saga is resumed. -/
def Stage.history (n : ℕ) : Stage → List String
  | .pending => []
  | .reserved | .charged => List.replicate n "order.reserved" ++ ["order.reserved"]
  | .confirmed => List.replicate n "order.reserved" ++ ["order.confirmed"]
  | .fulfilled => List.replicate n "order.reserved" ++ ["order.confirmed", "order.fulfilled"]
  | .compensated => List.replicate n "order.reserved" ++ ["order.compensated"]
  | .failed => List.replicate n "order.reserved" ++ ["order.failed"]

structure At (t : UUID) (o : String) (stage : Stage) (db : OrderDb) : Prop where
  listed : Listed db
  order : ∃ row, db.orders t o = some row ∧ row.status = stage.status ∧
    (stage.paid = true → row.transactionID ≠ "")
  saga : ∃ saga, db.sagas t o = some saga ∧ saga.state = stage.saga
  history : ∃ n, kinds t o db = stage.history n

structure Unfiled (t : UUID) (o : String) (db : OrderDb) : Prop where
  listed : Listed db
  order : db.orders t o = none
  saga : db.sagas t o = none
  kinds : kinds t o db = []

def Agreed (t : UUID) (o : String) (db : OrderDb) : Prop :=
  Unfiled t o db ∨ ∃ stage, At t o stage db

variable {req : CreateOrderRequest} {total : Int64} {state : SagaState} {step : Int32}
  {error tenantID txn : String} {op : Op} {r : Resp op} {sagas : List SagaInstance}
  {input : SagaInput}

section Frames

variable {t u : UUID} {o x : String} {db db' : OrderDb} {stage : Stage}

theorem Elsewhere.refl (listed : Listed db) : Elsewhere t o db db := ⟨rfl, rfl, rfl, listed⟩

theorem At.elsewhere (h : At t o stage db) (others : Elsewhere t o db db') : At t o stage db' := by
  refine ⟨others.listed, ?_, ?_, ?_⟩
  · rw [others.order]
    exact h.order
  · rw [others.saga]
    exact h.saga
  · rw [others.kinds]
    exact h.history

theorem Agreed.elsewhere (h : Agreed t o db) (others : Elsewhere t o db db') : Agreed t o db' := by
  rcases h with unfiled | ⟨stage, at_⟩
  · exact .inl ⟨others.listed, others.order.trans unfiled.order, others.saga.trans unfiled.saga,
      others.kinds.trans unfiled.kinds⟩
  · exact .inr ⟨stage, at_.elsewhere others⟩

theorem kinds_own {e : OrderOutboxEvent} (h : db'.outbox = db.outbox ++ [e])
    (tenant : e.tenantID = t) (type : e.aggregateType = "order") (order : e.payload.orderID = o) :
    kinds t o db' = kinds t o db ++ [e.eventType] := by
  simp [kinds, eventsOf, h, tenant, type, order]

theorem kinds_other {e : OrderOutboxEvent} (h : db'.outbox = db.outbox ++ [e])
    (tenant : e.tenantID = u) (order : e.payload.orderID = x) (other : ¬(u = t ∧ x = o)) :
    kinds t o db' = kinds t o db := by
  have apart : ¬(e.tenantID = t ∧ e.aggregateType = "order" ∧ e.payload.orderID = o) :=
    fun same => other ⟨tenant.symm.trans same.1, order.symm.trans same.2.2⟩
  simp [kinds, eventsOf, h, apart]

theorem created_elsewhere {rt : Runtime} (listed : Listed db) (ok : Creatable u req total db)
    (other : ¬(u = t ∧ column 255 req.orderId = o)) :
    Elsewhere t o db (orderCreated rt u req total db) where
  order := setCell_other _ _ fun same => other ⟨same.1.symm, same.2.symm⟩
  saga := setCell_other _ _ fun same => other ⟨same.1.symm, same.2.symm⟩
  kinds := rfl
  listed := orderCreated_listed listed ok

theorem transitioned_elsewhere {row : OrderRow} {saga : SagaInstance} (listed : Listed db)
    (found : db.sagas u x = some saga) (other : ¬(u = t ∧ x = o)) :
    Elsewhere t o db (transitioned u x state step error row saga db) where
  order := setCell_other _ _ fun same => other ⟨same.1.symm, same.2.symm⟩
  saga := setCell_other _ _ fun same => other ⟨same.1.symm, same.2.symm⟩
  kinds := kinds_other rfl rfl rfl other
  listed := transitioned_listed listed found

theorem paid_elsewhere {row : OrderRow} (listed : Listed db) (other : ¬(u = t ∧ x = o)) :
    Elsewhere t o db (paid u x txn row db) where
  order := setCell_other _ _ fun same => other ⟨same.1.symm, same.2.symm⟩
  saga := rfl
  kinds := rfl
  listed := ⟨listed.own, listed.once, listed.stored, listed.within⟩

theorem fulfilled_listed (rt : Runtime) (req : FulfillOrderRequest) (row : OrderRow)
    (listed : Listed db) : Listed (FulfilledOnce.orderFulfilled rt u req row db) := by
  have tables := claimed_tables u req.idempotencyKey (rt.payloadHash (.fulfillOrder req)) db
  have sagas : (FulfilledOnce.orderFulfilled rt u req row db).sagas = db.sagas := tables.2.2.1
  have created : (FulfilledOnce.orderFulfilled rt u req row db).created = db.created :=
    tables.2.2.2.1
  refine ⟨?_, ?_, ?_, ?_⟩
  · rw [sagas]
    exact listed.own
  · rw [created]
    exact listed.once
  · rw [sagas, created]
    exact listed.stored
  · rw [sagas]
    exact listed.within

theorem fulfilled_saga (rt : Runtime) (req : FulfillOrderRequest) (row : OrderRow) :
    (FulfilledOnce.orderFulfilled rt u req row db).sagas t o = db.sagas t o := by
  have tables := claimed_tables u req.idempotencyKey (rt.payloadHash (.fulfillOrder req)) db
  exact congrFun (congrFun tables.2.2.1 t) o

theorem fulfilled_elsewhere {rt : Runtime} {req : FulfillOrderRequest} {row : OrderRow}
    (listed : Listed db) (other : ¬(u = t ∧ req.orderId = o)) :
    Elsewhere t o db (FulfilledOnce.orderFulfilled rt u req row db) where
  order := setCell_other _ _ fun same => other ⟨same.1.symm, same.2.symm⟩
  saga := fulfilled_saga rt req row
  kinds := kinds_other rfl rfl rfl other
  listed := fulfilled_listed rt req row listed

end Frames

section Moves

variable {t : UUID} {o : String} {db : OrderDb} {stage : Stage} {row : OrderRow}
  {saga : SagaInstance}

def after : SagaState → Stage
  | .reserved => .reserved
  | .confirmed => .confirmed
  | .compensated => .compensated
  | .failed => .failed
  | _ => .pending

/-- The transitions the handlers make: to `CONFIRMED` only from a charged order. -/
def Stage.follows (stage : Stage) : SagaState → Bool
  | .reserved | .compensated | .failed => stage.isOpen
  | .confirmed => stage = .charged
  | _ => false

theorem stateEvent_reserved : stateEvent .reserved = "order.reserved" := by decide +kernel

theorem stateEvent_confirmed : stateEvent .confirmed = "order.confirmed" := by decide +kernel

theorem stateEvent_compensated : stateEvent .compensated = "order.compensated" := by
  decide +kernel

theorem stateEvent_failed : stateEvent .failed = "order.failed" := by decide +kernel

theorem history_open (n : ℕ) (isOpen : stage.isOpen = true) :
    ∃ m, stage.history n = List.replicate m "order.reserved" := by
  cases stage with
  | pending => exact ⟨0, rfl⟩
  | reserved => exact ⟨n + 1, List.replicate_succ'.symm⟩
  | charged => exact ⟨n + 1, List.replicate_succ'.symm⟩
  | _ => cases isOpen

theorem history_step (n : ℕ) (follows : stage.follows state = true) :
    ∃ m, stage.history n ++ [stateEvent state] = (after state).history m := by
  have isOpen : stage.isOpen = true := by
    cases state with
    | confirmed =>
      rw [of_decide_eq_true follows]
      rfl
    | pendingPayment => cases follows
    | allocated => cases follows
    | _ => exact follows
  obtain ⟨m, before⟩ := history_open n isOpen
  refine ⟨m, ?_⟩
  rw [before]
  cases state with
  | reserved => rw [stateEvent_reserved]; rfl
  | confirmed => rw [stateEvent_confirmed]; rfl
  | compensated => rw [stateEvent_compensated]; rfl
  | failed => rw [stateEvent_failed]; rfl
  | pendingPayment => cases follows
  | allocated => cases follows

theorem At.transition (step : Int32) (error : String) (h : At t o stage db)
    (follows : stage.follows state = true) (order : db.orders t o = some row)
    (found : db.sagas t o = some saga) :
    At t o (after state) (transitioned t o state step error row saga db) where
  listed := transitioned_listed h.listed found
  order := by
    refine ⟨mirror row state, setCell_self _ _ _ _, ?_⟩
    obtain ⟨row', order', status, paid⟩ := h.order
    rw [order] at order'
    cases order'
    cases state with
    | reserved =>
      cases stage with
      | pending => exact ⟨status, nofun⟩
      | reserved => exact ⟨status, nofun⟩
      | charged => exact ⟨status, nofun⟩
      | _ => cases follows
    | confirmed =>
      refine ⟨rfl, fun _ => ?_⟩
      rw [of_decide_eq_true follows] at paid
      exact column_ne_empty (paid rfl)
    | compensated => exact ⟨rfl, nofun⟩
    | failed => exact ⟨rfl, nofun⟩
    | pendingPayment => cases follows
    | allocated => cases follows
  saga := by
    refine ⟨movedTo saga state step error, setCell_self _ _ _ _, ?_⟩
    cases state with
    | pendingPayment => cases follows
    | allocated => cases follows
    | _ => rfl
  history := by
    obtain ⟨n, before⟩ := h.history
    obtain ⟨m, now⟩ := history_step n follows
    refine ⟨m, ?_⟩
    rw [← now, ← before]
    exact kinds_own (e := (transitionEvent t o state row.totalAmount).stored) rfl rfl rfl rfl

theorem At.pay (row : OrderRow) (h : At t o .reserved db) (some_ : txn ≠ "") :
    At t o .charged (paid t o txn row db) where
  listed := ⟨h.listed.own, h.listed.once, h.listed.stored, h.listed.within⟩
  order := ⟨withStatus row .pending txn, setCell_self _ _ _ _, rfl, fun _ => column_ne_empty some_⟩
  saga := h.saga
  history := h.history

theorem At.create {rt : Runtime} {t : UUID} (h : Unfiled t (column 255 req.orderId) db)
    (ok : Creatable t req total db) :
    At t (column 255 req.orderId) .pending (orderCreated rt t req total db) where
  listed := orderCreated_listed h.listed ok
  order := ⟨_, setCell_self _ _ _ _, rfl, nofun⟩
  saga := ⟨_, setCell_self _ _ _ _, rfl⟩
  history := ⟨0, h.kinds⟩

/-- Only a confirmed order has the status `CONFIRMED`. -/
theorem At.fulfill (rt : Runtime) {req : FulfillOrderRequest} (h : At t req.orderId stage db)
    (order : db.orders t req.orderId = some row) (confirmed : row.status = .confirmed) :
    At t req.orderId .fulfilled (FulfilledOnce.orderFulfilled rt t req row db) := by
  obtain ⟨row', order', status, paid⟩ := h.order
  rw [order] at order'
  cases order'
  obtain rfl : stage = .confirmed := by
    rw [confirmed] at status
    cases stage with
    | confirmed => rfl
    | _ => cases status
  refine ⟨fulfilled_listed rt req row h.listed, ?_, ?_, ?_⟩
  · exact ⟨withStatus row .fulfilled row.transactionID, setCell_self _ _ _ _, rfl,
      fun done => column_ne_empty (paid done)⟩
  · rw [fulfilled_saga]
    exact h.saga
  · obtain ⟨n, before⟩ := h.history
    have tells : kinds t req.orderId (FulfilledOnce.orderFulfilled rt t req row db) =
        kinds t req.orderId db ++ ["order.fulfilled"] :=
      kinds_own (e := (fulfilledEvent t req.orderId row.totalAmount _).stored) rfl rfl rfl rfl
    refine ⟨n, ?_⟩
    rw [tells, before, Stage.history, List.append_assoc]
    rfl

end Moves

section Answers

variable {rt : Runtime} {g : Given} {db' : OrderDb}

theorem inTables_some (h : inTables rt op g = some (r, db')) :
    ∃ s', exec rt 0 op ⟨g.fault, true, 0, [], g.uuid⟩ (alone g.found) = some (r, s') ∧
      s'.order = db' := by
  obtain ⟨⟨r', s'⟩, run, same⟩ := Option.map_eq_some_iff.1 h
  cases same
  exact ⟨s', run, rfl⟩

/-- An operation that does not write the order tables leaves them as found. -/
theorem respond_reads (reads : writesOrder op = false) (h : respond rt op g = some (r, db')) :
    db' = g.found := by
  have tables : inTables rt op g = some (r, db') → db' = g.found := by
    intro answered
    obtain ⟨s', run, rfl⟩ := inTables_some answered
    exact (exec_frame run).order reads
  have idle : ∀ {answer : Option (Resp op)},
      answer.map (fun r => (r, g.found)) = some (r, db') → db' = g.found := by
    intro answer run
    obtain ⟨r', -, same⟩ := Option.map_eq_some_iff.1 run
    exact (Prod.mk.inj same).2.symm
  cases op with
  | createOrderRow t req total => cases reads
  | transition tenantID t o state step errMsg => cases reads
  | recordTransaction tenantID t o txn => cases reads
  | getSagaInstance tenantID t o => exact tables h
  | getResumableSagas limit => exact tables h
  | getOrderLines tenantID t o => exact tables h
  | charge req =>
    cases h
    rfl
  | _ => exact idle h

variable {answer : Except Failure Unit}

theorem respond_transition {o : String} {t : UUID}
    (h : respond rt (.transition tenantID t o state step error) g = some (answer, db')) :
    (answer = .ok () ∧ ∃ row saga, g.found.orders t o = some row ∧
      g.found.sagas t o = some saga ∧ db' = transitioned t o state step error row saga g.found) ∨
    ((∃ e, answer = .error e) ∧ db' = g.found) := by
  obtain ⟨s', run, rfl⟩ := inTables_some h
  rcases HandlerRuns.exec_transition run with ⟨row, saga, ok, order, found, -, rfl⟩ |
      ⟨failed, rfl⟩
  · exact .inl ⟨ok, row, saga, order, found, rfl⟩
  · exact .inr ⟨failed, rfl⟩

theorem respond_record {o : String} {t : UUID}
    (h : respond rt (.recordTransaction tenantID t o txn) g = some (answer, db')) :
    (answer = .ok () ∧ ∃ row, g.found.orders t o = some row ∧ db' = paid t o txn row g.found) ∨
    ((∃ e, answer = .error e) ∧ db' = g.found) := by
  obtain ⟨s', run, rfl⟩ := inTables_some h
  rcases HandlerRuns.exec_record run with ⟨row, ok, -, -, order, rfl⟩ | ⟨failed, rfl⟩
  · exact .inl ⟨ok, row, order, rfl⟩
  · exact .inr ⟨failed, rfl⟩

theorem respond_create {t : UUID}
    (h : respond rt (.createOrderRow t req total) g = some (answer, db')) :
    (answer = .ok () ∧ Creatable t req total g.found ∧
      db' = orderCreated rt t req total g.found) ∨
    ((∃ e, answer = .error e) ∧ db' = g.found) := by
  obtain ⟨s', run, rfl⟩ := inTables_some h
  rcases orderTx_some run with ⟨u, db, rfl, tx, rfl⟩ | ⟨failed, rfl⟩
  · obtain ⟨creatable, rfl⟩ := createOrderRow_ok_iff.1 tx
    exact .inl ⟨rfl, creatable, rfl⟩
  · exact .inr ⟨failed, rfl⟩

theorem respond_saga {o : String} {t : UUID} {saga : SagaInstance}
    (h : respond rt (.getSagaInstance tenantID t o) g = some (.ok saga, db')) :
    g.found.sagas t o = some saga := by
  obtain ⟨s', run, -⟩ := inTables_some h
  rcases orderTx_some run with ⟨saga', db, same, tx, -⟩ | ⟨⟨e, failed⟩, -⟩
  · cases same
    exact (getSaga_ok_iff.1 tx).2.1
  · cases failed

theorem respond_resumable {limit : Int32}
    (h : respond rt (.getResumableSagas limit) g = some (.ok sagas, db')) :
    sagas = (resumableSagas g.found).take limit.toInt.toNat := by
  obtain ⟨s', run, -⟩ := inTables_some h
  simp only [exec] at run
  split at run
  · cases run
  · simp only [Option.some.injEq, Prod.mk.injEq] at run
    rcases (getResumableSagas limit).commit_cases (alone g.found).order with
      ⟨found, db, tx, commit⟩ | ⟨e, -, commit⟩
    · rw [commit] at run
      cases run.1
      exact (getResumable_ok_iff.1 tx).2.1
    · rw [commit] at run
      cases run.1

end Answers

section Apart

abbrev Apart {α : Type} (p : Code α) : Prop :=
  Safe (fun _ _ => True) (fun op => writesOrder op = true) (fun _ => True) p

theorem apart_ask (reads : writesOrder op = false) : Apart (ask op) :=
  safe_ask (Bool.eq_false_iff.1 reads) fun _ _ => trivial

theorem apart_walks : Walks (fun op => writesOrder op = false) fun _ p => Apart p where
  pure _ := safe_done
  bind first rest := safe_bind first fun a _ => rest a
  ask _ := apart_ask
  neutral op idle := by cases op <;> first | rfl | cases idle

theorem apart_rows (op : Op) (rows : ordinary op = false) : Apart (ask op) :=
  apart_ask (by cases op <;> first | rfl | cases rows)

theorem reserve_apart (rt : Runtime) (req : ReserveRequest) : Apart (reserve rt req) :=
  apart_walks.reserve (fun _ => rfl) (fun _ _ _ => rfl) (apart_ask rfl)

theorem release_apart (rt : Runtime) (req : ReleaseRequest) : Apart (release rt req) :=
  apart_walks.release apart_rows req

theorem allocate_apart (rt : Runtime) (req : AllocateReservationRequest) :
    Apart (allocateReservation rt req) := apart_walks.allocateReservation fun _ _ => rfl

theorem sweep_apart (batch : Int32) : Apart (sweepOnce batch) :=
  apart_walks.sweepOnce (apart_walks.sweepGroup apart_rows fun _ => rfl) batch

end Apart

/-! ### The walk

The saga of an order `u`, `x` is followed once, with what is known at each stage
left open. For the order in question this is that its tables are at the stage; for
any other order it is whatever is known of the order in question. -/
section Walk

structure Drives (t : UUID) (o : String) (u : UUID) (x : String) (A : Stage → OrderDb → Prop) :
    Prop where
  keeps : ∀ {stage db db'}, A stage db → Elsewhere t o db db' → A stage db'
  moves : ∀ {stage db state step error row saga}, A stage db → stage.follows state = true →
    db.orders u x = some row → db.sagas u x = some saga →
    A (after state) (transitioned u x state step error row saga db)
  pays : ∀ {db txn row}, A .reserved db → db.orders u x = some row → txn ≠ "" →
    A .charged (paid u x txn row db)

variable {rt : Runtime} {t u : UUID} {o x : String} {A : Stage → OrderDb → Prop} {α β : Type}
  {stage : Stage} {db : OrderDb} {p : Code α}

abbrev Steps (rt : Runtime) (t : UUID) (o : String) (A : Stage → OrderDb → Prop)
    (Q : α → OrderDb → Prop) (p : Code α) (db : OrderDb) : Prop :=
  Wp (machine rt) 0 (Admits t o) (fun db => ∃ stage, A stage db) Q p db

abbrev Somewhere (A : Stage → OrderDb → Prop) : α → OrderDb → Prop :=
  fun _ db => ∃ stage, A stage db

theorem steps_apart {Q : β → OrderDb → Prop} {f : α → Code β} (drives : Drives t o u x A)
    (apart : Apart p) (h : A stage db) (rest : ∀ a db', A stage db' → Steps rt t o A Q (f a) db') :
    Steps rt t o A Q (p >>= f) db := by
  refine wp_bind (wp_mono (fun a db' after => rest a db' after.2) (wp_of_safe (J := A stage)
    (fun db' here => ⟨stage, here⟩) ?_ apart h))
  intro op g r s s' reads others run here
  have same := respond_reads (Bool.eq_false_iff.2 reads) run
  subst same
  exact ⟨drives.keeps here others, trivial⟩

theorem steps_ask {Q : α → OrderDb → Prop} {f : Resp op → Code α} (drives : Drives t o u x A)
    (reads : writesOrder op = false) (h : A stage db)
    (rest : ∀ r db', A stage db' → Steps rt t o A Q (f r) db') :
    Steps rt t o A Q (ask op >>= f) db :=
  steps_apart drives (apart_ask reads) h rest

theorem steps_transition {Q : Except Failure Unit → OrderDb → Prop} (drives : Drives t o u x A)
    (h : A stage db) (follows : stage.follows state = true)
    (moved : ∀ db', A (after state) db' → Q (.ok ()) db')
    (failed : ∀ e db', A stage db' → Q (.error e) db') :
    Steps rt t o A Q (ask (.transition tenantID u x state step error)) db := by
  refine ⟨⟨stage, h⟩, fun g answer db' others run => ?_⟩
  have here := drives.keeps h others
  rcases respond_transition run with ⟨rfl, row, saga, order, found, rfl⟩ | ⟨⟨e, rfl⟩, rfl⟩
  · exact moved _ (drives.moves here follows order found)
  · exact failed e _ here

theorem failSaga_steps (msg : String) (drives : Drives t o u x A)
    (parse : rt.scan tenantID = some u) (h : A stage db) (isOpen : stage.isOpen = true) :
    Steps rt t o A (Somewhere A) (failSaga rt tenantID x msg) db := by
  unfold failSaga
  simp only [parseUUID, parse]
  exact steps_transition drives h isOpen (fun db' here => ⟨_, here⟩) fun e db' here => ⟨_, here⟩

/-- A compensation that does not go through leaves the order as it was. -/
theorem compensate_steps (reason : String) (drives : Drives t o u x A)
    (parse : rt.scan tenantID = some u) (h : A stage db) (isOpen : stage.isOpen = true) :
    Steps rt t o A (fun res db' => (res = .ok () ∧ A .compensated db') ∨ A stage db')
      (compensate rt tenantID x reason) db := by
  unfold compensate
  simp only [parseUUID, parse]
  refine steps_apart drives (apart_walks.rpc (release_apart rt _)) h fun answer db' here => ?_
  cases answer with
  | error e => exact wp_pure (.inr here)
  | ok resp =>
    exact steps_transition drives here isOpen (fun db' there => .inl ⟨rfl, there⟩)
      fun e db' there => .inr there

theorem confirmSteps_steps (txnID : String) (drives : Drives t o input.tenantUUID input.orderID A)
    (parse : rt.scan input.tenantID = some input.tenantUUID) (h : A .charged db) :
    Steps rt t o A (Somewhere A) (confirmSteps rt input txnID) db := by
  have fails : ∀ (msg : String) (answer : Except Failure CreateOrderResponse) (db' : OrderDb),
      A .charged db' → Steps rt t o A (Somewhere A) (do
        let _ ← failSaga rt input.tenantID input.orderID msg
        pure answer) db' := fun msg answer db' here =>
    wp_bind (wp_mono (fun _ _ there => there) (failSaga_steps msg drives parse here rfl))
  refine steps_apart drives (apart_walks.rpc (allocate_apart rt _)) h fun answer db' here => ?_
  cases answer with
  | error e => exact fails _ _ _ here
  | ok resp =>
    refine steps_ask drives rfl here fun allowed db' here => ?_
    cases allowed with
    | false => exact wp_pure ⟨_, here⟩
    | true =>
      refine steps_apart drives (apart_walks.rpc (apart_ask rfl)) here fun answer db' here => ?_
      cases answer with
      | error e => exact fails _ _ _ here
      | ok resp =>
        refine wp_bind (steps_transition drives here rfl (fun db' there => ?_)
          fun e db' there => ?_)
        · exact wp_pure ⟨_, there⟩
        · exact wp_pure ⟨_, there⟩

theorem chargeStep_steps (drives : Drives t o u x A) (h : A stage db) :
    Steps rt t o A (fun res db' => (∀ txn, res = .ok (.ok txn) → txn ≠ "") ∧ A stage db')
      (chargeStep input) db := by
  unfold chargeStep
  split
  · exact wp_pure ⟨nofun, h⟩
  refine steps_ask drives rfl h fun allowed db' here => ?_
  cases allowed with
  | false => exact wp_pure ⟨nofun, here⟩
  | true =>
    refine wp_bind (wp_perform ⟨stage, here⟩ fun g answer db'' others run => ?_)
    cases run
    refine wp_pure ⟨fun txn same => ?_, drives.keeps here others⟩
    unfold Given.payment at same
    split at same
    · cases same
    · cases same
      exact fun empty => by simp at empty

theorem paySteps_steps (drives : Drives t o input.tenantUUID input.orderID A)
    (parse : rt.scan input.tenantID = some input.tenantUUID) (h : A .reserved db) :
    Steps rt t o A (Somewhere A) (paySteps rt input) db := by
  refine wp_bind (wp_mono ?_ (chargeStep_steps drives h))
  rintro answer db' ⟨paid, here⟩
  match answer with
  | .error e => exact wp_pure ⟨_, here⟩
  | .ok (.error e) =>
    refine wp_bind (wp_mono ?_ (compensate_steps "payment_failed" drives parse here rfl))
    rintro res db'' (⟨rfl, there⟩ | there)
    · exact wp_pure ⟨_, there⟩
    · cases res with
      | ok u => exact wp_pure ⟨_, there⟩
      | error e =>
        exact wp_bind (wp_mono (fun _ _ last => last) (failSaga_steps _ drives parse there rfl))
  | .ok (.ok txnID) =>
    refine wp_bind (wp_perform ⟨_, here⟩ fun g recorded db'' others run => ?_)
    have found := drives.keeps here others
    rcases respond_record run with ⟨rfl, row, order, rfl⟩ | ⟨⟨e, rfl⟩, rfl⟩
    · exact confirmSteps_steps txnID drives parse (drives.pays found order (paid txnID rfl))
    · exact wp_pure ⟨_, found⟩

theorem runSaga_steps (drives : Drives t o input.tenantUUID input.orderID A)
    (parse : rt.scan input.tenantID = some input.tenantUUID) (h : A stage db)
    (isOpen : stage.isOpen = true) :
    Steps rt t o A (Somewhere A) (runSaga rt input) db := by
  have fails : ∀ (msg : String) (answer : Except Failure CreateOrderResponse) (db' : OrderDb),
      A stage db' → Steps rt t o A (Somewhere A) (do
        let _ ← failSaga rt input.tenantID input.orderID msg
        pure answer) db' := fun msg answer db' here =>
    wp_bind (wp_mono (fun _ _ there => there) (failSaga_steps msg drives parse here isOpen))
  refine steps_ask drives rfl h fun allowed db' here => ?_
  cases allowed with
  | false => exact wp_pure ⟨_, here⟩
  | true =>
    refine steps_apart drives (apart_walks.rpc (reserve_apart rt _)) here fun answer db' here => ?_
    cases answer with
    | error e => exact fails _ _ _ here
    | ok resp =>
      dsimp only
      split
      · exact fails _ _ _ here
      · refine wp_bind (steps_transition drives here isOpen (fun db' there => ?_)
          fun e db' there => ?_)
        · exact paySteps_steps drives parse there
        · exact wp_pure ⟨_, there⟩

end Walk

section Handlers

variable {rt : Runtime} {t u : UUID} {o x : String} {db : OrderDb} {α β : Type} {p : Code α}

theorem drives_own : Drives t o t o (At t o) where
  keeps h others := h.elsewhere others
  moves h follows order found := h.transition _ _ follows order found
  pays h _ some_ := h.pay _ some_

variable {K : OrderDb → Prop}

/-- Of another order, whatever depends on the rows of this one only. -/
theorem drives_other (other : ¬(u = t ∧ x = o))
    (keeps : ∀ db db', K db → Elsewhere t o db db' → K db') (listed : ∀ db, K db → Listed db) :
    Drives t o u x fun _ => K where
  keeps h others := keeps _ _ h others
  moves h _ _ found := keeps _ _ h (transitioned_elsewhere (listed _ h) found other)
  pays h _ _ := keeps _ _ h (paid_elsewhere (listed _ h) other)

/-- Of an order that is not there, nothing is written. -/
theorem drives_unfiled : Drives t o t o fun _ => Unfiled t o where
  keeps h others := ⟨others.listed, others.order.trans h.order, others.saga.trans h.saga,
    others.kinds.trans h.kinds⟩
  moves h _ order _ := by
    rw [h.order] at order
    cases order
  pays h order _ := by
    rw [h.order] at order
    cases order

theorem Agreed.listed (h : Agreed t o db) : Listed db := by
  rcases h with unfiled | ⟨stage, at_⟩
  · exact unfiled.listed
  · exact at_.listed

theorem Agreed.unfiled (h : Agreed t o db) (absent : db.orders t o = none) : Unfiled t o db := by
  rcases h with unfiled | ⟨stage, at_⟩
  · exact unfiled
  · obtain ⟨row, order, -⟩ := at_.order
    rw [absent] at order
    cases order

theorem Agreed.unfiled_of_cut (h : Agreed t o db) (cut : column 255 o ≠ o) : Unfiled t o db := by
  rcases h with unfiled | ⟨stage, at_⟩
  · exact unfiled
  · obtain ⟨saga, stored, -⟩ := at_.saga
    exact absurd (at_.listed.within t o saga stored) cut

abbrev Keeps (rt : Runtime) (t : UUID) (o : String) (p : Code α) (db : OrderDb) : Prop :=
  Wp (machine rt) 0 (Admits t o) (Agreed t o) (fun _ => Agreed t o) p db

theorem keeps_own (h : Steps rt t o (At t o) (Somewhere (At t o)) p db) :
    Keeps rt t o p db :=
  wp_weaken (fun _ => .inr) (wp_mono (fun _ _ => .inr) h)

theorem keeps_other (agreed : ∀ db, K db → Agreed t o db)
    (h : Steps rt t o (fun _ => K) (Somewhere fun _ => K) p db) :
    Wp (machine rt) 0 (Admits t o) (Agreed t o) (fun _ => K) p db :=
  wp_weaken (fun db known => agreed db known.choose_spec)
    (wp_mono (fun _ _ known => known.choose_spec) h)

theorem keeps_ask {f : Resp op → Code α} (reads : writesOrder op = false) (h : Agreed t o db)
    (rest : ∀ r g, respond rt op g = some (r, g.found) → Agreed t o g.found →
      Keeps rt t o (f r) g.found) : Keeps rt t o (ask op >>= f) db := by
  refine wp_bind ⟨h, fun g r db' others run => ?_⟩
  have same := respond_reads reads run
  subst same
  exact rest r g run (h.elsewhere others)

theorem keeps_apart (apart : Apart p) (h : Agreed t o db) : Keeps rt t o p db := by
  refine wp_mono (fun _ _ => And.right) (wp_of_safe (J := Agreed t o) (fun _ => id) ?_ apart h)
  intro op g r s s' reads others run here
  have same := respond_reads (Bool.eq_false_iff.2 reads) run
  subst same
  exact ⟨here.elsewhere others, trivial⟩

theorem runSaga_other (other : ¬(input.tenantUUID = t ∧ input.orderID = o))
    (keeps : ∀ db db', K db → Elsewhere t o db db' → K db') (agreed : ∀ db, K db → Agreed t o db)
    (parse : rt.scan input.tenantID = some input.tenantUUID) (h : K db) :
    Wp (machine rt) 0 (Admits t o) (Agreed t o) (fun _ => K) (runSaga rt input) db :=
  keeps_other agreed (runSaga_steps
    (drives_other other keeps fun db known => (agreed db known).listed) parse h
    (show Stage.pending.isOpen = true from rfl))

theorem runSaga_unfiled (input : SagaInput)
    (parse : rt.scan input.tenantID = some input.tenantUUID)
    (h : Unfiled input.tenantUUID input.orderID db) :
    Keeps rt input.tenantUUID input.orderID (runSaga rt input) db := by
  have isOpen : Stage.pending.isOpen = true := rfl
  exact wp_mono (fun _ _ known => .inl known) (keeps_other
    (K := Unfiled input.tenantUUID input.orderID) (fun _ => .inl)
    (runSaga_steps drives_unfiled parse h isOpen))

theorem createOrder_keeps (req : CreateOrderRequest) (h : Agreed t o db) :
    Keeps rt t o (createOrder rt req) db := by
  unfold createOrder
  split
  · exact wp_pure h
  rename_i tenantUUID parse
  have scan := parse_scan parse
  split_ifs
  · exact wp_pure h
  · exact wp_pure h
  · exact wp_pure h
  refine wp_bind ⟨h, fun g answer db' others run => ?_⟩
  have found := h.elsewhere others
  rcases respond_create run with ⟨rfl, creatable, rfl⟩ | ⟨⟨e, rfl⟩, rfl⟩
  · -- The rows are under the stored id, and the saga goes by the id of the request.
    have after : Agreed t o (orderCreated rt tenantUUID req (orderTotal req.lines) g.found) := by
      by_cases here : tenantUUID = t ∧ column 255 req.orderId = o
      · obtain ⟨rfl, rfl⟩ := here
        exact .inr ⟨_, .create (found.unfiled creatable.noOrder) creatable⟩
      · exact found.elsewhere (created_elsewhere found.listed creatable here)
    by_cases here : tenantUUID = t ∧ req.orderId = o
    · obtain ⟨rfl, rfl⟩ := here
      by_cases within : column 255 req.orderId = req.orderId
      · have created : At tenantUUID req.orderId .pending
            (orderCreated rt tenantUUID req (orderTotal req.lines) g.found) := by
          rw [← within] at found
          have filed : At tenantUUID (column 255 req.orderId) .pending
              (orderCreated rt tenantUUID req (orderTotal req.lines) g.found) :=
            .create (found.unfiled creatable.noOrder) creatable
          rwa [within] at filed
        exact keeps_own (runSaga_steps drives_own scan created rfl)
      · exact runSaga_unfiled (createInput req tenantUUID) scan (after.unfiled_of_cut within)
    · exact runSaga_other here (fun _ _ => Agreed.elsewhere) (fun _ => id) scan after
  · have replay : Apart (replayCreateOrder tenantUUID req) := by
      refine apart_walks.bind (apart_ask rfl) fun answer => ?_
      cases answer with
      | error e => exact safe_done
      | ok saga => exact safe_done
    refine wp_pure ?_
    split
    · exact keeps_apart replay found
    · exact wp_pure found
    · rename_i done
      cases done

theorem open_of_saga {saga : SagaInstance} (h : Agreed t o db) (stored : db.sagas t o = some saga)
    (going : saga.state = .pendingPayment ∨ saga.state = .reserved) :
    ∃ stage, stage.isOpen = true ∧ At t o stage db := by
  rcases h with unfiled | ⟨stage, at_⟩
  · rw [unfiled.saga] at stored
    cases stored
  · obtain ⟨saga', stored', state⟩ := at_.saga
    rw [stored] at stored'
    cases stored'
    refine ⟨stage, ?_, at_⟩
    rw [state] at going
    cases stage with
    | pending => rfl
    | reserved => rfl
    | charged => rfl
    | _ => rcases going with going | going <;> cases going

theorem cancelled_keeps (res : Except Failure Unit) (db : OrderDb) (h : Agreed t o db) :
    Keeps rt t o (match res with
      | .error e => pure (.error (.statusf .internal "compensate" e))
      | .ok () => pure (.ok ⟨true, .compensated⟩) : Code (Except Failure CancelOrderResponse))
      db := by
  cases res with
  | error e => exact wp_pure h
  | ok u => exact wp_pure h

theorem cancelOrder_keeps (req : CancelOrderRequest) (h : Agreed t o db) :
    Keeps rt t o (cancelOrder rt req) db := by
  unfold cancelOrder
  split
  · exact wp_pure h
  rename_i tenantUUID parse
  have scan := parse_scan parse
  refine keeps_ask rfl h fun answer g run found => ?_
  cases answer with
  | error e => exact wp_pure found
  | ok saga =>
    have stored := respond_saga run
    dsimp only
    split_ifs with final settled
    · exact wp_pure found
    · exact wp_pure found
    by_cases here : tenantUUID = t ∧ req.orderId = o
    · obtain ⟨rfl, rfl⟩ := here
      have going : saga.state = .pendingPayment ∨ saga.state = .reserved := by
        cases state : saga.state with
        | pendingPayment => exact .inl rfl
        | reserved => exact .inr rfl
        | allocated => exact absurd (.inl state) final
        | confirmed => exact absurd (.inr state) final
        | compensated => exact absurd (.inl state) settled
        | failed => exact absurd (.inr state) settled
      obtain ⟨stage, isOpen, at_⟩ := open_of_saga found stored going
      refine wp_bind (wp_mono cancelled_keeps (keeps_own (wp_mono ?_
        (compensate_steps _ drives_own scan at_ isOpen))))
      rintro res db' (⟨-, there⟩ | there)
      · exact ⟨_, there⟩
      · exact ⟨_, there⟩
    · refine wp_bind (wp_mono cancelled_keeps
        (keeps_other (K := Agreed t o) (fun _ => id) (wp_mono ?_
        (compensate_steps _ (drives_other here (fun _ _ => Agreed.elsewhere)
          fun _ => Agreed.listed) scan found (show Stage.pending.isOpen = true from rfl)))))
      rintro res db' (⟨-, there⟩ | there)
      · exact ⟨.pending, there⟩
      · exact ⟨.pending, there⟩

def Awaits (t : UUID) (o : String) (sagas : List SagaInstance) (db : OrderDb) : Prop :=
  Agreed t o db ∧ ((t, o) ∈ sagas.map sagaKey → ∃ stage, stage.isOpen = true ∧ At t o stage db)

theorem Awaits.elsewhere {db' : OrderDb} (h : Awaits t o sagas db) (others : Elsewhere t o db db') :
    Awaits t o sagas db' := by
  refine ⟨h.1.elsewhere others, fun mem => ?_⟩
  obtain ⟨stage, isOpen, at_⟩ := h.2 mem
  exact ⟨stage, isOpen, at_.elsewhere others⟩

theorem resumeEach_keeps (once : (sagas.map sagaKey).Nodup) (h : Awaits t o sagas db) :
    Keeps rt t o (resumeEach rt sagas) db := by
  induction sagas generalizing db with
  | nil => exact wp_pure h.1
  | cons saga rest ih =>
    rw [List.map_cons, List.nodup_cons] at once
    refine wp_bind ⟨h.1, fun g answer db' others run => ?_⟩
    have answered : respond rt (.getOrderLines saga.tenantID.text saga.tenantID saga.orderID) g =
      some (answer, db') := run
    have same := respond_reads rfl answered
    subst same
    have found := h.elsewhere others
    cases answer with
    | error e => exact wp_pure found.1
    | ok lines =>
      by_cases here : saga.tenantID = t ∧ saga.orderID = o
      · have key : sagaKey saga = (t, o) := Prod.ext here.1 here.2
        obtain ⟨stage, isOpen, at_⟩ := found.2 (by
          rw [List.map_cons, key]
          exact List.mem_cons_self)
        obtain ⟨rfl, rfl⟩ := here
        refine wp_bind (wp_mono ?_ (keeps_own (runSaga_steps drives_own (rt.scan_text _) at_
          isOpen)))
        intro _ db' agreed
        refine ih once.2 ⟨agreed, fun mem => absurd mem ?_⟩
        rw [← key]
        exact once.1
      · have later : Awaits t o rest g.found :=
          ⟨found.1, fun mem => found.2 (List.mem_cons_of_mem _ mem)⟩
        refine wp_bind (wp_mono ?_ (runSaga_other (K := Awaits t o rest) here
          (fun _ _ => Awaits.elsewhere) (fun _ => And.left) (rt.scan_text _) later))
        intro _ db' awaits
        exact ih once.2 awaits

theorem resumePendingSagas_keeps (limit : Int32) (h : Agreed t o db) :
    Keeps rt t o (resumePendingSagas rt limit) db := by
  refine keeps_ask rfl h fun answer g run found => ?_
  cases answer with
  | error e => exact wp_pure found
  | ok sagas =>
    have scanned := respond_resumable run
    obtain ⟨once, stored⟩ := resumableSagas_spec found.listed
    have taken : sagas.Sublist (resumableSagas g.found) := scanned ▸ List.take_sublist _ _
    refine resumeEach_keeps ((taken.map sagaKey).nodup once) ⟨found, fun mem => ?_⟩
    obtain ⟨saga, listed, key⟩ := List.mem_map.1 mem
    obtain ⟨here, going⟩ := stored saga (taken.subset listed)
    obtain ⟨rfl, rfl⟩ := Prod.mk.inj key
    exact open_of_saga found here going

theorem handler_keeps (h : Services.Handler) (agreed : Agreed t o db) :
    Keeps rt t o (h.code rt) db := by
  have serves : ∀ {γ : Type} {p : Code γ}, Keeps rt t o p db → Keeps rt t o (serve p) db :=
    fun kept => wp_bind (wp_mono (fun _ _ after => after) kept)
  cases h with
  | createOrder req => exact serves (createOrder_keeps req agreed)
  | cancelOrder req => exact serves (cancelOrder_keeps req agreed)
  | resumePendingSagas limit => exact serves (resumePendingSagas_keeps limit agreed)
  | reserve req => exact serves (keeps_apart (reserve_apart rt req) agreed)
  | release req => exact serves (keeps_apart (release_apart rt req) agreed)
  | allocateReservation req => exact serves (keeps_apart (allocate_apart rt req) agreed)
  | sweepOnce batch => exact serves (keeps_apart (sweep_apart batch) agreed)

theorem fulfillOrder_keeps (rt : Runtime) (req : FulfillOrderRequest) (h : Agreed t o db) :
    Agreed t o (Fulfillment.fulfillOrder rt req db).2 := by
  unfold Fulfillment.fulfillOrder
  split
  · exact h
  rename_i tenantUUID parse
  generalize result : execTxWithTenant rt req.tenantId (fulfillOrderTx rt tenantUUID req) db = out
  obtain ⟨answer, db'⟩ := out
  cases answer with
  | error e =>
    rw [execTx_error result]
    exact h
  | ok resp =>
    rcases FulfilledOnce.fulfillOrderTx_ok (execTx_ok result) with same | ⟨row, order, status, same⟩
    · rw [same]
      exact h
    · rw [same]
      by_cases here : tenantUUID = t ∧ req.orderId = o
      · obtain ⟨rfl, rfl⟩ := here
        rcases h with unfiled | ⟨stage, at_⟩
        · rw [unfiled.order] at order
          cases order
        · exact .inr ⟨_, at_.fulfill rt order status⟩
      · exact h.elsewhere (fulfilled_elsewhere h.listed here)

theorem reached_agreed (reached : Reached rt t o db) : Agreed t o db := by
  induction reached with
  | start listed order saga events =>
    refine .inl ⟨listed, order, saga, ?_⟩
    rw [kinds, events, List.map_nil]
  | handler before run ih =>
    rcases wp_stopped run (handler_keeps _ ih) with here | ⟨-, -, here⟩
    · exact here
    · exact here
  | fulfillOrder req before others ih => exact fulfillOrder_keeps _ req (ih.elsewhere others)
  | others before others ih => exact ih.elsewhere others

end Handlers

/-! ### Runs of the stack

What a handler does to the order tables in the stack, it does here: the answers of
the other services are among those that can be given. -/
section Stacks

variable {rt : Runtime} {me : ℕ} {c : Choice} {s s' : Stack}

theorem inTables_of_exec (h : exec rt me op c s = some (r, s'))
    (same : inTables rt op ⟨s.order, c.fault, none, "", fun _ => none⟩ =
      (exec rt me op c s).map fun out => (out.1, out.2.order)) :
    inTables rt op ⟨s.order, c.fault, none, "", fun _ => none⟩ = some (r, s'.order) := by
  rw [same, h]
  rfl

theorem orderTx_tables {α : Type} (tenantID : String) (tx : OrderTx α) :
    (orderTx rt tenantID tx ⟨c.fault, true, 0, [], ""⟩ (alone s.order)).map
        (fun out => (out.1, out.2.order)) =
      (orderTx rt tenantID tx c s).map fun out => (out.1, out.2.order) := by
  unfold orderTx
  cases c.fault with
  | true => rfl
  | false => rfl

open Classical in
theorem exec_given (h : exec rt me op c s = some (r, s')) :
    ∃ g : Given, g.found = s.order ∧ respond rt op g = some (r, s'.order) := by
  have tables := inTables_of_exec h
  have answered : writesOrder op = false →
      ∃ g : Given, g.found = s.order ∧ (g.answer op).map (fun r => (r, g.found)) =
        some (r, s'.order) := by
    intro reads
    refine ⟨⟨s.order, false, none, "", fun op' =>
      if same : op' = op then some (same ▸ r) else none⟩, rfl, ?_⟩
    rw [(exec_frame h).order reads]
    simp
  cases op with
  | createOrderRow t req total => exact ⟨_, rfl, tables (orderTx_tables _ _)⟩
  | getSagaInstance tenantID t o => exact ⟨_, rfl, tables (orderTx_tables _ _)⟩
  | transition tenantID t o state step errMsg => exact ⟨_, rfl, tables (orderTx_tables _ _)⟩
  | recordTransaction tenantID t o txn => exact ⟨_, rfl, tables (orderTx_tables _ _)⟩
  | getOrderLines tenantID t o => exact ⟨_, rfl, tables (orderTx_tables _ _)⟩
  | getResumableSagas limit =>
    refine ⟨_, rfl, tables ?_⟩
    simp only [inTables, exec, alone]
    split
    · rfl
    · rfl
  | charge req =>
    cases h
    cases paid : charge rt req c.uuid with
    | error e => exact ⟨⟨s.order, false, some e, "", fun _ => none⟩, rfl, rfl⟩
    | ok txn =>
      refine ⟨⟨s.order, false, none, c.uuid, fun _ => none⟩, rfl, ?_⟩
      unfold charge at paid
      split_ifs at paid
      cases paid
      rfl
  | _ => exact answered rfl

theorem exec_listed_run {t : UUID} {o : String} {α : Type} {adm : Op → Choice → Stack → Prop}
    {p p' : Code α} (run : Exec (ServiceStack.machine rt) me adm p s p' s')
    (listed : Listed s.order) : Exec (machine rt) 0 (Admits t o) p s.order p' s'.order := by
  induction run with
  | refl p s => exact .refl _ _
  | next ok step tail ih =>
    obtain ⟨g, found, answer⟩ := exec_given step
    refine .next (c := g) ?_ answer (ih (exec_listed step listed))
    rw [Admits, found]
    exact .refl listed

end Stacks

def agreedPairs : List (SagaState × OrderStatus) :=
  [(.pendingPayment, .pending), (.reserved, .pending), (.confirmed, .confirmed),
    (.confirmed, .fulfilled), (.compensated, .compensated), (.failed, .failed)]

def lastKind (state : SagaState) (status : OrderStatus) : Option String :=
  if status = .fulfilled then some "order.fulfilled"
  else if state = .pendingPayment then none
  else some (stateEvent state)

theorem Stage.pair_agreed (stage : Stage) : (stage.saga, stage.status) ∈ agreedPairs := by
  cases stage <;> decide

theorem history_last (stage : Stage) (n : ℕ) :
    (stage.history n).getLast? = lastKind stage.saga stage.status := by
  cases stage with
  | pending => rfl
  | fulfilled => simp [Stage.history, lastKind, Stage.status]
  | reserved | charged =>
    simp [Stage.history, lastKind, Stage.saga, Stage.status, stateEvent_reserved]
  | confirmed => simp [Stage.history, lastKind, Stage.saga, Stage.status, stateEvent_confirmed]
  | compensated => simp [Stage.history, lastKind, Stage.saga, Stage.status, stateEvent_compensated]
  | failed => simp [Stage.history, lastKind, Stage.saga, Stage.status, stateEvent_failed]

/-- Besides `order.reserved` no kind comes twice, and of the two failures only one. -/
theorem history_once (stage : Stage) (n : ℕ) :
    (stage.history n).count "order.confirmed" ≤ 1 ∧ (stage.history n).count "order.fulfilled" ≤ 1 ∧
      (stage.history n).count "order.compensated" + (stage.history n).count "order.failed" ≤ 1 := by
  have none : ∀ kind : String, kind ≠ "order.reserved" →
      (List.replicate n "order.reserved").count kind = 0 := by
    intro kind other
    rw [List.count_replicate, if_neg]
    simpa using fun same => other same.symm
  cases stage <;> simp [Stage.history, List.count_append, none]

/-- After every commit the saga state and the order status are one of the agreed
pairs, a confirmed order has its payment, the last event is the one of the state,
and the events that end something come once. -/
theorem saga_order_outbox_agree (rt : Runtime) (t : UUID) (o : String) (db : OrderDb)
    (reached : Reached rt t o db) :
    (db.orders t o = none ∧ db.sagas t o = none ∧ eventsOf t o db = []) ∨
    ∃ row saga, db.orders t o = some row ∧ db.sagas t o = some saga ∧
      (saga.state, row.status) ∈ agreedPairs ∧
      (row.status = .confirmed ∨ row.status = .fulfilled → row.transactionID ≠ "") ∧
      (eventsOf t o db).getLast?.map (·.eventType) = lastKind saga.state row.status ∧
      (kinds t o db).count "order.confirmed" ≤ 1 ∧ (kinds t o db).count "order.fulfilled" ≤ 1 ∧
      (kinds t o db).count "order.compensated" + (kinds t o db).count "order.failed" ≤ 1 := by
  rcases reached_agreed reached with unfiled | ⟨stage, at_⟩
  · exact .inl ⟨unfiled.order, unfiled.saga, List.map_eq_nil_iff.1 unfiled.kinds⟩
  · obtain ⟨row, order, status, paid⟩ := at_.order
    obtain ⟨saga, stored, state⟩ := at_.saga
    obtain ⟨n, history⟩ := at_.history
    refine .inr ⟨row, saga, order, stored, ?_, ?_, ?_, ?_⟩
    · rw [state, status]
      exact stage.pair_agreed
    · intro done
      rw [status] at done
      refine paid ?_
      cases stage with
      | confirmed => rfl
      | fulfilled => rfl
      | _ => rcases done with done | done <;> cases done
    · rw [← List.getLast?_map, state, status]
      change (kinds t o db).getLast? = _
      rw [history, history_last]
    · rw [history]
      exact history_once stage n

def sampleRun : Option Stack :=
  runFor (ServiceStack.machine (reference [])) 0 (fun _ _ _ => true) (List.replicate 21 .healthy)
    (Handler.code (reference []) (.createOrder (sampleOrder "ord-1" "key-1"))) sampleStack

def sampleFulfilled : Option OrderDb :=
  sampleRun.map fun s => (Fulfillment.fulfillOrder (reference [])
    ⟨sampleTenant.text, "ord-1", "key-2"⟩ s.order).2

theorem sample_reached {db : OrderDb} (made : sampleFulfilled = some db) :
    Reached (reference []) sampleTenant "ord-1" db := by
  obtain ⟨s, run, rfl⟩ := Option.map_eq_some_iff.1 made
  obtain ⟨left, u, steps, rfl⟩ := exec_of_runFor _ _ run
  have start : Reached (reference []) sampleTenant "ord-1" sampleStack.order :=
    .start listed_empty rfl rfl rfl
  have handled := start.handler (exec_listed_run steps listed_empty)
  exact handled.fulfillOrder _ (.refl (reached_agreed handled).listed)

theorem saga_order_outbox_agree_fulfilled :
    sampleFulfilled.map (fun db => kinds sampleTenant "ord-1" db) =
      some ["order.reserved", "order.confirmed", "order.fulfilled"] ∧
    ∃ db row saga, sampleFulfilled = some db ∧ db.orders sampleTenant "ord-1" = some row ∧
      db.sagas sampleTenant "ord-1" = some saga ∧ (saga.state, row.status) ∈ agreedPairs := by
  have told : sampleFulfilled.map (fun db => kinds sampleTenant "ord-1" db) =
      some ["order.reserved", "order.confirmed", "order.fulfilled"] := by decide +kernel
  refine ⟨told, ?_⟩
  obtain ⟨db, made, events⟩ := Option.map_eq_some_iff.1 told
  rcases saga_order_outbox_agree _ _ _ _ (sample_reached made) with ⟨-, -, none⟩ |
    ⟨row, saga, order, stored, pair, -⟩
  · rw [kinds, none] at events
    cases events
  · exact ⟨db, row, saga, made, order, stored, pair⟩

end Taper.OrderAgreement
