import Taper.OrderAgreement

set_option autoImplicit false

/-!
# Looking at an order

`GetOrder` reads the order, its lines and its saga in three statements, and a
handler of the order can commit between them.
-/
namespace Taper.OrderViews
open Messages Transaction Platform OrderTables OrderSteps Program ServiceStack Services
open StackSteps Fulfillment OrderAgreement

structure GetOrderRequest where
  tenantId : String
  orderId : String
  deriving DecidableEq

structure GetOrderResponse where
  orderId : String
  status : OrderStatus
  totalAmount : Int64
  lines : List OrderLine
  sagaState : SagaState
  transactionId : String
  deriving DecidableEq

def seen {α : Type} (db : OrderDb) (tx : OrderTx α) : OrderTx α :=
  match tx.run db with
  | .ok (a, _) => pure a
  | .error e => .throw e

def notFound : Failure := .status .notFound "order not found"

def findOrder (db : OrderDb) (tenantUUID : UUID) (orderID : String) : OrderTx OrderRow :=
  match (getOrderById tenantUUID orderID).run db with
  | .ok (row, _) => pure row
  | .error (.sql .noRows) => .throw notFound
  | .error e => .throw e

structure Tables where
  atOrder : OrderDb
  atLines : OrderDb
  atSaga : OrderDb

def getOrderTx (rt : Runtime) (tenantUUID : UUID) (req : GetOrderRequest) (dbs : Tables) :
    OrderTx GetOrderResponse := do
  let o ← findOrder dbs.atOrder tenantUUID req.orderId
  let lines ← seen dbs.atLines (getOrderLines rt tenantUUID req.orderId)
  let saga ← seen dbs.atSaga (getSagaInstance tenantUUID req.orderId)
  pure ⟨req.orderId, o.status, o.totalAmount, lines, saga.state, o.transactionID⟩

def getOrder (rt : Runtime) (req : GetOrderRequest) (dbs : Tables) :
    Except Failure GetOrderResponse :=
  match parseUUID rt req.tenantId with
  | .error e => .error (.statusf .invalidArgument "" e)
  | .ok tenantUUID =>
    (execTxWithTenant rt req.tenantId (getOrderTx rt tenantUUID req dbs) dbs.atOrder).1

section Answers

variable {rt : Runtime} {t : UUID} {req : GetOrderRequest} {dbs : Tables}

theorem seen_run {α : Type} {db db' db'' : OrderDb} {tx : OrderTx α} {a : α}
    (run : tx.run db = .ok (a, db')) : (seen db tx).run db'' = .ok (a, db'') := by
  rw [seen, run]
  rfl

theorem commit_fst {α : Type} {tx : OrderTx α} {db db' : OrderDb} {a : α}
    (run : tx.run db = .ok (a, db')) : (tx.commit db).1 = .ok a := by
  rw [Tx.commit_of_ok run]

theorem getOrder_found {row : OrderRow} {saga : SagaInstance}
    (parse : rt.scan req.tenantId = some t) (castable : Castable rt req.tenantId)
    (text : storable req.orderId = true) (order : dbs.atOrder.orders t req.orderId = some row)
    (stored : dbs.atSaga.sagas t req.orderId = some saga) :
    getOrder rt req dbs = .ok ⟨req.orderId, row.status, row.totalAmount,
      rt.rows (dbs.atLines.orderLines t req.orderId), saga.state, row.transactionID⟩ := by
  have first : (findOrder dbs.atOrder t req.orderId).run dbs.atOrder = .ok (row, dbs.atOrder) := by
    rw [findOrder, getOrder_ok_iff.2 ⟨text, order, rfl⟩]
    rfl
  have second : (seen dbs.atLines (getOrderLines rt t req.orderId)).run dbs.atOrder =
      .ok (rt.rows (dbs.atLines.orderLines t req.orderId), dbs.atOrder) :=
    seen_run (getLines_ok_iff.2 ⟨text, rfl, rfl⟩)
  have third : (seen dbs.atSaga (getSagaInstance t req.orderId)).run dbs.atOrder =
      .ok (saga, dbs.atOrder) := seen_run (getSaga_ok_iff.2 ⟨text, stored, rfl⟩)
  rw [getOrder, parseUUID, parse]
  dsimp only
  rw [execTx_eq castable]
  refine commit_fst (Tx.bind_ok_iff.2 ⟨_, _, first, Tx.bind_ok_iff.2 ⟨_, _, second,
    Tx.bind_ok_iff.2 ⟨_, _, third, rfl⟩⟩⟩)

theorem getOrder_missing (parse : rt.scan req.tenantId = some t)
    (castable : Castable rt req.tenantId) (text : storable req.orderId = true)
    (order : dbs.atOrder.orders t req.orderId = none) : getOrder rt req dbs = .error notFound := by
  have first : (getOrderById t req.orderId).run dbs.atOrder = .error (.sql .noRows) := by
    simp [getOrderById, Tx.bind_run, Tx.require, text, order]
  have fails : (getOrderTx rt t req dbs).run dbs.atOrder = .error notFound := by
    rw [getOrderTx, Tx.bind_run, findOrder, first]
    rfl
  rw [getOrder, parseUUID, parse]
  dsimp only
  rw [execTx_eq castable, Tx.commit, fails]

end Answers

structure Moment where
  left : Code Unit
  db : OrderDb

structure Beside (t : UUID) (o : String) (db db' : OrderDb) : Prop
    extends Elsewhere t o db db' where
  lines : db'.orderLines t o = db.orderLines t o

/-- The handlers of one order do not overlap: a new one begins where the last has
ended or was stopped. What happens to other orders happens at any time. -/
inductive Moves (rt : Runtime) (t : UUID) (o : String) : Moment → Moment → Prop where
  | operation {op : Op} {k : Resp op → Code Unit} {db db' : OrderDb} {g : Given} {r : Resp op}
      (others : Beside t o db g.found) (run : respond rt op g = some (r, db')) :
      Moves rt t o ⟨.step op k, db⟩ ⟨k r, db'⟩
  | handler {left : Code Unit} {db : OrderDb} (h : Services.Handler) :
      Moves rt t o ⟨left, db⟩ ⟨h.code rt, db⟩
  | fulfillOrder {left : Code Unit} {db found : OrderDb} (req : FulfillOrderRequest)
      (others : Beside t o db found) :
      Moves rt t o ⟨left, db⟩ ⟨.pure (), (Fulfillment.fulfillOrder rt req found).2⟩
  | others {left : Code Unit} {db db' : OrderDb} (others : Beside t o db db') :
      Moves rt t o ⟨left, db⟩ ⟨left, db'⟩

abbrev Later (rt : Runtime) (t : UUID) (o : String) : Moment → Moment → Prop :=
  Relation.ReflTransGen (Moves rt t o)

variable {p : Code Unit} {m m' : Moment}

section Growth

variable {rt : Runtime} {t : UUID} {o : String} {db db' db'' : OrderDb}

/-- Of an order nothing is taken back: its events are kept, and so are its row and
its lines once they are there. -/
structure Grown (t : UUID) (o : String) (db db' : OrderDb) : Prop where
  kinds : kinds t o db <+: kinds t o db'
  order : (db.orders t o).isSome = true → (db'.orders t o).isSome = true
  lines : (db.orders t o).isSome = true → db'.orderLines t o = db.orderLines t o

theorem Grown.refl (t : UUID) (o : String) (db : OrderDb) : Grown t o db db :=
  ⟨List.prefix_rfl, id, fun _ => rfl⟩

theorem Grown.trans (h : Grown t o db db') (h' : Grown t o db' db'') : Grown t o db db'' :=
  ⟨h.kinds.trans h'.kinds, fun some_ => h'.order (h.order some_),
    fun some_ => (h'.lines (h.order some_)).trans (h.lines some_)⟩

theorem Beside.grown (h : Beside t o db db') : Grown t o db db' :=
  ⟨by rw [h.kinds], fun some_ => by rwa [h.order], fun _ => h.lines⟩

theorem kinds_append {events : List OrderOutboxEvent} (h : db'.outbox = db.outbox ++ events) :
    kinds t o db <+: kinds t o db' := by
  rw [kinds, kinds, eventsOf, eventsOf, h, List.filter_append, List.map_append]
  exact List.prefix_append _ _

theorem write_grown {s : Stack} {op : Op} (write : OrderWrite rt s op db') :
    Grown t o s.order db' := by
  cases write with
  | @created u req total ok =>
    have apart : (s.order.orders t o).isSome = true →
        ¬(t = u ∧ o = column 255 req.orderId) := by
      rintro some_ ⟨rfl, rfl⟩
      rw [ok.noOrder] at some_
      cases some_
    refine ⟨List.prefix_rfl, fun some_ => ?_, fun some_ => setCell_other _ _ (apart some_)⟩
    have same := setCell_other s.order.orders (some ⟨.pending, total, "USD", ""⟩) (apart some_)
    exact (congrArg Option.isSome same).trans some_
  | moved order found fits =>
    refine ⟨kinds_append rfl, fun some_ => ?_, fun _ => rfl⟩
    exact (FulfilledOnce.setCell_isSome order t o).trans some_
  | recorded order =>
    refine ⟨List.prefix_rfl, fun some_ => ?_, fun _ => rfl⟩
    exact (FulfilledOnce.setCell_isSome order t o).trans some_

theorem respond_grown {op : Op} {g : Given} {r : Resp op}
    (run : respond rt op g = some (r, db')) : Grown t o g.found db' := by
  have tables : inTables rt op g = some (r, db') → Grown t o g.found db' := by
    intro answered
    obtain ⟨s', exec, rfl⟩ := inTables_some answered
    rcases exec_order_cases exec with same | write
    · rw [same]
      exact .refl t o _
    · exact write_grown write
  by_cases reads : writesOrder op = false
  · rw [respond_reads reads run]
    exact .refl t o _
  · cases op with
    | createOrderRow u req total => exact tables run
    | transition tenantID u x state step errMsg => exact tables run
    | recordTransaction tenantID u x txn => exact tables run
    | _ => exact absurd rfl reads

theorem fulfillOrder_cases (rt : Runtime) (req : FulfillOrderRequest) (db : OrderDb) :
    (Fulfillment.fulfillOrder rt req db).2 = db ∨ ∃ u row, parseUUID rt req.tenantId = .ok u ∧
      db.orders u req.orderId = some row ∧
      (Fulfillment.fulfillOrder rt req db).2 = FulfilledOnce.orderFulfilled rt u req row db := by
  unfold Fulfillment.fulfillOrder
  split
  · exact .inl rfl
  rename_i u parse
  rcases execTx_cases rt req.tenantId (fulfillOrderTx rt u req) db with
    ⟨resp, db', eq, run⟩ | ⟨e, eq⟩
  · rw [eq]
    rcases FulfilledOnce.fulfillOrderTx_ok run with same | ⟨row, order, -, same⟩
    · exact .inl same
    · exact .inr ⟨u, row, parse, order, same⟩
  · rw [eq]
    exact .inl rfl

theorem fulfillOrder_grown (req : FulfillOrderRequest) :
    Grown t o db (Fulfillment.fulfillOrder rt req db).2 := by
  rcases fulfillOrder_cases rt req db with same | ⟨u, row, -, order, eq⟩
  · rw [same]
    exact .refl t o db
  · rw [eq]
    have tables := claimed_tables u req.idempotencyKey (rt.payloadHash (.fulfillOrder req)) db
    refine ⟨kinds_append rfl, fun some_ => ?_, fun _ => congrFun (congrFun tables.2.1 t) o⟩
    exact (FulfilledOnce.setCell_isSome order t o).trans some_

theorem moves_grown (step : Moves rt t o m m') : Grown t o m.db m'.db := by
  cases step with
  | operation others run => exact others.grown.trans (respond_grown run)
  | handler h => exact .refl t o _
  | fulfillOrder req others => exact others.grown.trans (fulfillOrder_grown req)
  | others others => exact others.grown

theorem later_grown (run : Later rt t o m m') : Grown t o m.db m'.db := by
  induction run with
  | refl => exact .refl t o _
  | tail _ step ih => exact ih.trans (moves_grown step)

end Growth

section Agreement

variable {rt : Runtime} {t : UUID} {o : String}

theorem keeps_agreed {db : OrderDb} (h : Keeps rt t o p db) : Agreed t o db := by
  cases p with
  | pure a => exact h
  | step op k => exact h.1

theorem elsewhere_trans {db db' db'' : OrderDb} (h : Elsewhere t o db db')
    (h' : Elsewhere t o db' db'') : Elsewhere t o db db'' :=
  ⟨h'.order.trans h.order, h'.saga.trans h.saga, h'.kinds.trans h.kinds, h'.listed⟩

theorem keeps_elsewhere {db db' : OrderDb} (h : Keeps rt t o p db) (others : Elsewhere t o db db') :
    Keeps rt t o p db' := by
  cases p with
  | pure a => exact Agreed.elsewhere h others
  | step op k =>
    exact ⟨h.1.elsewhere others, fun g r db'' found run =>
      h.2 g r db'' (elsewhere_trans others found) run⟩

theorem moves_keeps (step : Moves rt t o m m') (h : Keeps rt t o m.left m.db) :
    Keeps rt t o m'.left m'.db := by
  cases step with
  | operation others run => exact h.2 _ _ _ others.toElsewhere run
  | handler x => exact handler_keeps x (keeps_agreed h)
  | fulfillOrder req others =>
    exact fulfillOrder_keeps rt req ((keeps_agreed h).elsewhere others.toElsewhere)
  | others others => exact keeps_elsewhere h others.toElsewhere

theorem later_keeps (run : Later rt t o m m') (h : Keeps rt t o m.left m.db) :
    Keeps rt t o m'.left m'.db := by
  induction run with
  | refl => exact h
  | tail _ step ih => exact moves_keeps step ih

end Agreement

section Stages

variable {rt : Runtime} {t : UUID} {o : String} {stage stage' : Stage}

/-- Once an order is settled, it can only be fulfilled. -/
def Reaches (stage stage' : Stage) : Prop :=
  stage.isOpen = true ∨ stage' = stage ∨ (stage = .confirmed ∧ stage' = .fulfilled)

theorem open_status (isOpen : stage.isOpen = true) : stage.status = .pending := by
  cases stage with
  | pending => rfl
  | reserved => rfl
  | charged => rfl
  | _ => cases isOpen

theorem open_saga (isOpen : stage.isOpen = true) :
    stage.saga = .pendingPayment ∨ stage.saga = .reserved := by
  cases stage with
  | pending => exact .inl rfl
  | reserved => exact .inr rfl
  | charged => exact .inr rfl
  | _ => cases isOpen

theorem history_reaches {n m : ℕ} (grown : stage.history n ⊆ stage'.history m) :
    Reaches stage stage' := by
  cases stage with
  | confirmed =>
    have told : "order.confirmed" ∈ stage'.history m := grown (by simp [Stage.history])
    cases stage' <;> simp [Stage.history, Reaches] at told ⊢
  | fulfilled =>
    have told : "order.fulfilled" ∈ stage'.history m := grown (by simp [Stage.history])
    cases stage' <;> simp [Stage.history, Reaches] at told ⊢
  | compensated =>
    have told : "order.compensated" ∈ stage'.history m := grown (by simp [Stage.history])
    cases stage' <;> simp [Stage.history, Reaches] at told ⊢
  | failed =>
    have told : "order.failed" ∈ stage'.history m := grown (by simp [Stage.history])
    cases stage' <;> simp [Stage.history, Reaches] at told ⊢
  | _ => exact .inl rfl

theorem later_reaches {db db' : OrderDb} (h : At t o stage db) (h' : At t o stage' db')
    (grown : Grown t o db db') : Reaches stage stage' := by
  obtain ⟨n, before⟩ := h.history
  obtain ⟨m, now⟩ := h'.history
  have kept := grown.kinds.subset
  rw [before, now] at kept
  exact history_reaches kept

theorem later_at (run : Later rt t o m m') (h : Keeps rt t o m.left m.db)
    (there : (m.db.orders t o).isSome = true) : ∃ stage, At t o stage m'.db := by
  rcases keeps_agreed (later_keeps run h) with unfiled | at_
  · have some_ := (later_grown run).order there
    rw [unfiled.order] at some_
    cases some_
  · exact at_

end Stages

structure GetOrderResponse.Consistent (resp : GetOrderResponse) : Prop where
  settled : resp.status ≠ .pending → (resp.sagaState, resp.status) ∈ agreedPairs
  paid : resp.status = .confirmed ∨ resp.status = .fulfilled → resp.transactionId ≠ ""

structure GetOrderResponse.Follows (resp resp' : GetOrderResponse) : Prop where
  status : resp.status ≠ .pending → resp'.status = resp.status ∨
    (resp.status = .confirmed ∧ resp'.status = .fulfilled)
  saga : resp.sagaState = .confirmed ∨ resp.sagaState = .compensated ∨ resp.sagaState = .failed →
    resp'.sagaState = resp.sagaState
  lines : resp'.lines = resp.lines

def Reads (rt : Runtime) (t : UUID) (o : String) (m : Moment) (dbs : Tables) (m' : Moment) : Prop :=
  ∃ m₁ m₂ m₃, Later rt t o m m₁ ∧ Later rt t o m₁ m₂ ∧ Later rt t o m₂ m₃ ∧ Later rt t o m₃ m' ∧
    dbs = ⟨m₁.db, m₂.db, m₃.db⟩

section Views

variable {rt : Runtime} {t : UUID} {req : GetOrderRequest}

structure Shows (rt : Runtime) (t : UUID) (req : GetOrderRequest) (dbs : Tables)
    (resp : GetOrderResponse) (stage stage' : Stage) : Prop where
  answered : getOrder rt req dbs = .ok resp
  order : At t req.orderId stage dbs.atOrder
  saga : At t req.orderId stage' dbs.atSaga
  grown : Grown t req.orderId dbs.atOrder dbs.atSaga
  lines : resp.lines = rt.rows (dbs.atOrder.orderLines t req.orderId)
  status : resp.status = stage.status
  state : resp.sagaState = stage'.saga
  paid : stage.paid = true → resp.transactionId ≠ ""

theorem reads_shows {dbs : Tables} (parse : rt.scan req.tenantId = some t)
    (castable : Castable rt req.tenantId) (text : storable req.orderId = true)
    (h : Keeps rt t req.orderId m.left m.db) (reads : Reads rt t req.orderId m dbs m')
    (there : (dbs.atOrder.orders t req.orderId).isSome = true) :
    ∃ resp stage stage', Shows rt t req dbs resp stage stage' := by
  obtain ⟨m₁, m₂, m₃, run₁, run₂, run₃, -, rfl⟩ := reads
  have here := later_keeps run₁ h
  obtain ⟨stage, at_⟩ := later_at .refl here there
  obtain ⟨stage', at'⟩ := later_at (run₂.trans run₃) here there
  obtain ⟨row, order, status, paid⟩ := at_.order
  obtain ⟨saga, stored, state⟩ := at'.saga
  have lines := (later_grown run₂).lines there
  refine ⟨_, stage, stage', getOrder_found parse castable text order stored, at_, at',
    later_grown (run₂.trans run₃), ?_, status, state, paid⟩
  dsimp only
  rw [lines]

theorem Shows.consistent {dbs : Tables} {resp : GetOrderResponse} {stage stage' : Stage}
    (h : Shows rt t req dbs resp stage stage') : resp.Consistent := by
  have reaches := later_reaches h.order h.saga h.grown
  refine ⟨fun closed => ?_, fun done => ?_⟩
  · rw [h.status] at closed ⊢
    rw [h.state]
    rcases reaches with isOpen | rfl | ⟨rfl, rfl⟩
    · exact absurd (open_status isOpen) closed
    · exact stage'.pair_agreed
    · exact Stage.confirmed.pair_agreed
  · rw [h.status] at done
    refine h.paid ?_
    cases stage with
    | confirmed => rfl
    | fulfilled => rfl
    | _ => rcases done with done | done <;> cases done

theorem Shows.follows {dbs dbs' : Tables} {resp resp' : GetOrderResponse}
    {stage₁ stage₂ stage₃ stage₄ : Stage} (h : Shows rt t req dbs resp stage₁ stage₂)
    (h' : Shows rt t req dbs' resp' stage₃ stage₄)
    (grown : Grown t req.orderId dbs.atSaga dbs'.atOrder)
    (there : (dbs.atOrder.orders t req.orderId).isSome = true) : resp.Follows resp' := by
  refine ⟨fun closed => ?_, fun final => ?_, ?_⟩
  · have reaches := later_reaches h.order h'.order (h.grown.trans grown)
    rw [h.status] at closed ⊢
    rw [h'.status]
    rcases reaches with isOpen | rfl | ⟨rfl, rfl⟩
    · exact absurd (open_status isOpen) closed
    · exact .inl rfl
    · exact .inr ⟨rfl, rfl⟩
  · have reaches := later_reaches h.saga h'.saga (grown.trans h'.grown)
    rw [h.state] at final ⊢
    rw [h'.state]
    rcases reaches with isOpen | rfl | ⟨rfl, rfl⟩
    · rcases open_saga isOpen with early | early <;> simp [early] at final
    · rfl
    · rfl
  · rw [h.lines, h'.lines, (h.grown.trans grown).lines there]

end Views

/-- Whatever commits between its statements, with one handler of the order in
flight at a time, `GetOrder` answers for every order that is there, never shows a
settled order with a saga of another outcome, and a later answer takes back
nothing of an earlier one. -/
theorem getOrder_settles (rt : Runtime) (t : UUID) (req : GetOrderRequest)
    (parse : rt.scan req.tenantId = some t) (castable : Castable rt req.tenantId)
    (text : storable req.orderId = true) (db : OrderDb) (fresh : Unfiled t req.orderId db)
    (m m' : Moment) (dbs dbs' : Tables)
    (first : Reads rt t req.orderId ⟨.pure (), db⟩ dbs m)
    (second : Reads rt t req.orderId m dbs' m') :
    (dbs.atOrder.orders t req.orderId = none ∧ getOrder rt req dbs = .error notFound) ∨
    ∃ resp resp', getOrder rt req dbs = .ok resp ∧ getOrder rt req dbs' = .ok resp' ∧
      resp.Consistent ∧ resp'.Consistent ∧ resp.Follows resp' := by
  cases found : dbs.atOrder.orders t req.orderId with
  | none => exact .inl ⟨rfl, getOrder_missing parse castable text found⟩
  | some row =>
    have there : (dbs.atOrder.orders t req.orderId).isSome = true := by
      rw [found]
      rfl
    have start : Keeps rt t req.orderId (.pure ()) db := .inl fresh
    obtain ⟨resp, stage₁, stage₂, shows⟩ := reads_shows parse castable text start first there
    obtain ⟨m₁, m₂, m₃, run₁, run₂, run₃, run₄, rfl⟩ := first
    have mid := later_keeps (((run₁.trans run₂).trans run₃).trans run₄) start
    obtain ⟨n₁, n₂, n₃, run₅, run₆, run₇, run₈, rfl⟩ := second
    have grown : Grown t req.orderId m₃.db n₁.db := later_grown (run₄.trans run₅)
    have there' := ((later_grown (run₂.trans run₃)).trans grown).order there
    obtain ⟨resp', stage₃, stage₄, shows'⟩ := reads_shows parse castable text mid
      ⟨n₁, n₂, n₃, run₅, run₆, run₇, run₈, rfl⟩ there'
    exact .inr ⟨resp, resp', shows.answered, shows'.answered, shows.consistent, shows'.consistent,
      shows.follows shows' grown there⟩

theorem later_of_exec {rt : Runtime} {t : UUID} {o : String} {me : ℕ}
    {adm : Op → Choice → Stack → Prop} {p' : Code Unit} {s s' : Stack}
    (run : Exec (ServiceStack.machine rt) me adm p s p' s') (listed : Listed s.order) :
    Later rt t o ⟨p, s.order⟩ ⟨p', s'.order⟩ := by
  induction run with
  | refl p s => exact .refl
  | next ok step tail ih =>
    obtain ⟨g, found, answer⟩ := exec_given step
    refine .head (.operation (g := g) ?_ answer) (ih (exec_listed step listed))
    rw [found]
    exact ⟨.refl listed, rfl⟩

def sampleStopped : Option Stack :=
  runFor (ServiceStack.machine (reference [])) 0 (fun _ _ _ => true) (List.replicate 8 .healthy)
    (Handler.code (reference []) (.createOrder (sampleOrder "ord-1" "key-1"))) sampleStack

/-- It is resumed between the second and the third statement; then it is looked at
again. -/
def sampleTables : Option (Tables × Tables) :=
  sampleStopped.bind fun s =>
    (runFor (ServiceStack.machine (reference [])) 0 (fun _ _ _ => true)
      (List.replicate 24 .healthy) (Handler.code (reference []) (.resumePendingSagas 10)) s).map
        fun s' => (⟨s.order, s.order, s'.order⟩, ⟨s'.order, s'.order, s'.order⟩)

def sampleRequest : GetOrderRequest := ⟨sampleTenant.text, "ord-1"⟩

theorem sample_reads {dbs dbs' : Tables} (made : sampleTables = some (dbs, dbs')) :
    ∃ m, Reads (reference []) sampleTenant "ord-1" ⟨.pure (), sampleStack.order⟩ dbs m ∧
      Reads (reference []) sampleTenant "ord-1" m dbs' m := by
  obtain ⟨s, stopped, more⟩ := Option.bind_eq_some_iff.1 made
  obtain ⟨s', resumed, same⟩ := Option.map_eq_some_iff.1 more
  obtain ⟨left, u, steps, rfl⟩ := exec_of_runFor _ _ stopped
  obtain ⟨left', u', steps', rfl⟩ := exec_of_runFor _ _ resumed
  cases same
  have fresh : Unfiled sampleTenant "ord-1" sampleStack.order := ⟨listed_empty, rfl, rfl, rfl⟩
  have created : Later (reference []) sampleTenant "ord-1" ⟨.pure (), sampleStack.order⟩
      ⟨left, u.order⟩ := .head (.handler _) (later_of_exec steps listed_empty)
  have listed := (keeps_agreed (later_keeps created (.inl fresh))).listed
  have ran := later_of_exec (t := sampleTenant) (o := "ord-1") steps' listed
  have finished : Later (reference []) sampleTenant "ord-1" ⟨left, u.order⟩ ⟨left', u'.order⟩ :=
    .head (.handler _) ran
  exact ⟨⟨left', u'.order⟩, ⟨_, _, _, created, .refl, finished, .refl, rfl⟩,
    ⟨_, _, _, .refl, .refl, .refl, .refl, rfl⟩⟩

theorem getOrder_settles_resumed : ∃ dbs dbs' resp resp', sampleTables = some (dbs, dbs') ∧
    getOrder (reference []) sampleRequest dbs = .ok resp ∧
    getOrder (reference []) sampleRequest dbs' = .ok resp' ∧
    (resp.status, resp.sagaState) = (.pending, .confirmed) ∧
    (resp'.status, resp'.sagaState) = (.confirmed, .confirmed) ∧ resp.Follows resp' := by
  have shown : (sampleTables.map fun both =>
      ((getOrder (reference []) sampleRequest both.1).toOption.map fun resp =>
        (resp.status, resp.sagaState),
      (getOrder (reference []) sampleRequest both.2).toOption.map fun resp =>
        (resp.status, resp.sagaState))) =
      some (some (.pending, .confirmed), some (.confirmed, .confirmed)) := by
    rw [sampleTables, sampleStopped]
    decide +kernel
  obtain ⟨⟨dbs, dbs'⟩, made, pairs⟩ := Option.map_eq_some_iff.1 shown
  obtain ⟨m, first, second⟩ := sample_reads made
  have fresh : Unfiled sampleTenant "ord-1" sampleStack.order := ⟨listed_empty, rfl, rfl, rfl⟩
  obtain ⟨-, missing⟩ | ⟨resp, resp', answered, answered', -, -, follows⟩ :=
    getOrder_settles (reference []) sampleTenant sampleRequest ((reference []).scan_text _)
      (castable_text _ _) (by decide) _ fresh m m dbs dbs' first second
  · dsimp only at pairs
    rw [missing] at pairs
    cases pairs
  · dsimp only at pairs
    rw [answered, answered'] at pairs
    obtain ⟨one, two⟩ := Prod.mk.inj pairs
    exact ⟨dbs, dbs', resp, resp', made, answered, answered', Option.some.inj one,
      Option.some.inj two, follows⟩

end Taper.OrderViews
