import Taper.Fulfillment
import Taper.StockEffects
import Taper.StockForward
import Mathlib.Algebra.Order.BigOperators.Group.Finset

set_option autoImplicit false

/-!
# Every fulfilled order leaves the stock once

Order events may be delivered in any order and any number of times; the key that
the reactor derives from tenant and order lets the stock service take the lines
out once.
-/
namespace Taper.FulfilledOnce
open Messages Transaction Platform Ledger OrderTables OrderSteps Fulfillment Services
open StockTables StockHandlers StockSteps StockConservation StockRuns StockEffects StockForward

section Orders

variable {rt : Runtime} {t : UUID} {db db' : OrderDb}

structure Placed (db : OrderDb) (t : UUID) (o : String) : Prop where
  named : o ≠ ""
  text : storable o = true
  lines : db.orderLines t o ≠ []
  positive : ∀ l ∈ db.orderLines t o, 0 < l.quantity

/-- An `order.fulfilled` event names its order in the key, as far as it is stored,
and carries its lines. -/
structure Carries (db : OrderDb) (e : OrderOutboxEvent) : Prop where
  key : e.aggregateID = column 255 (e.tenantID.text ++ ":" ++ e.payload.orderID)
  order : (db.orders e.tenantID e.payload.orderID).isSome = true
  lines : (stockLines e.payload.lines).Perm
    (stockLines (db.orderLines e.tenantID e.payload.orderID))

def Fulfills (e : OrderOutboxEvent) : Prop := e.payload.eventType = "order.fulfilled"

instance (e : OrderOutboxEvent) : Decidable (Fulfills e) := inferInstanceAs (Decidable (_ = _))

structure Written (db : OrderDb) : Prop where
  placed : ∀ t o, (db.orders t o).isSome = true → Placed db t o
  bare : ∀ t o, db.orders t o = none → db.orderLines t o = []
  told : ∀ e ∈ db.outbox, Fulfills e → Carries db e

theorem written_empty : Written .empty where
  placed t o some_ := by cases some_
  bare _ _ _ := rfl
  told e member := by cases member

def orderFulfilled (rt : Runtime) (t : UUID) (req : FulfillOrderRequest) (row : OrderRow)
    (db : OrderDb) : OrderDb :=
  let paid := claimed orderKeys t req.idempotencyKey (rt.payloadHash (.fulfillOrder req)) db
  { paid with
    orders := setCell db.orders t req.orderId (some (withStatus row .fulfilled row.transactionID))
    outbox := db.outbox ++ [(fulfilledEvent t req.orderId row.totalAmount
      ((rt.rows (db.orderLines t req.orderId)).map eventLine)).stored] }

variable {req : FulfillOrderRequest} {row : OrderRow} {resp : FulfillOrderResponse}

theorem fulfilledOnce_ok (order : db.orders t req.orderId = some row)
    (h : (fulfilledOnce rt t req row).run
      (claimed orderKeys t req.idempotencyKey (rt.payloadHash (.fulfillOrder req)) db) =
        .ok (resp, db')) : db' = orderFulfilled rt t req row db := by
  have tables := claimed_tables t req.idempotencyKey (rt.payloadHash (.fulfillOrder req)) db
  unfold fulfilledOnce at h
  obtain ⟨lines, u, get, h⟩ := Tx.bind_ok_iff.1 h
  obtain ⟨-, rfl, rfl⟩ := getLines_ok_iff.1 get
  obtain ⟨a, v, update, h⟩ := Tx.bind_ok_iff.1 h
  obtain ⟨-, -, row', found, rfl⟩ := updateStatus_ok_iff.1 update
  obtain ⟨b, w, insert, h⟩ := Tx.bind_ok_iff.1 h
  obtain ⟨-, -, rfl⟩ := OrderSteps.insertOutbox_ok_iff.1 insert
  rw [tables.1, order] at found
  cases found
  simp only [Tx.pure_run, Except.ok.injEq, Prod.mk.injEq] at h
  obtain ⟨-, rfl⟩ := h
  simp only [orderFulfilled, tables.1, tables.2.1, tables.2.2.2.2]

theorem findOrder_ok {o : String} {found : Option OrderRow}
    (h : (findOrder t o).run db = .ok (found, db')) : found = db.orders t o ∧ db' = db := by
  unfold findOrder at h
  obtain ⟨a, u, texts, body⟩ := Tx.bind_ok_iff.1 h
  obtain ⟨-, rfl⟩ := Tx.require_ok_iff.1 texts
  cases body
  exact ⟨rfl, rfl⟩

theorem getKey_ok {key : String} {found : Option String}
    (h : (getIdempotencyKey t key).run db = .ok (found, db')) : db' = db := by
  unfold getIdempotencyKey at h
  obtain ⟨a, u, texts, body⟩ := Tx.bind_ok_iff.1 h
  obtain ⟨-, rfl⟩ := Tx.require_ok_iff.1 texts
  cases body
  rfl

theorem fulfilledAgain_ok (h : (fulfilledAgain rt t req).run db = .ok (resp, db')) : db' = db := by
  unfold fulfilledAgain at h
  split at h
  · cases h
  · obtain ⟨found, u, get, h⟩ := Tx.bind_ok_iff.1 h
    have same := getKey_ok get
    cases found with
    | none => cases h
    | some hash =>
      simp only at h
      split at h
      · cases h
      · cases h
        exact same

/-- A committed `FulfillOrder` repeats an earlier one or fulfills the order. -/
theorem fulfillOrderTx_ok (h : (fulfillOrderTx rt t req).run db = .ok (resp, db')) :
    db' = db ∨ ∃ row, db.orders t req.orderId = some row ∧ row.status = .confirmed ∧
      db' = orderFulfilled rt t req row db := by
  unfold fulfillOrderTx at h
  obtain ⟨found, u, find, h⟩ := Tx.bind_ok_iff.1 h
  obtain ⟨order, rfl⟩ := findOrder_ok find
  cases found with
  | none => cases h
  | some row =>
    simp only at h
    split at h
    · exact .inl (fulfilledAgain_ok h)
    split at h
    · cases h
    rename_i confirmed
    obtain ⟨new, v, claim, h⟩ := Tx.bind_ok_iff.1 h
    rw [claimNew_run] at claim
    split at claim
    · split at claim
      · cases claim
        obtain ⟨stored, w, get, h⟩ := Tx.bind_ok_iff.1 h
        have same := getKey_ok get
        left
        cases stored with
        | none => cases h
        | some hash =>
          simp only at h
          split at h
          · cases h
            exact same
          · cases h
      · cases claim
        exact .inr ⟨row, order.symm, not_not.1 confirmed, fulfilledOnce_ok order.symm h⟩
    · cases claim

theorem orderCall_cases (rt : Runtime) (call : OrderCall) (db : OrderDb) :
    call.apply rt db = db ∨
    (∃ t req total, call = .createOrder req ∧ rt.scan req.tenantId = some t ∧
      req.orderId ≠ "" ∧ req.lines ≠ [] ∧ Creatable t req total db ∧
      call.apply rt db = orderCreated rt t req total db) ∨
    (∃ t o state step error row saga, db.orders t o = some row ∧
      call.apply rt db = transitioned t o state step error row saga db) ∨
    (∃ t o txn row, db.orders t o = some row ∧ call.apply rt db = paid t o txn row db) ∨
    ∃ t req row, call = .fulfillOrder req ∧ rt.scan req.tenantId = some t ∧
      db.orders t req.orderId = some row ∧
      call.apply rt db = orderFulfilled rt t req row db := by
  cases call with
  | createOrder req =>
    simp only [OrderCall.apply, fileOrder]
    split
    · exact .inl rfl
    split
    · exact .inl rfl
    rename_i t parse valid
    simp only [not_or] at valid
    rcases execTx_cases rt req.tenantId (createOrderRow rt t req (orderTotal req.lines)) db with
      ⟨u, db', eq, run⟩ | ⟨e, eq⟩
    · obtain ⟨creatable, rfl⟩ := createOrderRow_ok_iff.1 run
      rw [eq]
      exact .inr (.inl ⟨t, req, _, rfl, parse_scan parse, valid.1, valid.2.1, creatable, rfl⟩)
    · rw [eq]
      exact .inl rfl
  | transition t o state step error =>
    simp only [OrderCall.apply]
    rcases Tx.commit_cases (OrderTables.transition t o state step error) db with
      ⟨u, db', run, eq⟩ | ⟨e, -, eq⟩
    · obtain ⟨row, saga, order, -, -, rfl⟩ := transition_ok_iff.1 run
      rw [eq]
      exact .inr (.inr (.inl ⟨t, o, state, step, error, row, saga, order, rfl⟩))
    · rw [eq]
      exact .inl rfl
  | recordTransaction t o txn =>
    simp only [OrderCall.apply]
    rcases Tx.commit_cases (OrderTables.recordTransaction t o txn) db with
      ⟨u, db', run, eq⟩ | ⟨e, -, eq⟩
    · obtain ⟨-, -, row, order, rfl⟩ := record_ok_iff.1 run
      rw [eq]
      exact .inr (.inr (.inr (.inl ⟨t, o, txn, row, order, rfl⟩)))
    · rw [eq]
      exact .inl rfl
  | fulfillOrder req =>
    simp only [OrderCall.apply, fulfillOrder]
    split
    · exact .inl rfl
    rename_i t parse
    rcases execTx_cases rt req.tenantId (fulfillOrderTx rt t req) db with
      ⟨resp, db', eq, run⟩ | ⟨e, eq⟩
    · rw [eq]
      rcases fulfillOrderTx_ok run with same | ⟨row, order, -, eq⟩
      · exact .inl same
      · exact .inr (.inr (.inr (.inr ⟨t, req, row, rfl, parse_scan parse, order, eq⟩)))
    · rw [eq]
      exact .inl rfl

theorem setCell_isSome {orders : UUID → String → Option OrderRow} {o : String} {row' : OrderRow}
    (order : orders t o = some row) (t' : UUID) (o' : String) :
    (setCell orders t o (some row') t' o').isSome = (orders t' o').isSome := by
  by_cases here : t' = t ∧ o' = o
  · obtain ⟨rfl, rfl⟩ := here
    rw [setCell_self, order]
    rfl
  · rw [setCell_other _ _ here]

theorem Written.step {new : List OrderOutboxEvent} (written : Written db)
    (orders : ∀ t o, (db'.orders t o).isSome = (db.orders t o).isSome)
    (lines : db'.orderLines = db.orderLines) (outbox : db'.outbox = db.outbox ++ new)
    (told : ∀ e ∈ new, Fulfills e → Carries db e) : Written db' where
  placed t o some_ := by
    rw [orders t o] at some_
    obtain ⟨named, text, some_, positive⟩ := written.placed t o some_
    exact ⟨named, text, lines ▸ some_, lines ▸ positive⟩
  bare t o none_ := by
    have absent : (db.orders t o).isSome = false := by rw [← orders t o, none_, Option.isSome_none]
    rw [lines]
    exact written.bare t o (Option.isNone_iff_eq_none.1 (by simpa using absent))
  told e member fulfills := by
    have carried : Carries db e := by
      rw [outbox] at member
      rcases List.mem_append.1 member with old | now
      · exact written.told e old fulfills
      · exact told e now fulfills
    exact ⟨carried.key, (orders _ _).trans carried.order, lines ▸ carried.lines⟩

theorem orderCreated_written {req : CreateOrderRequest} {total : Int64} (written : Written db)
    (creatable : Creatable t req total db) (named : req.orderId ≠ "") (some_ : req.lines ≠ []) :
    Written (orderCreated rt t req total db) := by
  have lines : (orderCreated rt t req total db).orderLines =
      setCell db.orderLines t (column 255 req.orderId) (req.lines.map storedLine) := by
    simp [orderCreated, written.bare t (column 255 req.orderId) creatable.noOrder]
  have orders : (orderCreated rt t req total db).orders =
      setCell db.orders t (column 255 req.orderId) (some ⟨.pending, total, "USD", ""⟩) := rfl
  constructor
  · intro t' o' present
    by_cases here : t' = t ∧ o' = column 255 req.orderId
    · obtain ⟨rfl, rfl⟩ := here
      refine ⟨column_ne_empty named,
        storable_column (Bool.and_eq_true_iff.1 creatable.orderFits).2, ?_, ?_⟩
      · rw [lines, setCell_self, ne_eq, List.map_eq_nil_iff]
        exact some_
      · rw [lines, setCell_self]
        intro stored member
        obtain ⟨l, given, rfl⟩ := List.mem_map.1 member
        have fits := creatable.linesFit l given
        simp only [lineFits, Bool.and_eq_true, decide_eq_true_eq] at fits
        exact fits.2.1
    · rw [orders, setCell_other _ _ here] at present
      obtain ⟨named', text, some', positive⟩ := written.placed t' o' present
      refine ⟨named', text, ?_, ?_⟩
      · rw [lines, setCell_other _ _ here]
        exact some'
      · rw [lines, setCell_other _ _ here]
        exact positive
  · intro t' o' none_
    by_cases here : t' = t ∧ o' = column 255 req.orderId
    · obtain ⟨rfl, rfl⟩ := here
      rw [orders, setCell_self] at none_
      cases none_
    · rw [orders, setCell_other _ _ here] at none_
      rw [lines, setCell_other _ _ here]
      exact written.bare t' o' none_
  · intro e member fulfills
    have carried := written.told e member fulfills
    -- the event's order was there before, so it is not the new one
    have other : ¬(e.tenantID = t ∧ e.payload.orderID = column 255 req.orderId) := by
      rintro ⟨tenant, order⟩
      have there := carried.order
      rw [tenant, order, creatable.noOrder] at there
      cases there
    refine ⟨carried.key, ?_, ?_⟩
    · rw [orders, setCell_other _ _ other]
      exact carried.order
    · rw [lines, setCell_other _ _ other]
      exact carried.lines

theorem stateEvent_other (state : SagaState) : stateEvent state ≠ "order.fulfilled" := by
  cases state with
  | pendingPayment => decide +kernel
  | reserved => decide +kernel
  | allocated => decide +kernel
  | confirmed => decide +kernel
  | compensated => decide +kernel
  | failed => decide +kernel

theorem stockLines_eventLine (lines : List OrderLine) :
    stockLines (lines.map eventLine) = stockLines lines := by
  simp [stockLines, eventLine, Function.comp_def]

theorem orderFulfilled_written (written : Written db) (order : db.orders t req.orderId = some row) :
    Written (orderFulfilled rt t req row db) := by
  have tables := claimed_tables t req.idempotencyKey (rt.payloadHash (.fulfillOrder req)) db
  refine written.step (setCell_isSome order) tables.2.1 rfl fun e member _ => ?_
  rw [List.mem_singleton.1 member]
  refine ⟨rfl, ?_, ?_⟩
  · change (db.orders t req.orderId).isSome = true
    rw [order]
    rfl
  · change (stockLines ((rt.rows (db.orderLines t req.orderId)).map eventLine)).Perm
      (stockLines (db.orderLines t req.orderId))
    rw [stockLines_eventLine]
    exact (rt.rows_perm _).map _

theorem apply_written (rt : Runtime) (call : OrderCall) (db : OrderDb) (written : Written db) :
    Written (call.apply rt db) := by
  rcases orderCall_cases rt call db with same |
      ⟨t, req, total, -, -, named, some_, creatable, same⟩ |
      ⟨t, o, state, step, error, row, saga, order, same⟩ | ⟨t, o, txn, row, order, same⟩ |
      ⟨t, req, row, -, -, order, same⟩
  · rwa [same]
  · rw [same]
    exact orderCreated_written written creatable named some_
  · rw [same]
    refine written.step (setCell_isSome order) rfl rfl fun e member fulfills => ?_
    rw [List.mem_singleton.1 member] at fulfills
    exact absurd fulfills (stateEvent_other state)
  · rw [same]
    exact written.step (setCell_isSome order) rfl (List.append_nil _).symm
      fun e member => (List.not_mem_nil member).elim
  · rw [same]
    exact orderFulfilled_written written order

theorem runOrderCalls_written (rt : Runtime) (calls : List OrderCall) (db : OrderDb)
    (written : Written db) : Written (runOrderCalls rt calls db) := by
  induction calls generalizing db with
  | nil => exact written
  | cons call rest ih => exact ih _ (apply_written rt call db written)

end Orders

structure Delivery where
  event : OrderOutboxEvent
  partition : ℤ
  offset : ℤ
  headers : List (String × String)

def deliver (rt : Runtime) (d : Delivery) (db : StockDb) : Except Failure Unit × StockDb :=
  handleOrderEvent rt (orderMessage d.partition d.offset d.headers d.event) db

def deliverAll (rt : Runtime) : List Delivery → StockDb → List (Except Failure Unit) × StockDb
  | [], db => ([], db)
  | d :: rest, db =>
    let out := deliver rt d db
    let later := deliverAll rt rest out.2
    (out.1 :: later.1, later.2)

def orderOf (e : OrderOutboxEvent) : UUID × String := (e.tenantID, e.payload.orderID)

def fulfilledOrders (deliveries : List Delivery) : Finset (UUID × String) :=
  ((deliveries.filter fun d => Fulfills d.event).map fun d => orderOf d.event).toFinset

def orderedAt (db : OrderDb) (loc : StockLocation) (x : UUID × String) : ℤ :=
  quantityAt x.1 loc (stockLines (db.orderLines x.1 x.2))

def orderKey (x : UUID × String) : String := fulfillKey x.1.text x.2

section Delivery

variable {rt : Runtime} {odb : OrderDb} {start db : StockDb} {done : Finset (UUID × String)}

theorem keyParts_order (t : UUID) (o : String) :
    keyParts (t.text ++ ":" ++ o) "" o = (t.text, o) := by
  unfold keyParts
  rw [key_takeWhile, key_dropWhile]
  simp

variable {x : UUID × String} {d : Delivery}

theorem deliver_other (other : ¬Fulfills d.event) : deliver rt d db = (.ok (), db) := by
  have type : (decoded d.event.payload).eventType ≠ "order.fulfilled" := other
  simp [deliver, handleOrderEvent, orderMessage, type]

def fulfillRequest (e : OrderOutboxEvent) : FulfillStockRequest :=
  ⟨e.tenantID.text, e.payload.orderID, orderKey (orderOf e), stockLines e.payload.lines⟩

theorem stockLines_nil {lines : List OrderLine} : stockLines lines = [] ↔ lines = [] :=
  List.map_eq_nil_iff

theorem handleOrderEvent_key {msg : OrderMessage} {ev : OrderEvent} {tenantID orderID : String}
    {resp : FulfillStockResponse} {db' : StockDb} (value : msg.value = .ok ev)
    (type : ev.eventType = "order.fulfilled") (absent : ev.tenantID = "")
    (parts : keyParts msg.key ev.tenantID ev.orderID = (tenantID, orderID)) (tenant : tenantID ≠ "")
    (order : orderID ≠ "") (lines : ev.lines ≠ [])
    (answered : fulfillStock rt ⟨tenantID, orderID, fulfillKey tenantID orderID, ev.lines⟩ db =
      (.ok resp, db')) : handleOrderEvent rt msg db = (.ok (), db') := by
  have named : (if ev.tenantID = "" ∨ ev.orderID = "" then keyParts msg.key ev.tenantID ev.orderID
      else (ev.tenantID, ev.orderID)) = (tenantID, orderID) := by
    rw [if_pos (.inl absent), parts]
  unfold handleOrderEvent
  rw [value]
  dsimp only
  rw [if_neg (not_not_intro type), named, if_neg (by simp [tenant, order, lines]), answered]

theorem aggregate_length {e : OrderOutboxEvent} (within : fits 255 (orderKey (orderOf e)) = true) :
    (e.tenantID.text ++ ":" ++ e.payload.orderID).length ≤ 255 := by
  have length := of_decide_eq_true (Bool.and_eq_true_iff.1 within).1
  simp only [orderKey, orderOf, fulfillKey, String.length_append] at length ⊢
  omega

theorem deliver_fulfills {resp : FulfillStockResponse} {db' : StockDb}
    (fulfills : Fulfills d.event) (carries : Carries odb d.event)
    (placed : Placed odb d.event.tenantID d.event.payload.orderID)
    (within : fits 255 (orderKey (orderOf d.event)) = true)
    (answered : fulfillStock rt (fulfillRequest d.event) db = (.ok resp, db')) :
    deliver rt d db = (.ok (), db') := by
  have tenant : d.event.tenantID.text ≠ "" := fun empty =>
    text_ne_empty d.event.tenantID (by rw [empty]; rfl)
  have lines : stockLines d.event.payload.lines ≠ [] := by
    intro none_
    have perm := carries.lines
    rw [none_] at perm
    exact placed.lines (stockLines_nil.1 perm.symm.eq_nil)
  have parts : keyParts d.event.aggregateID "" d.event.payload.orderID =
      (d.event.tenantID.text, d.event.payload.orderID) := by
    rw [carries.key, column_of_le (aggregate_length within)]
    exact keyParts_order _ _
  exact handleOrderEvent_key rfl fulfills rfl parts tenant placed.named lines answered

/-- How far the deliveries have come: the orders `done` have left the stock that
was there at the start, and their keys are the ones recorded. -/
structure Progress (odb : OrderDb) (start : StockDb) (done : Finset (UUID × String))
    (db : StockDb) : Prop where
  checked : Checked db
  named : Named db
  left : ∀ loc, held db loc = held start loc + (∑ x ∈ done, orderedAt odb loc x) • (0, 0, -1)
  recorded : ∀ x ∈ done, Seen db x.1 (orderKey x)
  unrecorded : ∀ x, x ∉ done → fits 255 (orderKey x) = true → ¬Seen start x.1 (orderKey x) →
    ¬Seen db x.1 (orderKey x)

theorem orderKey_injective {y : UUID × String} (same : orderKey x = orderKey y)
    (tenant : x.1 = y.1) : x = y := by
  obtain ⟨t, o⟩ := x
  obtain ⟨u, p⟩ := y
  cases tenant
  have chars := congrArg String.toList same
  simp only [orderKey, fulfillKey, String.toList_append, List.append_assoc,
    List.append_cancel_left_eq] at chars
  rw [String.toList_inj.1 chars]

theorem stockLines_positive {lines : List OrderLine} (positive : ∀ l ∈ lines, 0 < l.quantity) :
    ∀ l ∈ stockLines lines, 0 < l.quantity.toInt := by
  intro l member
  obtain ⟨ordered, here, rfl⟩ := List.mem_map.1 member
  exact Int32.lt_iff_toInt_lt.1 (positive ordered here)

theorem orderedAt_nonneg (written : Written odb) (order : (odb.orders x.1 x.2).isSome = true)
    (loc : StockLocation) : 0 ≤ orderedAt odb loc x :=
  quantityAt_nonneg fun l member =>
    (stockLines_positive (written.placed _ _ order).positive l member).le

theorem quantityAt_pos {t : UUID} {lines : List StockLine}
    (positive : ∀ l ∈ lines, 0 < l.quantity.toInt) {l : StockLine} (member : l ∈ lines) :
    0 < quantityAt t (lineLocation t l) lines := by
  induction lines with
  | nil => cases member
  | cons first rest ih =>
    have later : ∀ l ∈ rest, 0 < l.quantity.toInt := fun l hl =>
      positive l (List.mem_cons_of_mem _ hl)
    have nonneg : 0 ≤ quantityAt t (lineLocation t l) rest :=
      quantityAt_nonneg fun l hl => (later l hl).le
    rw [quantityAt_cons]
    rcases List.mem_cons.1 member with rfl | tail
    · have here := positive l List.mem_cons_self
      rw [if_pos rfl]
      omega
    · have here := positive first List.mem_cons_self
      have rest_ := ih later tail
      split
      · omega
      · omega

theorem Progress.enough (progress : Progress odb start done db) (new : x ∉ done)
    {loc : StockLocation}
    (enough : ∑ y ∈ insert x done, orderedAt odb loc y ≤ (held start loc).2.2) :
    orderedAt odb loc x ≤ (held db loc).2.2 := by
  rw [Finset.sum_insert new] at enough
  rw [progress.left loc]
  simp only [Prod.smul_mk, smul_eq_mul, mul_neg, mul_one, Prod.snd_add]
  omega

theorem Progress.canMove (progress : Progress odb start done db) (written : Written odb)
    {e : OrderOutboxEvent} (carries : Carries odb e) (new : orderOf e ∉ done)
    (enough : ∀ loc, ∑ y ∈ insert (orderOf e) done, orderedAt odb loc y ≤ (held start loc).2.2) :
    CanMove fulfillMove (0, 0, -1) e.tenantID e.payload.orderID
      (stockLines e.payload.lines) db := by
  have placed := written.placed _ _ carries.order
  have positive := stockLines_positive placed.positive
  refine CanMove.perm ?_ carries.lines.symm
  have located : ∀ l ∈ stockLines (odb.orderLines e.tenantID e.payload.orderID),
      ∃ level, db.stockLevels (lineLocation e.tenantID l) = some level := by
    intro l member
    have here := progress.enough new (enough (lineLocation e.tenantID l))
    have some_ : 0 < orderedAt odb (lineLocation e.tenantID l) (orderOf e) :=
      quantityAt_pos positive member
    cases row : db.stockLevels (lineLocation e.tenantID l) with
    | none =>
      simp only [held, row, Option.map_none, Option.getD_none, Prod.snd_zero] at here
      omega
    | some level => exact ⟨level, rfl⟩
  refine ⟨fun l member => (positive l member).le, fun l member => ?_, fun l member => ?_,
    fun loc level row => ?_⟩
  · obtain ⟨level, row⟩ := located l member
    simp [row]
  · obtain ⟨level, row⟩ := located l member
    exact fulfillMove_fits (progress.named _ (by rw [row]; rfl)) placed.text
  · have range := representable_of_check (progress.checked loc level row).2
    have here := progress.enough new (enough loc)
    have nonneg : 0 ≤ orderedAt odb loc (orderOf e) :=
      orderedAt_nonneg written (x := orderOf e) carries.order loc
    have held_ : held db loc = buckets level := by simp [held, row]
    refine ⟨range, ?_⟩
    rw [held_] at here
    have same : orderedAt odb loc (orderOf e) = quantityAt e.tenantID loc
      (stockLines (odb.orderLines e.tenantID e.payload.orderID)) := rfl
    rw [← same]
    simp only [Representable, Prod.smul_mk, smul_eq_mul, mul_zero, mul_neg, mul_one, Prod.fst_add,
      Prod.snd_add, add_zero] at range ⊢
    omega

/-- One delivery of an `order.fulfilled` event: a new order leaves the stock, and
one that has left stays where it is. -/
theorem Progress.fulfill (progress : Progress odb start done db) (written : Written odb)
    (fulfills : Fulfills d.event) (carries : Carries odb d.event)
    (within : fits 255 (orderKey (orderOf d.event)) = true)
    (unused : ¬Seen start d.event.tenantID (orderKey (orderOf d.event)))
    (enough : ∀ loc, ∑ y ∈ insert (orderOf d.event) done, orderedAt odb loc y ≤
      (held start loc).2.2) :
    ∃ db', deliver rt d db = (.ok (), db') ∧
      Progress odb start (insert (orderOf d.event) done) db' := by
  have placed := written.placed _ _ carries.order
  have filled : orderKey (orderOf d.event) ≠ "" := fun empty => by
    have chars := congrArg String.toList empty
    simp [orderKey, fulfillKey] at chars
  have key : StockSteps.keyFits (fulfillRequest d.event).idempotencyKey = true :=
    Bool.or_eq_true_iff.2 (.inr (fits_varchar within))
  have can : ¬Seen db d.event.tenantID (orderKey (orderOf d.event)) →
      CanMove fulfillMove (0, 0, -1) d.event.tenantID d.event.payload.orderID
        (stockLines d.event.payload.lines) db := fun unseen =>
    progress.canMove written carries (fun old => unseen (progress.recorded _ old)) enough
  obtain ⟨resp, db', run⟩ : ∃ resp db',
      (fulfillTx rt d.event.tenantID (fulfillRequest d.event)).run db = .ok (resp, db') :=
    fulfillTx_forward progress.checked key can
  have answered : fulfillStock rt (fulfillRequest d.event) db = (.ok resp, db') :=
    tenantRpc_forward (rt.scan_text _) (castable_text rt _) run
  have moved := (fulfillTx_ok run).2
  refine ⟨db', deliver_fulfills fulfills carries placed within answered, ?_⟩
  by_cases old : orderOf d.event ∈ done
  · rw [Finset.insert_eq_self.2 old]
    cases moved with
    | duplicate seen same => rwa [same]
    | fresh unseen _ _ => exact absurd (progress.recorded _ old) unseen
  · have unseen : ¬Seen db d.event.tenantID (fulfillRequest d.event).idempotencyKey :=
      progress.unrecorded _ old within unused
    have effects := apply_effects rt (.fulfillStock (fulfillRequest d.event)) db
    rw [StockCall.apply, answered] at effects
    refine ⟨moved_checked moved progress.checked,
      effects_keep (fun _ _ effect named => effect.named named) effects progress.named,
      fun loc => ?_, fun y member => ?_, fun y absent within' unused' => ?_⟩
    · have quantity : quantityAt d.event.tenantID loc (fulfillRequest d.event).lines =
          orderedAt odb loc (orderOf d.event) := quantityAt_perm _ loc carries.lines
      rw [moved_held fulfillMove_along moved progress.checked (can unseen).located loc,
        if_neg unseen, quantity, progress.left loc, add_assoc, ← add_smul,
        Finset.sum_insert old, add_comm (∑ x ∈ done, orderedAt odb loc x)]
    · rcases Finset.mem_insert.1 member with rfl | before
      · exact moved_self moved filled
      · exact moved_seen moved (progress.recorded y before)
    · rw [Finset.mem_insert, not_or] at absent
      refine moved_unseen moved ?_ (progress.unrecorded y absent.2 within' unused')
      by_cases tenant : y.1 = d.event.tenantID
      · refine .inr fun same => absent.1 (orderKey_injective ?_ tenant)
        rwa [fits_column within', fulfillRequest, fits_column within] at same
      · exact .inl tenant

theorem fulfilledOrders_cons (d : Delivery) (rest : List Delivery) :
    fulfilledOrders (d :: rest) =
      if Fulfills d.event then insert (orderOf d.event) (fulfilledOrders rest)
      else fulfilledOrders rest := by
  unfold fulfilledOrders
  by_cases fulfills : Fulfills d.event
  · simp [fulfills]
  · simp [fulfills]

theorem Progress.deliverAll (rt : Runtime) (written : Written odb) (deliveries : List Delivery)
    (progress : Progress odb start done db)
    (events : ∀ d ∈ deliveries, d.event ∈ odb.outbox)
    (fits : ∀ x ∈ fulfilledOrders deliveries, fits 255 (orderKey x) = true)
    (unused : ∀ x ∈ fulfilledOrders deliveries, ¬Seen start x.1 (orderKey x))
    (orders : ∀ x ∈ done ∪ fulfilledOrders deliveries, (odb.orders x.1 x.2).isSome = true)
    (enough : ∀ loc, ∑ x ∈ done ∪ fulfilledOrders deliveries, orderedAt odb loc x ≤
      (held start loc).2.2) :
    (∀ answer ∈ (deliverAll rt deliveries db).1, answer = .ok ()) ∧
      Progress odb start (done ∪ fulfilledOrders deliveries) (deliverAll rt deliveries db).2 := by
  induction deliveries generalizing done db with
  | nil =>
    have none_ : fulfilledOrders [] = ∅ := rfl
    rw [none_, Finset.union_empty]
    exact ⟨fun answer member => (List.not_mem_nil member).elim, progress⟩
  | cons d rest ih =>
    have later : ∀ d' ∈ rest, d'.event ∈ odb.outbox := fun d' member =>
      events d' (List.mem_cons_of_mem _ member)
    rw [fulfilledOrders_cons] at fits unused orders enough ⊢
    by_cases fulfills : Fulfills d.event
    · simp only [if_pos fulfills] at fits unused orders enough ⊢
      have first : orderOf d.event ∈ insert (orderOf d.event) (fulfilledOrders rest) :=
        Finset.mem_insert_self _ _
      have carries := written.told d.event (events d List.mem_cons_self) fulfills
      have sub : insert (orderOf d.event) done ⊆
          done ∪ insert (orderOf d.event) (fulfilledOrders rest) :=
        Finset.insert_subset (Finset.mem_union_right _ first) Finset.subset_union_left
      obtain ⟨db', answered, next⟩ : ∃ db', deliver rt d db = (.ok (), db') ∧
          Progress odb start (insert (orderOf d.event) done) db' :=
        progress.fulfill written fulfills carries (fits _ first) (unused _ first) fun loc =>
          (Finset.sum_le_sum_of_subset_of_nonneg sub fun x member _ =>
            orderedAt_nonneg written (orders x member) loc).trans (enough loc)
      have swap : done ∪ insert (orderOf d.event) (fulfilledOrders rest) =
          insert (orderOf d.event) done ∪ fulfilledOrders rest := by
        rw [Finset.union_insert, Finset.insert_union]
      rw [swap] at orders enough ⊢
      obtain ⟨answers, final⟩ := ih next later
        (fun x member => fits x (Finset.mem_insert_of_mem member))
        (fun x member => unused x (Finset.mem_insert_of_mem member)) orders enough
      simp only [FulfilledOnce.deliverAll, answered, List.mem_cons, forall_eq_or_imp, true_and]
      exact ⟨answers, final⟩
    · simp only [if_neg fulfills] at fits unused orders enough ⊢
      obtain ⟨answers, final⟩ := ih progress later fits unused orders enough
      simp only [FulfilledOnce.deliverAll, deliver_other fulfills, List.mem_cons,
        forall_eq_or_imp, true_and]
      exact ⟨answers, final⟩

end Delivery

/-- However the events of any orders are delivered, every delivery succeeds,
and each order with a delivered `order.fulfilled` event has left the allocated
units once. The units allocated at the start need to cover these orders only. -/
theorem fulfillment_exactly_once (rt : Runtime) (orderCalls : List OrderCall)
    (stockCalls : List StockCall) (deliveries : List Delivery)
    (events : ∀ d ∈ deliveries, d.event ∈ (runOrderCalls rt orderCalls .empty).outbox)
    (fits : ∀ x ∈ fulfilledOrders deliveries, fits 255 (orderKey x) = true)
    (unused : ∀ x ∈ fulfilledOrders deliveries,
      ¬Seen (runCalls rt stockCalls .empty) x.1 (orderKey x))
    (enough : ∀ loc, ∑ x ∈ fulfilledOrders deliveries,
      orderedAt (runOrderCalls rt orderCalls .empty) loc x ≤
        (held (runCalls rt stockCalls .empty) loc).2.2) :
    (∀ answer ∈ (deliverAll rt deliveries (runCalls rt stockCalls .empty)).1, answer = .ok ()) ∧
      ∀ loc, held (deliverAll rt deliveries (runCalls rt stockCalls .empty)).2 loc =
        held (runCalls rt stockCalls .empty) loc + (∑ x ∈ fulfilledOrders deliveries,
          orderedAt (runOrderCalls rt orderCalls .empty) loc x) • (0, 0, -1) := by
  have written := runOrderCalls_written rt orderCalls .empty written_empty
  have begun : Progress (runOrderCalls rt orderCalls .empty) (runCalls rt stockCalls .empty) ∅
      (runCalls rt stockCalls .empty) := by
    refine ⟨runCalls_checked rt stockCalls .empty empty_checked, runCalls_named rt stockCalls,
      fun loc => ?_, fun x member => ?_, fun x _ _ unused => unused⟩
    · rw [Finset.sum_empty, zero_smul, add_zero]
    · cases member
  have orders : ∀ x ∈ fulfilledOrders deliveries,
      ((runOrderCalls rt orderCalls .empty).orders x.1 x.2).isSome = true := by
    intro x member
    simp only [fulfilledOrders, List.mem_toFinset, List.mem_map, List.mem_filter] at member
    obtain ⟨d, ⟨here, fulfills⟩, rfl⟩ := member
    exact (written.told d.event (events d here) (by simpa using fulfills)).order
  have all := begun.deliverAll rt written deliveries events fits unused
    (by rwa [Finset.empty_union]) (by simpa only [Finset.empty_union] using enough)
  rw [Finset.empty_union] at all
  exact ⟨all.1, all.2.left⟩

def sampleOrderCalls : List OrderCall :=
  [.createOrder ⟨sampleTenant.text, "ord-1", [⟨"SKU", "W1", 2, 10⟩], "key-1", 0, false⟩,
    .transition sampleTenant "ord-1" .confirmed 3 "",
    .fulfillOrder ⟨sampleTenant.text, "ord-1", "key-2"⟩]

def sampleStockCalls : List StockCall :=
  [.adjustStock ⟨sampleTenant.text, "SKU", "W1", 5, "adjust", "erp", ""⟩,
    .reserveStock ⟨sampleTenant.text, "ord-1", "", [⟨"SKU", "W1", 2⟩]⟩,
    .confirmStockAllocation ⟨sampleTenant.text, "ord-1", "", [⟨"SKU", "W1", 2⟩]⟩]

/-- Every event of the order is delivered twice, the last one first. -/
def sampleDeliveries : List Delivery :=
  let events := (runOrderCalls (reference []) sampleOrderCalls .empty).outbox
  (events.reverse ++ events).map fun e => ⟨e, 0, 0, []⟩

theorem fulfillment_exactly_once_redelivered :
    (∀ answer ∈ (deliverAll (reference []) sampleDeliveries
      (runCalls (reference []) sampleStockCalls .empty)).1, answer = .ok ()) ∧
    held (deliverAll (reference []) sampleDeliveries
      (runCalls (reference []) sampleStockCalls .empty)).2 sampleLocation = (3, 0, 0) := by
  have fulfilled : fulfilledOrders sampleDeliveries = {(sampleTenant, "ord-1")} := by
    decide +kernel
  have lines : (runOrderCalls (reference []) sampleOrderCalls .empty).orderLines sampleTenant
      "ord-1" = [⟨"SKU", "W1", 2, 10⟩] := by
    rw [reference_recognizing]
    decide +kernel
  have before : held (runCalls (reference []) sampleStockCalls .empty) sampleLocation =
      (3, 0, 2) := by
    rw [reference_recognizing]
    decide +kernel
  have ordered : ∀ loc, ∑ x ∈ fulfilledOrders sampleDeliveries,
      orderedAt (runOrderCalls (reference []) sampleOrderCalls .empty) loc x =
        if sampleLocation = loc then 2 else 0 := by
    intro loc
    rw [fulfilled, Finset.sum_singleton]
    simp only [orderedAt, lines, stockLines, quantityAt, List.map_cons, List.map_nil, List.sum_cons,
      List.sum_nil, add_zero]
    rfl
  have events : ∀ d ∈ sampleDeliveries,
      d.event ∈ (runOrderCalls (reference []) sampleOrderCalls .empty).outbox := by
    intro d member
    simp only [sampleDeliveries, List.mem_map, List.mem_append, List.mem_reverse, or_self] at member
    obtain ⟨e, here, rfl⟩ := member
    exact here
  have enough : ∀ loc, ∑ x ∈ fulfilledOrders sampleDeliveries,
      orderedAt (runOrderCalls (reference []) sampleOrderCalls .empty) loc x ≤
        (held (runCalls (reference []) sampleStockCalls .empty) loc).2.2 := by
    intro loc
    rw [ordered loc]
    split
    · rename_i here
      rw [← here, before]
    · exact (representable_held (runCalls_checked _ _ _ empty_checked) loc).2.2.1
  obtain ⟨answers, final⟩ := fulfillment_exactly_once (reference []) sampleOrderCalls
    sampleStockCalls sampleDeliveries events (by rw [fulfilled]; decide +kernel)
    (by rw [fulfilled]; decide +kernel) enough
  refine ⟨answers, ?_⟩
  rw [final sampleLocation, ordered, before, if_pos rfl]
  rfl

end Taper.FulfilledOnce
