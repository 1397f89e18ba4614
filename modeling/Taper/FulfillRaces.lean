import Taper.FulfilledOnce
import Taper.ReadCommitted

set_option autoImplicit false

/-!
# Racing fulfillments

`FulfillOrder` statement by statement. The order is read without a lock; only
the insertion of their keys keeps two requests apart.
-/
namespace Taper.FulfillRaces
open Messages Transaction Platform Ledger OrderTables OrderSteps Fulfillment FulfilledOnce
open ReadCommitted

inductive Write where
  | key (tenantID : UUID) (key hash : String)
  | status (tenantID : UUID) (orderID : String) (status : OrderStatus) (transactionID : String)
  | event (e : OrderOutboxEvent)

inductive Resource where
  | key (tenantID : UUID) (key : String)
  | row (tenantID : UUID) (orderID : String)
  deriving DecidableEq

def Write.apply (db : OrderDb) : Write → OrderDb
  | .key tenantID text hash => orderKeys.put db ((orderKeys.keys db).insert tenantID text hash)
  | .status tenantID orderID state transactionID =>
    match db.orders tenantID orderID with
    | none => db
    | some row =>
      { db with
        orders := setCell db.orders tenantID orderID (some (withStatus row state transactionID)) }
  | .event e => { db with outbox := db.outbox ++ [e] }

/-- A unique key and a row are kept until the end; an outbox row is nobody
else's concern. -/
def Write.takes : Write → Option Resource
  | .key tenantID text _ => some (.key tenantID text)
  | .status tenantID orderID _ _ => some (.row tenantID orderID)
  | .event _ => none

def orderWrites : Effects OrderDb Write Resource := ⟨Write.apply, Write.takes⟩

inductive Point where
  | find
  | again
  | claim (o : OrderRow)
  | compare
  | lines (o : OrderRow)
  | update (o : OrderRow) (evLines : List OrderLine)
  | insert (o : OrderRow) (evLines : List OrderLine)
  | repeated
  | fulfilled (o : OrderRow) (evLines : List OrderLine)
  | done (answer : Except Failure FulfillOrderResponse)

structure Attempt where
  tenantUUID : UUID
  req : FulfillOrderRequest
  point : Point

def Attempt.finished (a : Attempt) : Bool :=
  match a.point with
  | .done _ => true
  | _ => false

/-- The request has found the order confirmed and may still write. -/
def Attempt.Open (a : Attempt) : Prop :=
  match a.point with
  | .claim _ => varchar 255 a.req.idempotencyKey = true
  | .lines _ | .update _ _ | .insert _ _ | .fulfilled _ _ => True
  | _ => False

theorem open_at {a : Attempt} {p : Point} (at_ : a.point = p)
    (open_ : Attempt.Open ⟨a.tenantUUID, a.req, p⟩) : a.Open := by
  subst at_
  exact open_

structure Race where
  store : Store OrderDb Write Resource
  attempts : ℕ → Option Attempt

def Race.quiet (db : OrderDb) : Race := ⟨.quiet db, fun _ => none⟩

def Race.goto (s : Race) (i : ℕ) (a : Attempt) (p : Point) : Race :=
  { s with attempts := Function.update s.attempts i (some { a with point := p }) }

@[simp] theorem goto_store (s : Race) (i : ℕ) (a : Attempt) (p : Point) :
    (s.goto i a p).store = s.store := rfl

theorem goto_self (s : Race) (i : ℕ) (a : Attempt) (p : Point) :
    (s.goto i a p).attempts i = some { a with point := p } := Function.update_self ..

theorem goto_other (s : Race) {i j : ℕ} (a : Attempt) (p : Point) (other : j ≠ i) :
    (s.goto i a p).attempts j = s.attempts j := Function.update_of_ne other ..

theorem goto_forall {s : Race} {i : ℕ} {a : Attempt} {p : Point} {P : ℕ → Attempt → Prop}
    (mine : P i { a with point := p }) (old : ∀ j b, j ≠ i → s.attempts j = some b → P j b) :
    ∀ j b, (s.goto i a p).attempts j = some b → P j b := by
  intro j b here
  by_cases same : j = i
  · subst same
    rw [goto_self] at here
    cases here
    exact mine
  · rw [goto_other s a p same] at here
    exact old j b same here

theorem goto_none {s : Race} {i j : ℕ} {a : Attempt} {p : Point}
    (none : (s.goto i a p).attempts j = none) : j ≠ i ∧ s.attempts j = .none := by
  have other : j ≠ i := by
    rintro rfl
    rw [goto_self] at none
    cases none
  rw [goto_other s a p other] at none
  exact ⟨other, none⟩

def Race.fail (s : Race) (i : ℕ) (a : Attempt) (e : Failure) : Race :=
  Race.goto { s with store := s.store.abort i } i a (.done (.error e))

def Race.drop (s : Race) (i : ℕ) : Race :=
  ⟨s.store.abort i, Function.update s.attempts i none⟩

theorem drop_old {s : Race} {i j : ℕ} {b : Attempt} (here : (s.drop i).attempts j = some b) :
    j ≠ i ∧ s.attempts j = some b := by
  simp only [Race.drop] at here
  have other : j ≠ i := by
    rintro rfl
    rw [Function.update_self] at here
    cases here
  rw [Function.update_of_ne other] at here
  exact ⟨other, here⟩

def Race.commit (s : Race) (i : ℕ) (a : Attempt) : Race :=
  Race.goto { s with store := s.store.commit orderWrites i } i a
    (.done (.ok ⟨true, OrderStatus.text .fulfilled⟩))

def Race.write (s : Race) (i : ℕ) (a : Attempt) (w : Write) (p : Point) : Option Race :=
  (s.store.write orderWrites i w).map fun store => Race.goto { s with store := store } i a p

def Race.statement {α : Type} (s : Race) (i : ℕ) (a : Attempt) (tx : OrderTx α)
    (next : α → Option Race) : Option Race :=
  match tx.run (s.store.view orderWrites i) with
  | .error e => some (s.fail i a e)
  | .ok (x, _) => next x

def Race.advance (rt : Runtime) (s : Race) (i : ℕ) (a : Attempt) : Option Race :=
  let hash := rt.payloadHash (.fulfillOrder a.req)
  match a.point with
  | .find => s.statement i a (findOrder a.tenantUUID a.req.orderId) fun
    | none => some (s.fail i a (.status .notFound "order not found"))
    | some o =>
      if o.status = .fulfilled then
        if a.req.idempotencyKey = "" then some (s.fail i a (alreadyFulfilled a.req.orderId))
        else some (s.goto i a .again)
      else if o.status ≠ .confirmed then
        some (s.fail i a (.status .failedPrecondition ("order " ++ a.req.orderId ++ " is " ++
          OrderStatus.text o.status ++ ", must be CONFIRMED")))
      else if a.req.idempotencyKey = "" then some (s.goto i a (.lines o))
      else some (s.goto i a (.claim o))
  | .again => s.statement i a (getIdempotencyKey a.tenantUUID a.req.idempotencyKey) fun
    | none => some (s.fail i a (alreadyFulfilled a.req.orderId))
    | some storedHash =>
      if storedHash ≠ hash then
        some (s.fail i a (.status .failedPrecondition
          ("order " ++ a.req.orderId ++ " is already FULFILLED (payload mismatch)")))
      else some (s.goto i a .repeated)
  | .claim o =>
    s.statement i a (checkAndInsertKey orderKeys a.tenantUUID a.req.idempotencyKey hash) fun new =>
      if new then s.write i a (.key a.tenantUUID (column 255 a.req.idempotencyKey) hash) (.lines o)
      else some (s.goto i a .compare)
  | .compare => s.statement i a (getIdempotencyKey a.tenantUUID a.req.idempotencyKey) fun
    | none => some (s.fail i a (.sql .noRows))
    | some storedHash =>
      if storedHash = hash then some (s.goto i a .repeated)
      else some (s.fail i a (.status .failedPrecondition ("idempotency key " ++
        a.req.idempotencyKey ++ " already used with a different payload")))
  | .lines o => s.statement i a (getOrderLines rt a.tenantUUID a.req.orderId) fun lines =>
      some (s.goto i a (.update o (lines.map eventLine)))
  | .update o evLines =>
    s.statement i a (updateOrderStatus a.tenantUUID a.req.orderId .fulfilled o.transactionID)
      fun _ => s.write i a (.status a.tenantUUID a.req.orderId .fulfilled o.transactionID)
        (.insert o evLines)
  | .insert o evLines =>
    let e := fulfilledEvent a.tenantUUID a.req.orderId o.totalAmount evLines
    s.statement i a (insertOutboxEvent e) fun _ =>
      s.write i a (.event e.stored) (.fulfilled o evLines)
  | .repeated | .fulfilled _ _ => some (s.commit i a)
  | .done _ => none

/-- What happens next: a request comes in, runs a statement, or is lost with its
connection. -/
inductive Move where
  | request (i : ℕ) (req : FulfillOrderRequest)
  | step (i : ℕ) (fault : Bool)
  | stop (i : ℕ)

def Race.next (rt : Runtime) (s : Race) : Move → Option Race
  | .request i req =>
    match s.attempts i with
    | some _ => none
    | none =>
      match parseUUID rt req.tenantId with
      | .error _ => some s
      | .ok tenantUUID =>
        if (rt.cast req.tenantId).isSome ∧ req.tenantId ≠ "" then
          some (s.goto i ⟨tenantUUID, req, .find⟩ .find)
        else some s
  | .step i fault =>
    match s.attempts i with
    | none => none
    | some a =>
      if a.finished then none
      else if fault then some (s.fail i a (.sql .connection))
      else s.advance rt i a
  | .stop i =>
    match s.attempts i with
    | none => none
    | some _ => some (s.drop i)

def Race.run (rt : Runtime) : List Move → Race → Option Race
  | [], s => some s
  | m :: rest, s =>
    match s.next rt m with
    | some after => Race.run rt rest after
    | none => none

theorem apply_status {db : OrderDb} {t : UUID} {o txn : String} {status : OrderStatus}
    {row : OrderRow} (found : db.orders t o = some row) :
    Write.apply db (.status t o status txn) =
      { db with orders := setCell db.orders t o (some (withStatus row status txn)) } := by
  simp only [Write.apply, found]

theorem apply_status_frame (db : OrderDb) (t : UUID) (o : String) (status : OrderStatus)
    (txn : String) : (Write.apply db (.status t o status txn)).outbox = db.outbox ∧
      (Write.apply db (.status t o status txn)).processedKeys = db.processedKeys := by
  simp only [Write.apply]
  split
  · exact ⟨rfl, rfl⟩
  · exact ⟨rfl, rfl⟩

theorem apply_status_other {db : OrderDb} {t t' : UUID} {o o' txn : String} {status : OrderStatus}
    (other : ¬(t' = t ∧ o' = o)) :
    (Write.apply db (.status t o status txn)).orders t' o' = db.orders t' o' := by
  simp only [Write.apply]
  split
  · rfl
  · exact setCell_other _ _ other

/-- What a statement of a request can do: it fails, reads and goes on, writes, or
ends the transaction. -/
inductive Stepped (rt : Runtime) (s : Race) (i : ℕ) (a : Attempt) : Race → Prop where
  | failed (e : Failure) : Stepped rt s i a (s.fail i a e)
  | again (at_ : a.point = .find) : Stepped rt s i a (s.goto i a .again)
  | found {o : OrderRow} (at_ : a.point = .find)
      (order : (s.store.view orderWrites i).orders a.tenantUUID a.req.orderId = some o)
      (confirmed : o.status = .confirmed) : Stepped rt s i a
        (s.goto i a (if a.req.idempotencyKey = "" then .lines o else .claim o))
  | repeats (at_ : a.point = .again ∨ a.point = .compare) : Stepped rt s i a (s.goto i a .repeated)
  | taken {o : OrderRow} (at_ : a.point = .claim o) : Stepped rt s i a (s.goto i a .compare)
  | claimed {o : OrderRow} {s' : Race} (at_ : a.point = .claim o)
      (fits : varchar 255 a.req.idempotencyKey = true)
      (new : (orderKeys.keys (s.store.view orderWrites i)).has a.tenantUUID
        (column 255 a.req.idempotencyKey) = false)
      (run : s.write i a (.key a.tenantUUID (column 255 a.req.idempotencyKey)
        (rt.payloadHash (.fulfillOrder a.req))) (.lines o) = some s') : Stepped rt s i a s'
  | listed {o : OrderRow} (evLines : List OrderLine) (at_ : a.point = .lines o) :
      Stepped rt s i a (s.goto i a (.update o evLines))
  | updated {o : OrderRow} {evLines : List OrderLine} {s' : Race}
      (at_ : a.point = .update o evLines)
      (run : s.write i a (.status a.tenantUUID a.req.orderId .fulfilled o.transactionID)
        (.insert o evLines) = some s') : Stepped rt s i a s'
  | inserted {o : OrderRow} {evLines : List OrderLine} {s' : Race}
      (at_ : a.point = .insert o evLines)
      (run : s.write i a (.event
        (fulfilledEvent a.tenantUUID a.req.orderId o.totalAmount evLines).stored)
        (.fulfilled o evLines) = some s') : Stepped rt s i a s'
  | unchanged (at_ : a.point = .repeated) : Stepped rt s i a (s.commit i a)
  | fulfilled {o : OrderRow} {evLines : List OrderLine} (at_ : a.point = .fulfilled o evLines) :
      Stepped rt s i a (s.commit i a)

section Steps

variable {rt : Runtime} {s s' : Race} {i : ℕ} {a : Attempt}

theorem statement_cases {α : Type} {tx : OrderTx α} {next : α → Option Race}
    (h : s.statement i a tx next = some s') : (∃ e, s' = s.fail i a e) ∨
      ∃ x after, tx.run (s.store.view orderWrites i) = .ok (x, after) ∧ next x = some s' := by
  unfold Race.statement at h
  split at h
  · cases h
    exact .inl ⟨_, rfl⟩
  · rename_i x after run
    exact .inr ⟨x, after, run, h⟩

theorem advance_stepped (h : s.advance rt i a = some s') : Stepped rt s i a s' := by
  unfold Race.advance at h
  split at h
  · rename_i at_
    rcases statement_cases h with ⟨e, rfl⟩ | ⟨found, after, run, next⟩
    · exact .failed e
    · have order := (findOrder_ok run).1
      cases found with
      | none =>
        cases next
        exact .failed _
      | some o =>
        simp only at next
        split at next
        · split at next
          · cases next
            exact .failed _
          · cases next
            exact .again at_
        · split at next
          · cases next
            exact .failed _
          · rename_i confirmed
            have step : Stepped rt s i a _ := .found at_ order.symm (not_not.1 confirmed)
            split at next
            · rename_i empty
              cases next
              rwa [if_pos empty] at step
            · rename_i keyed
              cases next
              rwa [if_neg keyed] at step
  · rename_i at_
    rcases statement_cases h with ⟨e, rfl⟩ | ⟨found, after, run, next⟩
    · exact .failed e
    · cases found with
      | none =>
        cases next
        exact .failed _
      | some storedHash =>
        simp only at next
        split at next
        · cases next
          exact .failed _
        · cases next
          exact .repeats (.inl at_)
  · rename_i o at_
    rcases statement_cases h with ⟨e, rfl⟩ | ⟨new, after, run, next⟩
    · exact .failed e
    · rw [checkAndInsertKey_run] at run
      split at run
      · rename_i fits
        split at run
        · cases run
          cases next
          exact .taken at_
        · rename_i absent
          cases run
          exact .claimed at_ fits (Bool.eq_false_of_not_eq_true absent) next
      · cases run
  · rename_i at_
    rcases statement_cases h with ⟨e, rfl⟩ | ⟨found, after, run, next⟩
    · exact .failed e
    · cases found with
      | none =>
        cases next
        exact .failed _
      | some storedHash =>
        simp only at next
        split at next
        · cases next
          exact .repeats (.inr at_)
        · cases next
          exact .failed _
  · rename_i o at_
    rcases statement_cases h with ⟨e, rfl⟩ | ⟨lines, after, run, next⟩
    · exact .failed e
    · cases next
      exact .listed _ at_
  · rename_i o evLines at_
    rcases statement_cases h with ⟨e, rfl⟩ | ⟨u, after, run, next⟩
    · exact .failed e
    · exact .updated at_ next
  · rename_i o evLines at_
    rcases statement_cases h with ⟨e, rfl⟩ | ⟨u, after, run, next⟩
    · exact .failed e
    · exact .inserted at_ next
  · rename_i at_
    cases h
    exact .unchanged at_
  · rename_i o evLines at_
    cases h
    exact .fulfilled at_
  · cases h

theorem write_cases {w : Write} {p : Point} (h : s.write i a w p = some s') :
    ∃ store, s.store.write orderWrites i w = some store ∧
      s' = Race.goto { s with store := store } i a p := by
  obtain ⟨store, run, eq⟩ := Option.map_eq_some_iff.1 h
  exact ⟨store, run, eq.symm⟩

/-- A statement moves its own thread only, and past the claim a key fits. -/
structure Goes (s : Race) (i : ℕ) (a : Attempt) (store : Store OrderDb Write Resource) (p : Point)
    (s' : Race) : Prop where
  eq : s' = Race.goto { s with store := store } i a p
  pending : ∀ j, j ≠ i → store.pending j = s.store.pending j
  key : (a.Open → keyFits a.req.idempotencyKey = true) →
    Attempt.Open { a with point := p } → keyFits a.req.idempotencyKey = true

theorem Stepped.goes (step : Stepped rt s i a s') : ∃ store p, Goes s i a store p s' := by
  have writes {w : Write} {p : Point} (run : s.write i a w p = some s')
      (key : (a.Open → keyFits a.req.idempotencyKey = true) →
        keyFits a.req.idempotencyKey = true) : ∃ store p, Goes s i a store p s' := by
    obtain ⟨store, put, eq⟩ := write_cases run
    exact ⟨store, p, eq, fun j other => write_pending_other put other, fun old _ => key old⟩
  cases step with
  | failed e => exact ⟨_, _, rfl, fun j other => close_pending_other _ other, fun _ => False.elim⟩
  | again at_ => exact ⟨_, _, rfl, fun _ _ => rfl, fun _ => False.elim⟩
  | found at_ order confirmed =>
    refine ⟨_, _, rfl, fun _ _ => rfl, fun _ open_ => ?_⟩
    split at open_
    · rename_i empty
      simp [keyFits, empty]
    · exact Bool.or_eq_true_iff.2 (.inr open_)
  | repeats at_ => exact ⟨_, _, rfl, fun _ _ => rfl, fun _ => False.elim⟩
  | taken at_ => exact ⟨_, _, rfl, fun _ _ => rfl, fun _ => False.elim⟩
  | claimed at_ fits new run => exact writes run fun _ => Bool.or_eq_true_iff.2 (.inr fits)
  | listed evLines at_ =>
    exact ⟨_, _, rfl, fun _ _ => rfl, fun old _ => old (open_at at_ trivial)⟩
  | updated at_ run => exact writes run fun old => old (open_at at_ trivial)
  | inserted at_ run => exact writes run fun old => old (open_at at_ trivial)
  | unchanged at_ =>
    exact ⟨_, _, rfl, fun j other => close_pending_other _ other, fun _ => False.elim⟩
  | fulfilled at_ =>
    exact ⟨_, _, rfl, fun j other => close_pending_other _ other, fun _ => False.elim⟩

end Steps

section Alone

def settled {α : Type} (db : OrderDb) : Except Failure (α × OrderDb) → Except Failure α × OrderDb
  | .ok (a, after) => (.ok a, after)
  | .error e => (.error e, db)

theorem commit_settled {α : Type} (tx : OrderTx α) (db : OrderDb) :
    tx.commit db = settled db (tx.run db) := by
  unfold Tx.commit settled
  cases tx.run db with
  | error e => rfl
  | ok out => rfl

structure Alone (i : ℕ) (db seen : OrderDb) (a : Attempt) (s : Race) : Prop where
  attempt : s.attempts i = some a
  committed : s.store.committed = db
  view : s.store.view orderWrites i = seen
  holder : ∀ r, s.store.holder r = none ∨ s.store.holder r = some i

structure Ended (i : ℕ) (out : Except Failure FulfillOrderResponse × OrderDb) (s after : Race) :
    Prop where
  committed : after.store.committed = out.2
  answer : ∃ a, after.attempts i = some a ∧ a.point = .done out.1
  free : ∀ r, after.store.holder r = none
  others : ∀ j, j ≠ i → after.attempts j = s.attempts j ∧
    after.store.pending j = s.store.pending j

def Leads (rt : Runtime) (i : ℕ) (s : Race)
    (out : Except Failure FulfillOrderResponse × OrderDb) : Prop :=
  ∃ n after, Race.run rt (List.replicate n (.step i false)) s = some after ∧ Ended i out s after

variable {rt : Runtime} {t : UUID} {req : FulfillOrderRequest} {db seen : OrderDb} {a : Attempt}
  {i : ℕ} {s s' : Race} {out : Except Failure FulfillOrderResponse × OrderDb}

theorem leads_step (alone : Alone i db seen a s) (open_ : a.finished = false)
    (step : s.advance rt i a = some s') (rest : Leads rt i s' out) : Leads rt i s out := by
  obtain ⟨n, after, run, ended⟩ := rest
  refine ⟨n + 1, after, ?_, ended.committed, ended.answer, ended.free, fun j other => ?_⟩
  · rw [List.replicate_succ, Race.run, Race.next, alone.attempt]
    simp only [open_, Bool.false_eq_true, if_false, step]
    exact run
  · obtain ⟨store, p, goes⟩ := (advance_stepped step).goes
    obtain ⟨attempt, kept⟩ := ended.others j other
    rw [goes.eq] at attempt kept
    exact ⟨attempt.trans (goto_other _ a p other), kept.trans (goes.pending j other)⟩

theorem leads_close (alone : Alone i db seen a s) (data : OrderDb)
    (answer : Except Failure FulfillOrderResponse) :
    Leads rt i (Race.goto { s with store := s.store.close i data } i a (.done answer))
      (answer, data) := by
  refine ⟨0, _, rfl, rfl, ⟨_, goto_self .., rfl⟩, fun r => ?_, fun j _ => ⟨rfl, rfl⟩⟩
  exact close_free data alone.holder r

theorem leads_fail (alone : Alone i db seen a s) (e : Failure) :
    Leads rt i (s.fail i a e) (.error e, db) := by
  rw [← alone.committed]
  exact leads_close alone _ _

theorem alone_goto (alone : Alone i db seen a s) (p : Point) :
    Alone i db seen { a with point := p } (s.goto i a p) :=
  ⟨goto_self .., alone.committed, alone.view, alone.holder⟩

theorem leads_statement {α : Type} {tx : OrderTx α} {next : α → Option Race}
    {rest : α → OrderTx FulfillOrderResponse} (alone : Alone i db seen a s)
    (open_ : a.finished = false) (step : s.advance rt i a = s.statement i a tx next)
    (goes : ∀ x after, tx.run seen = .ok (x, after) →
      ∃ s', next x = some s' ∧ Leads rt i s' (settled db ((rest x).run after))) :
    Leads rt i s (settled db ((tx >>= rest).run seen)) := by
  rw [Race.statement, alone.view] at step
  cases run : tx.run seen with
  | error e =>
    rw [Tx.bind_of_error run]
    rw [run] at step
    exact leads_step alone open_ step (leads_fail alone e)
  | ok out =>
    obtain ⟨x, after⟩ := out
    rw [Tx.bind_of_ok run]
    rw [run] at step
    obtain ⟨s', made, leads⟩ := goes x after run
    exact leads_step alone open_ (step.trans made) leads

theorem alone_write (alone : Alone i db seen a s) (w : Write) (p : Point) :
    ∃ s', s.write i a w p = some s' ∧ Alone i db (w.apply seen) { a with point := p } s' := by
  obtain ⟨store, run⟩ : ∃ store, s.store.write orderWrites i w = some store :=
    write_alone fun r _ => alone.holder r
  refine ⟨Race.goto { s with store := store } i a p, by rw [Race.write, run]; rfl, ?_⟩
  refine ⟨goto_self .., (write_committed run).trans alone.committed, ?_, fun r => ?_⟩
  · rw [goto_store, view_of_pending (write_pending_self run), write_committed run,
      List.foldl_append]
    exact congrArg (Write.apply · w) alone.view
  · rcases write_holder run r with same | mine
    · rw [goto_store, same]
      exact alone.holder r
    · exact .inr mine

theorem leads_ends (alone : Alone i db seen a s)
    (point : a.point = .repeated ∨ ∃ o evLines, a.point = .fulfilled o evLines) :
    Leads rt i s (.ok ⟨true, OrderStatus.text .fulfilled⟩, seen) := by
  have step : s.advance rt i a = some (s.commit i a) := by
    rcases point with point | ⟨o, evLines, point⟩
    · simp only [Race.advance, point]
    · simp only [Race.advance, point]
  have open_ : a.finished = false := by
    rcases point with point | ⟨o, evLines, point⟩
    · simp only [Attempt.finished, point]
    · simp only [Attempt.finished, point]
  rw [← alone.view]
  exact leads_step alone open_ step (leads_close alone _ _)

theorem leads_fulfilledOnce {o : OrderRow} (alone : Alone i db seen ⟨t, req, .lines o⟩ s) :
    Leads rt i s (settled db ((fulfilledOnce rt t req o).run seen)) := by
  refine leads_statement alone rfl rfl fun lines after get => ⟨_, rfl, ?_⟩
  obtain ⟨-, rfl, same⟩ := getLines_ok_iff.1 get
  rw [same]
  have alone₁ := alone_goto alone (.update o ((rt.rows (seen.orderLines t
    req.orderId)).map eventLine))
  refine leads_statement alone₁ rfl rfl fun _ after update => ?_
  obtain ⟨s₂, write, alone₂⟩ := alone_write alone₁
    (.status t req.orderId .fulfilled o.transactionID)
    (.insert o ((rt.rows (seen.orderLines t req.orderId)).map eventLine))
  refine ⟨s₂, write, ?_⟩
  obtain ⟨-, -, row, found, rfl⟩ := updateStatus_ok_iff.1 update
  rw [apply_status found] at alone₂
  refine leads_statement alone₂ rfl rfl fun _ after insert => ?_
  obtain ⟨s₃, write, alone₃⟩ := alone_write alone₂
    (.event (fulfilledEvent t req.orderId o.totalAmount
      ((rt.rows (seen.orderLines t req.orderId)).map eventLine)).stored)
    (.fulfilled o ((rt.rows (seen.orderLines t req.orderId)).map eventLine))
  refine ⟨s₃, write, ?_⟩
  obtain ⟨-, -, rfl⟩ := OrderSteps.insertOutbox_ok_iff.1 insert
  exact leads_ends alone₃ (.inr ⟨_, _, rfl⟩)

theorem leads_again (alone : Alone i db seen ⟨t, req, .again⟩ s) (keyed : req.idempotencyKey ≠ "") :
    Leads rt i s (settled db ((fulfilledAgain rt t req).run seen)) := by
  rw [fulfilledAgain, if_neg keyed]
  refine leads_statement alone rfl rfl fun found after get => ?_
  rw [getKey_ok get]
  cases found with
  | none => exact ⟨_, rfl, leads_fail alone _⟩
  | some storedHash =>
    dsimp only
    split
    · exact ⟨_, rfl, leads_fail alone _⟩
    · exact ⟨_, rfl, leads_ends (alone_goto alone .repeated) (.inl rfl)⟩

def compareKey (rt : Runtime) (t : UUID) (req : FulfillOrderRequest) :
    OrderTx FulfillOrderResponse := do
  match ← getIdempotencyKey t req.idempotencyKey with
  | none => .throw (.sql .noRows)
  | some storedHash =>
    if storedHash = rt.payloadHash (.fulfillOrder req) then
      pure ⟨true, OrderStatus.text .fulfilled⟩
    else .throw (.status .failedPrecondition ("idempotency key " ++ req.idempotencyKey ++
      " already used with a different payload"))

theorem leads_compare (alone : Alone i db seen ⟨t, req, .compare⟩ s) :
    Leads rt i s (settled db ((compareKey rt t req).run seen)) := by
  refine leads_statement alone rfl rfl fun found after get => ?_
  rw [getKey_ok get]
  cases found with
  | none => exact ⟨_, rfl, leads_fail alone _⟩
  | some storedHash =>
    dsimp only
    split
    · exact ⟨_, rfl, leads_ends (alone_goto alone .repeated) (.inl rfl)⟩
    · exact ⟨_, rfl, leads_fail alone _⟩

def fulfillConfirmed (rt : Runtime) (t : UUID) (req : FulfillOrderRequest) (o : OrderRow) :
    OrderTx FulfillOrderResponse := do
  let new ← claimNew orderKeys t req.idempotencyKey (rt.payloadHash (.fulfillOrder req))
  if new then fulfilledOnce rt t req o
  else compareKey rt t req

def confirmedPoint (req : FulfillOrderRequest) (o : OrderRow) : Point :=
  if req.idempotencyKey = "" then .lines o else .claim o

theorem leads_confirmed {o : OrderRow}
    (alone : Alone i db seen ⟨t, req, confirmedPoint req o⟩ s) :
    Leads rt i s (settled db ((fulfillConfirmed rt t req o).run seen)) := by
  unfold confirmedPoint at alone
  by_cases keyed : req.idempotencyKey = ""
  · rw [if_pos keyed] at alone
    have claim : (claimNew orderKeys t req.idempotencyKey
        (rt.payloadHash (.fulfillOrder req))).run seen = .ok (true, seen) := by
      rw [claimNew, if_pos keyed]
      rfl
    rw [fulfillConfirmed, Tx.bind_of_ok claim]
    exact leads_fulfilledOnce alone
  · rw [if_neg keyed] at alone
    rw [fulfillConfirmed, claimNew, if_neg keyed]
    refine leads_statement alone rfl rfl fun new after claim => ?_
    rw [checkAndInsertKey_run] at claim
    split at claim
    · split at claim
      · cases claim
        exact ⟨_, rfl, leads_compare (alone_goto alone .compare)⟩
      · cases claim
        obtain ⟨s₂, write, alone₂⟩ := alone_write alone
          (.key t (column 255 req.idempotencyKey) (rt.payloadHash (.fulfillOrder req))) (.lines o)
        exact ⟨s₂, write, leads_fulfilledOnce alone₂⟩
    · cases claim

theorem leads_fulfillOrder (alone : Alone i db db ⟨t, req, .find⟩ s) :
    Leads rt i s ((fulfillOrderTx rt t req).commit db) := by
  rw [commit_settled]
  refine leads_statement alone rfl rfl fun found after find => ?_
  obtain ⟨order, same⟩ := findOrder_ok find
  rw [same]
  cases found with
  | none => exact ⟨_, rfl, leads_fail alone _⟩
  | some o =>
    dsimp only
    by_cases fulfilled : o.status = .fulfilled
    · simp only [fulfilled, if_true]
      by_cases keyed : req.idempotencyKey = ""
      · rw [fulfilledAgain, if_pos keyed, if_pos keyed]
        exact ⟨_, rfl, leads_fail alone _⟩
      · rw [if_neg keyed]
        exact ⟨_, rfl, leads_again (alone_goto alone .again) keyed⟩
    · simp only [fulfilled, if_false]
      by_cases confirmed : o.status = .confirmed
      · simp only [confirmed, ne_eq, not_true_eq_false, if_false]
        refine ⟨s.goto i ⟨t, req, .find⟩ (confirmedPoint req o), ?_,
          leads_confirmed (alone_goto alone (confirmedPoint req o))⟩
        unfold confirmedPoint
        split
        · rfl
        · rfl
      · simp only [confirmed, ne_eq, not_false_eq_true, if_true]
        exact ⟨_, rfl, leads_fail alone _⟩

theorem next_request (parse : rt.scan req.tenantId = some t) (castable : Castable rt req.tenantId)
    (idle : s.attempts i = none) :
    s.next rt (.request i req) = some (s.goto i ⟨t, req, .find⟩ .find) := by
  simp only [Race.next, idle, parseUUID, parse]
  rw [if_pos ⟨castable.2, castable.1⟩]

/-- Statement by statement, a request on its own comes to what `FulfillOrder`
comes to. -/
theorem alone_outcome (rt : Runtime) (req : FulfillOrderRequest) (db : OrderDb) {t : UUID}
    (parse : rt.scan req.tenantId = some t) (castable : Castable rt req.tenantId) (i : ℕ) :
    ∃ n after, Race.run rt (.request i req :: List.replicate n (.step i false)) (.quiet db) =
        some after ∧ Ended i (fulfillOrder rt req db) (.quiet db) after := by
  have begin_ := next_request (s := .quiet db) (i := i) parse castable rfl
  have alone : Alone i db db ⟨t, req, .find⟩ ((Race.quiet db).goto i ⟨t, req, .find⟩ .find) :=
    ⟨goto_self .., rfl, rfl, fun _ => .inl rfl⟩
  have out : fulfillOrder rt req db = (fulfillOrderTx rt t req).commit db := by
    simp only [fulfillOrder, parseUUID, parse]
    exact execTx_eq castable _ db
  rw [out]
  obtain ⟨n, after, run, ended⟩ : Leads rt i _ _ := leads_fulfillOrder alone
  refine ⟨n, after, ?_, ended.committed, ended.answer, ended.free, fun j other => ?_⟩
  · rw [Race.run, begin_]
    exact run
  · obtain ⟨attempt, pending⟩ := ended.others j other
    exact ⟨attempt.trans (goto_other _ _ _ other), pending⟩

end Alone

end Taper.FulfillRaces
