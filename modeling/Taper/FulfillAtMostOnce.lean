import Taper.FulfillRaces

set_option autoImplicit false

/-!
# An order is fulfilled once where its requests share a key

Whoever has found the order confirmed while another request fulfills it waits
for the same key. Requests with different keys, or with none, do not meet.
-/
namespace Taper.FulfillAtMostOnce
open Messages Transaction Platform Ledger OrderTables OrderSteps Fulfillment FulfilledOnce
open ReadCommitted FulfillRaces

section Order

variable (rt : Runtime) (t : UUID) (o : String)

def fulfillments (db : OrderDb) : ℕ :=
  db.outbox.countP fun e => e.tenantID = t ∧ e.payload.orderID = o ∧ Fulfills e

def For (a : Attempt) : Prop := a.tenantUUID = t ∧ a.req.orderId = o

instance (a : Attempt) : Decidable (For t o a) := inferInstanceAs (Decidable (_ ∧ _))

/-- Two requests that may both still write for the order have one stored key. -/
def Shared (s : Race) : Prop :=
  ∀ i j a b, i ≠ j → s.attempts i = some a → s.attempts j = some b → For t o a → For t o b →
    a.Open → b.Open → column 255 a.req.idempotencyKey = column 255 b.req.idempotencyKey ∧
      a.req.idempotencyKey ≠ ""

def keyWrites (a : Attempt) : List Write :=
  if a.req.idempotencyKey = "" then []
  else [.key a.tenantUUID (column 255 a.req.idempotencyKey) (rt.payloadHash (.fulfillOrder a.req))]

def written (a : Attempt) : List Write :=
  match a.point with
  | .lines _ | .update _ _ => keyWrites rt a
  | .insert row _ =>
    keyWrites rt a ++ [.status a.tenantUUID a.req.orderId .fulfilled row.transactionID]
  | .fulfilled row evLines =>
    keyWrites rt a ++ [.status a.tenantUUID a.req.orderId .fulfilled row.transactionID,
      .event (fulfilledEvent a.tenantUUID a.req.orderId row.totalAmount evLines).stored]
  | _ => []

/-- The order has been fulfilled: whoever may still write will find its key
recorded. -/
structure Spent (s : Race) : Prop where
  status : ∃ row, s.store.committed.orders t o = some row ∧ row.status = .fulfilled
  keys : ∀ i a, s.attempts i = some a → For t o a → a.Open → ∃ row, a.point = .claim row ∧
    Recorded orderKeys s.store.committed t a.req.idempotencyKey

structure Inv (n : ℕ) (s : Race) : Prop where
  writes : ∀ i a, s.attempts i = some a → s.store.pending i = written rt a
  idle : ∀ i, s.attempts i = none → s.store.pending i = []
  keyed : ∀ i a, s.attempts i = some a → ∀ row, a.point = .claim row → a.req.idempotencyKey ≠ ""
  guarded : Guarded orderWrites s.store
  row : (s.store.committed.orders t o).isSome = true
  once : fulfillments t o s.store.committed = n ∨
    fulfillments t o s.store.committed = n + 1 ∧ Spent t o s

end Order

section Kept

variable {rt : Runtime} {t : UUID} {o : String} {n : ℕ} {s s' : Race} {i : ℕ} {a : Attempt}

theorem inv_quiet {db : OrderDb} (row : (db.orders t o).isSome = true) :
    Inv rt t o (fulfillments t o db) (.quiet db) where
  writes _ _ here := by cases here
  idle _ _ := rfl
  keyed _ _ here := by cases here
  guarded := guarded_quiet db
  row := row
  once := .inl rfl

theorem Inv.goto (inv : Inv rt t o n s) {store : Store OrderDb Write Resource} {p : Point}
    (committed : store.committed = s.store.committed)
    (own : store.pending i = written rt { a with point := p })
    (others : ∀ j, j ≠ i → store.pending j = s.store.pending j)
    (guarded : Guarded orderWrites store)
    (keyed : ∀ row, p = .claim row → a.req.idempotencyKey ≠ "")
    (spent : Spent t o s → For t o a → Attempt.Open { a with point := p } → ∃ row, p = .claim row ∧
      Recorded orderKeys s.store.committed t a.req.idempotencyKey) :
    Inv rt t o n (Race.goto { s with store := store } i a p) := by
  refine ⟨?_, ?_, ?_, guarded, ?_, ?_⟩
  · refine goto_forall own fun j b other here => ?_
    exact (others j other).trans (inv.writes j b here)
  · intro j none
    obtain ⟨other, none⟩ := goto_none none
    exact (others j other).trans (inv.idle j none)
  · exact goto_forall keyed fun j b _ here => inv.keyed j b here
  · rw [goto_store, committed]
    exact inv.row
  · rw [goto_store, committed]
    refine inv.once.imp_right fun ⟨count, spends⟩ => ⟨count, ?_, ?_⟩
    · rw [goto_store, committed]
      exact spends.status
    · rw [goto_store, committed]
      exact goto_forall (spent spends) fun j b _ here => spends.keys j b here

theorem Inv.view_bare (inv : Inv rt t o n s) (here : s.attempts i = some a)
    (bare : written rt a = []) : s.store.view orderWrites i = s.store.committed := by
  rw [view_of_pending (inv.writes i a here), bare]
  rfl

theorem Spent.claims (spent : Spent t o s) (here : s.attempts i = some a) (own : For t o a)
    {p : Point} (at_ : a.point = p) (open_ : Attempt.Open ⟨a.tenantUUID, a.req, p⟩)
    (elsewhere : ∀ row, p ≠ .claim row) : False := by
  obtain ⟨row, claims, -⟩ := spent.keys i a here own (open_at at_ open_)
  exact elsewhere row (at_.symm.trans claims)

theorem Inv.reads (inv : Inv rt t o n s) (here : s.attempts i = some a) {p : Point}
    (same : written rt { a with point := p } = written rt a)
    (keyed : ∀ row, p = .claim row → a.req.idempotencyKey ≠ "")
    (spent : Spent t o s → For t o a → Attempt.Open { a with point := p } → False) :
    Inv rt t o n (s.goto i a p) :=
  inv.goto rfl ((inv.writes i a here).trans same.symm) (fun _ _ => rfl) inv.guarded keyed
    fun spends own open_ => (spent spends own open_).elim

theorem Inv.fail (inv : Inv rt t o n s) (e : Failure) : Inv rt t o n (s.fail i a e) :=
  inv.goto (close_committed _) (close_pending_self _) (fun _ other => close_pending_other _ other)
    (inv.guarded.close _) nofun fun _ _ open_ => open_.elim

theorem Inv.write (inv : Inv rt t o n s) (here : s.attempts i = some a) {w : Write} {p : Point}
    (run : s.write i a w p = some s')
    (writes : written rt { a with point := p } = written rt a ++ [w])
    (unclaimed : ∀ row, p ≠ .claim row)
    (spent : Spent t o s → For t o a → False) : Inv rt t o n s' := by
  obtain ⟨store, put, rfl⟩ := write_cases run
  refine inv.goto (write_committed put) ?_ (fun _ other => write_pending_other put other)
    (inv.guarded.write put) (fun row at_ => absurd at_ (unclaimed row))
    fun spends own _ => (spent spends own).elim
  rw [write_pending_self put, inv.writes i a here, writes]

end Kept

section Commit

variable {rt : Runtime} {t : UUID} {o : String} {n : ℕ} {s s' : Race} {i : ℕ} {a : Attempt}
  {row : OrderRow} {evLines : List OrderLine}

theorem keyWrites_claimed (db : OrderDb) : (keyWrites rt a).foldl Write.apply db =
    claimed orderKeys a.tenantUUID a.req.idempotencyKey (rt.payloadHash (.fulfillOrder a.req))
      db := by
  unfold keyWrites claimed
  split
  · rfl
  · rfl

structure Left (a : Attempt) (row : OrderRow) (evLines : List OrderLine) (db db' : OrderDb) :
    Prop where
  outbox : db'.outbox = db.outbox ++
    [(fulfilledEvent a.tenantUUID a.req.orderId row.totalAmount evLines).stored]
  other : ∀ t o, ¬For t o a → db'.orders t o = db.orders t o
  own : ∀ old, db.orders a.tenantUUID a.req.orderId = some old →
    ∃ new, db'.orders a.tenantUUID a.req.orderId = some new ∧ new.status = .fulfilled
  kept : ∀ t key, Recorded orderKeys db t key → Recorded orderKeys db' t key
  claimed : a.req.idempotencyKey ≠ "" →
    Recorded orderKeys db' a.tenantUUID a.req.idempotencyKey

theorem writes_left (rt : Runtime) (at_ : a.point = .fulfilled row evLines) (db : OrderDb) :
    Left a row evLines db ((written rt a).foldl Write.apply db) := by
  have writes : (written rt a).foldl Write.apply db =
      Write.apply (Write.apply ((keyWrites rt a).foldl Write.apply db)
        (.status a.tenantUUID a.req.orderId .fulfilled row.transactionID))
        (.event (fulfilledEvent a.tenantUUID a.req.orderId row.totalAmount evLines).stored) := by
    simp only [written, at_, List.foldl_append, List.foldl_cons, List.foldl_nil]
  rw [writes, keyWrites_claimed]
  have tables := claimed_tables a.tenantUUID a.req.idempotencyKey
    (rt.payloadHash (.fulfillOrder a.req)) db
  have frame := apply_status_frame (claimed orderKeys a.tenantUUID a.req.idempotencyKey
    (rt.payloadHash (.fulfillOrder a.req)) db) a.tenantUUID a.req.orderId .fulfilled
      row.transactionID
  have recorded {t : UUID} {key : String} (h : Recorded orderKeys (claimed orderKeys a.tenantUUID
      a.req.idempotencyKey (rt.payloadHash (.fulfillOrder a.req)) db) t key) :
      Recorded orderKeys (Write.apply (claimed orderKeys a.tenantUUID a.req.idempotencyKey
        (rt.payloadHash (.fulfillOrder a.req)) db)
        (.status a.tenantUUID a.req.orderId .fulfilled row.transactionID)) t key :=
    ⟨h.1, by rw [← h.2]
             exact congrArg (fun keys : KeyTable => keys.has t (column 255 key)) frame.2⟩
  refine ⟨?_, fun t o other => ?_, fun old found => ?_, fun t key h => ?_, fun keyed => ?_⟩
  · rw [← tables.2.2.2.2, ← frame.1]
    rfl
  · rw [← tables.1]
    exact apply_status_other fun same => other ⟨same.1.symm, same.2.symm⟩
  · rw [← tables.1] at found
    refine ⟨withStatus old .fulfilled row.transactionID, ?_, rfl⟩
    rw [apply_status found]
    exact setCell_self _ _ _ _
  · exact recorded (claimed_mono h)
  · exact recorded (claimed_self orderKeys a.tenantUUID _ db keyed)

theorem fulfills_event (t : UUID) (o : String) (total : Int64) (lines : List OrderLine) :
    Fulfills (fulfilledEvent t o total lines) := by
  have text : "order." ++ (OrderStatus.text .fulfilled).toLower = "order.fulfilled" := by
    decide +kernel
  exact text

theorem event_count {db db' : OrderDb} {t' : UUID} {o' : String} {total : Int64}
    {lines : List OrderLine}
    (outbox : db'.outbox = db.outbox ++ [(fulfilledEvent t' o' total lines).stored]) :
    fulfillments t o db' = fulfillments t o db + if t' = t ∧ o' = o then 1 else 0 := by
  have kind : Fulfills (fulfilledEvent t' o' total lines).stored := fulfills_event t' o' total lines
  rw [fulfillments, outbox, List.countP_append, List.countP_singleton, fulfillments]
  simp only [kind, and_true, decide_eq_true_eq]
  rfl

theorem claim_or_writes (rt : Runtime) (a : Attempt) (open_ : a.Open)
    (keyed : a.req.idempotencyKey ≠ "") : (∃ row, a.point = .claim row) ∨
      .key a.tenantUUID (column 255 a.req.idempotencyKey)
        (rt.payloadHash (.fulfillOrder a.req)) ∈ written rt a := by
  obtain ⟨t, req, point⟩ := a
  cases point with
  | claim row => exact .inl ⟨row, rfl⟩
  | lines row => exact .inr (by simp [written, keyWrites, keyed])
  | update row evLines => exact .inr (by simp [written, keyWrites, keyed])
  | insert row evLines => exact .inr (by simp [written, keyWrites, keyed])
  | fulfilled row evLines => exact .inr (by simp [written, keyWrites, keyed])
  | _ => exact open_.elim

theorem Inv.others_wait (inv : Inv rt t o n s) (shared : Shared t o s) {j : ℕ} {b : Attempt}
    (other : j ≠ i) (mine : s.attempts i = some a) (theirs : s.attempts j = some b)
    (own : For t o a) (own' : For t o b) (at_ : a.point = .fulfilled row evLines) (open_ : b.Open) :
    (∃ row, b.point = .claim row) ∧
      column 255 b.req.idempotencyKey = column 255 a.req.idempotencyKey ∧
      a.req.idempotencyKey ≠ "" := by
  have mineOpen : a.Open := open_at at_ trivial
  obtain ⟨same, keyed⟩ := shared i j a b other.symm mine theirs own own' mineOpen open_
  refine ⟨?_, same.symm, keyed⟩
  have keyed' : b.req.idempotencyKey ≠ "" := fun empty =>
    keyed ((column_eq_empty (by decide)).1 (same.trans (by rw [empty]; rfl)))
  rcases claim_or_writes rt b open_ keyed' with claims | wrote
  · exact claims
  · rcases claim_or_writes rt a mineOpen keyed with ⟨row, at'⟩ | wrote'
    · rw [at_] at at'
      cases at'
    · rw [← inv.writes j b theirs] at wrote
      rw [← inv.writes i a mine] at wrote'
      refine absurd (inv.guarded.exclusive wrote wrote' rfl ?_) other
      rw [own.1, same, ← own'.1]
      rfl

theorem Inv.fulfill (inv : Inv rt t o n s) (shared : Shared t o s) (here : s.attempts i = some a)
    (at_ : a.point = .fulfilled row evLines) : Inv rt t o n (s.commit i a) := by
  have data : s.store.view orderWrites i = (written rt a).foldl Write.apply s.store.committed :=
    view_of_pending (inv.writes i a here)
  have left : Left a row evLines s.store.committed (s.store.view orderWrites i) :=
    data ▸ writes_left rt at_ s.store.committed
  have count : fulfillments t o (s.store.view orderWrites i) =
      fulfillments t o s.store.committed + if For t o a then 1 else 0 := event_count left.outbox
  refine ⟨?_, ?_, ?_, inv.guarded.close _, ?_, ?_⟩
  · refine goto_forall (close_pending_self _) fun j b other here => ?_
    exact (close_pending_other _ other).trans (inv.writes j b here)
  · intro j none
    obtain ⟨other, none⟩ := goto_none none
    exact (close_pending_other _ other).trans (inv.idle j none)
  · exact goto_forall (fun _ => nofun) fun j b _ here => inv.keyed j b here
  · by_cases own : For t o a
    · obtain ⟨old, found⟩ := Option.isSome_iff_exists.1 inv.row
      obtain ⟨rfl, rfl⟩ := own
      obtain ⟨new, stored, -⟩ := left.own old found
      exact Option.isSome_iff_exists.2 ⟨new, stored⟩
    · exact (congrArg Option.isSome (left.other t o own)).trans inv.row
  · by_cases own : For t o a
    · rcases inv.once with before | ⟨-, spent⟩
      · refine .inr ⟨?_, ?_, ?_⟩
        · rw [if_pos own, before] at count
          exact count
        · obtain ⟨old, found⟩ := Option.isSome_iff_exists.1 inv.row
          obtain ⟨rfl, rfl⟩ := own
          exact left.own old found
        · refine goto_forall (fun _ open_ => open_.elim) fun j b other theirs own' open_ => ?_
          obtain ⟨⟨row, claims⟩, same, keyed⟩ :=
            inv.others_wait shared other here theirs own own' at_ open_
          refine ⟨row, claims, ?_⟩
          rw [← own.1]
          exact recorded_column same (left.claimed keyed)
      · exact (spent.claims here own at_ trivial nofun).elim
    · have same : fulfillments t o (s.store.view orderWrites i) =
          fulfillments t o s.store.committed := count.trans (by rw [if_neg own, Nat.add_zero])
      refine inv.once.imp same.trans fun ⟨before, spent⟩ => ⟨same.trans before, ?_, ?_⟩
      · obtain ⟨row, found, status⟩ := spent.status
        exact ⟨row, (left.other t o own).trans found, status⟩
      · refine goto_forall (fun _ open_ => open_.elim) fun j b other theirs own' open_ => ?_
        obtain ⟨row, claims, recorded⟩ := spent.keys j b theirs own' open_
        exact ⟨row, claims, left.kept _ _ recorded⟩

theorem Inv.stepped (inv : Inv rt t o n s) (shared : Shared t o s) (here : s.attempts i = some a)
    (step : Stepped rt s i a s') : Inv rt t o n s' := by
  have bare (p : Point) (at_ : a.point = p) (empty : written rt { a with point := p } = []) :
      written rt a = [] := by
    rw [← empty, ← at_]
  cases step with
  | failed e => exact inv.fail e
  | again at_ => exact inv.reads here (bare _ at_ rfl).symm nofun fun _ _ open_ => open_.elim
  | @found row at_ order confirmed =>
    have writes := bare _ at_ rfl
    rw [inv.view_bare here writes] at order
    refine inv.reads here ?_ ?_ fun spent own _ => ?_
    · split
      · rename_i empty
        rw [writes]
        simp [written, keyWrites, empty]
      · exact writes.symm
    · intro row eq
      split at eq
      · cases eq
      · assumption
    · obtain ⟨rfl, rfl⟩ := own
      obtain ⟨row', found, fulfilled⟩ := spent.status
      rw [order] at found
      cases found
      rw [confirmed] at fulfilled
      cases fulfilled
  | repeats at_ =>
    have writes : written rt a = [] :=
      at_.elim (fun at_ => bare _ at_ rfl) fun at_ => bare _ at_ rfl
    exact inv.reads here writes.symm nofun fun _ _ open_ => open_.elim
  | taken at_ => exact inv.reads here (bare _ at_ rfl).symm nofun fun _ _ open_ => open_.elim
  | @claimed row s' at_ fits new run =>
    have writes := bare _ at_ rfl
    have keyed := inv.keyed i a here row at_
    refine inv.write here run ?_ nofun fun spent own => ?_
    · rw [writes]
      simp [written, keyWrites, keyed]
    · obtain ⟨-, -, recorded⟩ := spent.keys i a here own (open_at at_ fits)
      rw [inv.view_bare here writes, own.1, recorded.2] at new
      cases new
  | listed evLines at_ =>
    refine inv.reads here ?_ nofun fun spent own _ => ?_
    · simp only [written, at_]
      rfl
    · exact spent.claims here own at_ trivial nofun
  | updated at_ run =>
    refine inv.write here run ?_ nofun fun spent own => ?_
    · simp only [written, at_]
      rfl
    · exact spent.claims here own at_ trivial nofun
  | inserted at_ run =>
    refine inv.write here run ?_ nofun fun spent own => ?_
    · simp only [written, at_, List.append_assoc]
      rfl
    · exact spent.claims here own at_ trivial nofun
  | unchanged at_ =>
    have same := inv.view_bare here (bare _ at_ rfl)
    exact inv.goto (close_committed _ |>.trans same) (close_pending_self _)
      (fun _ other => close_pending_other _ other) (inv.guarded.close _) nofun
      fun _ _ open_ => open_.elim
  | fulfilled at_ => exact inv.fulfill shared here at_

theorem Inv.drop (inv : Inv rt t o n s) : Inv rt t o n (s.drop i) := by
  refine ⟨fun j b here => ?_, fun j none => ?_, fun j b here => inv.keyed j b (drop_old here).2,
    inv.guarded.close _, inv.row, ?_⟩
  · exact (close_pending_other _ (drop_old here).1).trans (inv.writes j b (drop_old here).2)
  · by_cases same : j = i
    · rw [same]
      exact close_pending_self _
    · exact (close_pending_other _ same).trans
        (inv.idle j ((Function.update_of_ne same _ _).symm.trans none))
  · refine inv.once.imp_right fun ⟨count, spent⟩ => ⟨count, spent.status, fun j b here => ?_⟩
    exact spent.keys j b (drop_old here).2

theorem Inv.next (inv : Inv rt t o n s) (shared : Shared t o s) {m : Move}
    (next : s.next rt m = some s') : Inv rt t o n s' := by
  cases m with
  | request i req =>
    simp only [Race.next] at next
    split at next
    · cases next
    · rename_i none
      split at next
      · cases next
        exact inv
      · split at next
        · cases next
          refine inv.goto rfl (inv.idle i none) (fun _ _ => rfl) inv.guarded (fun row at_ => ?_)
            fun _ _ open_ => open_.elim
          cases at_
        · cases next
          exact inv
  | step i fault =>
    simp only [Race.next] at next
    split at next
    · cases next
    · rename_i a here
      split at next
      · cases next
      · split at next
        · cases next
          exact inv.fail _
        · exact inv.stepped shared here (advance_stepped next)
  | stop i =>
    simp only [Race.next] at next
    split at next
    · cases next
    · cases next
      exact inv.drop

end Commit

/-- In every state of the run, the requests that may still write for the order
have one key. -/
def Keeps (rt : Runtime) (t : UUID) (o : String) : List Move → Race → Prop
  | [], _ => True
  | m :: rest, s => Shared t o s ∧ ∀ after, s.next rt m = some after → Keeps rt t o rest after

theorem run_inv {rt : Runtime} {t : UUID} {o : String} {n : ℕ} {moves : List Move} {s after : Race}
    (keeps : Keeps rt t o moves s) (run : Race.run rt moves s = some after)
    (inv : Inv rt t o n s) : Inv rt t o n after := by
  induction moves generalizing s with
  | nil =>
    cases run
    exact inv
  | cons m rest ih =>
    rw [Race.run] at run
    split at run
    · rename_i mid next
      exact ih (keeps.2 mid next) run (inv.next keeps.1 next)
    · cases run

/-- However many requests race for an order, at most one `order.fulfilled` event
is committed, as long as those that may still write share one key. -/
theorem fulfilled_at_most_once (rt : Runtime) (t : UUID) (o : String) (db : OrderDb)
    (order : (db.orders t o).isSome = true) (moves : List Move) (after : Race)
    (keeps : Keeps rt t o moves (.quiet db))
    (run : Race.run rt moves (.quiet db) = some after) :
    fulfillments t o after.store.committed ≤ fulfillments t o db + 1 := by
  rcases (run_inv keeps run (inv_quiet order)).once with same | ⟨one, -⟩
  · omega
  · omega

section Requests

structure Aims (rt : Runtime) (t : UUID) (o : String) (req : FulfillOrderRequest) : Prop where
  tenant : rt.scan req.tenantId = some t
  castable : Castable rt req.tenantId
  order : req.orderId = o
  key : keyFits req.idempotencyKey = true

def Issues (reqs : List FulfillOrderRequest) (moves : List Move) : Prop :=
  ∀ i req, .request i req ∈ moves → reqs[i]? = some req

structure Issued (rt : Runtime) (issues : Option FulfillOrderRequest) (a : Attempt) : Prop where
  request : issues = some a.req
  tenant : rt.scan a.req.tenantId = some a.tenantUUID
  castable : Castable rt a.req.tenantId
  key : a.Open → keyFits a.req.idempotencyKey = true

def OneKey (rt : Runtime) (t : UUID) (o : String) (reqs : List FulfillOrderRequest) : Prop :=
  ∀ (i j : ℕ) a b, i ≠ j → reqs[i]? = some a → reqs[j]? = some b → Aims rt t o a → Aims rt t o b →
    column 255 a.idempotencyKey = column 255 b.idempotencyKey ∧ a.idempotencyKey ≠ ""

variable {rt : Runtime} {t : UUID} {o : String} {reqs : List FulfillOrderRequest} {s s' : Race}

theorem issued_next {m : Move} (own : ∀ i req, m = .request i req → reqs[i]? = some req)
    (issued : ∀ i a, s.attempts i = some a → Issued rt reqs[i]? a)
    (next : s.next rt m = some s') : ∀ i a, s'.attempts i = some a → Issued rt reqs[i]? a := by
  cases m with
  | request i req =>
    simp only [Race.next] at next
    split at next
    · cases next
    · split at next
      · cases next
        exact issued
      · rename_i t parse
        split at next
        · rename_i castable
          cases next
          refine goto_forall ?_ fun j b _ here => issued j b here
          exact ⟨own i req rfl, parse_scan parse, ⟨castable.2, castable.1⟩, False.elim⟩
        · cases next
          exact issued
  | step i fault =>
    simp only [Race.next] at next
    split at next
    · cases next
    · rename_i a here
      have old := issued i a here
      split at next
      · cases next
      · split at next
        · cases next
          refine goto_forall ?_ fun j b _ here => issued j b here
          exact ⟨old.request, old.tenant, old.castable, False.elim⟩
        · obtain ⟨store, p, goes⟩ := (advance_stepped next).goes
          rw [goes.eq]
          refine goto_forall ?_ fun j b _ here => issued j b here
          exact ⟨old.request, old.tenant, old.castable, goes.key old.key⟩
  | stop i =>
    simp only [Race.next] at next
    split at next
    · cases next
    · cases next
      exact fun j b here => issued j b (drop_old here).2

theorem keeps_one_key (one : OneKey rt t o reqs) {moves : List Move} (own : Issues reqs moves)
    (issued : ∀ i a, s.attempts i = some a → Issued rt reqs[i]? a) :
    Keeps rt t o moves s := by
  induction moves generalizing s with
  | nil => trivial
  | cons m rest ih =>
    have aims {i : ℕ} {a : Attempt} (here : s.attempts i = some a) (mine : For t o a)
        (open_ : a.Open) : Aims rt t o a.req := by
      have from_ := issued i a here
      exact ⟨mine.1 ▸ from_.tenant, from_.castable, mine.2, from_.key open_⟩
    refine ⟨fun i j a b other here there mine theirs open_ open' => ?_, fun after next => ih ?_ ?_⟩
    · exact one i j a.req b.req other (issued i a here).request (issued j b there).request
        (aims here mine open_) (aims there theirs open')
    · exact fun i req member => own i req (List.mem_cons_of_mem m member)
    · exact issued_next (fun i req eq => own i req (eq ▸ List.mem_cons_self)) issued next

end Requests

section Overlap

variable {rt : Runtime} {t : UUID} {o : String} {req : FulfillOrderRequest} {row : OrderRow}
  {db : OrderDb}

/-- The order's event can be stored when its row is there and it has no lines. -/
structure Ready (t : UUID) (o : String) (db : OrderDb) : Prop where
  order : (db.orders t o).isSome = true
  lines : db.orderLines t o = []

theorem fulfilledOnce_run (fits : varchar 255 (t.text ++ ":" ++ req.orderId) = true)
    (text : storable req.orderId = true) (txn : varchar 255 row.transactionID = true)
    (ready : Ready t req.orderId db) :
    ∃ resp db', (fulfilledOnce rt t req row).run db = .ok (resp, db') ∧
      fulfillments t req.orderId db' = fulfillments t req.orderId db + 1 ∧
      Ready t req.orderId db' ∧ db'.processedKeys = db.processedKeys := by
  obtain ⟨old, found⟩ := Option.isSome_iff_exists.1 ready.order
  have lines : rt.rows (db.orderLines t req.orderId) = [] := by
    rw [ready.lines]
    exact List.perm_nil.1 (rt.rows_perm [])
  have payload : (fulfilledEvent t req.orderId row.totalAmount
      ((rt.rows (db.orderLines t req.orderId)).map eventLine)).payload.storable = true := by
    rw [lines]
    exact Bool.and_eq_true_iff.2 ⟨text, rfl⟩
  let db₁ : OrderDb := { db with
    orders := setCell db.orders t req.orderId (some (withStatus old .fulfilled row.transactionID)) }
  let db₂ : OrderDb := { db₁ with
    outbox := db.outbox ++ [(fulfilledEvent t req.orderId row.totalAmount
      ((rt.rows (db.orderLines t req.orderId)).map eventLine)).stored] }
  have get : (getOrderLines rt t req.orderId).run db =
      .ok (rt.rows (db.orderLines t req.orderId), db) := getLines_ok_iff.2 ⟨text, rfl, rfl⟩
  have update : (updateOrderStatus t req.orderId .fulfilled row.transactionID).run db =
      .ok ((), db₁) := updateStatus_ok_iff.2 ⟨text, txn, old, found, rfl⟩
  have insert : (insertOutboxEvent (fulfilledEvent t req.orderId row.totalAmount
      ((rt.rows (db.orderLines t req.orderId)).map eventLine))).run db₁ = .ok ((), db₂) :=
    OrderSteps.insertOutbox_ok_iff.2 ⟨fits, payload, rfl⟩
  refine ⟨⟨true, OrderStatus.text .fulfilled⟩, db₂, ?_, ?_, ⟨?_, ?_⟩, rfl⟩
  · rw [fulfilledOnce, Tx.bind_of_ok get, Tx.bind_of_ok update, Tx.bind_of_ok insert]
    rfl
  · exact (event_count rfl).trans (by rw [if_pos ⟨rfl, rfl⟩])
  · exact congrArg Option.isSome (setCell_self _ _ _ _)
  · exact ready.lines

/-- A request that found the order confirmed and whose key is new fulfills it,
whatever has happened to the order since. -/
theorem confirmed_run (row : OrderRow) (fits : varchar 255 (t.text ++ ":" ++ o) = true)
    (text : storable o = true) (txn : varchar 255 row.transactionID = true) (ready : Ready t o db)
    (aims : Aims rt t o req)
    (fresh : ¬Recorded orderKeys db t req.idempotencyKey) :
    ∃ resp db', (fulfillConfirmed rt t req row).run db = .ok (resp, db') ∧
      fulfillments t o db' = fulfillments t o db + 1 ∧ Ready t o db' ∧
      ∀ key, column 255 key ≠ column 255 req.idempotencyKey → Recorded orderKeys db' t key →
        Recorded orderKeys db t key := by
  obtain rfl := aims.order
  have tables := claimed_tables t req.idempotencyKey (rt.payloadHash (.fulfillOrder req)) db
  have ready' : Ready t req.orderId
      (claimed orderKeys t req.idempotencyKey (rt.payloadHash (.fulfillOrder req)) db) := by
    refine ⟨?_, ?_⟩
    · rw [tables.1]
      exact ready.order
    · rw [tables.2.1]
      exact ready.lines
  have claim : (claimNew orderKeys t req.idempotencyKey
      (rt.payloadHash (.fulfillOrder req))).run db = .ok (true,
        claimed orderKeys t req.idempotencyKey (rt.payloadHash (.fulfillOrder req)) db) := by
    rw [claimNew_run, if_pos aims.key, if_neg fresh]
  obtain ⟨resp, db', run, count, done, keys⟩ := fulfilledOnce_run fits text txn ready'
  refine ⟨resp, db', ?_, ?_, done, fun key other recorded => ?_⟩
  · rw [fulfillConfirmed, Tx.bind_of_ok claim]
    exact run
  · rw [count, fulfillments, fulfillments, tables.2.2.2.2]
  · have before : Recorded orderKeys (claimed orderKeys t req.idempotencyKey
        (rt.payloadHash (.fulfillOrder req)) db) t key := by
      refine ⟨recorded.1, ?_⟩
      rw [← recorded.2]
      exact congrArg (fun keys : KeyTable => keys.has t (column 255 key)) keys.symm
    exact (claimed_other (.inr other)).1 before

theorem run_append {xs ys : List Move} {s mid after : Race} (first : Race.run rt xs s = some mid)
    (second : Race.run rt ys mid = some after) : Race.run rt (xs ++ ys) s = some after := by
  induction xs generalizing s with
  | nil =>
    cases first
    exact second
  | cons m rest ih =>
    rw [Race.run] at first
    rw [List.cons_append, Race.run]
    split at first
    · exact ih first
    · cases first

theorem findOrder_run (text : storable o = true) :
    (findOrder t o).run db = .ok (db.orders t o, db) :=
  Tx.bind_of_ok (a := ()) (Tx.require_ok_iff.2 ⟨text, rfl⟩)

theorem fulfillOrderTx_confirmed (text : storable req.orderId = true)
    (found : db.orders t req.orderId = some row) (confirmed : row.status = .confirmed) :
    (fulfillOrderTx rt t req).run db = (fulfillConfirmed rt t req row).run db := by
  rw [fulfillOrderTx, Tx.bind_of_ok (findOrder_run text), found]
  simp only [confirmed, reduceCtorEq, if_false, ne_eq, not_true_eq_false]
  rfl

theorem next_found {s : Race} {i : ℕ} (here : s.attempts i = some ⟨t, req, .find⟩)
    (text : storable req.orderId = true)
    (found : (s.store.view orderWrites i).orders t req.orderId = some row)
    (confirmed : row.status = .confirmed) : s.next rt (.step i false) =
      some (s.goto i ⟨t, req, .find⟩ (confirmedPoint req row)) := by
  simp only [Race.next, here, Attempt.finished, Bool.false_eq_true, if_false, Race.advance,
    Race.statement, findOrder_run text, found, confirmed, reduceCtorEq, ne_eq, not_true_eq_false]
  unfold confirmedPoint
  split
  · rfl
  · rfl

def confirmedTables (t : UUID) (o : String) : OrderDb :=
  { OrderDb.empty with
    orders := setCell OrderDb.empty.orders t o (some ⟨.confirmed, 0, "USD", ""⟩) }

theorem confirmedTables_row (t : UUID) (o : String) :
    (confirmedTables t o).orders t o = some ⟨.confirmed, 0, "USD", ""⟩ := setCell_self _ _ _ _

theorem both_fulfill (fits : varchar 255 (t.text ++ ":" ++ o) = true) (text : storable o = true)
    {i j : ℕ} {a b : FulfillOrderRequest} (other : i ≠ j) (mine : Aims rt t o a)
    (theirs : Aims rt t o b) (apart : ¬(column 255 a.idempotencyKey = column 255 b.idempotencyKey ∧
      a.idempotencyKey ≠ "")) :
    ∃ moves after, (∀ k req, .request k req ∈ moves → k = i ∧ req = a ∨ k = j ∧ req = b) ∧
      Race.run rt moves (.quiet (confirmedTables t o)) = some after ∧
      fulfillments t o after.store.committed = 2 := by
  let row : OrderRow := ⟨.confirmed, 0, "USD", ""⟩
  have found : (confirmedTables t o).orders t o = some row := confirmedTables_row t o
  have ready : Ready t o (confirmedTables t o) := ⟨congrArg Option.isSome found, rfl⟩
  -- the second request reads the order, then the first one comes in
  let s₁ : Race := (Race.quiet (confirmedTables t o)).goto j ⟨t, b, .find⟩ .find
  let s₂ : Race := s₁.goto j ⟨t, b, .find⟩ (confirmedPoint b row)
  let s₃ : Race := s₂.goto i ⟨t, a, .find⟩ .find
  have begin₁ : (Race.quiet (confirmedTables t o)).next rt (.request j b) = some s₁ :=
    next_request theirs.tenant theirs.castable rfl
  have read : s₁.next rt (.step j false) = some s₂ :=
    next_found (goto_self ..) (theirs.order ▸ text) (theirs.order ▸ found) rfl
  have begin₂ : s₂.next rt (.request i a) = some s₃ := by
    refine next_request mine.tenant mine.castable ?_
    rw [goto_other _ _ _ other, goto_other _ _ _ other]
    rfl
  have first : Race.run rt [.request j b, .step j false, .request i a]
      (.quiet (confirmedTables t o)) = some s₃ := by
    simp only [Race.run, begin₁, read, begin₂]
  -- the first request runs to its end
  have alone₁ : Alone i (confirmedTables t o) (confirmedTables t o) ⟨t, a, .find⟩ s₃ :=
    ⟨goto_self .., rfl, rfl, fun _ => .inl rfl⟩
  obtain ⟨resp₁, db₁, run₁, count₁, ready₁, keys₁⟩ :=
    confirmed_run row fits text rfl ready mine fun recorded => by cases recorded.2
  have out₁ : (fulfillOrderTx rt t a).commit (confirmedTables t o) = (.ok resp₁, db₁) := by
    have found' : (confirmedTables t o).orders t a.orderId = some row := by
      rw [mine.order]
      exact found
    rw [commit_settled, fulfillOrderTx_confirmed (mine.order ▸ text) found' rfl, run₁]
    rfl
  obtain ⟨n, s₄, second, ended₁⟩ : Leads rt i s₃ (.ok resp₁, db₁) :=
    out₁ ▸ leads_fulfillOrder alone₁
  -- and so does the second, from what it has read
  obtain ⟨parked, pending⟩ := ended₁.others j other.symm
  have alone₂ : Alone j db₁ db₁ ⟨t, b, confirmedPoint b row⟩ s₄ := by
    refine ⟨parked.trans ?_, ended₁.committed, ?_, fun r => .inl (ended₁.free r)⟩
    · rw [goto_other _ _ _ other.symm]
      exact goto_self ..
    · rw [view_of_pending pending]
      exact ended₁.committed
  obtain ⟨resp₂, db₂, run₂, count₂, -, -⟩ :=
    confirmed_run row fits text rfl ready₁ theirs fun recorded => by
      by_cases same : column 255 b.idempotencyKey = column 255 a.idempotencyKey
      · refine apart ⟨same.symm, fun empty => recorded.1 ?_⟩
        exact (column_eq_empty (by decide)).1 (same.trans (by rw [empty]; rfl))
      · cases (keys₁ _ same recorded).2
  obtain ⟨m, s₅, third, ended₂⟩ : Leads rt j s₄ (.ok resp₂, db₂) := by
    have leads : Leads rt j s₄ (settled db₁ ((fulfillConfirmed rt t b row).run db₁)) :=
      leads_confirmed alone₂
    rwa [run₂] at leads
  refine ⟨[.request j b, .step j false, .request i a] ++ (List.replicate n (.step i false) ++
    List.replicate m (.step j false)), s₅, ?_, run_append first (run_append second third), ?_⟩
  · intro k req member
    simp only [List.mem_append, List.mem_cons, List.mem_replicate, Move.request.injEq,
      reduceCtorEq, and_false, or_false, false_or, List.not_mem_nil] at member
    exact member.symm
  · rw [ended₂.committed, count₂, count₁]
    rfl

end Overlap

/-- At most one `order.fulfilled` event is committed in every interleaving of the
requests exactly where those for the order come with one stored key. -/
theorem fulfilled_once_iff (rt : Runtime) (t : UUID) (o : String)
    (own : fits 255 o = true) (aggregate : varchar 255 (t.text ++ ":" ++ o) = true)
    (reqs : List FulfillOrderRequest) :
    (∀ db row moves after, db.orders t o = some row → row.status = .confirmed →
      Issues reqs moves → Race.run rt moves (.quiet db) = some after →
      fulfillments t o after.store.committed ≤ fulfillments t o db + 1) ↔ OneKey rt t o reqs := by
  constructor
  · intro once i j a b other here there mine theirs
    by_contra apart
    obtain ⟨moves, after, issues, run, two⟩ :=
      both_fulfill aggregate (Bool.and_eq_true_iff.1 own).2 other mine theirs apart
    have one := once (confirmedTables t o) _ moves after (confirmedTables_row t o) rfl ?_ run
    · have none : fulfillments t o (confirmedTables t o) = 0 := rfl
      omega
    · intro k req member
      rcases issues k req member with ⟨rfl, rfl⟩ | ⟨rfl, rfl⟩
      · exact here
      · exact there
  · intro one db row moves after found confirmed issues run
    exact fulfilled_at_most_once rt t o db (congrArg Option.isSome found) moves after
      (keeps_one_key one issues nofun) run

def fulfillRequest (key : String) : FulfillOrderRequest := ⟨sampleTenant.text, "ord-1", key⟩

def racing (key key' : String) (m : ℕ) : List Move :=
  [.request 0 (fulfillRequest key), .request 1 (fulfillRequest key'), .step 0 false,
    .step 1 false] ++ List.replicate 5 (.step 0 false) ++ List.replicate m (.step 1 false)

theorem fulfilled_once_shared :
    fits 255 "ord-1" = true ∧ varchar 255 (sampleTenant.text ++ ":" ++ "ord-1") = true ∧
    ∃ after, Race.run (reference []) (racing "key-1" "key-1" 3)
        (.quiet (confirmedTables sampleTenant "ord-1")) = some after ∧
      fulfillments sampleTenant "ord-1" after.store.committed ≤
        fulfillments sampleTenant "ord-1" (confirmedTables sampleTenant "ord-1") + 1 := by
  have own : fits 255 "ord-1" = true := by decide +kernel
  have aggregate : varchar 255 (sampleTenant.text ++ ":" ++ "ord-1") = true := by decide +kernel
  have run : (Race.run (reference []) (racing "key-1" "key-1" 3)
      (.quiet (confirmedTables sampleTenant "ord-1"))).isSome = true := by
    rw [reference_recognizing]
    decide +kernel
  obtain ⟨after, run⟩ := Option.isSome_iff_exists.1 run
  refine ⟨own, aggregate, after, run, ?_⟩
  refine (fulfilled_once_iff (reference []) sampleTenant "ord-1" own aggregate
    [fulfillRequest "key-1", fulfillRequest "key-1"]).2 ?_ _ _ _ after
    (confirmedTables_row sampleTenant "ord-1") rfl ?_ run
  · intro i j a b _ here there _ _
    have mine := List.mem_of_getElem? here
    have theirs := List.mem_of_getElem? there
    simp only [List.mem_cons, List.not_mem_nil, or_false, or_self] at mine theirs
    rw [mine, theirs]
    exact ⟨rfl, by decide⟩
  · intro i req member
    simp only [racing, List.mem_append, List.mem_cons, List.mem_replicate, Move.request.injEq,
      reduceCtorEq, and_false, or_false, List.not_mem_nil] at member
    rcases member with ⟨rfl, rfl⟩ | ⟨rfl, rfl⟩
    · rfl
    · rfl

theorem fulfilled_twice :
    (Race.run (reference []) (racing "key-1" "key-2" 5)
      (.quiet (confirmedTables sampleTenant "ord-1"))).map
        (fun s => fulfillments sampleTenant "ord-1" s.store.committed) = some 2 := by
  rw [reference_recognizing]
  decide +kernel

end Taper.FulfillAtMostOnce
