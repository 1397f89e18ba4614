import Taper.ChargedOnce
import Taper.ConfirmedOwns
import Taper.SagaPhases

set_option autoImplicit false

/-!
# Order totals

The total of an order is computed in wrap-around 64-bit arithmetic when the
order is accepted and by every run of its saga that charges it.
-/
namespace Taper.OrderTotals
open Messages Platform OrderTables OrderSteps Program ServiceStack Services ServiceRules StackSteps
open ChargedOnce ConfirmedOwns HandlerRuns

def exactTotal (lines : List OrderLine) : ℤ :=
  (lines.map fun l => l.quantity.toInt * l.unitPrice.toInt).sum

theorem orderTotal_exact (lines : List OrderLine) :
    orderTotal lines = Int64.ofInt (exactTotal lines) := by
  have term (l : OrderLine) : l.quantity.toInt64 * l.unitPrice =
      Int64.ofInt (l.quantity.toInt * l.unitPrice.toInt) := by
    rw [Int64.ofInt_mul, Int64.ofInt_toInt]
    congr 1
  have fold : ∀ total : ℤ,
      lines.foldl (fun total l => total + l.quantity.toInt64 * l.unitPrice) (Int64.ofInt total) =
        Int64.ofInt (total + exactTotal lines) := by
    induction lines with
    | nil => simp [exactTotal]
    | cons l rest ih =>
      intro total
      rw [List.foldl_cons, term, ← Int64.ofInt_add, ih]
      simp [exactTotal, add_assoc]
  have all := fold 0
  rwa [zero_add] at all

theorem exactTotal_nonneg {o : String} {lines : List OrderLine}
    (fit : ∀ l ∈ lines, lineFits o l = true) : 0 ≤ exactTotal lines := by
  refine List.sum_nonneg fun amount member => ?_
  obtain ⟨l, listed, rfl⟩ := List.mem_map.1 member
  have checks := fit l listed
  simp only [lineFits, Bool.and_eq_true, decide_eq_true_eq] at checks
  have quantity : 0 < l.quantity.toInt := Int32.lt_iff_toInt_lt.1 checks.2.1
  have price : 0 ≤ l.unitPrice.toInt := Int64.le_iff_toInt_le.1 checks.2.2
  exact mul_nonneg quantity.le price

/-- The accepted lines add up to the stored total exactly below 2 ^ 63. -/
theorem total_exact_iff {o : String} {lines : List OrderLine}
    (fit : ∀ l ∈ lines, lineFits o l = true) :
    (orderTotal lines).toInt = exactTotal lines ↔ exactTotal lines < 2 ^ 63 := by
  have nonneg := exactTotal_nonneg fit
  rw [orderTotal_exact, Int64.toInt_ofInt]
  simp only [Int.bmod_def, Int64.size]
  omega

def AnswersLines (t : UUID) (o : String) (lines : List OrderLine) : (op : Op) → Resp op → Prop
  | .createOrderRow u req _, r =>
    u = t → column 255 req.orderId = o → r = .ok () → (req.lines.map storedLine).Perm lines
  | .getOrderLines _ u orderID, r =>
    u = t → column 255 orderID = o → ∀ found, r = .ok found → found = [] ∨ found.Perm lines
  | _, _ => True

/-- A charge of the order with an amount that is not the total of the lines, or
an order stored with another total than its own. -/
def Misstates (rt : Runtime) (t : UUID) (o : String) (lines : List OrderLine) : Op → Prop
  | .charge req => (rt.scan req.tenantID = some t ∧ column 255 req.orderID = o) ∧
    req.amount ≠ orderTotal lines
  | .createOrderRow _ req total => total ≠ orderTotal req.lines
  | _ => False

def Pays (rt : Runtime) (t : UUID) (o : String) (lines : List OrderLine) (p : Code Unit) : Prop :=
  Safe (AnswersLines t o lines) (Misstates rt t o lines) (fun _ => True) p

section Handlers

variable {rt : Runtime} {t : UUID} {o : String} {lines : List OrderLine}

theorem misstates_plain (op : Op) (h : special op = false) : ¬Misstates rt t o lines op := by
  cases op with
  | charge req => cases h
  | createOrderRow u req total => cases h
  | _ => exact id

theorem saga_pays {input : SagaInput} (coherent : rt.scan input.tenantID = some input.tenantUUID)
    (stored : input.tenantUUID = t → column 255 input.orderID = o →
      orderTotal input.lines = orderTotal lines) :
    SagaSafe rt (AnswersLines t o lines) (Misstates rt t o lines) input where
  coherent := coherent
  undo _ _ _ _ := id
  insert _ _ := id
  transition _ _ _ _ _ := id
  rows := ⟨fun _ _ => id, fun _ _ _ _ => ⟨id, id⟩⟩
  allocate _ _ := id
  confirm _ _ _ := id
  charge _ := by
    rintro ⟨⟨tenant, order⟩, other⟩
    have same : input.tenantUUID = t := Option.some.inj (coherent.symm.trans tenant)
    exact other (stored same order)

/-- Without lines nothing is reserved, and so nothing is charged. -/
theorem unlined_pays {input : SagaInput} (none : input.lines = []) :
    Safe (AnswersLines t o lines) (Misstates rt t o lines) (fun _ => True) (runSaga rt input) := by
  have refused : Safe (AnswersLines t o lines) (Misstates rt t o lines)
      (fun answer => ∃ e, answer = .error e) (reserve rt (reserveRequest input)) := by
    have items : (reserveRequest input).items = [] := by
      rw [reserveRequest, none]
      rfl
    unfold reserve
    split
    · exact ⟨_, rfl⟩
    · rw [if_pos items]
      exact ⟨_, rfl⟩
  refine safe_then (misstates_plain _ rfl) fun allowed _ => ?_
  cases allowed with
  | false => exact safe_done
  | true =>
    refine safe_bind (safe_rpc misstates_plain ⟨_, rfl⟩ refused) ?_
    rintro _ ⟨e, rfl⟩
    exact safe_bind (failSaga_safe (fun _ _ _ _ _ _ => id) _) fun _ _ => safe_done

theorem handler_pays (x : Handler) : Pays rt t o lines (x.code rt) := by
  have release (req : ReleaseRequest) :
      ReleaseSafe rt (AnswersLines t o lines) (Misstates rt t o lines) req :=
    ⟨fun _ _ => id, fun _ _ _ _ => ⟨id, id⟩⟩
  cases x with
  | createOrder req =>
    refine serve_safe (createOrder_safe misstates_plain (fun _ _ other => other rfl) ?_)
    refine fun u parse given => saga_pays parse fun same here => ?_
    exact (SagaPhases.orderTotal_stored _).symm.trans
      (SagaPhases.orderTotal_perm (given same here rfl))
  | cancelOrder req =>
    exact serve_safe (cancelOrder_safe misstates_plain fun _ _ _ _ _ =>
      ⟨fun _ _ _ _ _ => id, release _⟩)
  | resumePendingSagas limit =>
    refine serve_safe (Q := fun _ => True) (safe_then (misstates_plain _ rfl) fun found _ => ?_)
    cases found with
    | error e => exact safe_done
    | ok sagas =>
      refine resumeEach_safe misstates_plain fun saga _ found given => ?_
      by_cases none : found = []
      · exact unlined_pays none
      · refine runSaga_safe misstates_plain (saga_pays (rt.scan_text saga.tenantID) ?_)
        exact fun same here =>
          SagaPhases.orderTotal_perm ((given same here found rfl).resolve_left none)
  | reserve req =>
    exact serve_safe (reserve_safe misstates_plain (fun _ _ _ _ _ _ => id) fun _ _ _ _ => id)
  | release req => exact serve_safe (release_safe misstates_plain (release req))
  | allocateReservation req => exact serve_safe (allocateReservation_safe fun _ _ => id)
  | sweepOnce batch =>
    exact serve_safe (sweepOnce_safe misstates_plain fun _ _ _ => ⟨fun _ => id, fun _ _ => id⟩)

end Handlers

/-- What a run tells of one order: the requests accepted for it, and the amounts
the gateway is asked to charge for it. -/
inductive Note where
  | accepted (req : CreateOrderRequest)
  | sent (amount : Int64)
  deriving DecidableEq

def noted (rt : Runtime) (t : UUID) (o : String) (pool : StackPool) :
    Move Handler Choice → List Note
  | .step i c =>
    match pool.threads i with
    | some (.step (.charge req) _) =>
      if rt.scan req.tenantID = some t ∧ column 255 req.orderID = o then [.sent req.amount] else []
    | some (.step (.createOrderRow u req total) _) =>
      match exec rt i (.createOrderRow u req total) c pool.state with
      | some (.ok (), _) => if u = t ∧ column 255 req.orderId = o then [.accepted req] else []
      | _ => []
    | _ => []
  | _ => []

/-- Of the ids that are stored as this one, only the stored one has a saga, and
without a saga there are no lines. -/
structure Tabled (t : UUID) (o : String) (db : OrderDb) : Prop where
  within : ∀ id, column 255 id = o → db.sagas t id ≠ none → id = o
  noLines : ∀ id, column 255 id = o → db.sagas t id = none → db.orderLines t id = []

/-- What holds along a run: the notes agree with what is stored, and every
handler charges the total of the stored lines. -/
structure Inv (rt : Runtime) (t : UUID) (o : String) (past : List Note) (pool : StackPool) :
    Prop where
  tables : Tabled t o pool.state.order
  accepted : ∀ req, .accepted req ∈ past → pool.state.order.sagas t o ≠ none ∧
    pool.state.order.orderLines t o = req.lines.map storedLine ∧
    (∀ l ∈ req.lines, lineFits req.orderId l = true) ∧
    ∃ row, pool.state.order.orders t o = some row ∧ row.totalAmount = orderTotal req.lines
  sent : ∀ amount, .sent amount ∈ past → pool.state.order.sagas t o ≠ none ∧
    amount = orderTotal (pool.state.order.orderLines t o)
  pays : ∀ lines, StoredAs t o pool.state lines → ∀ i p, pool.threads i = some p →
    Pays rt t o lines p

section Steps

variable {rt : Runtime} {me : ℕ} {op : Op} {c : Choice} {s s' : Stack} {r : Resp op} {t : UUID}
  {o : String}

theorem exec_answersLines (h : exec rt me op c s = some (r, s'))
    (tables : Tabled t o s.order) {lines : List OrderLine} (stored : StoredAs t o s' lines) :
    AnswersLines t o lines op r := by
  cases op with
  | createOrderRow u req total =>
    rintro rfl rfl rfl
    obtain ⟨there, same⟩ := created_lines h (tables.noLines _ (column_column ..))
    exact same ▸ stored there
  | getOrderLines tenantID u orderID =>
    rintro rfl rfl found rfl
    by_cases there : s.order.sagas u orderID = none
    · exact found_lines h (tables.noLines _ rfl) (fun later =>
        absurd ((exec_frame h).order rfl ▸ there) later)
    · rw [← tables.within orderID rfl there] at stored
      exact found_lines h (tables.noLines _ rfl) stored
  | _ => trivial

theorem exec_tabled (h : exec rt me op c s = some (r, s')) (tables : Tabled t o s.order) :
    Tabled t o s'.order := by
  refine ⟨fun id cut there => ?_, fun id cut none => ?_⟩
  · rcases exec_lines h t id with ⟨-, exists_⟩ | ⟨req, total, -, same, -⟩
    · exact tables.within id cut fun none => there (exists_.2 none)
    · rwa [← same, column_column, same] at cut
  · rcases exec_lines h t id with ⟨same, exists_⟩ | ⟨req, total, -, -, -, there, -⟩
    · exact same.trans (tables.noLines id cut (exists_.1 none))
    · exact absurd none there

theorem mirror_total (row : OrderRow) (state : SagaState) :
    (mirror row state).totalAmount = row.totalAmount := by
  unfold mirror
  split
  · rfl
  · rfl

theorem exec_total (h : exec rt me op c s = some (r, s')) {row : OrderRow}
    (there : s.order.orders t o = some row) :
    ∃ row', s'.order.orders t o = some row' ∧ row'.totalAmount = row.totalAmount := by
  have replaced {u : UUID} {o' : String} {old new : OrderRow}
      (found : s.order.orders u o' = some old) (total : new.totalAmount = old.totalAmount) :
      ∃ row', setCell s.order.orders u o' (some new) t o = some row' ∧
        row'.totalAmount = row.totalAmount := by
    by_cases same : t = u ∧ o = o'
    · obtain ⟨rfl, rfl⟩ := same
      rw [there] at found
      cases found
      exact ⟨new, setCell_self _ _ _ _, total⟩
    · exact ⟨row, (setCell_other _ _ same).trans there, rfl⟩
  rcases exec_order_cases h with same | write
  · exact ⟨row, same ▸ there, rfl⟩
  · generalize s'.order = db at write
    cases write with
    | @created u req total ok =>
      have other : ¬(t = u ∧ o = column 255 req.orderId) := by
        rintro ⟨rfl, rfl⟩
        rw [ok.noOrder] at there
        cases there
      exact ⟨row, (setCell_other _ _ other).trans there, rfl⟩
    | moved order found fits => exact replaced order (mirror_total _ _)
    | recorded order => exact replaced order rfl

theorem exec_accepted {req : CreateOrderRequest} {total : Int64}
    (h : exec rt me (.createOrderRow t req total) c s = some (.ok (), s')) :
    (∀ l ∈ req.lines, lineFits req.orderId l = true) ∧
      ∃ row, s'.order.orders t (column 255 req.orderId) = some row ∧ row.totalAmount = total := by
  rcases exec_createOrderRow h with ⟨-, -, ok, rfl⟩ | ⟨⟨e, eq⟩, -⟩
  · exact ⟨ok.linesFit, _, setCell_self _ _ _ _, rfl⟩
  · cases eq

end Steps

section Moves

variable {rt : Runtime} {t : UUID} {o : String} {past : List Note} {pool : StackPool} {i : ℕ}
  {c : Choice} {op : Op} {k : Resp op → Code Unit} {r : Resp op} {s' : Stack}

theorem noted_sent (at_ : pool.threads i = some (.step op k)) {amount : Int64}
    (told : .sent amount ∈ noted rt t o pool (.step i c)) :
    ∃ req, op = .charge req ∧ (rt.scan req.tenantID = some t ∧ column 255 req.orderID = o) ∧
      amount = req.amount := by
  simp only [noted, at_] at told
  cases op with
  | charge req =>
    simp only at told
    split at told
    · rename_i same
      obtain rfl : amount = req.amount := by simpa using told
      exact ⟨req, rfl, same, rfl⟩
    · cases told
  | createOrderRow u req total =>
    simp only at told
    split at told
    · split at told
      · simp at told
      · cases told
    · cases told
  | _ => cases told

theorem noted_accepted (at_ : pool.threads i = some (.step op k)) {req : CreateOrderRequest}
    (told : .accepted req ∈ noted rt t o pool (.step i c)) :
    ∃ total after, op = .createOrderRow t req total ∧ column 255 req.orderId = o ∧
      exec rt i (.createOrderRow t req total) c pool.state = some (.ok (), after) := by
  simp only [noted, at_] at told
  cases op with
  | charge req =>
    simp only at told
    split at told
    · simp at told
    · cases told
  | createOrderRow u req' total =>
    simp only at told
    split at told
    · rename_i after run
      split at told
      · rename_i same
        obtain rfl : req = req' := by simpa using told
        obtain ⟨rfl, rfl⟩ := same
        exact ⟨total, after, rfl, rfl, run⟩
      · cases told
    · cases told
  | _ => cases told

theorem some_total_differs (amount : Int64) : ∃ lines, amount ≠ orderTotal lines := by
  by_cases zero : amount = 0
  · exact ⟨[⟨"", "", 1, 1⟩], by rw [zero]; decide⟩
  · exact ⟨[], zero⟩

theorem Inv.charged (inv : Inv rt t o past pool) {req : ChargeRequest}
    {k : Resp (.charge req) → Code Unit} (at_ : pool.threads i = some (.step (.charge req) k))
    (charges : rt.scan req.tenantID = some t ∧ column 255 req.orderID = o) :
    pool.state.order.sagas t o ≠ none ∧
      req.amount = orderTotal (pool.state.order.orderLines t o) := by
  have amount {lines : List OrderLine} (stored : StoredAs t o pool.state lines) :
      req.amount = orderTotal lines := by
    by_contra other
    exact (inv.pays lines stored i _ at_).1 ⟨charges, other⟩
  refine ⟨fun none => ?_, amount (stored_self t o pool.state)⟩
  obtain ⟨lines, other⟩ := some_total_differs req.amount
  exact other (amount fun there => absurd none there)

theorem Inv.step (inv : Inv rt t o past pool) (at_ : pool.threads i = some (.step op k))
    (run : exec rt i op c pool.state = some (r, s')) :
    Inv rt t o (past ++ noted rt t o pool (.step i c)) (pool.set i (some (k r)) s') := by
  have kept : pool.state.order.sagas t o ≠ none → s'.order.sagas t o ≠ none ∧
      s'.order.orderLines t o = pool.state.order.orderLines t o := by
    intro there
    rcases exec_lines run t o with ⟨same, exists_⟩ | ⟨req, total, -, -, none, -, -⟩
    · exact ⟨fun none => there (exists_.1 none), same⟩
    · exact absurd none there
  refine ⟨exec_tabled run inv.tables, fun req told => ?_, fun amount told => ?_,
    fun lines stored => ?_⟩
  · rcases List.mem_append.1 told with old | new
    · obtain ⟨there, lines, fit, row, found, total⟩ := inv.accepted req old
      obtain ⟨row', found', total'⟩ := exec_total run found
      exact ⟨(kept there).1, (kept there).2.trans lines, fit, row', found', total'.trans total⟩
    · obtain ⟨total, after, rfl, rfl, run'⟩ := noted_accepted at_ new
      obtain ⟨rfl, rfl⟩ := Prod.mk.inj (Option.some.inj (run.symm.trans run'))
      obtain ⟨there, lines⟩ := created_lines run (inv.tables.noLines _ (column_column ..))
      obtain ⟨fit, row, found, amount⟩ := exec_accepted run
      refine ⟨there, lines, fit, row, found, amount.trans ?_⟩
      by_contra other
      exact (inv.pays _ (stored_self t _ pool.state) i _ at_).1 other
  · rcases List.mem_append.1 told with old | new
    · obtain ⟨there, total⟩ := inv.sent amount old
      exact ⟨(kept there).1, (kept there).2 ▸ total⟩
    · obtain ⟨req, rfl, charges, rfl⟩ := noted_sent at_ new
      obtain ⟨there, total⟩ := inv.charged at_ charges
      exact ⟨(kept there).1, (kept there).2 ▸ total⟩
  · have before := exec_storedAs run stored
    exact Pool.set_some
      ((inv.pays lines before i _ at_).2 r (exec_answersLines run inv.tables stored))
      (inv.pays lines before)

theorem next_inv {after : StackPool} {m : Move Handler Choice} (inv : Inv rt t o past pool)
    (next : pool.next (machine rt) (Handler.code rt) m = some after) :
    Inv rt t o (past ++ noted rt t o pool m) after := by
  rcases Pool.next_cases next with ⟨i, x, rfl, -, rfl⟩ | ⟨i, c, op, k, r, s', rfl, at_, run, rfl⟩ |
      ⟨i, rfl, -, rfl⟩
  · rw [show noted rt t o pool (.spawn i x) = [] from rfl, List.append_nil]
    refine ⟨inv.tables, inv.accepted, inv.sent, fun lines stored => ?_⟩
    exact Pool.set_some (handler_pays x) (inv.pays lines stored)
  · exact inv.step at_ run
  · rw [show noted rt t o pool (.stop i) = [] from rfl, List.append_nil]
    refine ⟨inv.tables, inv.accepted, inv.sent, fun lines stored => ?_⟩
    exact Pool.set_none (inv.pays lines stored)

end Moves

/-- In every run of the handlers, with every outcome of every call: the stored
total of an accepted order and each amount sent to the gateway for it are the
sum of its lines exactly when that sum is below 2 ^ 63. -/
theorem amounts_exact_iff (rt : Runtime) (t : UUID) (o : String) (start : Stack)
    (tables : Tabled t o start.order)
    (moves : List (Move Handler Choice)) (pool : StackPool)
    (run : Pool.run (machine rt) (Handler.code rt) moves (idle start) = some pool)
    (req : CreateOrderRequest)
    (accepted : .accepted req ∈
      Pool.trace (machine rt) (Handler.code rt) (noted rt t o) moves (idle start)) :
    ((∃ row, pool.state.order.orders t o = some row ∧
        row.totalAmount.toInt = exactTotal req.lines) ∧
      ∀ amount, .sent amount ∈
          Pool.trace (machine rt) (Handler.code rt) (noted rt t o) moves (idle start) →
        amount.toInt = exactTotal req.lines) ↔ exactTotal req.lines < 2 ^ 63 := by
  have begin_ : Inv rt t o [] (idle start) :=
    ⟨tables, nofun, nofun, fun _ _ i p here => by cases here⟩
  have inv := Pool.trace_kept (Inv rt t o) (fun _ _ _ _ inv next => next_inv inv next) run begin_
  obtain ⟨-, lines, fit, row, found, total⟩ := inv.accepted req accepted
  rw [← total_exact_iff fit]
  constructor
  · rintro ⟨⟨row', found', exact_⟩, -⟩
    rw [found] at found'
    cases found'
    rw [← total]
    exact exact_
  · intro exact_
    refine ⟨⟨row, found, total ▸ exact_⟩, fun amount told => ?_⟩
    rw [(inv.sent amount told).2, lines, SagaPhases.orderTotal_stored]
    exact exact_

def pricedOrder (unitPrice : Int64) : CreateOrderRequest :=
  { sampleOrder "ord-1" "key-1" with lines := [⟨"SKU", "W1", 4, unitPrice⟩] }

def pricedMoves (unitPrice : Int64) : List (Move Handler Choice) :=
  .spawn 0 (.createOrder (pricedOrder unitPrice)) :: List.replicate 19 (.step 0 .healthy)

def pricedRun (unitPrice : Int64) : Option StackPool :=
  Pool.run (machine (reference [])) (Handler.code (reference [])) (pricedMoves unitPrice)
    (idle sampleStack)

def pricedNotes (unitPrice : Int64) : List Note :=
  Pool.trace (machine (reference [])) (Handler.code (reference []))
    (noted (reference []) sampleTenant "ord-1") (pricedMoves unitPrice) (idle sampleStack)

theorem sample_tabled : Tabled sampleTenant "ord-1" sampleStack.order :=
  ⟨fun _ _ there => absurd rfl there, fun _ _ _ => rfl⟩

theorem amounts_exact_hundred : pricedNotes 25 = [.accepted (pricedOrder 25), .sent 100] ∧
    ∃ pool, pricedRun 25 = some pool ∧ ∃ row,
      pool.state.order.orders sampleTenant "ord-1" = some row ∧ row.totalAmount.toInt = 100 := by
  have total : exactTotal (pricedOrder 25).lines = 100 := by decide +kernel
  have both : pricedNotes 25 = [.accepted (pricedOrder 25), .sent 100] ∧
      (pricedRun 25).isSome = true := by
    rw [pricedNotes, pricedRun, reference_recognizing]
    decide +kernel
  obtain ⟨notes, ends⟩ := both
  obtain ⟨pool, run⟩ := Option.isSome_iff_exists.1 ends
  have accepted : .accepted (pricedOrder 25) ∈ pricedNotes 25 := by
    rw [notes]
    exact List.mem_cons_self
  have amounts := (amounts_exact_iff (reference []) sampleTenant "ord-1" sampleStack sample_tabled
    (pricedMoves 25) pool run (pricedOrder 25) accepted).2 (by rw [total]; decide)
  rw [total] at amounts
  exact ⟨notes, pool, run, amounts.1⟩

/-- Four units at 2 ^ 62 + 1: the sum is 2 ^ 64 + 4, and 4 is stored and charged. -/
theorem wrapped_total_charged :
    exactTotal (pricedOrder 4611686018427387905).lines = 18446744073709551620 ∧
      pricedNotes 4611686018427387905 =
        [.accepted (pricedOrder 4611686018427387905), .sent 4] ∧
      ((pricedRun 4611686018427387905).bind fun pool =>
        (pool.state.order.orders sampleTenant "ord-1").map (·.totalAmount)) = some 4 := by
  rw [pricedNotes, pricedRun, reference_recognizing]
  decide +kernel

end Taper.OrderTotals
