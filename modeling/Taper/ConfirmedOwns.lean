import Taper.AllocationFinal
import Taper.HandlerRuns
import Taper.OrderRows

set_option autoImplicit false

/-!
# A confirmed order owns its reservations

An allocation is answered with success whatever it finds to allocate, so a
confirmed order owns its rows only if all of them were there to be allocated:
active, in no sweep's batch and not locked.
-/
namespace Taper.ConfirmedOwns
open Messages Platform Ledger ReservationTables ReservationSteps ReservationRuns OrderTables
open Program ServiceStack Services ServiceRules StackSteps HandlerRuns AllocationFinal OrderRows
open OrderSteps hiding withStatus

def Owns (s : Stack) (t : UUID) (o : String) : Prop :=
  ((rowsOf s t o).map rowLine).Perm (stockLines (s.order.orderLines t o)) ∧
    ∀ row ∈ rowsOf s t o, row.status = .allocated

def PlainKey (key : String) : Prop :=
  ∀ tenant order, column 255 (compensationKey tenant order) ≠ reserveKey key ∧
    column 255 (compensationKey tenant order) ≠ allocateKey key

section Order

variable (t : UUID) (o key : String)

/-- What is known of the order's lines: those it has, once it exists. -/
def StoredAs (s : Stack) (lines : List OrderLine) : Prop :=
  s.order.sagas t o ≠ none → (s.order.orderLines t o).Perm lines

def AnswersOrder (lines : List OrderLine) : (op : Op) → Resp op → Prop
  | .createOrderRow u req _, r => u = t → column 255 req.orderId = o → r = .ok () →
    (req.lines.map storedLine).Perm (lines.map storedLine)
  | .getOrderLines _ u orderID, r => u = t → orderID = o → ∀ found, r = .ok found →
    found = [] ∨ (found.map storedLine).Perm (lines.map storedLine)
  | .getResumableSagas _, r => ∀ sagas, r = .ok sagas → ∀ saga ∈ sagas,
    column 255 saga.orderID = saga.orderID ∧
      (saga.tenantID = t → (saga.orderID = o ↔ column 255 saga.idempotencyKey = key))
  | .transition _ _ orderID _ _ _, r => r = .ok () → column 255 orderID = orderID
  | _, _ => True

/-- An operation keeps to the order's keys: they are used for this order, and
with its lines. Keys too long for their column are refused. -/
def Fitting (lines : List OrderLine) : Op → Prop
  | .createOrderRow u req _ => u = t →
    (column 255 req.orderId = o ↔ column 255 req.idempotencyKey = key)
  | .insertReservations u req _ => u = t → keyFits req.idempotencyKey = true →
    (column 255 req.idempotencyKey = reserveKey key ↔ column 255 req.orderId = o) ∧
      column 255 req.idempotencyKey ≠ allocateKey key ∧
      (column 255 req.orderId = o →
        ((req.items.map itemLine).map cutLine).Perm (stockLines (lines.map storedLine)))
  | .beginRelease u req | .commitRelease u req _ => u = t →
    column 255 req.idempotencyKey ≠ reserveKey key ∧
      column 255 req.idempotencyKey ≠ allocateKey key
  | .allocate u req => u = t → keyFits req.idempotencyKey = true →
    (column 255 req.idempotencyKey = allocateKey key ↔ req.orderId = o) ∧
      column 255 req.idempotencyKey ≠ reserveKey key
  | _ => True

def Keeping (lines : List OrderLine) (p : Code Unit) : Prop :=
  Safe (AnswersOrder t o key lines) (fun op => ¬Fitting t o key lines op) (fun _ => True) p

def AnswersUnreserved : (op : Op) → Resp op → Prop
  | .insertReservations u req _, r => u = t → req.idempotencyKey = reserveKey key → ¬Stored r
  | _, _ => True

def AllocatesOrder : Op → Prop
  | .allocate u req => u = t ∧ keyFits req.idempotencyKey = true ∧
    column 255 req.idempotencyKey = allocateKey key
  | _ => False

/-- The handler allocates only after it has learned of the reservation. -/
def ReservesFirst (p : Code Unit) : Prop :=
  Safe (AnswersUnreserved t key) (AllocatesOrder t key) (fun _ => True) p

def AnswersUnallocated : (op : Op) → Resp op → Prop
  | .allocate u req, r => ∀ count, r = .ok count → keyFits req.idempotencyKey = true ∧
    (u = t → req.idempotencyKey ≠ allocateKey key)
  | .getResumableSagas _, r => ∀ sagas, r = .ok sagas → ∀ saga ∈ sagas, saga.tenantID = t →
    saga.orderID = o → column 255 saga.idempotencyKey = key
  | _, _ => True

def Confirms : Op → Prop
  | .transition _ u orderID state _ _ => u = t ∧ orderID = o ∧ state = .confirmed
  | _ => False

/-- The handler confirms only after it has learned of the allocation. -/
def AllocatesFirst (p : Code Unit) : Prop :=
  Safe (AnswersUnallocated t o key) (Confirms t o) (fun _ => True) p

/-- Orders are created, cancelled, resumed and swept, and no other order of the
tenant has the key. -/
def Traffic (rt : Runtime) : Handler → Prop
  | .createOrder req =>
    rt.scan req.tenantId = some t →
      (column 255 req.orderId = o ↔ column 255 req.idempotencyKey = key)
  | .cancelOrder _ | .resumePendingSagas _ | .sweepOnce _ => True
  | .reserve _ | .release _ | .allocateReservation _ => False

end Order

section Handlers

variable {rt : Runtime} {t : UUID} {o key : String}

/-- A key from which a derived one fits its column is stored as it is. -/
theorem saga_keeping {lines : List OrderLine} (plainKey : PlainKey key) {input : SagaInput}
    (coherent : rt.scan input.tenantID = some input.tenantUUID)
    (own : input.tenantUUID = t → (column 255 input.orderID = o ↔ column 255 input.idemKey = key))
    (stored : input.tenantUUID = t → column 255 input.orderID = o →
      input.lines = [] ∨ (input.lines.map storedLine).Perm (lines.map storedLine)) :
    SagaSafe rt (AnswersOrder t o key lines) (fun op => ¬Fitting t o key lines op) input where
  coherent := coherent
  undo _ _ _ _ bad := bad trivial
  insert expiresAt items bad := by
    refine bad fun same fits => ?_
    have whole : column 255 (reserveKey input.idemKey) = reserveKey input.idemKey :=
      reserveKey_stored fits
    have plain := own same
    rw [column_of_append whole] at plain
    change (column 255 (reserveKey input.idemKey) = _ ↔ _) ∧
      column 255 (reserveKey input.idemKey) ≠ _ ∧ _
    rw [whole]
    refine ⟨reserveKey_inj.trans plain.symm, reserveKey_ne_allocateKey _ _, fun here => ?_⟩
    rcases stored same here with none | perm
    · exact absurd (by rw [none]; rfl) items
    · rw [reserveRequest, reserveItems_lines, ← stockLines_stored]
      exact perm.map _
  transition _ _ _ _ _ bad := bad trivial
  rows := ⟨fun _ _ bad => bad fun _ => plainKey _ _, fun _ _ _ _ =>
    ⟨fun bad => bad trivial, fun bad => bad fun _ => plainKey _ _⟩⟩
  allocate _ moved bad := by
    refine bad fun same fits => ?_
    have whole : column 255 (allocateKey input.idemKey) = allocateKey input.idemKey :=
      allocateKey_stored fits
    have plain := own same
    rw [column_of_append whole, moved rfl] at plain
    change (column 255 (allocateKey input.idemKey) = _ ↔ _) ∧
      column 255 (allocateKey input.idemKey) ≠ _
    rw [whole]
    exact ⟨allocateKey_inj.trans plain.symm, (reserveKey_ne_allocateKey _ _).symm⟩
  confirm _ _ _ bad := bad trivial
  charge _ bad := bad trivial

theorem handler_keeping (plainKey : PlainKey key) {h : Handler} (traffic : Traffic t o key rt h)
    (lines : List OrderLine) : Keeping t o key lines (h.code rt) := by
  have plain : ∀ op, special op = false → ¬¬Fitting t o key lines op := by
    intro op h
    cases op with
    | createOrderRow u req total => cases h
    | insertReservations u req expiresAt => cases h
    | beginRelease u req => cases h
    | commitRelease u req rows => cases h
    | allocate u req => cases h
    | _ => exact fun bad => bad trivial
  cases h with
  | createOrder req =>
    refine serve_safe (createOrder_safe plain (fun u parse bad => bad ?_)
      fun u parse given => saga_keeping plainKey parse ?_ fun same here => ?_)
    · exact fun same => traffic (same ▸ parse)
    · exact fun same => traffic (same ▸ parse)
    · exact .inr (given same here rfl)
  | cancelOrder req =>
    refine serve_safe (cancelOrder_safe plain fun u saga parse given state =>
      ⟨fun _ _ _ _ _ bad => bad trivial, ⟨?_, ?_⟩⟩)
    · exact fun _ _ bad => bad fun _ => plainKey _ _
    · exact fun _ _ _ _ => ⟨fun bad => bad trivial, fun bad => bad fun _ => plainKey _ _⟩
  | resumePendingSagas limit =>
    refine serve_safe (resumePendingSagas_safe plain fun sagas listed saga member found given =>
      saga_keeping plainKey (rt.scan_text saga.tenantID) ?_ ?_)
    · have within := listed sagas rfl saga member
      rw [resumeInput, within.1]
      exact within.2
    · have within := (listed sagas rfl saga member).1
      exact fun same here => given same (within.symm.trans here) found rfl
  | reserve req => exact traffic.elim
  | release req => exact traffic.elim
  | allocateReservation req => exact traffic.elim
  | sweepOnce batch =>
    exact serve_safe (sweepOnce_safe plain fun _ _ _ =>
      ⟨fun _ bad => bad trivial, fun _ _ bad => bad trivial⟩)

theorem handler_reservesFirst {h : Handler} (traffic : Traffic t o key rt h) :
    ReservesFirst t key (h.code rt) := by
  have plain : ∀ op, special op = false → ¬AllocatesOrder t key op := by
    intro op h
    cases op with
    | allocate u req => cases h
    | _ => exact fun allocates => allocates
  have saga : ∀ input : SagaInput, rt.scan input.tenantID = some input.tenantUUID →
      SagaSafe rt (AnswersUnreserved t key) (AllocatesOrder t key) input := by
    refine fun input coherent => ⟨coherent, fun _ _ _ _ no => no, fun _ _ no => no,
      fun _ _ _ _ _ no => no, ⟨fun _ _ no => no, fun _ _ _ _ => ⟨fun no => no, fun no => no⟩⟩, ?_,
      fun _ _ _ no => no, fun _ no => no⟩
    rintro ⟨expiresAt, answer, given, stored⟩ - ⟨same, fits, derived⟩
    have whole : column 255 (allocateKey input.idemKey) = allocateKey input.idemKey :=
      allocateKey_stored fits
    exact given same (reserveKey_inj.2 (allocateKey_inj.1 (whole.symm.trans derived))) stored
  cases h with
  | createOrder req =>
    exact serve_safe (createOrder_safe plain (fun _ _ no => no) fun _ parse _ => saga _ parse)
  | cancelOrder req =>
    exact serve_safe (cancelOrder_safe plain fun _ _ _ _ _ => ⟨fun _ _ _ _ _ no => no,
      ⟨fun _ _ no => no, fun _ _ _ _ => ⟨fun no => no, fun no => no⟩⟩⟩)
  | resumePendingSagas limit =>
    exact serve_safe (resumePendingSagas_safe plain fun _ _ found _ _ _ =>
      saga _ (rt.scan_text found.tenantID))
  | reserve req => exact traffic.elim
  | release req => exact traffic.elim
  | allocateReservation req => exact traffic.elim
  | sweepOnce batch =>
    exact serve_safe (sweepOnce_safe plain fun _ _ _ => ⟨fun _ no => no, fun _ _ no => no⟩)

theorem handler_allocatesFirst {h : Handler} (within : column 255 o = o)
    (traffic : Traffic t o key rt h) :
    AllocatesFirst t o key (h.code rt) := by
  have plain : ∀ op, special op = false → ¬Confirms t o op := by
    intro op h
    cases op with
    | transition tenantID u orderID state step errMsg => cases h
    | _ => exact fun confirms => confirms
  have saga : ∀ input : SagaInput, rt.scan input.tenantID = some input.tenantUUID →
      (input.tenantUUID = t → input.orderID = o → column 255 input.idemKey = key) →
      SagaSafe rt (AnswersUnallocated t o key) (Confirms t o) input := by
    refine fun input coherent own => ⟨coherent, fun _ _ _ _ no => no, fun _ _ no => no,
      fun _ _ _ other _ no => other no.2.2,
      ⟨fun _ _ no => no, fun _ _ _ _ => ⟨fun no => no, fun no => no⟩⟩, fun _ _ no => no, ?_,
      fun _ no => no⟩
    rintro ⟨count, given⟩ step msg ⟨same, here, -⟩
    obtain ⟨fits, other⟩ := given count rfl
    have whole : column 255 (allocateKey input.idemKey) = allocateKey input.idemKey :=
      allocateKey_stored fits
    exact other same (allocateKey_inj.2 ((column_of_append whole).symm.trans (own same here)))
  cases h with
  | createOrder req =>
    refine serve_safe (createOrder_safe plain (fun _ _ no => no) fun u parse _ =>
      saga _ parse fun same here => ?_)
    exact (traffic (same ▸ parse)).1 ((congrArg (column 255) here).trans within)
  | cancelOrder req =>
    exact serve_safe (cancelOrder_safe plain fun _ _ _ _ _ => ⟨fun _ _ _ other _ no => other no.2.2,
      ⟨fun _ _ no => no, fun _ _ _ _ => ⟨fun no => no, fun no => no⟩⟩⟩)
  | resumePendingSagas limit =>
    exact serve_safe (resumePendingSagas_safe plain fun sagas listed found member _ _ =>
      saga _ (rt.scan_text found.tenantID) (listed sagas rfl found member))
  | reserve req => exact traffic.elim
  | release req => exact traffic.elim
  | allocateReservation req => exact traffic.elim
  | sweepOnce batch =>
    exact serve_safe (sweepOnce_safe plain fun _ _ _ => ⟨fun _ no => no, fun _ _ no => no⟩)

end Handlers

def KeyStored (t : UUID) (key : String) (s : Stack) : Prop :=
  column 255 key = key ∧ Recorded reservationKeys s.reservation t key

abbrev IsReserved (t : UUID) (key : String) (s : Stack) : Prop := KeyStored t (reserveKey key) s

abbrev IsAllocated (t : UUID) (key : String) (s : Stack) : Prop := KeyStored t (allocateKey key) s

structure Sound (t : UUID) (o key : String) (s : Stack) : Prop where
  numbered : Numbered s.reservation
  listed : Listed s.order
  keys : ∀ o' saga, s.order.sagas t o' = some saga →
    (o' = o ↔ column 255 saga.idempotencyKey = key)
  noLines : s.order.sagas t o = none → s.order.orderLines t o = []
  cut : (s.order.orderLines t o).map storedLine = s.order.orderLines t o
  unreserved : ¬IsReserved t key s → rowsOf s t o = []
  reserved : IsReserved t key s → s.order.sagas t o ≠ none ∧
    ((rowsOf s t o).map rowLine).Perm (stockLines (s.order.orderLines t o))
  allocated : IsAllocated t key s → IsReserved t key s ∧
    ∀ row ∈ rowsOf s t o, row.status = .allocated
  confirmed : sagaState s t o = some .confirmed → IsAllocated t key s

section Steps

variable {rt : Runtime} {me : ℕ} {op : Op} {c : Choice} {s s' : Stack} {r : Resp op} {t : UUID}
  {o key : String}

theorem stored_self (t : UUID) (o : String) (s : Stack) :
    StoredAs t o s (s.order.orderLines t o) := fun _ => .refl _

theorem exec_storedAs (h : exec rt me op c s = some (r, s')) {lines : List OrderLine}
    (stored : StoredAs t o s' lines) : StoredAs t o s lines := by
  intro there
  rcases exec_lines h t o with ⟨same, exists_⟩ | ⟨req, total, -, -, none, -, -⟩
  · rw [← same]
    exact stored fun none => there (exists_.1 none)
  · exact absurd none there

theorem keyStored_mono (h : exec rt me op c s = some (r, s')) (stored : KeyStored t key s) :
    KeyStored t key s' := ⟨stored.1, (exec_recorded h t key).1 stored.2⟩

theorem keyStored_claims (h : exec rt me op c s = some (r, s')) (before : ¬KeyStored t key s)
    (now : KeyStored t key s') : claims op = some (t, key) := by
  have claim := ((exec_recorded h t key).2 now.2).resolve_left fun old => before ⟨now.1, old⟩
  rwa [now.1] at claim

theorem created_lines {req : CreateOrderRequest} {total : Int64}
    (h : exec rt me (.createOrderRow t req total) c s = some (.ok (), s'))
    (noLines : s.order.sagas t (column 255 req.orderId) = none →
      s.order.orderLines t (column 255 req.orderId) = []) :
    s'.order.sagas t (column 255 req.orderId) ≠ none ∧
      s'.order.orderLines t (column 255 req.orderId) = req.lines.map storedLine := by
  rcases orderTx_some h with ⟨_, db, -, run, rfl⟩ | ⟨⟨e, eq⟩, -⟩
  · obtain ⟨ok, rfl⟩ := createOrderRow_ok_iff.1 run
    simp [orderCreated, noLines ok.noSaga]
  · cases eq

theorem found_lines {tenantID : String} {found lines : List OrderLine}
    (h : exec rt me (.getOrderLines tenantID t o) c s = some (.ok found, s'))
    (noLines : s.order.sagas t o = none → s.order.orderLines t o = [])
    (stored : StoredAs t o s' lines) : found = [] ∨ found.Perm lines := by
  rcases orderTx_some h with ⟨answer, db, eq, run, -⟩ | ⟨⟨e, eq⟩, -⟩
  · cases eq
    have answered := (getLines_ok_iff.1 run).2.1
    by_cases there : s.order.sagas t o = none
    · rw [noLines there] at answered
      exact .inl (answered.trans (List.perm_nil.1 (rt.rows_perm [])))
    · rw [answered]
      exact .inr ((rt.rows_perm _).trans (exec_storedAs h stored there))
  · cases eq

variable (h : exec rt me op c s = some (r, s'))

include h

theorem exec_answersOrder (sound : Sound t o key s)
    {lines : List OrderLine} (stored : StoredAs t o s' lines) :
    AnswersOrder t o key lines op r := by
  cases op with
  | createOrderRow u req total =>
    rintro rfl rfl rfl
    obtain ⟨there, created⟩ := created_lines h sound.noLines
    have perm := (stored there).map storedLine
    rwa [created, storedLine_stored] at perm
  | getOrderLines tenantID u orderID =>
    rintro rfl rfl found rfl
    exact (found_lines h sound.noLines stored).imp id fun perm => perm.map storedLine
  | transition tenantID u orderID state step errMsg =>
    rintro rfl
    rcases exec_transition h with ⟨row, saga, -, -, found, -, -⟩ | ⟨⟨e, eq⟩, -⟩
    · exact sound.listed.within u orderID saga found
    · cases eq
  | getResumableSagas limit =>
    rintro sagas rfl saga member
    simp only [exec] at h
    split at h
    · simp at h
    · have answered := congrArg Prod.fst (Option.some.inj h)
      rcases (getResumableSagas limit).commit_cases s.order with ⟨got, db, run, eq⟩ | ⟨e, -, eq⟩
      · rw [eq] at answered
        cases answered
        rw [(getResumable_ok_iff.1 run).2.1] at member
        have row := (resumableSagas_spec sound.listed).2 saga (List.mem_of_mem_take member)
        refine ⟨sound.listed.within _ _ saga row.1, ?_⟩
        rintro rfl
        exact sound.keys saga.orderID saga row.1
      · rw [eq] at answered
        cases answered
  | _ => trivial

theorem exec_answersUnreserved (not_ : ¬IsReserved t key s') : AnswersUnreserved t key op r := by
  cases op with
  | insertReservations u req expiresAt =>
    rintro rfl same stored
    have fits := insert_fits h stored
    rw [same] at fits
    refine not_ ⟨reserveKey_stored fits, ?_⟩
    rw [← same]
    exact insert_answered (same ▸ reserveKey_ne key) h stored
  | _ => trivial

theorem exec_answersUnallocated (sound : Sound t o key s)
    (not_ : ¬IsAllocated t key s') : AnswersUnallocated t o key op r := by
  cases op with
  | allocate u req =>
    rintro count rfl
    have fits := allocate_fits h
    refine ⟨fits, ?_⟩
    rintro rfl same
    rw [same] at fits
    refine not_ ⟨allocateKey_stored fits, ?_⟩
    rw [← same]
    exact allocate_answered (same ▸ allocateKey_ne key) h
  | getResumableSagas limit =>
    have answers := exec_answersOrder h sound (stored_self t o s')
    exact fun sagas answer saga member same here =>
      ((answers sagas answer saga member).2 same).1 here
  | _ => trivial

theorem exec_newlyReserved (fits : ∀ lines, StoredAs t o s lines → Fitting t o key lines op)
    (before : ¬IsReserved t key s) (now : IsReserved t key s') :
    ∃ req expiresAt, op = .insertReservations t req expiresAt ∧ column 255 req.orderId = o ∧
      keyFits req.idempotencyKey = true ∧
      s'.reservation.reservations = s.reservation.reservations ++
        newRows t req.orderId expiresAt s.reservation.nextID req.items := by
  have fit := fits _ (stored_self t o s)
  have claim := keyStored_claims h before now
  rcases exec_reservation_cases h with same | write
  · exact absurd (show IsReserved t key s from ⟨now.1, same ▸ now.2⟩) before
  · generalize after : s'.reservation = db at write
    cases write with
    | @inserted u req expiresAt first new accepted =>
      simp only [claims, Option.some.injEq, Prod.mk.injEq] at claim
      obtain ⟨rfl, same⟩ := claim
      have here := (fit rfl accepted).1.1 same
      have old := keyed_rows u req.idempotencyKey (rt.payloadHash (.reserve req)) s.reservation
      refine ⟨req, expiresAt, rfl, here, accepted, ?_⟩
      rw [ReservationSteps.inserted, old.1, old.2]
    | @nothingHeld u req new none =>
      simp only [claims, Option.some.injEq, Prod.mk.injEq] at claim
      exact absurd claim.2 (fit claim.1).1
    | @released u req rows new =>
      simp only [claims, Option.some.injEq, Prod.mk.injEq] at claim
      exact absurd claim.2 (fit claim.1).1
    | @allocated u req count new accepted =>
      simp only [claims, Option.some.injEq, Prod.mk.injEq] at claim
      exact absurd claim.2 (fit claim.1 accepted).2
    | expired => cases claim
    | noted => cases claim

theorem exec_newlyAllocated (fits : ∀ lines, StoredAs t o s lines → Fitting t o key lines op)
    (before : ¬IsAllocated t key s) (now : IsAllocated t key s') :
    ∃ req, op = .allocate t req ∧ req.orderId = o ∧ keyFits req.idempotencyKey = true ∧
      column 255 req.idempotencyKey = allocateKey key ∧
      s'.reservation.reservations = ReservationDb.mark s.reservation
        ((activeRows rt t o s.locked s.reservation).map (·.id)) .allocated := by
  have fit := fits _ (stored_self t o s)
  have claim := keyStored_claims h before now
  rcases exec_reservation_cases h with same | write
  · exact absurd (show IsAllocated t key s from ⟨now.1, same ▸ now.2⟩) before
  · generalize after : s'.reservation = db at write
    cases write with
    | @inserted u req expiresAt first new accepted =>
      simp only [claims, Option.some.injEq, Prod.mk.injEq] at claim
      exact absurd claim.2 (fit claim.1 accepted).2.1
    | @nothingHeld u req new none =>
      simp only [claims, Option.some.injEq, Prod.mk.injEq] at claim
      exact absurd claim.2 (fit claim.1).2
    | @released u req rows new =>
      simp only [claims, Option.some.injEq, Prod.mk.injEq] at claim
      exact absurd claim.2 (fit claim.1).2
    | @allocated u req count new accepted =>
      simp only [claims, Option.some.injEq, Prod.mk.injEq] at claim
      obtain ⟨rfl, same⟩ := claim
      have here := (fit rfl accepted).1.1 same
      have old := keyed_rows u req.idempotencyKey (rt.payloadHash (.allocateReservation req))
        s.reservation
      refine ⟨req, rfl, here, accepted, same, ?_⟩
      rw [ReservationSteps.allocated, ReservationSteps.marked, ReservationDb.mark, old.1, here]
      rfl
    | expired => cases claim
    | noted => cases claim

omit h in
theorem reserved_repeats (fits : ∀ lines, StoredAs t o s lines → Fitting t o key lines op)
    (reserved : IsReserved t key s) : ∀ req expiresAt, op = .insertReservations t req expiresAt →
      column 255 req.orderId = o → keyFits req.idempotencyKey = true →
        Recorded reservationKeys s.reservation t req.idempotencyKey := by
  rintro req expiresAt rfl here accepted
  have same := (fits _ (stored_self t o s) rfl accepted).1.2 here
  refine recorded_column ?_ reserved.2
  rw [same, reserved.1]

theorem exec_keys (sound : Sound t o key s)
    (fits : ∀ lines, StoredAs t o s lines → Fitting t o key lines op) (o' : String)
    (saga : SagaInstance) (found : s'.order.sagas t o' = some saga) :
    o' = o ↔ column 255 saga.idempotencyKey = key := by
  have fit := fits _ (stored_self t o s)
  rcases exec_order_cases h with same | write
  · exact sound.keys o' saga (same ▸ found)
  · generalize s'.order = db at write found
    cases write with
    | @created u req total ok =>
      simp only [orderCreated] at found
      by_cases same : t = u ∧ o' = column 255 req.orderId
      · obtain ⟨rfl, rfl⟩ := same
        rw [setCell_self] at found
        cases found
        rw [newSaga, column_column]
        exact fit rfl
      · rw [setCell_other _ _ same] at found
        exact sound.keys o' saga found
    | @moved tenantID u orderID state step errMsg row old order there fits' =>
      simp only [transitioned] at found
      by_cases same : t = u ∧ o' = orderID
      · obtain ⟨rfl, rfl⟩ := same
        rw [setCell_self] at found
        cases found
        exact sound.keys o' old there
      · rw [setCell_other _ _ same] at found
        exact sound.keys o' saga found
    | recorded order => exact sound.keys o' saga found

theorem exec_confirmed (now : sagaState s' t o = some .confirmed) :
    sagaState s t o = some .confirmed ∨ Confirms t o op := by
  unfold sagaState at now ⊢
  rcases exec_order_cases h with same | write
  · exact .inl (same ▸ now)
  · generalize s'.order = db at write now
    cases write with
    | @created u req total ok =>
      simp only [orderCreated] at now
      by_cases same : t = u ∧ o = column 255 req.orderId
      · obtain ⟨rfl, rfl⟩ := same
        simp [newSaga] at now
      · rw [setCell_other _ _ same] at now
        exact .inl now
    | @moved tenantID u orderID state step errMsg row old order there fits =>
      simp only [transitioned] at now
      by_cases same : t = u ∧ o = orderID
      · obtain ⟨rfl, rfl⟩ := same
        simp only [setCell_self, movedTo, Option.map_some, Option.some.injEq] at now
        exact .inr ⟨rfl, rfl, now⟩
      · rw [setCell_other _ _ same] at now
        exact .inl now
    | recorded order => exact .inl now

theorem exec_reserved (sound : Sound t o key s)
    (fits : ∀ lines, StoredAs t o s lines → Fitting t o key lines op)
    (now : IsReserved t key s') : s'.order.sagas t o ≠ none ∧
      ((rowsOf s' t o).map rowLine).Perm (stockLines (s'.order.orderLines t o)) := by
  by_cases before : IsReserved t key s
  · obtain ⟨there, lines⟩ := sound.reserved before
    obtain ⟨f, rows⟩ := exec_rowsOf h (reserved_repeats fits before)
    rcases exec_lines h t o with ⟨same, exists_⟩ | ⟨req, total, -, -, none, -, -⟩
    · refine ⟨fun none => there (exists_.1 none), ?_⟩
      rw [rows, rowLine_withStatus, same]
      exact lines
    · exact absurd none there
  · obtain ⟨req, expiresAt, rfl, here, accepted, rows⟩ := exec_newlyReserved h fits before now
    have items : ∀ lines, StoredAs t o s lines →
        ((req.items.map itemLine).map cutLine).Perm (stockLines (lines.map storedLine)) :=
      fun lines stored => (fits lines stored rfl accepted).2.2 here
    have there : s.order.sagas t o ≠ none := by
      -- Of an order that does not exist, any lines would have to be the lines.
      intro none
      have zero := (items [] fun some_ => absurd none some_).length_eq
      have one := (items [⟨"", "", 0, 0⟩] fun some_ => absurd none some_).length_eq
      simp only [stockLines, List.map_nil, List.map_cons, List.length_nil, List.length_cons]
        at zero one
      omega
    have order : s'.order = s.order := (exec_frame h).order rfl
    have none : (s.reservation.reservations.filter fun row =>
        row.tenantID = t ∧ row.orderID = o) = [] := sound.unreserved before
    have own := items _ (stored_self t o s)
    rw [sound.cut] at own
    rw [order, rowsOf_append rows, if_pos ⟨rfl, here⟩, none, List.nil_append, newRows_lines]
    exact ⟨there, own⟩

theorem exec_allAllocated (sound : Sound t o key s)
    (fits : ∀ lines, StoredAs t o s lines → Fitting t o key lines op)
    (first : ¬IsReserved t key s → ¬AllocatesOrder t key op)
    (held : ∀ req, op = .allocate t req → req.orderId = o →
      ¬Recorded reservationKeys s.reservation t req.idempotencyKey →
        ∀ row ∈ rowsOf s t o, row.status = .active ∧ row.id ∉ s.locked)
    (spares : ∀ id, statusOf s id = some .allocated → ¬Touches id op)
    (now : IsAllocated t key s') : IsReserved t key s' ∧
      ∀ row ∈ rowsOf s' t o, row.status = .allocated := by
  have mono : IsReserved t key s → IsReserved t key s' := keyStored_mono h
  by_cases before : IsAllocated t key s
  · obtain ⟨reserved, all⟩ := sound.allocated before
    obtain ⟨f, rows⟩ := exec_rowsOf h (reserved_repeats fits reserved)
    have numbered := exec_numbered h sound.numbered
    refine ⟨mono reserved, fun row member => ?_⟩
    have there := (mem_rowsOf.1 member).1
    rw [rows] at member
    obtain ⟨old, was, rfl⟩ := List.mem_map.1 member
    have done : statusOf s old.id = some .allocated :=
      (statusOf_eq_iff sound.numbered).2 ⟨old, (mem_rowsOf.1 was).1, rfl, all old was⟩
    have stays := exec_stays h sound.numbered done (spares old.id done)
    obtain ⟨other, found, same, status⟩ := (statusOf_eq_iff numbered).1 stays
    rw [← numbered.unique found there same]
    exact status
  · obtain ⟨req, rfl, here, accepted, claimed, rows⟩ := exec_newlyAllocated h fits before now
    have reserved : IsReserved t key s := not_not.1 fun no => first no ⟨rfl, accepted, claimed⟩
    have new : ¬Recorded reservationKeys s.reservation t req.idempotencyKey := fun old =>
      before ⟨now.1, recorded_column (by rw [claimed, now.1]) old⟩
    refine ⟨mono reserved, fun row member => ?_⟩
    obtain ⟨there, tenant, order⟩ := mem_rowsOf.1 member
    rw [rows, mem_mark] at there
    obtain ⟨old, was, rfl⟩ := there
    have own : old ∈ rowsOf s t o := by
      refine mem_rowsOf.2 ⟨was, ?_⟩
      split at tenant
      · exact ⟨tenant, by split at order <;> exact order⟩
      · exact ⟨tenant, by split at order <;> exact order⟩
    have active := held req rfl here new old own
    have listed : old ∈ activeRows rt t o s.locked s.reservation := by
      have parts := mem_rowsOf.1 own
      exact mem_activeRows.2 ⟨was, parts.2.1, parts.2.2, active⟩
    rw [if_pos (List.mem_map_of_mem listed)]
    rfl

theorem exec_sound (sound : Sound t o key s)
    (fits : ∀ lines, StoredAs t o s lines → Fitting t o key lines op)
    (first : ¬IsReserved t key s → ¬AllocatesOrder t key op)
    (confirms : ¬IsAllocated t key s → ¬Confirms t o op)
    (held : ∀ req, op = .allocate t req → req.orderId = o →
      ¬Recorded reservationKeys s.reservation t req.idempotencyKey →
        ∀ row ∈ rowsOf s t o, row.status = .active ∧ row.id ∉ s.locked)
    (spares : ∀ id, statusOf s id = some .allocated → ¬Touches id op) : Sound t o key s' where
  numbered := exec_numbered h sound.numbered
  listed := exec_listed h sound.listed
  keys := exec_keys h sound fits
  noLines none := by
    rcases exec_lines h t o with ⟨same, exists_⟩ | ⟨req, total, -, -, -, some_, -⟩
    · rw [same]
      exact sound.noLines (exists_.1 none)
    · exact absurd none some_
  cut := by
    rcases exec_lines h t o with ⟨same, -⟩ | ⟨req, total, -, -, -, -, lines⟩
    · rw [same, sound.cut]
    · rw [lines, List.map_append, sound.cut, storedLine_stored]
  unreserved no := by
    have before : ¬IsReserved t key s := fun yes => no (keyStored_mono h yes)
    cases exec_rows h with
    | same rows next =>
      rw [rowsOf, rows]
      exact sound.unreserved before
    | marked ids status by_ new rows next =>
      have notInsert : ∀ req expiresAt, op = .insertReservations t req expiresAt →
          column 255 req.orderId = o → keyFits req.idempotencyKey = true →
            Recorded reservationKeys s.reservation t req.idempotencyKey := by
        rintro req expiresAt rfl
        cases by_
      obtain ⟨f, eq⟩ := exec_rowsOf h notInsert
      rw [eq, sound.unreserved before]
      rfl
    | inserted u req expiresAt by_ new recorded rows next accepted =>
      have none : (s.reservation.reservations.filter fun row =>
          row.tenantID = t ∧ row.orderID = o) = [] := sound.unreserved before
      have other : ¬(u = t ∧ column 255 req.orderId = o) := by
        rintro ⟨rfl, here⟩
        subst by_
        have same := (fits _ (stored_self u o s) rfl accepted).1.2 here
        have keyed : req.idempotencyKey ≠ "" := by
          intro empty
          rw [empty] at same
          exact reserveKey_ne key same.symm
        have whole : column 255 (reserveKey key) = reserveKey key := by
          rw [← same, column_column]
        exact no ⟨whole, recorded_column (whole.trans same.symm) (recorded keyed)⟩
      rw [rowsOf_append rows, if_neg other, none]
      rfl
  reserved := exec_reserved h sound fits
  allocated := exec_allAllocated h sound fits first held spares
  confirmed now := by
    have mono : IsAllocated t key s → IsAllocated t key s' := keyStored_mono h
    rcases exec_confirmed h now with before | confirm
    · exact mono (sound.confirmed before)
    · exact mono (not_not.1 fun no => confirms no confirm)

end Steps

def allHeld (t : UUID) (o : String) (pool : StackPool) : Move Handler Choice → Bool
  | .step i _ =>
    match pool.threads i with
    | some (.step (.allocate u req) _) =>
      !decide (u = t ∧ req.orderId = o) ||
        decide (Recorded reservationKeys pool.state.reservation u req.idempotencyKey) ||
        (rowsOf pool.state t o).all fun row =>
          decide (row.status = .active ∧ row.id ∉ pool.state.locked)
    | _ => true
  | _ => true

def Starts (rt : Runtime) (t : UUID) (o key : String) (_ : StackPool) :
    Move Handler Choice → Prop
  | .spawn _ h => Traffic t o key rt h
  | _ => True

def Undisturbed (rt : Runtime) (t : UUID) (o key : String) (pool : StackPool)
    (m : Move Handler Choice) : Prop :=
  (Starts rt t o key pool m ∧ NoStaleSweep rt pool m) ∧ allHeld t o pool m = true

structure Inv (t : UUID) (o key : String) (pool : StackPool) : Prop where
  base : AllocationFinal.Inv pool
  sound : Sound t o key pool.state
  keeping : ∀ i p, pool.threads i = some p → ∀ lines, StoredAs t o pool.state lines →
    Keeping t o key lines p
  reservesFirst : ∀ i p, pool.threads i = some p → ¬IsReserved t key pool.state →
    ReservesFirst t key p
  allocatesFirst : ∀ i p, pool.threads i = some p → ¬IsAllocated t key pool.state →
    AllocatesFirst t o key p

section Moves

variable {rt : Runtime} {t : UUID} {o key : String} {pool after : StackPool}
  {m : Move Handler Choice}

theorem held_of_allHeld {i : ℕ} {c : Choice} {op : Op} {k : Resp op → Code Unit}
    (at_ : pool.threads i = some (.step op k)) (held : allHeld t o pool (.step i c) = true) :
    ∀ req, op = .allocate t req → req.orderId = o →
      ¬Recorded reservationKeys pool.state.reservation t req.idempotencyKey →
        ∀ row ∈ rowsOf pool.state t o, row.status = .active ∧ row.id ∉ pool.state.locked := by
  rintro req rfl here new row member
  simp only [allHeld, at_, here, and_self, decide_true, Bool.not_true, Bool.false_or, new,
    decide_false, List.all_eq_true, decide_eq_true_eq] at held
  exact held row member

theorem next_inv (plainKey : PlainKey key) (within : column 255 o = o) (inv : Inv t o key pool)
    (cond : Undisturbed rt t o key pool m)
    (next : pool.next (machine rt) (Handler.code rt) m = some after) : Inv t o key after := by
  have base := AllocationFinal.next_inv inv.base cond.1.2 next
  rcases Pool.next_cases next with ⟨i, x, rfl, -, rfl⟩ | ⟨i, c, op, k, r, s', rfl, at_, run, rfl⟩ |
      ⟨i, rfl, -, rfl⟩
  · have traffic : Traffic t o key rt x := cond.1.1
    refine ⟨base, inv.sound, ?_, ?_, ?_⟩
    · exact Pool.set_some (fun lines _ => handler_keeping plainKey traffic lines) inv.keeping
    · exact Pool.set_some (fun _ => handler_reservesFirst traffic) inv.reservesFirst
    · exact Pool.set_some (fun _ => handler_allocatesFirst within traffic) inv.allocatesFirst
  · have fits : ∀ lines, StoredAs t o pool.state lines → Fitting t o key lines op :=
      fun lines stored => not_not.1 (inv.keeping i _ at_ lines stored).1
    have sound := exec_sound run inv.sound fits (fun no => (inv.reservesFirst i _ at_ no).1)
      (fun no => (inv.allocatesFirst i _ at_ no).1) (held_of_allHeld at_ cond.2)
      fun id done => (inv.base.spares i _ at_ id done).1
    have reserved : ¬IsReserved t key s' → ¬IsReserved t key pool.state :=
      fun no yes => no (keyStored_mono run yes)
    have allocated : ¬IsAllocated t key s' → ¬IsAllocated t key pool.state :=
      fun no yes => no (keyStored_mono run yes)
    refine ⟨base, sound, ?_, ?_, ?_⟩
    · exact Pool.set_some
        (fun lines stored => (inv.keeping i _ at_ lines (exec_storedAs run stored)).2 r
          (exec_answersOrder run inv.sound stored))
        fun j q old lines stored => inv.keeping j q old lines (exec_storedAs run stored)
    · exact Pool.set_some
        (fun no => (inv.reservesFirst i _ at_ (reserved no)).2 r (exec_answersUnreserved run no))
        fun j q old no => inv.reservesFirst j q old (reserved no)
    · exact Pool.set_some
        (fun no => (inv.allocatesFirst i _ at_ (allocated no)).2 r
          (exec_answersUnallocated run inv.sound no))
        fun j q old no => inv.allocatesFirst j q old (allocated no)
  · refine ⟨base, ?_, ?_, ?_, ?_⟩
    · exact ⟨inv.sound.numbered, inv.sound.listed, inv.sound.keys, inv.sound.noLines,
        inv.sound.cut, inv.sound.unreserved, inv.sound.reserved, inv.sound.allocated,
        inv.sound.confirmed⟩
    · exact Pool.set_none inv.keeping
    · exact Pool.set_none inv.reservesFirst
    · exact Pool.set_none inv.allocatesFirst

theorem listed_run {start : Stack} {moves : List (Move Handler Choice)}
    {cond : StackPool → Move Handler Choice → Prop} (listed : Listed start.order)
    (keeps : Pool.Keeps (machine rt) (Handler.code rt) cond moves (idle start))
    (run : Pool.run (machine rt) (Handler.code rt) moves (idle start) = some pool) :
    Listed pool.state.order := by
  refine Pool.run_invariant (fun pool => Listed pool.state.order)
    (fun pool m after old _ next => ?_)
    keeps run listed
  rcases Pool.next_cases next with ⟨i, x, rfl, -, rfl⟩ | ⟨i, c, op, k, r, s', rfl, at_, run, rfl⟩ |
      ⟨i, rfl, -, rfl⟩
  · exact old
  · exact exec_listed run old
  · exact old

end Moves

structure Unknown (t : UUID) (o key : String) (s : Stack) : Prop where
  numbered : Numbered s.reservation
  listed : Listed s.order
  saga : s.order.sagas t o = none
  lines : s.order.orderLines t o = []
  others : ∀ o' saga, s.order.sagas t o' = some saga → column 255 saga.idempotencyKey ≠ key
  rows : rowsOf s t o = []
  reserve : ¬IsReserved t key s
  allocate : ¬IsAllocated t key s

theorem Unknown.sound {t : UUID} {o key : String} {s : Stack} (h : Unknown t o key s) :
    Sound t o key s where
  numbered := h.numbered
  listed := h.listed
  keys o' saga found := by
    refine ⟨?_, fun same => absurd same (h.others o' saga found)⟩
    rintro rfl
    rw [h.saga] at found
    cases found
  noLines _ := h.lines
  cut := by rw [h.lines, List.map_nil]
  unreserved _ := h.rows
  reserved yes := absurd yes h.reserve
  allocated yes := absurd yes h.allocate
  confirmed yes := by
    unfold sagaState at yes
    rw [h.saga] at yes
    cases yes

/-- In every undisturbed run, an order that is confirmed owns its reservations. -/
theorem confirmed_owns (rt : Runtime) (t : UUID) (o key : String) (plainKey : PlainKey key)
    (start : Stack) (unknown : Unknown t o key start) (moves : List (Move Handler Choice))
    (pool : StackPool)
    (keeps : Pool.Keeps (machine rt) (Handler.code rt) (Undisturbed rt t o key) moves (idle start))
    (run : Pool.run (machine rt) (Handler.code rt) moves (idle start) = some pool)
    (confirmed : sagaState pool.state t o = some .confirmed) : Owns pool.state t o := by
  have within : column 255 o = o := by
    obtain ⟨saga, found, -⟩ := Option.map_eq_some_iff.1 confirmed
    exact (listed_run unknown.listed keeps run).within t o saga found
  have start : Inv t o key (idle start) :=
    ⟨AllocationFinal.idle_inv unknown.numbered, unknown.sound, fun i p h => (by cases h),
      fun i p h => (by cases h), fun i p h => (by cases h)⟩
  have inv : Inv t o key pool := Pool.run_invariant (Inv t o key)
    (fun _ _ _ inv cond next => next_inv plainKey within inv cond next) keeps run start
  obtain ⟨reserved, all⟩ := inv.sound.allocated (inv.sound.confirmed confirmed)
  exact ⟨(inv.sound.reserved reserved).2, all⟩

theorem plainKey_of_head {key : String} (h : key.toList.head? ≠ some 'c') (some_ : key ≠ "") :
    PlainKey key := by
  have head : ∀ rest : String, (key ++ rest).toList.head? = key.toList.head? := by
    intro rest
    have nonempty : key.toList ≠ [] := fun empty => some_ (String.toList_eq_nil_iff.1 empty)
    rw [String.toList_append, List.head?_append_of_ne_nil _ nonempty]
  have first : ∀ tenant order,
      (column 255 (compensationKey tenant order)).toList.head? = some 'c' := by
    intro tenant order
    unfold column
    split
    · simp [compensationKey, String.toList_append]
    · simp [compensationKey, String.toList_append]
  refine fun tenant order => ⟨fun same => h ?_, fun same => h ?_⟩
  · rw [← head ":reserve", ← first tenant order, same]
    rfl
  · rw [← head ":allocate", ← first tenant order, same]
    rfl

theorem confirmed_owns_alone : ∃ pool,
    Pool.run (machine (reference [])) (Handler.code (reference [])) confirmedOrder
      (idle sampleStack) = some pool ∧
    sagaState pool.state sampleTenant "ord-1" = some .confirmed ∧
    Owns pool.state sampleTenant "ord-1" := by
  have ends : (Pool.run (machine (reference [])) (Handler.code (reference [])) confirmedOrder
        (idle sampleStack)).map (fun pool => sagaState pool.state sampleTenant "ord-1") =
          some (some .confirmed) ∧
      Pool.checks (machine (reference [])) (Handler.code (reference []))
        (allHeld sampleTenant "ord-1") confirmedOrder (idle sampleStack) = true := by
    rw [reference_recognizing]
    decide +kernel
  obtain ⟨reached, held⟩ := ends
  obtain ⟨pool, run, confirmed⟩ := Option.map_eq_some_iff.1 reached
  have unknown : Unknown sampleTenant "ord-1" "key-1" sampleStack :=
    ⟨numbered_empty, listed_empty, rfl, rfl, fun o' saga found => (by cases found), rfl,
      by unfold IsReserved KeyStored; decide, by unfold IsAllocated KeyStored; decide⟩
  have own : ∀ m ∈ confirmedOrder, m.thread = 0 := by simp [confirmedOrder, Move.thread]
  have starts : ∀ m ∈ confirmedOrder, ∀ pool,
      Starts (reference []) sampleTenant "ord-1" "key-1" pool m := by
    intro m member pool
    rcases List.mem_cons.1 member with rfl | step
    · exact fun _ => by decide
    · rw [List.eq_of_mem_replicate step]
      trivial
  have keeps : Pool.Keeps (machine (reference [])) (Handler.code (reference []))
      (Undisturbed (reference []) sampleTenant "ord-1" "key-1") confirmedOrder (idle sampleStack) :=
    Pool.keeps_and (Pool.keeps_and (Pool.keeps_of_moves starts)
      (Pool.keeps_alone (allocatesBeside_alone _) (fun _ _ => rfl) own)) (Pool.keeps_of_checks held)
  exact ⟨pool, run, confirmed, confirmed_owns (reference []) sampleTenant "ord-1" "key-1"
    (plainKey_of_head (by decide) (by decide)) sampleStack unknown confirmedOrder pool keeps run
    confirmed⟩

/-- Another order holds units at the same location; the rows of this one expire
between its reservation and its allocation. -/
def expiredBeforeAllocation : List (Move Handler Choice) :=
  .spawn 0 (.createOrder (sampleOrder "ord-2" "key-2")) :: List.replicate 9 (.step 0 .healthy) ++
    .stop 0 :: .spawn 0 (.createOrder (sampleOrder "ord-1" "key-1")) ::
      List.replicate 10 (.step 0 .healthy) ++
    [.spawn 1 (.sweepOnce 1), .step 1 late, .step 1 { Choice.healthy with picks := [1] },
      .step 1 pickFirst] ++ List.replicate 5 (.step 1 .healthy) ++
    List.replicate 11 (.step 0 .healthy)

/-- The allocation finds nothing and succeeds, and the order is confirmed on the
other one's units. -/
theorem confirmed_expired :
    (Pool.run (machine (reference [])) (Handler.code (reference [])) expiredBeforeAllocation
      (idle sampleStack)).map (fun pool => (sagaState pool.state sampleTenant "ord-1",
        (rowsOf pool.state sampleTenant "ord-1").map (·.status))) =
      some (some .confirmed, [.expired]) := by
  rw [reference_recognizing]
  decide +kernel

end Taper.ConfirmedOwns
