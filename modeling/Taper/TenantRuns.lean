import Taper.StockTenants
import Taper.ReservationTenants
import Mathlib.Data.List.FinRange

set_option autoImplicit false

/-!
# What a tenant sees of the others

A tenant's rows and answers in a run with other tenants are compared with the
run in which the tenant is alone; the row numbers and the times differ.
-/
namespace Taper.TenantRuns
open Messages Platform StockTables StockHandlers ReservationTables ReservationRuns
open ServiceStack Services Isolation
open StockTenants (SameStock StockServed execTx_served)
open ReservationTenants (Naming Twin SameRows KeptRows Positional)

def stackParts : Parts UUID Naming Stack where
  Alike u w s s' := SameStock u s.stock s'.stock ∧ SameRows u w s.reservation s'.reservation
  Kept v s t := SameStock v s.stock t.stock ∧ KeptRows v s.reservation t.reservation
  kept_refl _ _ := ⟨.refl _ _, rfl, rfl, rfl⟩
  kept_trans h h' :=
    ⟨h.1.trans h'.1, ReservationTenants.reservationParts.kept_trans h.2 h'.2⟩

def SameChoice (c c' : Choice) : Prop := c.fault = c'.fault ∧ c.pass = c'.pass

def Replied {α β : Type} (u : UUID) (R : α → β → Prop) (w : Naming) (s s' : Stack)
    (a : Except Failure α) (b : Except Failure β) (t t' : Stack) : Prop :=
  Served stackParts u (Answers R) w s (a, t) (b, t') ∧ t.openTxs = s.openTxs ∧
    t'.openTxs = s'.openTxs

section Operations

variable {rt : Runtime} {u : UUID} {w : Naming} {s s' : Stack} {α β : Type}
  {R : α → β → Prop}

theorem replied_refused (alike : stackParts.Alike u w s s') {a : Except Failure α}
    {b : Except Failure β} (answer : Answers R a b) : Replied u R w s s' a b s s' :=
  ⟨served_refused alike answer, rfl, rfl⟩

theorem replied_after {w' : Naming} {t t' r r' : Stack} {a : Except Failure α}
    {b : Except Failure β} (le : w ≤ w') (kept : ∀ v, v ≠ u → stackParts.Kept v s t)
    (opened : t.openTxs = s.openTxs) (opened' : t'.openTxs = s'.openTxs)
    (next : Replied u R w' t t' a b r r') : Replied u R w s s' a b r r' :=
  ⟨served_after le kept next.1, next.2.1.trans opened, next.2.2.trans opened'⟩

theorem stockCall_replied {call : StockDb → Except Failure α × StockDb}
    {call' : StockDb → Except Failure β × StockDb} {c c' : Choice} (choice : SameChoice c c')
    (alike : stackParts.Alike u w s s')
    (served : StockServed u R s.stock (call s.stock) (call' s'.stock)) :
    ∃ r t r' t', stockCall call c s = some (r, t) ∧ stockCall call' c' s' = some (r', t') ∧
      Replied u R w s s' r r' t t' := by
  unfold stockCall
  rw [← choice.1]
  cases c.fault with
  | true => exact ⟨_, _, _, _, rfl, rfl, replied_refused alike (.error _)⟩
  | false =>
    obtain ⟨_, -, answer, same, kept⟩ := served
    exact ⟨_, _, _, _, rfl, rfl, ⟨w, le_rfl, answer, ⟨same, alike.2⟩, fun v other =>
      ⟨kept v other, ReservationTenants.reservationParts.kept_refl v _⟩⟩, rfl, rfl⟩

theorem reservationTx_replied (rt : Runtime) {tx : ReservationTx α} {tx' : ReservationTx β}
    {c c' : Choice} (choice : SameChoice c c') (alike : stackParts.Alike u w s s')
    (tenantID : String) (confined : ReservationTenants.Within u (fun _ => R) w tx tx') :
    ∃ r t r' t', reservationTx rt tenantID tx c s = some (r, t) ∧
      reservationTx rt tenantID tx' c' s' = some (r', t') ∧ Replied u R w s s' r r' t t' := by
  unfold reservationTx
  rw [← choice.1]
  cases c.fault with
  | true => exact ⟨_, _, _, _, rfl, rfl, replied_refused alike (.error _)⟩
  | false =>
    obtain ⟨w', le, answer, same, kept⟩ := execTx_served rt tenantID confined alike.2
    exact ⟨_, _, _, _, rfl, rfl, ⟨w', le, answer, ⟨alike.1, same⟩, fun v other =>
      ⟨.refl v _, kept v other⟩⟩, rfl, rfl⟩

/-- A call that is lost on one side is lost on the other. -/
theorem rpc_joint (site : Site) {body : Code (Except Failure α)} {body' : Code (Except Failure β)}
    (alike : stackParts.Alike u w s s')
    (h : Joint (machine rt) 0 SameChoice (Replied u R w s s') body body' s s') :
    Joint (machine rt) 0 SameChoice (Replied u R w s s') (rpc site body) (rpc site body') s s' := by
  refine joint_perform fun c c' choice => ⟨c.pass, s, c'.pass, s', rfl, rfl, ?_⟩
  rw [← choice.2]
  cases c.pass with
  | false => exact replied_refused alike (.error _)
  | true =>
    refine joint_bind (joint_mono (fun a b t t' replied => ?_) h)
    refine joint_perform fun d d' choice' => ⟨d.pass, t, d'.pass, t', rfl, rfl, ?_⟩
    rw [← choice'.2]
    cases d.pass with
    | true => exact replied
    | false =>
      obtain ⟨⟨w', le, -, alike', kept⟩, opened, opened'⟩ := replied
      exact ⟨⟨w', le, .error _, alike', kept⟩, opened, opened'⟩

theorem releaseStock_joint (site : Site) {req : ReleaseStockRequest}
    (rows rows' : List Reservation) (parse : rt.scan req.tenantId = some u)
    (alike : stackParts.Alike u w s s') :
    Joint (machine rt) 0 SameChoice (Replied u Eq w s s')
      (rpc site (ask (.releaseStock req rows))) (rpc site (ask (.releaseStock req rows'))) s s' :=
  rpc_joint site alike fun _ _ choice =>
    stockCall_replied choice alike (StockTenants.releaseStock_served parse alike.1)

end Operations

section Handlers

variable {rt : Runtime} {u : UUID} {w : Naming} {s s' : Stack}

/-- The answer without the row number and the time. -/
def ReserveResponse.bare (resp : ReserveResponse) : ReserveResponse :=
  { resp with reservationId := resp.reservationId.map fun _ => 0, expiresAtUnix := 0 }

theorem reserved_bare {id id' : Option ℕ} (same : id.isSome = id'.isSome) (time time' : ℤ) :
    ReserveResponse.bare ⟨true, id, time, []⟩ = ReserveResponse.bare ⟨true, id', time', []⟩ := by
  cases id with
  | none =>
    cases id' with
    | none => rfl
    | some _ => cases same
  | some _ =>
    cases id' with
    | none => cases same
    | some _ => rfl

theorem keyHeld_idle (idle : s.openTxs = []) (key : String) : s.keyHeld u key = false := by
  simp [Stack.keyHeld, idle]

theorem locked_idle (idle : s.openTxs = []) : s.locked = [] := by
  simp [Stack.locked, idle]

theorem exec_insert_idle (idle : s.openTxs = []) (req : ReserveRequest) (expiresAt : ℤ)
    (c : Choice) : (machine rt).exec 0 (.insertReservations u req expiresAt) c s =
      reservationTx rt req.tenantId (insertReservations rt u req expiresAt) c s := by
  simp only [machine, exec, keyHeld_idle idle, Bool.false_eq_true, if_false]

theorem exec_allocate_idle (idle : s.openTxs = []) (req : AllocateReservationRequest)
    (c : Choice) : (machine rt).exec 0 (.allocate u req) c s =
      reservationTx rt req.tenantId (allocateTx rt u req []) c s := by
  simp only [machine, exec, keyHeld_idle idle, locked_idle idle, Bool.false_eq_true, if_false]

theorem allocateReservation_joint (positional : Positional rt) {req : AllocateReservationRequest}
    (parse : rt.scan req.tenantId = some u) (idle : s.openTxs = [])
    (idle' : s'.openTxs = []) (alike : stackParts.Alike u w s s') :
    Joint (machine rt) 0 SameChoice (Replied u Eq w s s') (allocateReservation rt req)
      (allocateReservation rt req) s s' := by
  simp only [allocateReservation, parseUUID, parse]
  refine joint_perform fun c c' choice => ?_
  rw [exec_allocate_idle idle, exec_allocate_idle idle']
  obtain ⟨r, t, r', t', run, run', ⟨w', le, answer, alike', kept⟩, opened, opened'⟩ :=
    reservationTx_replied rt choice alike req.tenantId
      (ReservationTenants.allocateTx_within rt positional req)
  refine ⟨r, t, r', t', run, run', ?_⟩
  cases answer with
  | error e => exact ⟨⟨w', le, .error _, alike', kept⟩, opened, opened'⟩
  | ok same => exact ⟨⟨w', le, .ok (same ▸ rfl), alike', kept⟩, opened, opened'⟩

theorem close_idle (idle : s.openTxs = []) : s.close 0 = s := by
  cases s
  cases idle
  rfl

theorem close_opened (idle : s.openTxs = []) (held : List ℕ) :
    Stack.close { s with openTxs := s.openTxs ++ [⟨0, u, "", held⟩] } 0 = s := by
  rw [idle]
  cases s
  cases idle
  rfl

theorem firstReservationID_joint (positional : Positional rt) (req : ReserveRequest)
    (idle : s.openTxs = []) (idle' : s'.openTxs = [])
    (alike : stackParts.Alike u w s s') :
    Joint (machine rt) 0 SameChoice
      (fun first first' t t' => first.isSome = first'.isSome ∧ t.close 0 = s ∧ t'.close 0 = s')
      (ask (.firstReservationID u req)) (ask (.firstReservationID u req)) s s' := by
  intro c c' choice
  simp only [machine, exec, firstReservationID, locked_idle idle, locked_idle idle', ← choice.1]
  cases c.fault with
  | true => exact ⟨_, _, _, _, rfl, rfl, rfl, close_idle idle, close_idle idle'⟩
  | false =>
    have twins := ReservationTenants.activeRows_twins positional alike.2 req.orderId
    generalize activeRows rt u req.orderId [] s.reservation = rows at twins
    generalize activeRows rt u req.orderId [] s'.reservation = rows' at twins
    refine ⟨_, _, _, _, rfl, rfl, ?_, close_opened idle _, close_opened idle' _⟩
    cases twins with
    | nil => rfl
    | cons _ _ => rfl

theorem reserve_joint (positional : Positional rt) {req : ReserveRequest}
    (parse : rt.scan req.tenantId = some u) (idle : s.openTxs = [])
    (idle' : s'.openTxs = []) (alike : stackParts.Alike u w s s') :
    Joint (machine rt) 0 SameChoice
      (Replied u (fun a b => ReserveResponse.bare a = ReserveResponse.bare b) w s s')
      (reserve rt req) (reserve rt req) s s' := by
  simp only [reserve, parseUUID, parse]
  split
  · exact replied_refused alike (.error _)
  have held : Joint (machine rt) 0 SameChoice (Replied u Eq w s s')
      (ask (.reserveStock ⟨req.tenantId, req.orderId, req.idempotencyKey, req.items.map itemLine⟩))
      (ask (.reserveStock ⟨req.tenantId, req.orderId, req.idempotencyKey, req.items.map itemLine⟩))
      s s' := by
    intro c c' choice
    exact stockCall_replied choice alike (StockTenants.reserveStock_served parse alike.1)
  refine joint_bind (joint_mono ?_ (rpc_joint _ alike held))
  rintro a b t t' ⟨⟨w₁, le₁, answer, alike₁, kept₁⟩, opened, opened'⟩
  cases answer with
  | error e => exact ⟨⟨w₁, le₁, .error _, alike₁, kept₁⟩, opened, opened'⟩
  | @ok resp _ same =>
    subst same
    dsimp only
    split
    · exact ⟨⟨w₁, le₁, .ok rfl, alike₁, kept₁⟩, opened, opened'⟩
    refine joint_perform fun c c' _ => ⟨c.now, t, c'.now, t', rfl, rfl, ?_⟩
    refine joint_perform fun d d' choice => ?_
    rw [exec_insert_idle (opened.trans idle), exec_insert_idle (opened'.trans idle')]
    obtain ⟨r, t₂, r', t₂', run, run', ⟨w₂, le₂, answer, alike₂, kept₂⟩, opened₂, opened₂'⟩ :=
      reservationTx_replied rt choice alike₁ req.tenantId
        (ReservationTenants.insertReservations_within rt req _ _)
    refine ⟨r, t₂, r', t₂', run, run', ?_⟩
    refine joint_mono (fun _ _ _ _ => replied_after le₁ kept₁ opened opened') ?_
    refine joint_mono (fun _ _ _ _ => replied_after le₂ kept₂ opened₂ opened₂') ?_
    have idle₂ := (opened₂.trans opened).trans idle
    have idle₂' := (opened₂'.trans opened').trans idle'
    cases answer with
    | ok first => exact replied_refused alike₂ (.ok (reserved_bare first _ _))
    | error e =>
      cases e with
      | alreadyProcessed =>
        refine joint_bind (joint_mono ?_
          (firstReservationID_joint positional req idle₂ idle₂' alike₂))
        rintro first first' r r' ⟨found, closed, closed'⟩
        refine joint_perform fun c c' _ => ⟨(), r.close 0, (), r'.close 0, rfl, rfl, ?_⟩
        rw [closed, closed']
        exact replied_refused alike₂ (.ok (reserved_bare found _ _))
      | _ =>
        refine joint_bind (joint_mono ?_ (releaseStock_joint _ [] [] parse alike₂))
        rintro a b t t' ⟨⟨w₃, le₃, -, alike₃, kept₃⟩, opened₃, opened₃'⟩
        exact ⟨⟨w₃, le₃, .error _, alike₃, kept₃⟩, opened₃, opened₃'⟩

inductive Begun (u : UUID) (req : ReleaseRequest) (w : Naming) (s s' : Stack) :
    Except Failure (List Reservation) → Except Failure (List Reservation) → Stack → Stack → Prop
    where
  | failed (e : Failure) : Begun u req w s s' (.error e) (.error e) s s'
  | nothing {t t' : Stack} (replied : Replied u Eq w s s' (.ok ()) (.ok ()) t t') :
      Begun u req w s s' (.ok []) (.ok []) t t'
  | rows {row row' : Reservation} {rest rest' : List Reservation} (held held' : List ℕ)
      (twins : List.Forall₂ (Twin w) (row :: rest) (row' :: rest')) :
      Begun u req w s s' (.ok (row :: rest)) (.ok (row' :: rest'))
        { s with openTxs := [⟨0, u, column 255 req.idempotencyKey, held⟩] }
        { s' with openTxs := [⟨0, u, column 255 req.idempotencyKey, held'⟩] }

theorem beginRelease_joint (positional : Positional rt) (req : ReleaseRequest)
    (idle : s.openTxs = []) (idle' : s'.openTxs = [])
    (alike : stackParts.Alike u w s s') :
    Joint (machine rt) 0 SameChoice (Begun u req w s s') (ask (.beginRelease u req))
      (ask (.beginRelease u req)) s s' := by
  intro c c' choice
  simp only [machine, exec, keyHeld_idle idle, keyHeld_idle idle', Bool.false_eq_true, if_false,
    beginRelease, locked_idle idle, locked_idle idle', ← choice.1]
  cases c.fault with
  | true => exact ⟨_, _, _, _, rfl, rfl, .failed _⟩
  | false =>
    have claimed : ReservationTenants.Within u (fun _ _ _ => True) w (releaseClaim rt u req [])
        (releaseClaim rt u req []) :=
      (ReservationTenants.releaseClaim_within rt positional req).mono fun _ _ _ _ => trivial
    obtain ⟨w', le, answer, same, kept⟩ := execTx_served rt req.tenantId claimed alike.2
    generalize first : execTxWithTenant rt req.tenantId (releaseClaim rt u req []) s.reservation = x
      at answer same kept
    generalize second : execTxWithTenant rt req.tenantId (releaseClaim rt u req []) s'.reservation =
      y at answer same kept
    obtain ⟨res, db⟩ := x
    obtain ⟨res', db'⟩ := y
    cases answer with
    | error e => exact ⟨_, _, _, _, rfl, rfl, .failed e⟩
    | @ok rows rows' _ =>
      obtain ⟨-, -, -, found, -⟩ := ReservationSteps.releaseClaim_ok_iff.1 (execTx_ok first)
      obtain ⟨-, -, -, found', -⟩ := ReservationSteps.releaseClaim_ok_iff.1 (execTx_ok second)
      have twins := ReservationTenants.activeRows_twins positional alike.2 req.orderId
      rw [← found, ← found'] at twins
      cases twins with
      | nil =>
        refine ⟨_, _, _, _, rfl, rfl, .nothing ⟨⟨w', le, .ok rfl, ⟨alike.1, same⟩, ?_⟩, rfl, rfl⟩⟩
        exact fun v other => ⟨.refl v _, kept v other⟩
      | cons head tail =>
        refine ⟨_, _, _, _, rfl, rfl, ?_⟩
        rw [idle, idle']
        exact .rows _ _ (.cons head tail)

theorem twins_lines {rows rows' : List Reservation} (twins : List.Forall₂ (Twin w) rows rows') :
    rows.map rowLine = rows'.map rowLine := by
  induction twins with
  | nil => rfl
  | @cons row row' _ _ head tail ih =>
    have equal := head.2
    simp only [ReservationTenants.bare, Reservation.mk.injEq] at equal
    simp only [List.map_cons, rowLine, equal, ih]

theorem close_held (held : OpenTx) (mine : held.thread = 0)
    (opened : s.openTxs = [held]) : (s.close 0).openTxs = [] := by
  simp [Stack.close, opened, mine]

theorem commitRelease_joint (req : ReleaseRequest) {rows rows' : List Reservation}
    (twins : List.Forall₂ (Twin w) rows rows') (closed : (s.close 0).openTxs = [])
    (closed' : (s'.close 0).openTxs = []) (alike : stackParts.Alike u w s s') :
    Joint (machine rt) 0 SameChoice
      (fun a b t t' => Served stackParts u (Answers Eq) w s (a, t) (b, t') ∧
        t.openTxs = [] ∧ t'.openTxs = [])
      (ask (.commitRelease u req rows)) (ask (.commitRelease u req rows')) s s' := by
  intro c c' choice
  simp only [machine, exec, commitRelease, ← choice.1]
  cases c.fault with
  | true => exact ⟨_, _, _, _, rfl, rfl, served_refused alike (.error _), closed, closed'⟩
  | false =>
    obtain ⟨w', le, answer, same, kept⟩ := execTx_served rt req.tenantId
      (ReservationTenants.releaseMark_within rt req twins) alike.2
    exact ⟨_, _, _, _, rfl, rfl, ⟨w', le, answer, ⟨alike.1, same⟩, fun v other =>
      ⟨.refl v _, kept v other⟩⟩, closed, closed'⟩

theorem release_joint (positional : Positional rt) {req : ReleaseRequest}
    (parse : rt.scan req.tenantId = some u) (idle : s.openTxs = [])
    (idle' : s'.openTxs = []) (alike : stackParts.Alike u w s s') :
    Joint (machine rt) 0 SameChoice (Replied u Eq w s s') (release rt req) (release rt req)
      s s' := by
  simp only [release, parseUUID, parse]
  refine joint_bind (joint_mono ?_ (beginRelease_joint positional req idle idle' alike))
  rintro a b t t' begun
  cases begun with
  | failed e =>
    cases e with
    | alreadyProcessed => exact replied_refused alike (.ok rfl)
    | _ => exact replied_refused alike (.error _)
  | nothing replied =>
    obtain ⟨⟨w', le, -, alike', kept⟩, opened, opened'⟩ := replied
    exact ⟨⟨w', le, .ok rfl, alike', kept⟩, opened, opened'⟩
  | @rows row row' rest rest' held held' twins =>
    dsimp only
    rw [twins_lines twins]
    -- opening the transaction has changed no table
    have begun : stackParts.Alike u w
        { s with openTxs := [⟨0, u, column 255 req.idempotencyKey, held⟩] }
        { s' with openTxs := [⟨0, u, column 255 req.idempotencyKey, held'⟩] } := alike
    refine joint_bind (joint_mono ?_ (releaseStock_joint _ _ _ parse begun))
    rintro a b t t' ⟨⟨w₁, le₁, answer, alike₁, kept₁⟩, opened, opened'⟩
    have closed := close_held _ rfl opened
    have closed' := close_held _ rfl opened'
    cases answer with
    | error e =>
      refine joint_perform fun c c' _ => ⟨(), t.close 0, (), t'.close 0, rfl, rfl, ?_⟩
      exact ⟨⟨w₁, le₁, .error _, alike₁, kept₁⟩, closed.trans idle.symm, closed'.trans idle'.symm⟩
    | ok same =>
      subst same
      have later : List.Forall₂ (Twin w₁) (row :: rest) (row' :: rest') :=
        twins.imp fun _ _ twin => twin.later le₁
      refine joint_bind (joint_mono ?_ (commitRelease_joint req later closed closed' alike₁))
      rintro a b x x' ⟨served, ended, ended'⟩
      obtain ⟨w₂, le₂, answer, alike₂, kept₂⟩ := served_after le₁ kept₁ served
      cases answer with
      | error e =>
        exact ⟨⟨w₂, le₂, .error _, alike₂, kept₂⟩, ended.trans idle.symm, ended'.trans idle'.symm⟩
      | ok _ =>
        exact ⟨⟨w₂, le₂, .ok rfl, alike₂, kept₂⟩, ended.trans idle.symm, ended'.trans idle'.symm⟩

end Handlers

/-- The runtime with the order of fetched rows resolved: positions are exchanged,
whatever stands there. -/
def ordered (rt : Runtime) (order : (n : ℕ) → Equiv.Perm (Fin n)) : Runtime :=
  { rt with
    rows := fun rows => List.ofFn fun i => rows.get (order rows.length i)
    rows_perm := fun rows => by
      have exchanged := Equiv.Perm.ofFn_comp_perm (order rows.length) rows.get
      rwa [List.ofFn_get] at exchanged }

theorem ordered_positional (rt : Runtime) (order : (n : ℕ) → Equiv.Perm (Fin n)) :
    Positional (ordered rt order) := by
  intro α β R xs ys pairs
  obtain ⟨length, each⟩ := List.forall₂_iff_get.1 pairs
  have sameOrder : ∀ {n m : ℕ} (eq : n = m) (i : Fin n),
      (order n i).val = (order m (Fin.cast eq i)).val := by
    rintro n _ rfl i
    rfl
  refine List.forall₂_iff_get.2 ⟨?_, fun i lt lt' => ?_⟩
  · simpa [ordered] using length
  · simp only [ordered, List.get_ofFn]
    let i' : Fin xs.length := ⟨i, by simpa [ordered] using lt⟩
    have here : order ys.length (Fin.cast length i') =
        ⟨(order xs.length i').val, lt_of_lt_of_eq (order xs.length i').isLt length⟩ :=
      Fin.ext (sameOrder length i').symm
    have found := each (order xs.length i').val (order xs.length i').isLt
      (lt_of_lt_of_eq (order xs.length i').isLt length)
    rw [← here] at found
    exact found

inductive Request where
  | adjustStock (req : AdjustStockRequest)
  | reserveStock (req : ReserveStockRequest)
  | releaseStock (req : ReleaseStockRequest)
  | confirmStockAllocation (req : ConfirmStockAllocationRequest)
  | fulfillStock (req : FulfillStockRequest)
  | unlockStockForAudit (req : UnlockStockForAuditRequest)
  | reserve (req : ReserveRequest)
  | release (req : ReleaseRequest)
  | allocateReservation (req : AllocateReservationRequest)

inductive Answer where
  | adjustStock (answer : Except Failure AdjustStockResponse)
  | reserveStock (answer : Except Failure ReserveStockResponse)
  | releaseStock (answer : Except Failure ReleaseStockResponse)
  | confirmStockAllocation (answer : Except Failure ConfirmStockAllocationResponse)
  | fulfillStock (answer : Except Failure FulfillStockResponse)
  | unlockStockForAudit (answer : Except Failure UnlockStockForAuditResponse)
  | reserve (answer : Except Failure ReserveResponse)
  | release (answer : Except Failure ReleaseResponse)
  | allocateReservation (answer : Except Failure AllocateReservationResponse)

/-- The answer without generated numbers and times. -/
def Answer.bare : Answer → Answer
  | adjustStock answer => adjustStock (answer.map StockTenants.AdjustStockResponse.bare)
  | reserve answer => reserve (answer.map ReserveResponse.bare)
  | answer => answer

namespace Request

def tenantId : Request → String
  | adjustStock req => req.tenantId
  | reserveStock req => req.tenantId
  | releaseStock req => req.tenantId
  | confirmStockAllocation req => req.tenantId
  | fulfillStock req => req.tenantId
  | unlockStockForAudit req => req.tenantId
  | reserve req => req.tenantId
  | release req => req.tenantId
  | allocateReservation req => req.tenantId

def run (rt : Runtime) (env : ℕ → Choice) : Request → Stack → Option (Answer × Stack)
  | adjustStock req, s =>
    (stockCall (StockHandlers.adjustStock rt req) (env 0) s).map (Prod.map .adjustStock id)
  | reserveStock req, s =>
    (stockCall (StockHandlers.reserveStock rt req) (env 0) s).map (Prod.map .reserveStock id)
  | releaseStock req, s =>
    (stockCall (StockHandlers.releaseStock rt req) (env 0) s).map (Prod.map .releaseStock id)
  | confirmStockAllocation req, s =>
    (stockCall (StockHandlers.confirmStockAllocation rt req) (env 0) s).map
      (Prod.map .confirmStockAllocation id)
  | fulfillStock req, s =>
    (stockCall (StockHandlers.fulfillStock rt req) (env 0) s).map (Prod.map .fulfillStock id)
  | unlockStockForAudit req, s =>
    (stockCall (StockHandlers.unlockStockForAudit rt req) (env 0) s).map
      (Prod.map .unlockStockForAudit id)
  | reserve req, s =>
    (complete (machine rt) 0 (Services.reserve rt req) env s).map (Prod.map .reserve id)
  | release req, s =>
    (complete (machine rt) 0 (Services.release rt req) env s).map (Prod.map .release id)
  | allocateReservation req, s =>
    (complete (machine rt) 0 (Services.allocateReservation rt req) env s).map
      (Prod.map .allocateReservation id)

end Request

/-- A request with what the environment does to it. -/
structure Call where
  request : Request
  order : (n : ℕ) → Equiv.Perm (Fin n)
  env : ℕ → Choice

namespace Call

def serve (rt : Runtime) (call : Call) (s : Stack) : Option (Answer × Stack) :=
  call.request.run (ordered rt call.order) call.env s

/-- A handler that has to wait has done nothing. -/
def after (rt : Runtime) (call : Call) (s : Stack) : Stack := ((call.serve rt s).map (·.2)).getD s

def issuedBy (rt : Runtime) (u : UUID) (call : Call) : Bool :=
  rt.scan call.request.tenantId = some u

/-- The same request in the same environment, at another time. -/
structure Alike (call call' : Call) : Prop where
  request : call.request = call'.request
  order : call.order = call'.order
  env : ∀ n, SameChoice (call.env n) (call'.env n)

end Call

def runCalls (rt : Runtime) : List Call → Stack → Stack
  | [], s => s
  | call :: rest, s => runCalls rt rest (call.after rt s)

def answersTo (rt : Runtime) (u : UUID) : List Call → Stack → List (Option Answer)
  | [], _ => []
  | call :: rest, s =>
    if call.issuedBy rt u then (call.serve rt s).map (·.1) :: answersTo rt u rest (call.after rt s)
    else answersTo rt u rest (call.after rt s)

section Runs

variable {rt : Runtime} {u : UUID} {w : Naming} {s s' : Stack} {env env' : ℕ → Choice}

def Matched (u : UUID) (w : Naming) (s : Stack) (out out' : Option (Answer × Stack)) : Prop :=
  ∃ a t b t' w', out = some (a, t) ∧ out' = some (b, t') ∧ a.bare = b.bare ∧
    t.openTxs = [] ∧ t'.openTxs = [] ∧ w ≤ w' ∧ stackParts.Alike u w' t t' ∧
    ∀ v, v ≠ u → stackParts.Kept v s t

theorem answers_eq {α : Type} {a b : Except Failure α} (same : Answers Eq a b) : a = b := by
  cases same with
  | error e => rfl
  | ok value => rw [value]

theorem matched_map {α : Type} {R : α → α → Prop} (answer : Except Failure α → Answer)
    (plain : ∀ a b, Answers R a b → (answer a).bare = (answer b).bare)
    (idle : s.openTxs = []) (idle' : s'.openTxs = [])
    {out out' : Option (Except Failure α × Stack)}
    (served : ∃ a t b t', out = some (a, t) ∧ out' = some (b, t') ∧ Replied u R w s s' a b t t') :
    Matched u w s (out.map (Prod.map answer id)) (out'.map (Prod.map answer id)) := by
  obtain ⟨a, t, b, t', rfl, rfl, ⟨w', le, same, alike, kept⟩, opened, opened'⟩ := served
  exact ⟨_, t, _, t', w', rfl, rfl, plain a b same, opened.trans idle, opened'.trans idle', le,
    alike, kept⟩

theorem matched_eq {α : Type} (answer : Except Failure α → Answer) (idle : s.openTxs = [])
    (idle' : s'.openTxs = []) {out out' : Option (Except Failure α × Stack)}
    (served : ∃ a t b t', out = some (a, t) ∧ out' = some (b, t') ∧ Replied u Eq w s s' a b t t') :
    Matched u w s (out.map (Prod.map answer id)) (out'.map (Prod.map answer id)) :=
  matched_map answer (fun _ _ same => answers_eq same ▸ rfl) idle idle' served

theorem answers_map {α β : Type} {f : α → β} {a b : Except Failure α}
    (same : Answers (fun x y => f x = f y) a b) : a.map f = b.map f := by
  cases same with
  | error e => rfl
  | ok value => exact congrArg Except.ok value

theorem request_matched (positional : Positional rt) {request : Request}
    (parse : rt.scan request.tenantId = some u) (idle : s.openTxs = [])
    (idle' : s'.openTxs = []) (alike : stackParts.Alike u w s s')
    (choices : ∀ n, SameChoice (env n) (env' n)) :
    Matched u w s (request.run rt env s) (request.run rt env' s') := by
  cases request with
  | adjustStock req =>
    exact matched_map .adjustStock (fun _ _ same => congrArg Answer.adjustStock (answers_map same))
      idle idle' (stockCall_replied (choices 0) alike
        (StockTenants.adjustStock_served parse alike.1))
  | reserveStock req =>
    exact matched_eq .reserveStock idle idle'
      (stockCall_replied (choices 0) alike (StockTenants.reserveStock_served parse alike.1))
  | releaseStock req =>
    exact matched_eq .releaseStock idle idle'
      (stockCall_replied (choices 0) alike (StockTenants.releaseStock_served parse alike.1))
  | confirmStockAllocation req =>
    exact matched_eq .confirmStockAllocation idle idle' (stockCall_replied (choices 0) alike
      (StockTenants.confirmStockAllocation_served parse alike.1))
  | fulfillStock req =>
    exact matched_eq .fulfillStock idle idle'
      (stockCall_replied (choices 0) alike (StockTenants.fulfillStock_served parse alike.1))
  | unlockStockForAudit req =>
    exact matched_eq .unlockStockForAudit idle idle'
      (stockCall_replied (choices 0) alike (StockTenants.unlockStockForAudit_served parse alike.1))
  | reserve req =>
    exact matched_map .reserve (fun _ _ same => congrArg Answer.reserve (answers_map same)) idle
      idle' (joint_complete (reserve_joint positional parse idle idle' alike) choices)
  | release req =>
    exact matched_eq .release idle idle'
      (joint_complete (release_joint positional parse idle idle' alike) choices)
  | allocateReservation req =>
    exact matched_eq .allocateReservation idle idle'
      (joint_complete (allocateReservation_joint positional parse idle idle' alike) choices)

theorem stockCall_refused {α : Type} {call : StockDb → Except Failure α × StockDb}
    {answer : Except Failure α → Answer} (same : (call s.stock).2 = s.stock) {c : Choice}
    {a : Answer} {t : Stack} (run : (stockCall call c s).map (Prod.map answer id) = some (a, t)) :
    t = s := by
  unfold stockCall at run
  split at run
  · cases run
    rfl
  · cases run
    simp only [same, id_eq]

theorem tenantRpc_refused {α : Type} {tenantId context : String} {fn : UUID → StockTx α}
    {db : StockDb} (parse : rt.scan tenantId = none) :
    (tenantRpc rt tenantId context fn db).2 = db := by
  simp only [tenantRpc, parseUUID, parse]

theorem request_refused {request : Request} (parse : rt.scan request.tenantId = none) {a : Answer}
    {t : Stack} (run : request.run rt env s = some (a, t)) : t = s := by
  cases request with
  | reserveStock req =>
    refine stockCall_refused ?_ run
    simp only [StockHandlers.reserveStock, parseUUID, show rt.scan req.tenantId = none from parse]
  | reserve req =>
    simp only [Request.run, Services.reserve, parseUUID,
      show rt.scan req.tenantId = none from parse] at run
    cases run
    rfl
  | release req =>
    simp only [Request.run, Services.release, parseUUID,
      show rt.scan req.tenantId = none from parse] at run
    cases run
    rfl
  | allocateReservation req =>
    simp only [Request.run, Services.allocateReservation, parseUUID,
      show rt.scan req.tenantId = none from parse] at run
    cases run
    rfl
  | _ => exact stockCall_refused (tenantRpc_refused parse) run

theorem alike_refl (u : UUID) (numbered : Numbered s.reservation) :
    stackParts.Alike u (fun a b => a = b ∧ ∃ row ∈ ReservationTenants.own u s.reservation,
      row.id = a) s s :=
  ⟨.refl u _, .refl u numbered⟩

theorem alike_kept {t : Stack} (alike : stackParts.Alike u w s s') (kept : stackParts.Kept u s t)
    (numbered : Numbered t.reservation) : stackParts.Alike u w t s' :=
  ⟨kept.1.symm.trans alike.1, alike.2.kept kept.2 numbered⟩

theorem call_matched {call call' : Call} (same : call.Alike call')
    (mine : call.issuedBy rt u = true) (idle : s.openTxs = []) (idle' : s'.openTxs = [])
    (alike : stackParts.Alike u w s s') : Matched u w s (call.serve rt s) (call'.serve rt s') := by
  unfold Call.serve
  rw [← same.request, ← same.order]
  have parse : (ordered rt call.order).scan call.request.tenantId = some u := of_decide_eq_true mine
  exact request_matched (ordered_positional rt call.order) parse idle idle' alike same.env

theorem call_kept {call : Call} (other : call.issuedBy rt u = false) (idle : s.openTxs = [])
    (numbered : Numbered s.reservation) : stackParts.Kept u s (call.after rt s) ∧
      (call.after rt s).openTxs = [] ∧ Numbered (call.after rt s).reservation := by
  have differs : rt.scan call.request.tenantId ≠ some u := of_decide_eq_false other
  unfold Call.after
  cases parse : rt.scan call.request.tenantId with
  | none =>
    have same : ((call.serve rt s).map (·.2)).getD s = s := by
      cases run : call.serve rt s with
      | none => rfl
      | some out =>
        exact request_refused (show (ordered rt call.order).scan _ = none from parse) run
    rw [same]
    exact ⟨stackParts.kept_refl u s, idle, numbered⟩
  | some v =>
    have apart : u ≠ v := fun eq => differs (eq ▸ parse)
    have itself : call.Alike call := ⟨rfl, rfl, fun _ => ⟨rfl, rfl⟩⟩
    obtain ⟨a, t, b, t', w', run, -, -, opened, -, -, alike, kept⟩ :=
      call_matched itself (decide_eq_true parse) idle idle (alike_refl v numbered)
    rw [run]
    exact ⟨kept u apart, opened, alike.2.numbered⟩

/-- What a tenant has been answered and owns, with or without the others. -/
theorem runs_matched {calls alone : List Call} (idle : s.openTxs = [])
    (idle' : s'.openTxs = []) (alike : stackParts.Alike u w s s')
    (removed : List.Forall₂ Call.Alike (calls.filter fun call => call.issuedBy rt u) alone) :
    (answersTo rt u calls s).map (Option.map Answer.bare) =
        (answersTo rt u alone s').map (Option.map Answer.bare) ∧
      (∀ answer ∈ answersTo rt u calls s, answer.isSome = true) ∧
      ∃ w', stackParts.Alike u w' (runCalls rt calls s) (runCalls rt alone s') := by
  induction calls generalizing alone s s' w with
  | nil =>
    cases removed
    exact ⟨rfl, nofun, w, alike⟩
  | cons call rest ih =>
    cases mine : call.issuedBy rt u with
    | false =>
      obtain ⟨kept, idle₁, numbered⟩ := call_kept mine idle alike.2.numbered
      simp only [List.filter_cons, mine, Bool.false_eq_true, if_false] at removed
      simp only [answersTo, mine, Bool.false_eq_true, if_false, runCalls]
      exact ih idle₁ idle' (alike_kept alike kept numbered) removed
    | true =>
      simp only [List.filter_cons, mine, if_true] at removed
      cases removed with
      | @cons _ call' _ alone' same tail =>
        have mine' : call'.issuedBy rt u = true := by
          unfold Call.issuedBy at mine ⊢
          rw [← same.request]
          exact mine
        obtain ⟨a, t, b, t', w', run, run', equal, idle₁, idle₁', -, alike', -⟩ :=
          call_matched same mine idle idle' alike
        obtain ⟨answers, served, later⟩ := ih idle₁ idle₁' alike' tail
        simp only [answersTo, mine, mine', if_true, runCalls, Call.after, run, run',
          Option.map_some, Option.getD_some, List.map_cons, equal, answers]
        refine ⟨trivial, fun answer member => ?_, later⟩
        rcases List.mem_cons.1 member with rfl | there
        · rfl
        · exact served answer there

end Runs

structure SameFor (u : UUID) (s s' : Stack) : Prop where
  levels : ∀ loc : StockLocation, loc.tenantID = u →
    s.stock.stockLevels loc = s'.stock.stockLevels loc
  events : (s.stock.stockEvents.filter fun e => e.tenantID = u) =
    s'.stock.stockEvents.filter fun e => e.tenantID = u
  stockOutbox : (s.stock.outbox.filter fun e => e.tenantID = u) =
    s'.stock.outbox.filter fun e => e.tenantID = u
  stockKeys : s.stock.processedKeys u = s'.stock.processedKeys u
  reservations : (ReservationTenants.own u s.reservation).map ReservationTenants.bare =
    (ReservationTenants.own u s'.reservation).map ReservationTenants.bare
  reservationOutbox : (s.reservation.outbox.filter fun e => e.tenantID = u) =
    s'.reservation.outbox.filter fun e => e.tenantID = u
  reservationKeys : s.reservation.processedKeys u = s'.reservation.processedKeys u

/-- A tenant cannot tell a run from the one with all other tenants' requests
removed: every request of the tenant is answered, the answers are the same, and
so are the rows. -/
theorem tenant_noninterference (rt : Runtime) (u : UUID) (calls alone : List Call)
    (removed : List.Forall₂ Call.Alike (calls.filter fun call => call.issuedBy rt u) alone)
    (start : Stack) (idle : start.openTxs = []) (numbered : Numbered start.reservation) :
    (answersTo rt u calls start).map (Option.map Answer.bare) =
        (answersTo rt u alone start).map (Option.map Answer.bare) ∧
      (∀ answer ∈ answersTo rt u calls start, answer.isSome = true) ∧
      SameFor u (runCalls rt calls start) (runCalls rt alone start) := by
  obtain ⟨answers, served, w, stock, rows⟩ :=
    runs_matched idle idle (alike_refl u numbered) removed
  exact ⟨answers, served, stock.levels, stock.events, stock.outbox, stock.keys, rows.rows_bare,
    rows.outbox, rows.keys⟩

def neighbour : UUID := ⟨"00000000-0000-4000-8000-000000000002", by decide⟩

/-- A tenant receives stock, reserves it and gives it back, all under names that
others may use too. -/
def visit (u : UUID) (now : ℤ) : List Call :=
  [⟨.adjustStock ⟨u.text, "sku", "wh", 5, "receipt", "dock", "in"⟩, fun _ => .refl _,
      fun _ => ⟨false, true, now, [], ""⟩⟩,
    ⟨.reserve ⟨u.text, "order", "hold", [⟨"sku", "wh", 2⟩], 60⟩, fun _ => .refl _,
      fun _ => ⟨false, true, now, [], ""⟩⟩,
    ⟨.release ⟨u.text, "", "order", "cancelled", "give-back"⟩, fun _ => .refl _,
      fun _ => ⟨false, true, now, [], ""⟩⟩]

theorem reference_neighbours : reference [] = (recognizing []).knowing neighbour.text neighbour
    ((recognizing []).scan_text _) ((recognizing []).cast_text _) :=
  (reference_recognizing []).trans (Runtime.knowing_eq _ _ _).symm

theorem tenant_noninterference_neighbour :
    (ReservationTenants.own sampleTenant (runCalls (reference [])
        (visit neighbour 0 ++ visit sampleTenant 7) (.stocked fun _ => none)).reservation).map
          (·.id) = [1] ∧
      (ReservationTenants.own sampleTenant (runCalls (reference []) (visit sampleTenant 0)
        (.stocked fun _ => none)).reservation).map (·.id) = [0] ∧
      (answersTo (reference []) sampleTenant (visit neighbour 0 ++ visit sampleTenant 7)
          (.stocked fun _ => none)).map (Option.map Answer.bare) =
        (answersTo (reference []) sampleTenant (visit sampleTenant 0)
          (.stocked fun _ => none)).map (Option.map Answer.bare) ∧
      SameFor sampleTenant
        (runCalls (reference []) (visit neighbour 0 ++ visit sampleTenant 7)
          (.stocked fun _ => none))
        (runCalls (reference []) (visit sampleTenant 0) (.stocked fun _ => none)) := by
  have removed : List.Forall₂ Call.Alike
      ((visit neighbour 0 ++ visit sampleTenant 7).filter fun call =>
        call.issuedBy (reference []) sampleTenant) (visit sampleTenant 0) := by
    have others : some neighbour ≠ some sampleTenant := by decide
    simp only [visit, List.cons_append, List.nil_append, Call.issuedBy, Request.tenantId,
      Runtime.scan_text, List.filter_cons, others, decide_false, decide_true, Bool.false_eq_true,
      if_true, if_false, List.filter_nil]
    exact .cons ⟨rfl, rfl, fun _ => ⟨rfl, rfl⟩⟩ (.cons ⟨rfl, rfl, fun _ => ⟨rfl, rfl⟩⟩
      (.cons ⟨rfl, rfl, fun _ => ⟨rfl, rfl⟩⟩ .nil))
  obtain ⟨answers, -, same⟩ := tenant_noninterference (reference []) sampleTenant
    (visit neighbour 0 ++ visit sampleTenant 7) (visit sampleTenant 0) removed
    (.stocked fun _ => none) rfl numbered_empty
  refine ⟨?_, ?_, answers, same⟩
  · rw [reference_neighbours]
    decide +kernel
  · rw [reference_neighbours]
    decide +kernel

end Taper.TenantRuns
