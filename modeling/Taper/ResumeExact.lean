import Taper.SagaPhases

set_option autoImplicit false

/-!
# An order that is resumed after crashes

Wherever the stack stops, the order is at a phase from which the saga, run again
from its start, goes on to the same end: what has been done already is taken for
a repetition by the service that did it.
-/
namespace Taper.ResumeExact
open Messages Platform Ledger StockHandlers StockConservation StockForward
open StockRuns ReservationTables ReservationSteps OrderTables Program ServiceStack Services
open StackSteps HandlerRuns OrderRows OrderPhases SagaPhases
open StockSteps (Seen)

/-- Every service answers; a breaker may still refuse. -/
def healthy (op : Op) (c : Choice) (_ : Stack) : Bool :=
  !c.fault &&
    match op with
    | .send _ | .answer _ => c.pass
    | _ => true

theorem healthy_inner : Inner fun op c s => healthy op c s = true where
  reached op c s ok := by
    simp only [healthy, Bool.and_eq_true, Bool.not_eq_true'] at ok
    exact ok.1
  sent site c s _ ok := by
    simp only [healthy, Bool.and_eq_true] at ok
    exact ok.2
  answered site c s _ ok := by
    simp only [healthy, Bool.and_eq_true] at ok
    exact ok.2

def legal (paid stored : Bool) : SagaState → Hold → Option ReservationStatus → Bool
  | .pendingPayment, hold, status | .reserved, hold, status => opens paid stored hold status
  | .confirmed, .allocated, some .allocated => true
  | .compensated, .returned, some .released => true
  | .failed, .free, none | .failed, .returned, none => true
  | _, _, _ => false

def Sound (rt : Runtime) (x : Order) (s : Stack) : Prop :=
  ∃ state hold status, legal (paid rt x) (stored rt x) state hold status = true ∧
    At x state hold status (s.close 0)

def goesThrough (rt : Runtime) (x : Order) : Bool := paid rt x && stored rt x

structure Fits (rt : Runtime) (x : Order) : Prop where
  regular : x.Regular
  total : 0 < orderTotal x.lines
  undone : goesThrough rt x = false → x.comps = [compensationKey x.tenant.text x.id] ∧
    keyFits (compensationKey x.tenant.text x.id) = true
  payload : stored rt x = true → rt.jsonb (orderPayload x.id) = true
  allocates : goesThrough rt x = true → keyFits (allocateKey x.key) = true ∧
    ∀ loc, (x.base loc).2.2 + x.units loc ≤ 2147483647

structure DrivesCanonical (rt : Runtime) (x : Order) (tenantID : String)
    (ls : List OrderLine) : Prop
    extends Drives rt x tenantID ls where
  canonical : goesThrough rt x = false → tenantID = x.tenant.text

abbrev driven (x : Order) (tenantID : String) (ls : List OrderLine) (ttl : Int32) : SagaInput :=
  ⟨tenantID, x.tenant, x.id, ls, x.key, ttl, false⟩

section Phases

abbrev Resumes {α : Type} (rt : Runtime) (x : Order) (Q : α → Stack → Prop) (p : Code α)
    (s : Stack) : Prop := Reaches rt (fun op c s => healthy op c s = true) (Sound rt x) Q p s

variable {rt : Runtime} {x : Order} {state next : SagaState} {hold : Hold}
  {status : Option ReservationStatus} {s : Stack} {tenantID : String} {ls : List OrderLine}
  {ttl : Int32}

theorem At.closed (h : At x state hold status s) : At x state hold status (s.close 0) := by
  refine ⟨h.filed, h.stock, RowsAt.congr h.rows rfl, ?_⟩
  simp [Stack.close, h.unlocked]

theorem At.sound (h : At x state hold status s)
    (ok : legal (paid rt x) (stored rt x) state hold status = true) : Sound rt x s :=
  ⟨state, hold, status, ok, At.closed h⟩

theorem opens_legal (open_ : opens (paid rt x) (stored rt x) hold status = true)
    (resumable_ : state = .pendingPayment ∨ state = .reserved) :
    legal (paid rt x) (stored rt x) state hold status = true := by
  rcases resumable_ with rfl | rfl
  · exact open_
  · exact open_

theorem resumes_call {α : Type} {site : Site} {body : Code (Except Failure α)}
    {Q : Except Failure α → Stack → Prop} (here : Sound rt x s)
    (h : Resumes rt x (fun res t => Sound rt x t ∧ Q res t) body s) :
    Resumes rt x Q (rpc site body) s := by
  refine reaches_call here (fun c t ok => ?_) (fun c t ok => ?_) h
  · simp only [healthy, Bool.and_eq_true] at ok
    exact ok.2
  · simp only [healthy, Bool.and_eq_true] at ok
    exact ok.2

theorem failSaga_phase {msg : String} (parse : rt.scan tenantID = some x.tenant)
    (resumable_ : state = .pendingPayment ∨ state = .reserved)
    (open_ : opens (paid rt x) (stored rt x) hold none = true) (given : hold ≠ .held)
    (h : At x state hold none s) :
    Resumes rt x (fun _ t => Sound rt x t) (failSaga rt tenantID x.id msg) s := by
  have here := At.sound h (opens_legal open_ resumable_)
  refine wp_mono (fun _ t after => ?_) (failSaga_at parse here h)
  rcases after with at_ | at_
  · exact At.sound at_ (opens_legal open_ resumable_)
  · refine At.sound at_ ?_
    cases hold with
    | free => rfl
    | held => exact absurd rfl given
    | allocated => cases open_
    | returned => rfl

theorem opened_sound {o : OpenTx} (h : At x state hold status s) (mine : o.thread = 0)
    (ok : legal (paid rt x) (stored rt x) state hold status = true) :
    Sound rt x { s with openTxs := [o] } := by
  refine ⟨state, hold, status, ok, h.filed, h.stock, RowsAt.congr h.rows rfl, ?_⟩
  simp [Stack.close, mine]

theorem Fits.event (fit : Fits rt x) (rows : stored rt x = true) (eventType : String) :
    eventFits rt (reservationEvent x.tenant x.id eventType (orderPayload x.id)) = true := by
  obtain ⟨l, rest, lines⟩ := List.exists_cons_of_ne_nil fit.regular.nonempty
  have first := rows
  rw [stored, lines, reserveItems, List.map_cons, List.all_cons, Bool.and_eq_true] at first
  have created := first.1
  simp only [itemFits, eventFits, Bool.and_eq_true] at created
  simp only [eventFits, Bool.and_eq_true]
  exact ⟨created.2.1, fit.payload rows⟩

def releases : Hold → Option ReservationStatus → Bool
  | .held, some .active | .returned, some .active | .returned, some .released => true
  | _, _ => false

theorem release_phase (fit : Fits rt x) (declined : paid rt x = false) (rows : stored rt x = true)
    (text : storable x.id = true) (phase : releases hold status = true)
    (h : At x .reserved hold status s) :
    Resumes rt x (fun res t => Sound rt x t ∧ (∃ resp, res = .ok resp) ∧
        At x .reserved .returned (some .released) t)
      (release rt ⟨x.tenant.text, "", x.id, "payment_failed",
        compensationKey x.tenant.text x.id⟩) s := by
  obtain ⟨comps, key⟩ := fit.undone (by simp [goesThrough, declined])
  have member : compensationKey x.tenant.text x.id ∈ x.comps := by simp [comps]
  have castable := castable_text rt x.tenant
  have parse := rt.scan_text x.tenant
  have ok_ : ∀ {hold status}, releases hold status = true →
      legal (paid rt x) (stored rt x) .reserved hold status = true := by
    intro hold status
    rw [declined, rows]
    rcases hold with _ | _ | _ | _ <;> rcases status with _ | _ | _ | _ | _ <;> decide
  have here := At.sound h (ok_ phase)
  unfold release
  simp only [parseUUID, parse]
  refine reaches_ask here fun c found t ok run => ?_
  have reached := healthy_inner.reached _ _ _ ok
  have either : status = some .active ∧ (hold = .held ∨ hold = .returned) ∨
      status = some .released ∧ hold = .returned := by
    cases hold <;> rcases status with _ | _ | _ | _ | _ <;> simp_all [releases]
  rcases either with ⟨rfl, mine⟩ | ⟨rfl, rfl⟩
  · obtain ⟨first, rest, o, rfl, taken, own, rfl⟩ := rowsAt_begin fit.regular h.rows h.unlocked
      reached castable member key text run
    have lines : ((first :: rest).map rowLine).Perm x.stock :=
      (taken.map rowLine).trans (h.rows.stock_perm (by simp))
    have inside := opened_sound h own (ok_ phase)
    have stock₁ : StockAt x hold (Stack.stock { s with openTxs := [o] }) := h.stock
    have reason : varchar 255 "payment_failed" = true := by decide
    have after : ∀ db, StockAt x .returned db →
        Sound rt x (Stack.withStock { s with openTxs := [o] } db) := fun db stock =>
      opened_sound (h.withStock stock) own (ok_ rfl)
    refine reaches_then (Q := fun res u => (∃ resp, res = .ok resp) ∧ ∃ db, StockAt x .returned db ∧
      u = Stack.withStock { s with openTxs := [o] } db) ?_ ?_
    · refine resumes_call inside (reaches_last (o := .releaseStock _ _) inside
        fun c res u ok run => ?_)
      have reached := healthy_inner.reached _ _ _ ok
      rcases mine with rfl | rfl
      · obtain ⟨resp, db, rfl, stock, rfl⟩ := stockAt_release fit.regular stock₁ reached castable
          parse lines member (compensationKey_ne _ _) key reason run
        exact ⟨after db stock, ⟨resp, rfl⟩, db, stock, rfl⟩
      · obtain ⟨k, member', seen⟩ := (h.stock.compensated (by decide)).2 rfl
        rw [comps, List.mem_singleton] at member'
        subst member'
        obtain ⟨resp, rfl, rfl⟩ := stockAt_release_again reached castable parse stock₁.checked seen
          key run
        exact ⟨after s.stock h.stock, ⟨resp, rfl⟩, s.stock, h.stock, rfl⟩
    · rintro res u ⟨⟨resp, rfl⟩, db, stock, rfl⟩
      refine reaches_ask (after db stock) fun c done t ok run => ?_
      have rows' : RowsAt x (some .active) (Stack.withStock { s with openTxs := [o] } db) :=
        RowsAt.congr h.rows rfl
      obtain ⟨rfl, marked_, db', closed⟩ := rowsAt_commit rows' (healthy_inner.reached _ _ _ ok)
        castable member (compensationKey_ne _ _) key (fit.event rows _) taken run
      have done : At x .reserved .returned (some .released) t := by
        subst closed
        exact ⟨h.filed, stock, marked_, by simp [Stack.close, Stack.withStock, own]⟩
      exact ⟨At.sound done (ok_ rfl), ⟨_, rfl⟩, done⟩
  · obtain ⟨k, member', old⟩ := (h.rows.released (by simp)).2 rfl
    rw [comps, List.mem_singleton] at member'
    subst member'
    obtain ⟨rfl, rfl⟩ := rowsAt_begin_again h.unlocked reached castable key old run
    exact ⟨here, ⟨_, rfl⟩, h⟩

theorem compensate_phase (fit : Fits rt x) (declined : paid rt x = false)
    (rows : stored rt x = true) (text : storable x.id = true)
    (aggregate : varchar 255 (x.tenant.text ++ ":" ++ x.id) = true)
    (phase : releases hold status = true) (h : At x .reserved hold status s) :
    Resumes rt x (fun res t => res = .ok () ∧ Sound rt x t)
      (compensate rt x.tenant.text x.id "payment_failed") s := by
  have here : Sound rt x s := by
    refine At.sound h ?_
    rw [declined, rows]
    cases hold <;> rcases status with _ | _ | _ | _ | _ <;> first | rfl | cases phase
  unfold compensate
  simp only [parseUUID, rt.scan_text]
  refine reaches_then (resumes_call here (release_phase fit declined rows text phase h)) ?_
  rintro res t ⟨⟨resp, rfl⟩, released⟩
  have sound : Sound rt x t := At.sound released (by simp [legal, opens, declined, rows])
  refine reaches_last (o := .transition _ _ _ _ _ _) sound fun c answer u ok run => ?_
  obtain ⟨rfl, db, filed, rfl⟩ := filed_transition_forward released.filed
    (healthy_inner.reached _ _ _ ok) (castable_text rt x.tenant) text aggregate (by decide)
    (fun _ => rfl) run
  exact ⟨rfl, At.sound (released.withOrder filed) rfl⟩

def confirms : Hold → Option ReservationStatus → Bool
  | .held, some .active | .held, some .allocated | .allocated, some .allocated => true
  | _, _ => false

theorem confirms_legal (going : goesThrough rt x = true) (phase : confirms hold status = true) :
    legal (paid rt x) (stored rt x) .reserved hold status = true := by
  simp only [goesThrough, Bool.and_eq_true] at going
  rw [going.1, going.2]
  cases hold <;> rcases status with _ | _ | _ | _ | _ <;> first | rfl | cases phase

theorem allocate_phase (fit : Fits rt x) (drives : DrivesCanonical rt x tenantID ls)
    (going : goesThrough rt x = true) (text : storable x.id = true)
    (phase : confirms hold status = true) (h : At x .reserved hold status s) :
    Resumes rt x (fun res t => Sound rt x t ∧ (∃ resp, res = .ok resp) ∧
        At x .reserved hold (some .allocated) t ∧ (hold = .held ∨ hold = .allocated))
      (allocateReservation rt ⟨tenantID, x.id, allocateKey x.key⟩) s := by
  have mine : hold = .held ∨ hold = .allocated := by
    cases hold <;> simp_all [confirms]
  have here := At.sound h (confirms_legal going phase)
  have fits := (fit.allocates going).1
  have after : ∀ {t}, At x .reserved hold (some .allocated) t → Sound rt x t := fun at_ => by
    refine At.sound at_ (confirms_legal going ?_)
    rcases mine with rfl | rfl
    · rfl
    · rfl
  unfold allocateReservation
  simp only [parseUUID, drives.parse]
  refine reaches_ask here fun c answer t ok run => ?_
  have reached := healthy_inner.reached _ _ _ ok
  have either : status = some .active ∨ status = some .allocated := by
    cases hold <;> rcases status with _ | _ | _ | _ | _ <;> simp_all [confirms]
  rcases either with rfl | rfl
  · have rows : stored rt x = true := by
      simp only [goesThrough, Bool.and_eq_true] at going
      exact going.2
    obtain ⟨⟨n, rfl⟩, rows', db, rfl⟩ := rowsAt_allocate h.rows h.unlocked reached drives.castable
      fits text (fit.event rows _) run
    have at_ := h.withRows rows'
    exact ⟨after at_, ⟨_, rfl⟩, at_, mine⟩
  · obtain ⟨⟨n, rfl⟩, rfl⟩ := rowsAt_allocate_again h.rows h.unlocked reached drives.castable fits
      run
    exact ⟨after h, ⟨_, rfl⟩, h, mine⟩

theorem confirmSteps_phase {txn : String} (fit : Fits rt x)
    (drives : DrivesCanonical rt x tenantID ls)
    (going : goesThrough rt x = true) (text : storable x.id = true)
    (phase : confirms hold status = true) (h : At x .reserved hold status s) :
    Resumes rt x (fun _ t => Sound rt x t) (confirmSteps rt (driven x tenantID ls ttl) txn) s := by
  have here := At.sound h (confirms_legal going phase)
  unfold confirmSteps
  refine reaches_then (resumes_call here (allocate_phase fit drives going text phase h)) ?_
  rintro res t ⟨⟨resp, rfl⟩, at_, mine⟩
  have sound : Sound rt x t := by
    refine At.sound at_ (confirms_legal going ?_)
    rcases mine with rfl | rfl
    · rfl
    · rfl
  refine reaches_ask sound fun c allowed u ok run => ?_
  cases run
  cases c.pass with
  | false => exact sound
  | true =>
    refine reaches_then (Q := fun res u => (∃ resp, res = .ok resp) ∧
      At x .reserved .allocated (some .allocated) u) ?_ ?_
    · refine resumes_call sound (reaches_last (o := .confirmStockAllocation _) sound
        fun c res u ok run => ?_)
      obtain ⟨resp, db, rfl, stock, rfl⟩ := stockAt_confirm fit.regular at_.stock mine
        (healthy_inner.reached _ _ _ ok) drives.castable drives.parse (stockLines_perm drives.lines)
        (confirmKey_fits (at_.stock.keyFits (by rcases mine with rfl | rfl <;> decide)))
        (fit.allocates going).2 run
      have done := at_.withStock stock
      exact ⟨At.sound done (confirms_legal going rfl), ⟨resp, rfl⟩, done⟩
    · rintro res u ⟨⟨resp, rfl⟩, done⟩
      have sound := At.sound done (confirms_legal going rfl)
      refine reaches_ask sound fun c answer v ok run => ?_
      rcases filed_transition done.filed run with ⟨rfl, -, -, db, filed, rfl⟩ | ⟨⟨e, rfl⟩, rfl⟩
      · exact At.sound (done.withOrder filed) rfl
      · exact sound

theorem chargeStep_phase (total : 0 < orderTotal x.lines) (lines : ls.Perm x.lines)
    (here : Sound rt x s) :
    Resumes rt x (fun res t => t = s ∧ ∀ r, res = .ok r →
        ((paid rt x = true ∧ ∃ txn, r = .ok txn) ∨ (paid rt x = false ∧ ∃ e, r = .error e)))
      (chargeStep (driven x tenantID ls ttl)) s := by
  unfold chargeStep
  dsimp only
  rw [if_neg (by decide)]
  refine reaches_ask here fun c allowed t ok run => ?_
  cases run
  cases c.pass with
  | false => exact ⟨rfl, fun r eq => by cases eq⟩
  | true =>
    refine reaches_ask here fun c res t ok run => ?_
    cases run
    refine ⟨rfl, fun r eq => ?_⟩
    have positive : ¬orderTotal ls ≤ 0 := by
      rw [orderTotal_perm lines]
      exact Int64.not_le.2 total
    simp only [charge, if_neg positive, Except.ok.injEq] at eq
    unfold paid
    cases listed : rt.sandboxFailListed x.id with
    | false =>
      simp only [listed, Bool.false_eq_true, if_false] at eq
      exact .inl ⟨rfl, _, eq.symm⟩
    | true =>
      simp only [listed, if_true] at eq
      exact .inr ⟨rfl, _, eq.symm⟩

theorem opens_cases (open_ : opens (paid rt x) (stored rt x) hold status = true)
    (some_ : status ≠ none) :
    stored rt x = true ∧ (paid rt x = true → confirms hold status = true) ∧
      (paid rt x = false → releases hold status = true) := by
  generalize paid rt x = p at open_
  generalize stored rt x = st at open_
  cases hold <;> rcases status with _ | _ | _ | _ | _ <;> simp_all [opens, confirms, releases]

theorem paySteps_phase (fit : Fits rt x) (drives : DrivesCanonical rt x tenantID ls)
    (text : storable x.id = true)
    (aggregate : varchar 255 (x.tenant.text ++ ":" ++ x.id) = true)
    (open_ : opens (paid rt x) (stored rt x) hold status = true) (some_ : status ≠ none)
    (h : At x .reserved hold status s) :
    Resumes rt x (fun _ t => Sound rt x t) (paySteps rt (driven x tenantID ls ttl)) s := by
  have here := At.sound h (opens_legal open_ (.inr rfl))
  obtain ⟨rows, paid_, declined_⟩ := opens_cases open_ some_
  unfold paySteps
  refine reaches_then (chargeStep_phase fit.total drives.lines here) ?_
  rintro res t ⟨rfl, decided⟩
  rcases res with e | (e | txnID)
  · exact here
  · rcases decided _ rfl with ⟨-, txn, eq⟩ | ⟨declined, -⟩
    · cases eq
    · rw [drives.canonical (by simp [goesThrough, declined])]
      refine reaches_then (compensate_phase fit declined rows text aggregate (declined_ declined) h)
        ?_
      rintro answer u ⟨rfl, sound⟩
      exact sound
  · rcases decided _ rfl with ⟨paid', -⟩ | ⟨-, e, eq⟩
    · refine reaches_ask here fun c answer u ok run => ?_
      obtain ⟨db, filed, rfl⟩ := filed_record h.filed run
      have at_ := h.withOrder filed
      cases answer with
      | error e => exact At.sound at_ (opens_legal open_ (.inr rfl))
      | ok done =>
        exact confirmSteps_phase fit drives (by simp [goesThrough, paid', rows]) text (paid_ paid')
          at_
    · cases eq

theorem runSaga_phase (fit : Fits rt x) (drives : DrivesCanonical rt x tenantID ls)
    (resumable_ : state = .pendingPayment ∨ state = .reserved)
    (open_ : opens (paid rt x) (stored rt x) hold status = true) (h : At x state hold status s) :
    Resumes rt x (fun _ t => Sound rt x t) (runSaga rt (driven x tenantID ls ttl)) s := by
  have keeps : ∀ hold status t, opens (paid rt x) (stored rt x) hold status = true →
      At x state hold status t → Sound rt x t := fun hold status t open_ at_ =>
    At.sound at_ (opens_legal open_ resumable_)
  have undoes : stored rt x = false → Undoes x tenantID hold := fun unfit => by
    have stops : goesThrough rt x = false := by simp [goesThrough, unfit]
    obtain ⟨comps, key⟩ := fit.undone stops
    rw [drives.canonical stops]
    exact ⟨by simp [comps], key, fun _ => comps⟩
  have here := keeps _ _ _ open_ h
  unfold runSaga
  refine reaches_ask here fun c allowed t ok run => ?_
  cases run
  cases c.pass with
  | false => exact here
  | true =>
    refine reaches_then (Q := Reserved rt x state status)
      (resumes_call here (wp_mono (fun res t after => ?_)
        (reserve_phase healthy_inner fit.regular drives.castable drives.parse drives.lines undoes
          open_ keeps (fun t o at_ mine => opened_sound at_ mine (opens_legal open_ resumable_))
          h))) ?_
    · obtain ⟨hold', status', open', at_, -⟩ := id after
      exact ⟨keeps _ _ _ open' at_, after⟩
    · rintro res t ⟨hold', status', open', at_, -, outcome⟩
      have failed : ∀ {α : Type} {msg : String} {a : α}, status' = none → hold' ≠ .held →
          Resumes rt x (fun _ t => Sound rt x t) (do
            let _ ← failSaga rt tenantID x.id msg
            pure a) t := by
        rintro α msg a rfl given
        exact reaches_then (failSaga_phase drives.parse resumable_ open' given at_)
          fun _ _ sound => sound
      cases res with
      | error e =>
        rcases outcome with ⟨resp, eq, -⟩ | ⟨-, none_, given⟩
        · cases eq
        · exact failed none_ given
      | ok resp =>
        dsimp only
        split
        · rename_i refused
          rcases outcome with ⟨resp', eq, success, -⟩ | ⟨-, none_, given⟩
          · cases eq
            rw [refused] at success
            cases success
          · exact failed none_ given
        · rename_i success
          have some_ : status' ≠ none := by
            rcases outcome with ⟨-, -, -, some_⟩ | ⟨refused, -, -⟩
            · exact some_
            · exact absurd (refused resp rfl) success
          have sound := keeps _ _ _ open' at_
          refine reaches_ask sound fun c answer u ok run => ?_
          rcases filed_transition at_.filed run with
            ⟨rfl, text, aggregate, db, filed, rfl⟩ | ⟨⟨e, rfl⟩, rfl⟩
          · exact paySteps_phase fit drives text aggregate open' some_ (at_.withOrder filed)
          · exact sound

theorem resume_phase {limit : Int32} (fit : Fits rt x)
    (ok_ : legal (paid rt x) (stored rt x) state hold status = true)
    (h : At x state hold status s) :
    Resumes rt x (fun _ t => Sound rt x t) (resumePendingSagas rt limit) s := by
  have here := At.sound h ok_
  unfold resumePendingSagas
  refine reaches_ask here fun c found t ok run => ?_
  obtain ⟨same, spec⟩ := filed_resumable h.filed run
  subst same
  cases found with
  | error e => exact here
  | ok sagas =>
    rcases spec sagas rfl with rfl | ⟨saga, rfl, tenant, order, key, -, resumable_⟩
    · exact here
    · have open_ : opens (paid rt x) (stored rt x) hold status = true := by
        rcases resumable_ with rfl | rfl
        · exact ok_
        · exact ok_
      refine reaches_ask here fun c found u ok run => ?_
      rw [tenant, order] at run
      cases found with
      | error e =>
        rcases orderTx_some run with ⟨a, db, eq, -⟩ | ⟨-, rfl⟩
        · cases eq
        · exact here
      | ok lines =>
        obtain ⟨lines_, rfl⟩ := filed_lines h.filed run
        have input : resumeInput saga lines = driven x x.tenant.text lines defaultTTL := by
          unfold resumeInput
          rw [tenant, order, key]
        dsimp only
        rw [input]
        exact reaches_then (runSaga_phase fit ⟨⟨castable_text rt _, rt.scan_text _, lines_⟩,
          fun _ => rfl⟩ resumable_ open_ h) fun _ _ sound => sound

end Phases

section Runs

variable {rt : Runtime} {t : UUID} {req : CreateOrderRequest} {s s' : Stack}

/-- The order of a request as it is stored, with the buckets before it. -/
def requested (t : UUID) (req : CreateOrderRequest) (s : Stack) : Order :=
  ⟨t, req.orderId, column 255 req.idempotencyKey, req.lines.map storedLine, held s.stock, [], true⟩

def ordered (rt : Runtime) (t : UUID) (req : CreateOrderRequest) (s : Stack) : Order :=
  { requested t req s with
    comps := if goesThrough rt (requested t req s) then [] else
      [compensationKey t.text req.orderId] }

structure Unused (t : UUID) (req : CreateOrderRequest) (s : Stack) : Prop where
  checked : Checked s.stock
  numbered : ReservationRuns.Numbered s.reservation
  listed : OrderSteps.Listed s.order
  unlocked : s.openTxs = []
  quiet : resumableSagas s.order = []
  saga : s.order.sagas t req.orderId = none
  lines : s.order.orderLines t req.orderId = []
  rows : rowsOf s t req.orderId = []
  unseen : ∀ k ∈ [reserveKey req.idempotencyKey, confirmKey req.idempotencyKey,
    compensationKey t.text req.orderId], ¬Seen s.stock t k
  unrecorded : ∀ k ∈ [reserveKey req.idempotencyKey, allocateKey req.idempotencyKey,
    compensationKey t.text req.orderId], ¬Recorded reservationKeys s.reservation t k

/-- What the keys, the texts and the buckets have to allow for the steps of the
saga to be repeated safely. -/
structure Repeatable (rt : Runtime) (t : UUID) (req : CreateOrderRequest) (s : Stack) : Prop where
  undone : goesThrough rt (requested t req s) = false → req.tenantId = t.text ∧
    varchar 255 (compensationKey t.text req.orderId) = true ∧
    column 255 (compensationKey t.text req.orderId) ≠ reserveKey req.idempotencyKey
  payload : stored rt (requested t req s) = true → rt.jsonb (orderPayload req.orderId) = true
  allocates : goesThrough rt (requested t req s) = true →
    varchar 255 (allocateKey req.idempotencyKey) = true ∧
    ∀ loc, (held s.stock loc).2.2 + quantityAt t loc (stockLines (req.lines.map storedLine)) ≤
      2147483647

def resumeRuns (rt : Runtime) : List (Int32 × List Choice) → Stack → Option Stack
  | [], s => some s
  | (limit, choices) :: rest, s =>
    match runFor (machine rt) 0 healthy choices (resumePendingSagas rt limit) s with
    | some t => resumeRuns rt rest t
    | none => none

/-- `CreateOrder` stopped somewhere, and then resumed any number of times. -/
def crashRun (rt : Runtime) (req : CreateOrderRequest) (first : List Choice)
    (passes : List (Int32 × List Choice)) (s : Stack) : Option Stack :=
  match runFor (machine rt) 0 healthy first (createOrder rt req) s with
  | some t => resumeRuns rt passes t
  | none => none

/-- What an order leaves behind in each state of its saga, by its stored lines. -/
def Outcome (t : UUID) (req : CreateOrderRequest) (s s' : Stack) : SagaState → Prop
  | .pendingPayment | .reserved => True
  | .confirmed =>
    (∀ loc, held s'.stock loc =
      held s.stock loc + quantityAt t loc (stockLines (req.lines.map storedLine)) • (-1, 0, 1)) ∧
    ((rowsOf s' t req.orderId).map rowLine).Perm (stockLines (req.lines.map storedLine)) ∧
    ∀ row ∈ rowsOf s' t req.orderId, row.status = .allocated
  | .compensated =>
    held s'.stock = held s.stock ∧
    ((rowsOf s' t req.orderId).map rowLine).Perm (stockLines (req.lines.map storedLine)) ∧
    ∀ row ∈ rowsOf s' t req.orderId, row.status = .released
  | .failed => held s'.stock = held s.stock ∧ rowsOf s' t req.orderId = []
  | _ => False

theorem ordered_comps (stops : goesThrough rt (requested t req s) = false) :
    (ordered rt t req s).comps = [compensationKey t.text req.orderId] := by
  simp [ordered, stops]

theorem mem_ordered_comps {k : String} (member : k ∈ (ordered rt t req s).comps) :
    goesThrough rt (requested t req s) = false ∧ k = compensationKey t.text req.orderId := by
  cases going : goesThrough rt (requested t req s) with
  | true => simp [ordered, going] at member
  | false =>
    rw [ordered_comps going, List.mem_singleton] at member
    exact ⟨rfl, member⟩

/-- A request that is accepted and repeatable gives an order that can be driven
to an end. -/
theorem Repeatable.fits {total : Int64} {db : OrderDb} (condition : Repeatable rt t req s)
    (own : column 255 req.orderId = req.orderId)
    (checked : Checked s.stock) (created : OrderSteps.Creatable t req total db)
    (some_ : req.lines ≠ []) (positive : 0 < orderTotal req.lines) :
    Fits rt (ordered rt t req s) where
  regular := by
    refine ⟨own, fun empty => some_ (List.map_eq_nil_iff.1 empty), ?_, lines_positive created,
      fun loc => representable_held checked loc, fun k member => ?_⟩
    · exact storedLine_stored req.lines
    · obtain ⟨stops, rfl⟩ := mem_ordered_comps member
      exact reserveKey_column_ne (condition.undone stops).2.2
  total := by
    rw [← orderTotal_stored] at positive
    exact positive
  undone stops := ⟨ordered_comps stops, varchar_keyFits (condition.undone stops).2.1⟩
  payload := condition.payload
  allocates going := by
    have fits := varchar_keyFits (condition.allocates going).1
    refine ⟨?_, (condition.allocates going).2⟩
    change keyFits (allocateKey (column 255 req.idempotencyKey)) = true
    rwa [column_of_append (allocateKey_stored fits)]

theorem Unused.fresh (rt : Runtime) (unused : Unused t req s) : Fresh (ordered rt t req s) s where
  checked := unused.checked
  numbered := unused.numbered
  listed := unused.listed
  unlocked := unused.unlocked
  quiet := unused.quiet
  lines := unused.lines
  rows := unused.rows
  foreign _ _ := rfl
  base := rfl
  unseen k member := by
    rcases List.mem_cons.1 member with rfl | member
    · exact fun seen => unused.unseen (reserveKey req.idempotencyKey) (by simp)
        (StockSteps.seen_column (column_append ..).symm seen)
    · rcases List.mem_cons.1 member with rfl | member
      · exact fun seen => unused.unseen (confirmKey req.idempotencyKey) (by simp)
          (StockSteps.seen_column (column_append ..).symm seen)
      · rw [(mem_ordered_comps member).2]
        exact unused.unseen _ (by simp)
  unrecorded k member := by
    rcases List.mem_cons.1 member with rfl | member
    · exact fun old => unused.unrecorded (reserveKey req.idempotencyKey) (by simp)
        (recorded_column (column_append ..).symm old)
    · rcases List.mem_cons.1 member with rfl | member
      · exact fun old => unused.unrecorded (allocateKey req.idempotencyKey) (by simp)
          (recorded_column (column_append ..).symm old)
      · rw [(mem_ordered_comps member).2]
        exact unused.unrecorded _ (by simp)

def Begun (rt : Runtime) (t : UUID) (req : CreateOrderRequest) (s u : Stack) : Prop :=
  u = s ∨ (Fits rt (ordered rt t req s) ∧ Sound rt (ordered rt t req s) u)

theorem createOrder_phase (parse : rt.scan req.tenantId = some t)
    (own : column 255 req.orderId = req.orderId)
    (unforced : req.forcePaymentFailure = false) (unused : Unused t req s)
    (condition : Repeatable rt t req s) :
    Reaches rt (fun op c s => healthy op c s = true) (Begun rt t req s)
      (fun _ u => Begun rt t req s u) (createOrder rt req) s := by
  have idle : Begun rt t req s s := .inl rfl
  unfold createOrder
  simp only [parseUUID, parse]
  split
  · exact idle
  split
  · exact idle
  split
  · exact idle
  rename_i some_ total
  refine reaches_ask idle fun c answer u ok run => ?_
  rcases exec_createOrderRow run with ⟨rfl, castable, created, rfl⟩ | ⟨⟨e, rfl⟩, rfl⟩
  · have fit := condition.fits own unused.checked created some_ (Int64.not_le.1 total)
    have start := (unused.fresh rt).created rt own rfl rfl created
    have saga : Resumes rt (ordered rt t req s) (fun _ u => Sound rt (ordered rt t req s) u)
        (runSaga rt ⟨req.tenantId, t, req.orderId, req.lines, req.idempotencyKey,
          ttlOrDefault req.ttlSeconds, false⟩)
        { s with order := OrderSteps.orderCreated rt t req (orderTotal req.lines) s.order } := by
      by_cases whole : column 255 req.idempotencyKey = req.idempotencyKey ∧
          req.lines.map storedLine = req.lines
      · have drives : DrivesCanonical rt (ordered rt t req s) req.tenantId req.lines :=
          ⟨⟨castable, parse, .of_eq whole.2.symm⟩, fun stops => (condition.undone stops).1⟩
        have run : Resumes rt (ordered rt t req s) (fun _ u => Sound rt (ordered rt t req s) u)
            (runSaga rt (driven (ordered rt t req s) req.tenantId req.lines
              (ttlOrDefault req.ttlSeconds))) _ := runSaga_phase fit drives (.inl rfl) rfl start
        have key : (ordered rt t req s).key = req.idempotencyKey := whole.1
        rwa [driven, key] at run
      · refine wp_mono (fun _ u free => ?_) (runSaga_refused (x := ordered rt t req s)
          healthy_inner parse rfl whole (At.sound start rfl) start)
        rcases free with free | free
        · exact At.sound free rfl
        · exact At.sound free rfl
    dsimp only
    rw [unforced]
    exact wp_weaken (fun u sound => .inr ⟨fit, sound⟩)
      (wp_mono (fun _ u sound => .inr ⟨fit, sound⟩) saga)
  · cases e with
    | idempotentReplay =>
      refine reaches_ask idle fun c answer v ok run => ?_
      obtain rfl := exec_getSaga run
      cases answer with
      | error e => exact idle
      | ok saga => exact idle
    | _ => exact idle

def Stopped (rt : Runtime) (t : UUID) (req : CreateOrderRequest) (s u : Stack) : Prop :=
  u = s ∨ (Fits rt (ordered rt t req s) ∧ ∃ state hold status,
    legal (paid rt (ordered rt t req s)) (stored rt (ordered rt t req s)) state hold status = true ∧
      At (ordered rt t req s) state hold status u)

theorem Begun.stopped {u : Stack} (unlocked : s.openTxs = []) (h : Begun rt t req s u) :
    Stopped rt t req s (u.close 0) := by
  rcases h with rfl | ⟨fit, state, hold, status, ok, at_⟩
  · refine .inl ?_
    cases u
    simp_all [Stack.close]
  · exact .inr ⟨fit, state, hold, status, ok, at_⟩

theorem runFor_stopped {α : Type} {p : Code α} {choices : List Choice} {u v : Stack}
    (unlocked : s.openTxs = [])
    (h : Reaches rt (fun op c s => healthy op c s = true) (Begun rt t req s)
      (fun _ u => Begun rt t req s u) p u)
    (run : runFor (machine rt) 0 healthy choices p u = some v) : Stopped rt t req s v := by
  obtain ⟨p', w, exec_, rfl⟩ := exec_of_runFor _ _ run
  rcases wp_stopped exec_ h with begun | ⟨a, -, begun⟩
  · exact begun.stopped unlocked
  · exact begun.stopped unlocked

theorem runFor_listed {α : Type} {p : Code α} {choices : List Choice} {u v : Stack}
    (run : runFor (machine rt) 0 healthy choices p u = some v)
    (listed : OrderSteps.Listed u.order) : OrderSteps.Listed v.order := by
  obtain ⟨p', w, exec_, rfl⟩ := exec_of_runFor _ _ run
  have kept : OrderSteps.Listed w.order := by
    clear run
    induction exec_ with
    | refl p s => exact listed
    | next ok step tail ih => exact ih (exec_listed step listed)
  exact kept

theorem resumeRuns_listed {passes : List (Int32 × List Choice)} {u : Stack}
    (run : resumeRuns rt passes u = some s') (listed : OrderSteps.Listed u.order) :
    OrderSteps.Listed s'.order := by
  induction passes generalizing u with
  | nil =>
    cases run
    exact listed
  | cons pass rest ih =>
    simp only [resumeRuns] at run
    split at run
    · rename_i v stopped
      exact ih run (runFor_listed stopped listed)
    · cases run

theorem resume_idle {limit : Int32} (unused : Unused t req s) :
    Reaches rt (fun op c s => healthy op c s = true) (Begun rt t req s)
      (fun _ u => Begun rt t req s u) (resumePendingSagas rt limit) s := by
  refine wp_mono (fun _ u same => .inl same) (resume_none ?_ unused.quiet)
  exact .inl rfl

theorem resumeRuns_stopped {passes : List (Int32 × List Choice)} {u : Stack}
    (unused : Unused t req s) (h : Stopped rt t req s u)
    (run : resumeRuns rt passes u = some s') : Stopped rt t req s s' := by
  induction passes generalizing u with
  | nil =>
    cases run
    exact h
  | cons pass rest ih =>
    simp only [resumeRuns] at run
    split at run
    · rename_i v stopped
      refine ih (runFor_stopped unused.unlocked ?_ stopped) run
      rcases h with rfl | ⟨fit, state, hold, status, ok, at_⟩
      · exact resume_idle unused
      · exact wp_weaken (fun _ sound => .inr ⟨fit, sound⟩)
          (wp_mono (fun _ _ sound => .inr ⟨fit, sound⟩) (resume_phase fit ok at_))
    · cases run

theorem legal_outcome {u : Stack} {state : SagaState} {hold : Hold}
    {status : Option ReservationStatus}
    (ok : legal (paid rt (ordered rt t req s)) (stored rt (ordered rt t req s)) state hold status =
      true) (h : At (ordered rt t req s) state hold status u) : Outcome t req s u state := by
  have levels : ∀ loc, held u.stock loc =
      held s.stock loc + quantityAt t loc (stockLines (req.lines.map storedLine)) • hold.shift :=
    h.stock.levels
  have unmoved : hold.shift = 0 → held u.stock = held s.stock := by
    intro zero
    funext loc
    rw [levels, zero, smul_zero, add_zero]
  cases state with
  | pendingPayment => trivial
  | reserved => trivial
  | allocated => cases hold <;> rcases status with _ | _ | _ | _ | _ <;> cases ok
  | confirmed =>
    obtain ⟨rfl, rfl⟩ : hold = .allocated ∧ status = some .allocated := by
      cases hold <;> rcases status with _ | _ | _ | _ | _ <;> simp_all [legal]
    exact ⟨levels, h.rows.stock_perm (by simp), fun row member =>
      Option.some.inj (h.rows.uniform row member)⟩
  | compensated =>
    obtain ⟨rfl, rfl⟩ : hold = .returned ∧ status = some .released := by
      cases hold <;> rcases status with _ | _ | _ | _ | _ <;> simp_all [legal]
    exact ⟨unmoved rfl, h.rows.stock_perm (by simp), fun row member =>
      Option.some.inj (h.rows.uniform row member)⟩
  | failed =>
    obtain ⟨rfl, zero⟩ : status = none ∧ hold.shift = 0 := by
      cases hold <;> rcases status with _ | _ | _ | _ | _ <;> first | exact ⟨rfl, rfl⟩ | cases ok
    exact ⟨unmoved zero, h.rows.rows_nil⟩

end Runs

/-- However often the stack stops and the sagas are resumed, an order that ends
has moved its lines once, or has left everything as it was. -/
theorem resume_exactly_once (rt : Runtime) (t : UUID) (req : CreateOrderRequest) (s s' : Stack)
    (first : List Choice) (passes : List (Int32 × List Choice))
    (parse : rt.scan req.tenantId = some t) (unforced : req.forcePaymentFailure = false)
    (unused : Unused t req s) (condition : Repeatable rt t req s)
    (run : crashRun rt req first passes s = some s') (saga : SagaInstance)
    (found : s'.order.sagas t req.orderId = some saga) : Outcome t req s s' saga.state := by
  unfold crashRun at run
  split at run
  · rename_i u stopped
    -- a saga is filed under an order id as it is stored
    have own := (resumeRuns_listed run (runFor_listed stopped unused.listed)).within _ _ _ found
    have start := runFor_stopped unused.unlocked
      (createOrder_phase parse own unforced unused condition) stopped
    rcases resumeRuns_stopped unused start run with rfl | ⟨-, state, hold, status, ok, at_⟩
    · rw [unused.saga] at found
      cases found
    · obtain ⟨saga', found', rfl, -⟩ := at_.filed.saga
      have same : saga' = saga := Option.some.inj (found'.symm.trans found)
      rw [← same]
      exact legal_outcome ok at_
  · cases run

theorem sampleStack_unused (o key : String) :
    Unused sampleTenant (sampleOrder o key) sampleStack where
  checked := sampleStack_checked
  numbered := ReservationRuns.numbered_empty
  listed := OrderSteps.listed_empty
  unlocked := rfl
  quiet := rfl
  saga := rfl
  lines := rfl
  rows := rfl
  unseen k _ seen := by simp [Seen, sampleStack, Stack.stocked] at seen
  unrecorded k _ old := by
    simp [Recorded, reservationKeys, KeyTable.has, sampleStack, Stack.stocked,
      ReservationDb.empty] at old

theorem resume_exactly_once_interrupted : ∃ u, crashRun (reference []) (sampleOrder "ord-1" "key-1")
      (List.replicate 5 .healthy)
      [(10, List.replicate 16 .healthy), (10, List.replicate 24 .healthy)]
      sampleStack = some u ∧ held u.stock ⟨sampleTenant, "SKU", "W1"⟩ = (3, 0, 2) := by
  have ends : (crashRun (reference []) (sampleOrder "ord-1" "key-1") (List.replicate 5 .healthy)
      [(10, List.replicate 16 .healthy), (10, List.replicate 24 .healthy)] sampleStack).map
        (fun u => sagaState u sampleTenant "ord-1") = some (some .confirmed) := by
    rw [reference_recognizing]
    decide +kernel
  obtain ⟨u, run, state⟩ := Option.map_eq_some_iff.1 ends
  obtain ⟨saga, found, confirmed⟩ := Option.map_eq_some_iff.1 state
  have condition : Repeatable (reference []) sampleTenant (sampleOrder "ord-1" "key-1")
      sampleStack := by
    refine ⟨fun stops => ?_, fun _ => rfl, fun _ => ⟨by decide, fun loc => ?_⟩⟩
    · exact absurd stops (by decide)
    · by_cases here : loc = ⟨sampleTenant, "SKU", "W1"⟩
      · subst here
        decide
      · rw [quantityAt_eq_zero (fun l hl eq => here ?_)]
        · simp [held, sampleStack, Stack.stocked, here]
        · rw [← eq, List.mem_singleton.1 hl]
          rfl
  have outcome := resume_exactly_once (reference []) sampleTenant (sampleOrder "ord-1" "key-1")
    sampleStack u _ _ (by decide) rfl (sampleStack_unused _ _) condition run saga found
  rw [confirmed] at outcome
  refine ⟨u, run, ?_⟩
  rw [outcome.1]
  decide

theorem toLower_hexDigit {c : Char} (h : hexDigit c = true) : c.toLower = c := by
  unfold hexDigit at h
  unfold Char.toLower
  simp only [Char.isDigit, Bool.or_eq_true, Bool.and_eq_true, decide_eq_true_eq] at h
  rw [dif_neg]
  intro upper
  simp only [Char.le_def, ge_iff_le, UInt32.le_iff_toNat_le] at h upper
  have codes : ('0'.val.toNat = 48 ∧ '9'.val.toNat = 57) ∧
      ('a'.val.toNat = 97 ∧ 'f'.val.toNat = 102) ∧ 'A'.val.toNat = 65 ∧ 'Z'.val.toNat = 90 := by
    decide
  omega

def lowered (s : String) : String := String.ofList (s.toList.map Char.toLower)

theorem lowered_text (u : UUID) : lowered u.text = u.text := by
  have canonical := u.canonical
  simp only [canonicalUUID, Bool.and_eq_true, List.all_eq_true] at canonical
  have chars : ∀ c ∈ u.text.toList, c.toLower = c := by
    intro c member
    obtain ⟨i, lt, rfl⟩ := List.getElem_of_mem member
    have here := canonical.2 (u.text.toList[i], i) (by
      rw [List.mem_zipIdx_iff_getElem?]
      simp)
    simp only at here
    split at here
    · simp only [beq_iff_eq] at here
      rw [here]
      rfl
    · exact toLower_hexDigit here
  unfold lowered
  rw [List.map_congr_left chars, List.map_id']
  exact String.ofList_toList

def caseBlind (declined : List String) : Runtime :=
  { reference declined with
    scan := fun s => (reference declined).scan (lowered s)
    scan_text := fun u => by
      rw [lowered_text]
      exact (reference declined).scan_text u
    cast := fun s => (reference declined).cast (lowered s)
    cast_text := fun u => by
      rw [lowered_text]
      exact (reference declined).cast_text u
    cast_scan := fun hs hc => (reference declined).cast_scan hs hc }

def letteredTenant : UUID := ⟨"aaaaaaaa-0000-4000-8000-000000000001", by decide⟩

def capitalText : String := "AAAAAAAA-0000-4000-8000-000000000001"

theorem capital_scan (declined : List String) :
    (caseBlind declined).scan capitalText = some letteredTenant ∧
      (caseBlind declined).cast capitalText = some letteredTenant := by
  have lower : lowered capitalText = letteredTenant.text := by decide +kernel
  change (reference declined).scan (lowered capitalText) = _ ∧
    (reference declined).cast (lowered capitalText) = _
  rw [lower]
  exact ⟨(reference declined).scan_text _, (reference declined).cast_text _⟩

def familiar (declined : List String) : Runtime :=
  ((caseBlind declined).knowing capitalText letteredTenant (capital_scan declined).1
    (capital_scan declined).2).knowing letteredTenant.text letteredTenant
      (Runtime.scan_text _ _) (Runtime.cast_text _ _)

theorem caseBlind_familiar (declined : List String) : caseBlind declined = familiar declined :=
  ((Runtime.knowing_eq _ _ _).trans (Runtime.knowing_eq _ _ _)).symm

def sharedStack : Stack :=
  .stocked fun loc => if loc = ⟨letteredTenant, "SKU", "W1"⟩ then some ⟨5, 2, 0, false⟩ else none

/-- The first request releases under its own spelling of the tenant and stops
before it has marked the rows; the resumption releases the same lines again,
under the printed form, and takes the units of another order. -/
theorem respelled_tenant_released_twice :
    (crashRun (caseBlind ["ord-1"])
      ⟨"AAAAAAAA-0000-4000-8000-000000000001", "ord-1", [⟨"SKU", "W1", 2, 100⟩], "key-1", 0, false⟩
      (List.replicate 16 .healthy) [(10, List.replicate 23 .healthy)] sharedStack).map (fun u =>
        (sagaState u letteredTenant "ord-1",
          held sharedStack.stock ⟨letteredTenant, "SKU", "W1"⟩,
          held u.stock ⟨letteredTenant, "SKU", "W1"⟩)) =
      some (some .compensated, (5, 2, 0), (7, 0, 0)) := by
  rw [caseBlind_familiar]
  decide +kernel

end Taper.ResumeExact
