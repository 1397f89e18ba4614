import Taper.ReservationRuns
import Taper.ServiceRules

set_option autoImplicit false

/-!
# Allocated rows under interleaving

Releases and allocations lock their rows; a sweep and the undo of a failed
reservation do not, and can return the stock of a row that was allocated
meanwhile. Where neither comes late, allocation is final.
-/
namespace Taper.AllocationFinal
open Messages Platform Ledger ReservationTables ReservationSteps ReservationRuns Program
open ServiceStack Services ServiceRules StackSteps StockHandlers StockTables

def Touches (id : ℕ) : Op → Prop
  | .markExpired row => row.id = id
  | .releaseStock _ rows | .commitRelease _ _ rows => ∃ row ∈ rows, row.id = id
  | _ => False

def Marks (id : ℕ) : Op → Prop
  | .markExpired row => row.id = id
  | _ => False

/-- A row that is not active is in no answer. -/
def Omits (id : ℕ) : (op : Op) → Resp op → Prop
  | .getExpiredReservations _ _, r | .beginRelease _ _, r =>
    ∀ rows, r = .ok rows → ∀ row ∈ rows, row.id ≠ id
  | _, _ => True

/-- From here on the handler leaves the row alone, unless it reads it again. -/
def Spares {α : Type} (id : ℕ) (p : Code α) : Prop :=
  Safe (Omits id) (Touches id) (fun _ => True) p

/-- From here on the handler does not mark the row expired: it is no sweep with
the row in its batch. -/
def Unswept {α : Type} (id : ℕ) (p : Code α) : Prop :=
  Safe (Omits id) (Marks id) (fun _ => True) p

theorem touches_plain (id : ℕ) (op : Op) (h : special op = false) : ¬Touches id op := by
  cases op with
  | markExpired row => cases h
  | releaseStock req rows => cases h
  | commitRelease t req rows => cases h
  | _ => exact fun touch => touch

theorem handlers_spare (rt : Runtime) (id : ℕ) : HandlersSafe rt (Omits id) (Touches id) := by
  have undo : ∀ req, ¬Touches id (.releaseStock (undoOf req) []) := by
    rintro req ⟨row, member, -⟩
    cases member
  have release : ∀ req, ReleaseSafe rt (Omits id) (Touches id) req := by
    refine fun req => ⟨fun _ _ touch => touch, fun t rows _ given => ?_⟩
    have absent : ¬∃ row ∈ rows, row.id = id := fun ⟨row, member, same⟩ =>
      given rows rfl row member same
    exact ⟨absent, absent⟩
  have saga : ∀ input, rt.scan input.tenantID = some input.tenantUUID →
      SagaSafe rt (Omits id) (Touches id) input :=
    fun input coherent => ⟨coherent, fun _ _ _ _ => undo _, fun _ _ touch => touch,
      fun _ _ _ _ _ touch => touch, release _, fun _ _ touch => touch, fun _ _ _ touch => touch,
      fun _ touch => touch⟩
  exact
    { plain := touches_plain id
      undo := fun _ req _ _ _ _ _ => undo req
      insert := fun _ _ _ touch => touch
      release := release
      allocate := fun _ _ touch => touch
      sweep := fun _ _ rows given =>
        ⟨fun _ ⟨row, member, same⟩ => given rows rfl row (List.mem_filter.1 member).1 same,
          fun row member same => given rows rfl row member same⟩
      create := fun _ _ _ touch => touch
      created := fun _ _ _ parse _ => saga _ parse
      cancel := fun _ _ _ _ _ _ _ _ _ _ _ _ touch => touch
      resumed := fun _ _ _ found _ _ _ => saga _ (rt.scan_text found.tenantID) }

def heldAfter (held : List ℕ) : (op : Op) → Resp op → List ℕ
  | .beginRelease _ _, .ok rows => rows.map (·.id)
  | .beginRelease _ _, .error _ => []
  | .commitRelease _ _ _, _ | .endTx, _ => []
  | _, _ => held

def Covered {α : Type} (held : List ℕ) : (op : Op) → (Resp op → Code α) → Prop
  | .releaseStock _ rows, k => ∀ row ∈ rows, row.id ∈ held ∨ ∃ r, ¬Unswept row.id (k r)
  | .commitRelease _ _ rows, _ => ∀ row ∈ rows, row.id ∈ held
  | _, _ => True

def Guarded {α : Type} (left : List ℕ) : Code α → List ℕ → Prop
  | .pure _, held => held = left
  | .step op k, held => Covered held op k ∧ ∀ r, Guarded left (k r) (heldAfter held op r)

variable {held : List ℕ} {rows : List Reservation} {after pool : StackPool} {i : ℕ}
  {m : Move Handler Choice}

section Guarded

variable {α β : Type}

theorem covered_bind {op : Op} {k : Resp op → Code α} {f : α → Code β} (h : Covered held op k) :
    Covered held op fun r => k r >>= f := by
  cases op with
  | releaseStock req rows =>
    intro row member
    rcases h row member with locked | ⟨r, marks⟩
    · exact .inl locked
    · exact .inr ⟨r, fun safe => marks (safe_of_bind safe)⟩
  | commitRelease t req rows => exact h
  | _ => trivial

variable {left : List ℕ}

theorem guarded_bind {mid : List ℕ} {p : Code α} {f : α → Code β} (h : Guarded mid p held)
    (rest : ∀ a, Guarded left (f a) mid) :
    Guarded left (p >>= f) held := by
  induction p generalizing held with
  | pure a =>
    have same : held = mid := h
    rw [same]
    exact rest a
  | step op k ih => exact ⟨covered_bind h.1, fun r => ih r (h.2 r)⟩

theorem guarded_then {op : Op} {f : Resp op → Code α} (here : Covered held op f)
    (rest : ∀ r, Guarded left (f r) (heldAfter held op r)) :
    Guarded left (ask op >>= f) held := ⟨here, rest⟩

theorem guarded_ask {op : Op} (h : ordinary op = true) : Guarded [] (ask op) [] := by
  cases op with
  | releaseStock req rows => cases h
  | beginRelease t req => cases h
  | commitRelease t req rows => cases h
  | markExpired row => cases h
  | _ => exact ⟨trivial, fun _ => rfl⟩

theorem guarded_rpc {site : Site} {body : Code (Except Failure α)}
    (inner : Guarded held body held) : Guarded held (rpc site body) held := by
  refine guarded_then trivial fun sent => ?_
  cases sent with
  | false => rfl
  | true =>
    refine guarded_bind inner fun res => guarded_then trivial fun answered => ?_
    cases answered with
    | false => rfl
    | true => rfl

theorem guarded_releaseStock {req : ReleaseStockRequest} (locked : ∀ row ∈ rows, row.id ∈ held) :
    Guarded held (ask (.releaseStock req rows)) held :=
  ⟨fun row member => .inl (locked row member), fun _ => rfl⟩

theorem release_guarded (rt : Runtime) (req : ReleaseRequest) :
    Guarded [] (release rt req) [] := by
  unfold release
  split
  · rfl
  · refine guarded_then trivial fun claim => ?_
    match claim with
    | .error e =>
      cases e with
      | _ => rfl
    | .ok [] => rfl
    | .ok (row :: rest) =>
      have locked : ∀ x ∈ row :: rest, x.id ∈ (row :: rest).map (·.id) :=
        fun x member => List.mem_map_of_mem member
      refine guarded_bind (guarded_rpc (guarded_releaseStock locked)) fun answer => ?_
      cases answer with
      | error e => exact guarded_then trivial fun _ => rfl
      | ok stockResp =>
        refine guarded_then locked fun done => ?_
        cases done with
        | error e => rfl
        | ok u => rfl

theorem forEach_marks {row : Reservation} (member : row ∈ rows) :
    ¬Unswept row.id (Prog.forEach markExpired rows) := by
  induction rows with
  | nil => cases member
  | cons first rest ih =>
    intro safe
    rcases List.mem_cons.1 member with rfl | later
    · exact safe.1 rfl
    · exact ih later ((safe.2 (.ok ()) trivial).2 (.ok ()) trivial)

theorem sweepGroup_guarded (k : GroupKey) (rows : List Reservation) :
    Guarded [] (sweepGroup k rows) [] := by
  have marks : Guarded [] (Prog.forEach markExpired rows) [] := by
    induction rows with
    | nil => rfl
    | cons row rest ih =>
      have first : Guarded [] (markExpired row) [] := by
        refine ⟨trivial, fun marked => ?_⟩
        cases marked with
        | error e => rfl
        | ok u => exact ⟨trivial, fun _ => rfl⟩
      exact guarded_bind first fun _ => ih
  refine ⟨trivial, fun sent => ?_⟩
  cases sent with
  | false => rfl
  | true =>
    refine ⟨fun row member => .inr ⟨.ok ⟨true, []⟩, fun safe => ?_⟩, fun res => ?_⟩
    · exact forEach_marks member (safe.2 true trivial)
    · refine ⟨trivial, fun answered => ?_⟩
      cases answered with
      | false => rfl
      | true =>
        cases res with
        | error e => rfl
        | ok stockResp => exact marks

theorem reserve_guarded (rt : Runtime) (req : ReserveRequest) :
    Guarded [] (reserve rt req) [] := by
  have walks : Walks (fun op => ordinary op = true) fun _ p => Guarded [] p [] :=
    ⟨fun _ => rfl, fun h rest => guarded_bind h rest, fun _ => guarded_ask, fun op idle => by
      cases op <;> first | rfl | cases idle⟩
  exact walks.reserve (fun _ => rfl) (fun _ _ _ => rfl)
    (guarded_releaseStock fun _ member => (List.not_mem_nil member).elim)

theorem guarded_composes (rt : Runtime) : Composes rt fun _ p => Guarded [] p [] where
  pure _ := rfl
  bind h rest := guarded_bind h rest
  ask _ h := guarded_ask h
  reserve req := reserve_guarded rt req
  release req := release_guarded rt req
  sweepGroup k rows := sweepGroup_guarded k rows

/-- A handler that has not locked a row and is no sweep about to mark it leaves
the row alone. -/
theorem spares_of_guarded {p : Code α} {id : ℕ} (h : Guarded left p held) (free : id ∉ held)
    (unswept : Unswept id p) : Spares id p := by
  induction p generalizing held with
  | pure a => trivial
  | step op k ih =>
    refine ⟨fun touch => ?_, fun r omits => ih r (h.2 r) ?_ (unswept.2 r omits)⟩
    · cases op with
      | markExpired row => exact unswept.1 touch
      | releaseStock req rows =>
        obtain ⟨row, member, rfl⟩ := touch
        rcases h.1 row member with locked | ⟨r, marks⟩
        · exact free locked
        · exact marks (unswept.2 r trivial)
      | commitRelease t req rows =>
        obtain ⟨row, member, rfl⟩ := touch
        exact free (h.1 row member)
      | _ => exact touch
    · cases op with
      | beginRelease t req =>
        cases r with
        | error e => exact List.not_mem_nil
        | ok rows =>
          intro member
          obtain ⟨row, there, same⟩ := List.mem_map.1 member
          exact omits rows rfl row there same
      | commitRelease t req rows => exact List.not_mem_nil
      | endTx => exact List.not_mem_nil
      | _ => exact free

end Guarded

def NeverMarks (p : Code Unit) : Prop :=
  ∀ id, Safe (fun _ _ => True) (Marks id) (fun _ => True) p

def IsAllocate : Op → Prop
  | .allocate _ _ => True
  | _ => False

def NeverAllocates (p : Code Unit) : Prop :=
  Safe (fun _ _ => True) IsAllocate (fun _ => True) p

theorem isAllocate_plain (op : Op) (h : special op = false) : ¬IsAllocate op := by
  cases op with
  | allocate t req => cases h
  | _ => exact id

theorem sweepOnce_neverAllocates (batch : Int32) : NeverAllocates (serve (sweepOnce batch)) :=
  serve_safe (sweepOnce_safe isAllocate_plain fun _ _ _ => ⟨fun _ => id, fun _ _ => id⟩)

theorem handler_mode (rt : Runtime) (h : Handler) :
    NeverMarks (h.code rt) ∨ NeverAllocates (h.code rt) := by
  have plain : ∀ id op, special op = false → ¬Marks id op := by
    intro id op h
    cases op with
    | markExpired row => cases h
    | _ => exact fun marks => marks
  have release : ∀ id req, ReleaseSafe rt (fun _ _ => True) (Marks id) req :=
    fun _ _ => ⟨fun _ _ marks => marks, fun _ _ _ _ => ⟨fun marks => marks, fun marks => marks⟩⟩
  have saga : ∀ id input, rt.scan input.tenantID = some input.tenantUUID →
      SagaSafe rt (fun _ _ => True) (Marks id) input := fun id input coherent =>
    ⟨coherent, fun _ _ _ _ marks => marks, fun _ _ marks => marks, fun _ _ _ _ _ marks => marks,
      release id _, fun _ _ marks => marks, fun _ _ _ marks => marks, fun _ marks => marks⟩
  cases h with
  | createOrder req =>
    exact .inl fun id => serve_safe (createOrder_safe (plain id) (fun _ _ marks => marks)
      fun _ parse _ => saga id _ parse)
  | cancelOrder req =>
    exact .inl fun id => serve_safe (cancelOrder_safe (plain id) fun _ _ _ _ _ =>
      ⟨fun _ _ _ _ _ marks => marks, release id _⟩)
  | resumePendingSagas limit =>
    exact .inl fun id => serve_safe (resumePendingSagas_safe (plain id) fun _ _ found _ _ _ =>
      saga id _ (rt.scan_text found.tenantID))
  | reserve req =>
    exact .inl fun id => serve_safe (reserve_safe (plain id) (fun _ _ _ _ _ _ marks => marks)
      fun _ _ _ _ marks => marks)
  | release req => exact .inl fun id => serve_safe (release_safe (plain id) (release id req))
  | allocateReservation req =>
    exact .inl fun id => serve_safe (allocateReservation_safe fun _ _ marks => marks)
  | sweepOnce batch => exact .inr (sweepOnce_neverAllocates batch)

def Asks (hold : String × StockLocation) (t : UUID) (req : ReserveRequest) : Prop :=
  column 255 req.orderId = hold.1 ∧ hold.2 ∈ (req.items.map itemLine).map (lineLocation t)

def Stores (hold : String × StockLocation) : (op : Op) → Resp op → Prop
  | .insertReservations t req _, r => Asks hold t req → Stored r
  | _, _ => True

def Undoes (rt : Runtime) (hold : String × StockLocation) : Op → Prop
  | .releaseStock req rows => undoes rt hold req rows = true
  | _ => False

/-- From here on the handler undoes no reservation of what a row holds, unless
one more fails to be stored. -/
def Undone {α : Type} (rt : Runtime) (hold : String × StockLocation) (p : Code α) : Prop :=
  Safe (Stores hold) (Undoes rt hold) (fun _ => True) p

section Undone

variable {rt : Runtime} {hold : String × StockLocation}

theorem undoes_plain (op : Op) (h : special op = false) : ¬Undoes rt hold op := by
  cases op with
  | releaseStock req rows => cases h
  | _ => exact id

theorem not_undoes_rows {req : ReleaseStockRequest} (lines : req.lines = rows.map rowLine) :
    ¬Undoes rt hold (.releaseStock req rows) := by
  intro bad
  have spec := of_decide_eq_true bad
  have member := spec.2.2.2
  rw [lines, spec.1] at member
  exact List.not_mem_nil member

theorem not_undoes_stored {t : UUID} {req : ReserveRequest} {expiresAt : ℤ}
    {answer : Except Failure (Option ℕ)} (parse : rt.scan req.tenantId = some t)
    (given : Stores hold (.insertReservations t req expiresAt) answer) (lost : ¬Stored answer) :
    ¬Undoes rt hold (.releaseStock (undoOf req) []) := by
  intro bad
  obtain ⟨-, tenant, order, line⟩ := of_decide_eq_true bad
  cases parse.symm.trans tenant
  exact lost (given ⟨order, line⟩)

/-- Where a handler allocates, it has nothing left to undo. -/
def Settled {α : Type} (rt : Runtime) (hold : String × StockLocation) (p : Code α) : Prop :=
  SafeAfter (fun _ _ => True) (fun op _ => IsAllocate op) (Stores hold) (Undoes rt hold)
    (fun _ => True) p

theorem settled_of_never {α : Type} {Q : α → Prop} {p : Code α}
    (never : Safe (fun _ _ => True) IsAllocate Q p) : Settled rt hold p := by
  refine safeAfter_of_unmarked (safe_mono (fun _ _ => trivial) (safe_mono_bad ?_ never))
  exact fun _ ⟨_, allocates⟩ => allocates

theorem undone_composes : Composes rt fun _ p => Undone rt hold p ∧ Settled rt hold p where
  pure _ := ⟨trivial, trivial⟩
  bind h rest := ⟨safe_bind h.1 fun a _ => (rest a).1,
    safeAfter_bind h.2 (fun a _ => (rest a).1) fun a => (rest a).2⟩
  ask op h := by
    refine ⟨safe_ask ?_ fun _ _ => trivial, safeAfter_perform fun _ _ _ => trivial⟩
    cases op with
    | releaseStock req rows => cases h
    | _ => exact id
  reserve req := by
    refine ⟨safe_mono (fun _ _ => trivial) (reserve_safe undoes_plain ?_ fun _ _ _ _ => id),
      settled_of_never (reserve_safe isAllocate_plain (fun _ _ _ _ _ _ => id) fun _ _ _ _ => id)⟩
    exact fun t e answer parse given lost => not_undoes_stored parse given lost
  release req :=
    ⟨release_safe undoes_plain ⟨fun _ _ => id, fun _ _ _ _ => ⟨not_undoes_rows rfl, id⟩⟩,
      settled_of_never (release_safe isAllocate_plain
        ⟨fun _ _ => id, fun _ _ _ _ => ⟨id, id⟩⟩)⟩
  sweepGroup k rows :=
    ⟨sweepGroup_safe undoes_plain (not_undoes_rows rfl) fun _ _ => id,
      settled_of_never (sweepGroup_safe isAllocate_plain id fun _ _ => id)⟩

end Undone

section Steps

variable {rt : Runtime} {me : ℕ} {op : Op} {c : Choice} {s s' : Stack} {r : Resp op} {id : ℕ}

theorem not_active (numbered : Numbered s.reservation) (done : statusOf s id = some .allocated)
    {row : Reservation} (member : row ∈ s.reservation.reservations)
    (active : row.status = .active) :
    row.id ≠ id := by
  intro same
  have here : statusOf s id = some .active :=
    (statusOf_eq_iff numbered).2 ⟨row, member, same, active⟩
  rw [done] at here
  cases here

theorem exec_omits (h : exec rt me op c s = some (r, s')) (numbered : Numbered s.reservation)
    (done : statusOf s id = some .allocated) : Omits id op r := by
  cases op with
  | getExpiredReservations now limit =>
    rintro rows rfl row member
    have spec := getExpired_rows h member
    exact not_active numbered done spec.1 spec.2
  | beginRelease t req =>
    rintro rows rfl row member
    rw [(beginRelease_rows h).1] at member
    have spec := mem_activeRows.1 member
    exact not_active numbered done spec.1 spec.2.2.2.1
  | _ => trivial

theorem exec_stays (h : exec rt me op c s = some (r, s')) (numbered : Numbered s.reservation)
    (done : statusOf s id = some .allocated) (apart : ¬Touches id op) :
    statusOf s' id = some .allocated := by
  refine exec_statusOf h numbered done fun ids status by_ => ?_
  cases op with
  | commitRelease t req rows =>
    cases by_
    intro member
    obtain ⟨row, there, same⟩ := List.mem_map.1 member
    exact apart ⟨row, there, same⟩
  | markExpired row =>
    cases by_
    intro member
    exact apart (List.mem_singleton.1 member).symm
  | allocate t req =>
    cases by_
    intro member
    obtain ⟨row, there, same⟩ := List.mem_map.1 member
    have spec := mem_activeRows.1 there
    exact not_active numbered done spec.1 spec.2.2.2.1 same
  | _ => cases by_

def Allocates (rt : Runtime) (s : Stack) (id : ℕ) : Op → Prop
  | .allocate t req => ¬Recorded reservationKeys s.reservation t req.idempotencyKey ∧
    ∃ row ∈ activeRows rt t req.orderId s.locked s.reservation, row.id = id
  | _ => False

theorem exec_allocated (h : exec rt me op c s = some (r, s')) (numbered : Numbered s.reservation)
    (done : statusOf s' id = some .allocated) :
    statusOf s id = some .allocated ∨ Allocates rt s id op := by
  obtain ⟨row, member, rfl, status⟩ := (statusOf_eq_iff (exec_numbered h numbered)).1 done
  cases exec_rows h with
  | same rows next =>
    exact .inl ((statusOf_eq_iff numbered).2 ⟨row, rows ▸ member, rfl, status⟩)
  | marked ids st by_ new rows next =>
    rw [rows] at member
    obtain ⟨old, there, rfl⟩ := mem_mark.1 member
    split
    · rename_i chosen
      rw [if_pos chosen] at status
      have now : st = .allocated := status
      subst now
      cases op with
      | allocate t req =>
        cases by_
        refine .inr ⟨new t req rfl, ?_⟩
        obtain ⟨picked, fetched, same⟩ := List.mem_map.1 chosen
        exact ⟨picked, fetched, same⟩
      | _ => cases by_
    · rename_i kept
      rw [if_neg kept] at status
      exact .inl ((statusOf_eq_iff numbered).2 ⟨old, there, rfl, status⟩)
  | inserted t req expiresAt by_ new recorded rows next =>
    rw [rows] at member
    rcases List.mem_append.1 member with old | fresh
    · exact .inl ((statusOf_eq_iff numbered).2 ⟨row, old, rfl, status⟩)
    · rw [(newRows_spec fresh).2.2.1] at status
      cases status

theorem exec_held (h : exec rt me op c s = some (r, s')) (locks : ∀ id ∈ held, HeldBy s me id) :
    ∀ id ∈ heldAfter held op r, HeldBy s' me id := by
  intro id member
  cases op with
  | beginRelease t req =>
    cases r with
    | error e => exact (List.not_mem_nil member).elim
    | ok rows =>
      have opens := (beginRelease_rows h).2
      have some_ : rows ≠ [] := by
        rintro rfl
        exact List.not_mem_nil member
      rw [if_neg some_] at opens
      refine ⟨opened me t req rows, ?_, rfl, member⟩
      rw [opens]
      exact List.mem_append_right _ (List.mem_singleton_self _)
  | commitRelease t req rows => exact (List.not_mem_nil member).elim
  | endTx => exact (List.not_mem_nil member).elim
  | _ => exact exec_heldBy h (locks id member) fun _ => rfl

end Steps

/-- When rows are allocated under a new key, each of them and every other handler
in flight are as the property says. -/
def AllocatesBeside (rt : Runtime) (P : ℕ → Code Unit → Prop) (pool : StackPool) :
    Move Handler Choice → Prop
  | .step i _ => ∀ t req k, pool.threads i = some (.step (.allocate t req) k) →
    ∀ id, Allocates rt pool.state id (.allocate t req) →
      ∀ j q, j ≠ i → pool.threads j = some q → P id q
  | _ => True

def NoStaleSweep (rt : Runtime) (pool : StackPool) (m : Move Handler Choice) : Prop :=
  AllocatesBeside rt (fun id q => Unswept id q) pool m

structure Inv (pool : StackPool) : Prop where
  numbered : Numbered pool.state.reservation
  mode : ∀ i p, pool.threads i = some p → NeverMarks p ∨ NeverAllocates p
  guarded : ∀ i p, pool.threads i = some p →
    ∃ held, Guarded [] p held ∧ ∀ id ∈ held, HeldBy pool.state i id
  spares : ∀ i p, pool.threads i = some p → ∀ id, statusOf pool.state id = some .allocated →
    Spares id p

theorem allocates_spared {rt : Runtime} {c : Choice} {op : Op} {k : Resp op → Code Unit} {id : ℕ}
    (inv : Inv pool) (fresh : NoStaleSweep rt pool (.step i c))
    (at_ : pool.threads i = some (.step op k)) (allocates : Allocates rt pool.state id op) (j : ℕ)
    (q : Code Unit) (here : pool.threads j = some q) : Spares id q := by
  cases op with
  | allocate t req =>
    obtain ⟨held, guarded, locks⟩ := inv.guarded j q here
    obtain ⟨row, member, same⟩ := allocates.2
    have free : id ∉ held := fun locked =>
      (mem_activeRows.1 member).2.2.2.2 (same ▸ (locks id locked).locked)
    refine spares_of_guarded guarded free ?_
    by_cases own : j = i
    · subst own
      rw [at_] at here
      cases here
      rcases inv.mode j _ at_ with never | never
      · exact ⟨(never id).1, fun r _ =>
          safe_mono_ok (fun _ _ _ => trivial) ((never id).2 r trivial)⟩
      · exact absurd trivial never.1
    · exact fresh t req k at_ id allocates j q own here
  | _ => exact absurd allocates fun no => no

theorem next_inv {rt : Runtime} (inv : Inv pool) (fresh : NoStaleSweep rt pool m)
    (next : pool.next (machine rt) (Handler.code rt) m = some after) : Inv after := by
  rcases Pool.next_cases next with ⟨i, x, rfl, -, rfl⟩ | ⟨i, c, op, k, r, s', rfl, at_, run, rfl⟩ |
      ⟨i, rfl, -, rfl⟩
  · refine ⟨inv.numbered, ?_, ?_, ?_⟩
    · exact Pool.set_some (handler_mode rt x) inv.mode
    · exact Pool.set_some
        (⟨[], (guarded_composes rt).handler x, fun _ member => (List.not_mem_nil member).elim⟩)
        inv.guarded
    · exact Pool.set_some (fun id _ => (handlers_spare rt id).safe x) inv.spares
  · have mode := inv.mode i _ at_
    refine ⟨exec_numbered run inv.numbered, ?_, ?_, ?_⟩
    · refine Pool.set_some ?_ inv.mode
      rcases mode with never | never
      · exact .inl fun id => (never id).2 r trivial
      · exact .inr (never.2 r trivial)
    · refine Pool.set_threads (fun q new => ?_) fun j q other old => ?_
      · cases new
        obtain ⟨held, guarded, locks⟩ := inv.guarded i _ at_
        exact ⟨heldAfter held op r, guarded.2 r, exec_held run locks⟩
      · obtain ⟨held, guarded, locks⟩ := inv.guarded j q old
        exact ⟨held, guarded, fun id member =>
          exec_heldBy run (locks id member) fun same => absurd same other⟩
    · have spared : ∀ id, Allocates rt pool.state id op → ∀ j q, pool.threads j = some q →
          Spares id q := fun _ => allocates_spared inv fresh at_
      refine Pool.set_threads (fun q new => ?_) fun j q _ old id done => ?_
      · cases new
        intro id done
        rcases exec_allocated run inv.numbered done with earlier | allocates
        · exact (inv.spares i _ at_ id earlier).2 r (exec_omits run inv.numbered earlier)
        · cases op with
          | allocate t req => exact (spared id allocates i _ at_).2 r trivial
          | _ => exact absurd allocates fun no => no
      · rcases exec_allocated run inv.numbered done with earlier | allocates
        · exact inv.spares j q old id earlier
        · exact spared id allocates j q old
  · refine ⟨inv.numbered, ?_, ?_, ?_⟩
    · exact Pool.set_none inv.mode
    · refine Pool.set_threads (fun q new => nomatch new) fun j q other old => ?_
      obtain ⟨held, guarded, locks⟩ := inv.guarded j q old
      exact ⟨held, guarded, fun id member => heldBy_close (locks id member) other⟩
    · exact Pool.set_none inv.spares

theorem idle_inv {s : Stack} (numbered : Numbered s.reservation) : Inv (idle s) where
  numbered := numbered
  mode i p h := by cases h
  guarded i p h := by cases h
  spares i p h := by cases h

theorem next_stays {rt : Runtime} (inv : Inv pool)
    (next : pool.next (machine rt) (Handler.code rt) m = some after) {id : ℕ}
    (done : statusOf pool.state id = some .allocated) :
    statusOf after.state id = some .allocated := by
  rcases Pool.next_cases next with ⟨i, x, rfl, -, rfl⟩ | ⟨i, c, op, k, r, s', rfl, at_, run, rfl⟩ |
      ⟨i, rfl, -, rfl⟩
  · exact done
  · exact exec_stays run inv.numbered done (inv.spares i _ at_ id done).1
  · exact done

def NoOpenUndo (rt : Runtime) (pool : StackPool) (m : Move Handler Choice) : Prop :=
  AllocatesBeside rt (fun id q => ∀ hold, holdOf pool.state id = some hold → Undone rt hold q)
    pool m

def lost : Except Failure (Option ℕ) → Bool
  | .ok _ | .error .alreadyProcessed => false
  | .error _ => true

theorem stored_of_not_lost {answer : Except Failure (Option ℕ)} (h : lost answer = false) :
    Stored answer := by
  cases answer with
  | ok id => exact .inl ⟨id, rfl⟩
  | error e =>
    cases e with
    | alreadyProcessed => exact .inr rfl
    | _ => cases h

/-- No reservation fails to be stored while a row of its order at one of its
locations is allocated. -/
def storesAllocated (rt : Runtime) (pool : StackPool) : Move Handler Choice → Bool
  | .step i c =>
    match pool.threads i with
    | some (.step (.insertReservations t req expiresAt) _) =>
      !((exec rt i (.insertReservations t req expiresAt) c pool.state).any fun out => lost out.1) ||
        pool.state.reservation.reservations.all fun row => !decide (row.status = .allocated ∧
          column 255 req.orderId = row.orderID ∧
            rowLocation row ∈ (req.items.map itemLine).map (lineLocation t))
    | _ => true
  | _ => true

theorem stored_of_storesAllocated {rt : Runtime} {c : Choice} {t : UUID} {req : ReserveRequest}
    {expiresAt : ℤ} {k : Resp (.insertReservations t req expiresAt) → Code Unit}
    {r : Resp (.insertReservations t req expiresAt)} {s' : Stack} {id : ℕ}
    {hold : String × StockLocation}
    (at_ : pool.threads i = some (.step (.insertReservations t req expiresAt) k))
    (stores : storesAllocated rt pool (.step i c) = true)
    (run : exec rt i (.insertReservations t req expiresAt) c pool.state = some (r, s'))
    (numbered : Numbered pool.state.reservation) (done : statusOf pool.state id = some .allocated)
    (held : holdOf pool.state id = some hold) :
    Stores hold (.insertReservations t req expiresAt) r := by
  intro asks
  by_contra unstored
  have failed : lost r = true :=
    Bool.eq_true_of_not_eq_false fun kept => unstored (stored_of_not_lost kept)
  obtain ⟨row, member, rfl, rfl⟩ := (found_iff numbered).1 held
  obtain ⟨row', member', same, status⟩ := (statusOf_eq_iff numbered).1 done
  obtain rfl := numbered.unique member' member same
  simp only [storesAllocated, at_, run, Option.any_some, failed, Bool.not_true, Bool.false_or,
    List.all_eq_true, Bool.not_eq_true', decide_eq_false_iff_not] at stores
  exact stores row' member ⟨status, asks⟩

structure Returns (rt : Runtime) (pool : StackPool) : Prop where
  settled : ∀ i p, pool.threads i = some p → ∀ hold, Settled rt hold p
  undone : ∀ i p, pool.threads i = some p → ∀ id hold, statusOf pool.state id = some .allocated →
    holdOf pool.state id = some hold → Undone rt hold p

theorem next_undone {rt : Runtime} {c : Choice} {op : Op} {k : Resp op → Code Unit} {r : Resp op}
    {s' : Stack} {id : ℕ} {hold : String × StockLocation}
    (numbered : Numbered pool.state.reservation) (inv : Returns rt pool)
    (open_ : NoOpenUndo rt pool (.step i c)) (stores : storesAllocated rt pool (.step i c) = true)
    (at_ : pool.threads i = some (.step op k)) (run : exec rt i op c pool.state = some (r, s'))
    (done : statusOf s' id = some .allocated) (held : holdOf s' id = some hold) :
    Undone rt hold (k r) ∧ ∀ j q, j ≠ i → pool.threads j = some q → Undone rt hold q := by
  rcases exec_allocated run numbered done with earlier | allocates
  · have held' := exec_holdOf run numbered (by rw [earlier]; rfl) held
    refine ⟨(inv.undone i _ at_ id hold earlier held').2 r ?_, fun j q _ old =>
      inv.undone j q old id hold earlier held'⟩
    cases op with
    | insertReservations t req expiresAt =>
      exact stored_of_storesAllocated at_ stores run numbered earlier held'
    | _ => trivial
  · cases op with
    | allocate t req =>
      have known : (statusOf pool.state id).isSome = true := by
        obtain ⟨row, member, same⟩ := allocates.2
        rw [(statusOf_eq_iff numbered).2 ⟨row, (mem_activeRows.1 member).1, same, rfl⟩]
        rfl
      have held' := exec_holdOf run numbered known held
      exact ⟨(inv.settled i _ at_ hold r trivial).1 trivial, fun j q other old =>
        open_ t req k at_ id allocates j q other old hold held'⟩
    | _ => exact absurd allocates fun no => no

theorem next_returns {rt : Runtime} (numbered : Numbered pool.state.reservation)
    (inv : Returns rt pool) (open_ : NoOpenUndo rt pool m)
    (stores : storesAllocated rt pool m = true)
    (next : pool.next (machine rt) (Handler.code rt) m = some after) : Returns rt after := by
  rcases Pool.next_cases next with ⟨i, x, rfl, -, rfl⟩ | ⟨i, c, op, k, r, s', rfl, at_, run, rfl⟩ |
      ⟨i, rfl, -, rfl⟩
  · constructor
    · exact Pool.set_some (fun hold => (undone_composes.handler x).2) inv.settled
    · exact Pool.set_some (fun _ hold _ _ => (undone_composes.handler x).1) inv.undone
  · constructor
    · exact Pool.set_some (fun hold => (inv.settled i _ at_ hold r trivial).2) inv.settled
    · refine Pool.set_threads (fun q new => ?_) fun j q other old id hold done held =>
        (next_undone numbered inv open_ stores at_ run done held).2 j q other old
      cases new
      exact fun _ _ done held => (next_undone numbered inv open_ stores at_ run done held).1
  · constructor
    · exact Pool.set_none inv.settled
    · exact Pool.set_none inv.undone

def NoLateReturn (rt : Runtime) (pool : StackPool) (m : Move Handler Choice) : Prop :=
  (NoStaleSweep rt pool m ∧ NoOpenUndo rt pool m) ∧ storesAllocated rt pool m = true

theorem no_return {rt : Runtime} (inv : Inv pool) (returns : Returns rt pool) {id : ℕ}
    (done : statusOf pool.state id = some .allocated) :
    returnsLine rt id pool m = false := by
  by_contra yes
  obtain ⟨i, c, req, rows, k, rfl, thread, row | ⟨hold, held, undo⟩⟩ :=
    returnsLine_cases (Bool.eq_true_of_not_eq_false yes)
  · exact (inv.spares i _ thread id done).1 row
  · exact (returns.undone i _ thread id hold done held).1 undo

/-- In every run in which no sweep and no undo comes late, an allocated row stays
allocated and no release with its line takes effect any more. -/
theorem allocation_final (rt : Runtime) (start : Stack) (numbered : Numbered start.reservation)
    (moves later : List (Move Handler Choice)) (pool after : StackPool)
    (keeps : Pool.Keeps (machine rt) (Handler.code rt) (NoLateReturn rt) (moves ++ later)
      (idle start))
    (run : Pool.run (machine rt) (Handler.code rt) moves (idle start) = some pool)
    (rest : Pool.run (machine rt) (Handler.code rt) later pool = some after) (id : ℕ)
    (done : statusOf pool.state id = some .allocated) :
    statusOf after.state id = some .allocated ∧
      Pool.count (machine rt) (Handler.code rt) (returnsLine rt id) later pool = 0 := by
  have halves := Pool.keeps_append keeps
  have both : ∀ p m q, (Inv p ∧ Returns rt p) → NoLateReturn rt p m →
      p.next (machine rt) (Handler.code rt) m = some q → Inv q ∧ Returns rt q :=
    fun p m q inv cond next => ⟨next_inv inv.1 cond.1.1 next,
      next_returns inv.1.numbered inv.2 cond.1.2 cond.2 next⟩
  have inv : Inv pool ∧ Returns rt pool := Pool.run_invariant _ both halves.1 run
    ⟨idle_inv numbered, fun i p h => (by cases h), fun i p h => (by cases h)⟩
  have step : ∀ p m q, ((Inv p ∧ Returns rt p) ∧ statusOf p.state id = some .allocated) →
      NoLateReturn rt p m → p.next (machine rt) (Handler.code rt) m = some q →
        (Inv q ∧ Returns rt q) ∧ statusOf q.state id = some .allocated := by
    rintro p m q ⟨inv, here⟩ cond next
    exact ⟨both p m q inv cond next, next_stays inv.1 next here⟩
  constructor
  · exact (Pool.run_invariant _ step (halves.2 pool run) rest ⟨inv, done⟩).2
  · exact Pool.count_eq_zero _ step (fun p m q h _ _ => no_return h.1.1 h.1.2 h.2)
      (halves.2 pool run) ⟨inv, done⟩

theorem allocatesBeside_alone (rt : Runtime) {P : ℕ → Code Unit → Prop} (pool : StackPool)
    (m : Move Handler Choice) (alone : ∀ j, j ≠ m.thread → pool.threads j = none) :
    AllocatesBeside rt P pool m := by
  cases m with
  | step i c =>
    intro t req k _ id _ j q other here
    rw [alone j other] at here
    cases here
  | _ => trivial

def reserveTwo : Handler :=
  .reserve ⟨sampleTenant.text, "ord-1", "key-1:reserve", [⟨"SKU", "W1", 2⟩], 900⟩

def allocateTwo : Handler :=
  .allocateReservation ⟨sampleTenant.text, "ord-1", "key-1:allocate"⟩

def late : Choice := { Choice.healthy with now := 1000000000 }

def pickFirst : Choice := { Choice.healthy with picks := [0] }

def allocatedOrder : List (Move Handler Choice) :=
  .spawn 0 reserveTwo :: List.replicate 5 (.step 0 .healthy) ++
    [.stop 0, .spawn 0 allocateTwo, .step 0 .healthy]

def lateSweep : List (Move Handler Choice) :=
  [.stop 0, .spawn 0 (.sweepOnce 10), .step 0 late, .step 0 .healthy, .step 0 .healthy]

theorem allocation_final_swept :
    ((Pool.run (machine (reference [])) (Handler.code (reference [])) allocatedOrder
      (idle sampleStack)).bind fun pool =>
        (Pool.run (machine (reference [])) (Handler.code (reference [])) lateSweep pool).map
          fun after => statusOf after.state 0) = some (some .allocated) := by
  have first : (Pool.run (machine (reference [])) (Handler.code (reference [])) allocatedOrder
      (idle sampleStack)).map (fun pool => statusOf pool.state 0) = some (some .allocated) := by
    rw [reference_recognizing]
    decide +kernel
  obtain ⟨pool, run, done⟩ := Option.map_eq_some_iff.1 first
  have second : ((Pool.run (machine (reference [])) (Handler.code (reference [])) allocatedOrder
      (idle sampleStack)).bind fun pool => Pool.run (machine (reference []))
        (Handler.code (reference [])) lateSweep pool).isSome = true := by
    rw [reference_recognizing]
    decide +kernel
  rw [run] at second
  obtain ⟨after, rest⟩ := Option.isSome_iff_exists.1 second
  have rest' : Pool.run (machine (reference [])) (Handler.code (reference [])) lateSweep pool =
      some after := rest
  have own : ∀ m ∈ allocatedOrder ++ lateSweep, m.thread = 0 := by
    simp [allocatedOrder, lateSweep, Move.thread]
  have stores : Pool.checks (machine (reference [])) (Handler.code (reference []))
      (storesAllocated (reference [])) (allocatedOrder ++ lateSweep) (idle sampleStack) = true := by
    rw [reference_recognizing]
    decide +kernel
  have keeps : Pool.Keeps (machine (reference [])) (Handler.code (reference []))
      (NoLateReturn (reference [])) (allocatedOrder ++ lateSweep) (idle sampleStack) :=
    Pool.keeps_and (Pool.keeps_and
      (Pool.keeps_alone (allocatesBeside_alone _) (fun _ _ => rfl) own)
      (Pool.keeps_alone (fun pool => allocatesBeside_alone _ pool) (fun _ _ => rfl) own))
      (Pool.keeps_of_checks stores)
  have final := allocation_final (reference []) sampleStack numbered_empty allocatedOrder lateSweep
    pool after keeps run rest' 0 done
  rw [run, Option.bind_some, rest', Option.map_some, final.1]

def allocatedInBatch : List (Move Handler Choice) :=
  .spawn 0 reserveTwo :: List.replicate 5 (.step 0 .healthy) ++
    [.spawn 1 (.sweepOnce 10), .step 1 late, .step 1 pickFirst, .step 1 pickFirst,
      .spawn 2 allocateTwo, .step 2 .healthy]

theorem stale_sweep_expires :
    ((Pool.run (machine (reference [])) (Handler.code (reference [])) allocatedInBatch
      (idle sampleStack)).bind fun pool =>
        (Pool.run (machine (reference [])) (Handler.code (reference []))
          (List.replicate 4 (.step 1 .healthy)) pool).map fun after =>
            (statusOf pool.state 0, statusOf after.state 0,
              Pool.count (machine (reference [])) (Handler.code (reference []))
                (returnsLine (reference []) 0) (List.replicate 4 (.step 1 .healthy)) pool)) =
      some (some .allocated, some .expired, 1) := by
  rw [reference_recognizing]
  decide +kernel

end Taper.AllocationFinal
