import Taper.ReservationRuns
import Taper.ServiceRules
import Taper.StockRuns

set_option autoImplicit false

/-!
# A hold is returned once

The stock service returns the lines of a release before the reservation rows are
marked. It is the key that tells a repetition, so a hold is returned once where
every release of an order is sent under one key.
-/
namespace Taper.HoldReturned
open Messages Platform ReservationSteps ReservationRuns Program
open ServiceStack Services ServiceRules StackSteps StockSteps StockRuns

def Owned (s : Stack) (id : ℕ) (t : UUID) (o : String) : Prop :=
  ∀ row ∈ s.reservation.reservations, row.id = id → row.tenantID = t ∧ row.orderID = o

def AnswersOwned (id : ℕ) (t : UUID) (o : String) : (op : Op) → Resp op → Prop
  | .getExpiredReservations _ _, r =>
    ∀ rows, r = .ok rows → ∀ row ∈ rows, row.id = id → row.tenantID = t ∧ row.orderID = o
  | .beginRelease u req, r =>
    ∀ rows, r = .ok rows → ∀ row ∈ rows, row.id = id → u = t ∧ req.orderId = o
  | _, _ => True

def Strays (rt : Runtime) (id : ℕ) (t : UUID) (o : String) : Op → Prop
  | .releaseStock req rows => (∃ row ∈ rows, row.id = id) ∧
    ¬(rt.scan req.tenantId = some t ∧ req.idempotencyKey = compensationKey t.text o)
  | _ => False

def Keyed (rt : Runtime) (id : ℕ) (t : UUID) (o : String) (p : Code Unit) : Prop :=
  Safe (AnswersOwned id t o) (Strays rt id t o) (fun _ => True) p

/-- Every release the handler can send is sent under the compensation key of
its order. The saga and the sweeper always take that key, the saga with the
tenant as the client has written it. -/
def UsesCompensationKey (rt : Runtime) : Handler → Prop
  | .release req =>
    ∀ t, rt.scan req.tenantId = some t → req.idempotencyKey = compensationKey t.text req.orderId
  | .createOrder req => ∀ t, rt.scan req.tenantId = some t → req.tenantId = t.text
  | .cancelOrder req => ∀ t, rt.scan req.tenantId = some t → req.tenantId = t.text
  | _ => True

theorem releaseSafe_keyed {rt : Runtime} {id : ℕ} {t : UUID} {o : String} {req : ReleaseRequest}
    (key : ∀ u, rt.scan req.tenantId = some u →
      req.idempotencyKey = compensationKey u.text req.orderId) :
    ReleaseSafe rt (AnswersOwned id t o) (Strays rt id t o) req := by
  refine ⟨fun _ _ stray => stray, fun u rows parse given => ⟨?_, fun stray => stray⟩⟩
  rintro ⟨⟨row, member, same⟩, other⟩
  obtain ⟨rfl, rfl⟩ := given rows rfl row member same
  exact other ⟨parse, key u parse⟩

theorem handler_keyed {rt : Runtime} {h : Handler} (uses : UsesCompensationKey rt h) (id : ℕ)
    (t : UUID) (o : String) : Keyed rt id t o (h.code rt) := by
  have plain : ∀ op, special op = false → ¬Strays rt id t o op := by
    intro op h
    cases op with
    | releaseStock req rows => cases h
    | _ => exact fun stray => stray
  have undo : ∀ req, ¬Strays rt id t o (.releaseStock req []) := by
    rintro req ⟨⟨row, member, -⟩, -⟩
    cases member
  have saga : ∀ input, rt.scan input.tenantID = some input.tenantUUID →
      input.tenantID = input.tenantUUID.text →
        SagaSafe rt (AnswersOwned id t o) (Strays rt id t o) input := by
    intro input coherent canonical
    refine ⟨coherent, fun _ _ _ _ => undo _, fun _ _ stray => stray, fun _ _ _ _ _ stray => stray,
      releaseSafe_keyed fun u parse => ?_, fun _ _ stray => stray, fun _ _ _ stray => stray,
      fun _ stray => stray⟩
    have same : input.tenantUUID = u := Option.some.inj (coherent.symm.trans parse)
    rw [compensation, canonical, same]
  cases h with
  | createOrder req =>
    exact serve_safe (createOrder_safe plain (fun _ _ stray => stray) fun u parse _ =>
      saga _ parse (uses u parse))
  | cancelOrder req =>
    refine serve_safe (cancelOrder_safe plain fun u found parse _ _ =>
      ⟨fun _ _ _ _ _ stray => stray, releaseSafe_keyed fun u parse => ?_⟩)
    have canonical := uses u parse
    rw [compensation, ← canonical]
  | resumePendingSagas limit =>
    exact serve_safe (resumePendingSagas_safe plain fun _ _ found _ lines _ =>
      saga _ (rt.scan_text found.tenantID) rfl)
  | reserve req =>
    exact serve_safe (reserve_safe plain (fun _ _ _ _ _ _ => undo _) fun _ _ _ _ stray => stray)
  | release req => exact serve_safe (release_safe plain (releaseSafe_keyed uses))
  | allocateReservation req =>
    exact serve_safe (allocateReservation_safe fun _ _ stray => stray)
  | sweepOnce batch =>
    refine serve_safe (sweepOnce_safe plain fun now rows given =>
      ⟨?_, fun row _ stray => stray⟩)
    rintro k ⟨⟨row, member, same⟩, other⟩
    obtain ⟨fetched, group⟩ := List.mem_filter.1 member
    have owner := given rows rfl row fetched same
    have key : groupKey row = k := of_decide_eq_true group
    refine other ?_
    rw [← key]
    simp only [releaseRequest, groupKey, owner.1, owner.2]
    exact ⟨rt.scan_text t, trivial⟩

section Steps

variable {rt : Runtime} {me : ℕ} {op : Op} {c : Choice} {s s' : Stack} {r : Resp op} {id : ℕ}
  {t : UUID} {o : String}

theorem exec_owned (h : exec rt me op c s = some (r, s')) (owned : Owned s' id t o) :
    Owned s id t o := by
  intro row member same
  cases exec_rows h with
  | same rows next => exact owned row (rows ▸ member) same
  | marked ids status by_ new rows next =>
    have there : (if row.id ∈ ids then withStatus status row else row) ∈
        s'.reservation.reservations := by
      rw [rows, mem_mark]
      exact ⟨row, member, rfl⟩
    have spec := owned _ there
    split at spec
    · exact spec same
    · exact spec same
  | inserted u req expiresAt by_ new recorded rows next =>
    refine owned row ?_ same
    rw [rows]
    exact List.mem_append_left _ member

theorem exec_answersOwned (h : exec rt me op c s = some (r, s')) (owned : Owned s id t o) :
    AnswersOwned id t o op r := by
  cases op with
  | getExpiredReservations now limit =>
    rintro rows rfl row member same
    exact owned row (getExpired_rows h member).1 same
  | beginRelease u req =>
    rintro rows rfl row member same
    rw [(beginRelease_rows h).1] at member
    have spec := mem_activeRows.1 member
    have owner := owned row spec.1 same
    exact ⟨spec.2.1.symm.trans owner.1, spec.2.2.1.symm.trans owner.2⟩
  | _ => trivial

theorem owner_exists (numbered : Numbered s.reservation) (id : ℕ) (u : UUID) :
    ∃ t o, Owned s id t o := by
  by_cases present : ∃ row ∈ s.reservation.reservations, row.id = id
  · obtain ⟨row, member, same⟩ := present
    refine ⟨row.tenantID, row.orderID, fun other there equal => ?_⟩
    rw [numbered.unique there member (equal.trans same.symm)]
    exact ⟨rfl, rfl⟩
  · exact ⟨u, "", fun row member same => absurd ⟨row, member, same⟩ present⟩

end Steps

def OneKey (rt : Runtime) (_ : StackPool) : Move Handler Choice → Prop
  | .spawn _ h => UsesCompensationKey rt h
  | _ => True

structure Inv (rt : Runtime) (id : ℕ) (pool : StackPool) : Prop where
  numbered : Numbered pool.state.reservation
  keyed : ∀ i p, pool.threads i = some p → ∀ t o, Owned pool.state id t o → Keyed rt id t o p

def Returned (id : ℕ) (pool : StackPool) : Prop :=
  ∀ t o, Owned pool.state id t o → Seen pool.state.stock t (compensationKey t.text o)

section Moves

variable {rt : Runtime} {id : ℕ} {pool after : StackPool} {m : Move Handler Choice}

theorem next_inv (inv : Inv rt id pool) (key : OneKey rt pool m)
    (next : pool.next (machine rt) (Handler.code rt) m = some after) : Inv rt id after := by
  rcases Pool.next_cases next with ⟨i, x, rfl, -, rfl⟩ | ⟨i, c, op, k, r, s', rfl, at_, run, rfl⟩ |
      ⟨i, rfl, -, rfl⟩
  · exact ⟨inv.numbered, Pool.set_some (fun t o _ => handler_keyed key id t o) inv.keyed⟩
  · refine ⟨exec_numbered run inv.numbered, Pool.set_some (fun t o owned => ?_)
      fun j q old t o owned => inv.keyed j q old t o (exec_owned run owned)⟩
    have before := exec_owned run owned
    exact (inv.keyed i _ at_ t o before).2 r (exec_answersOwned run before)
  · exact ⟨inv.numbered, Pool.set_none inv.keyed⟩

theorem next_returned (done : Returned id pool)
    (next : pool.next (machine rt) (Handler.code rt) m = some after) : Returned id after := by
  rcases Pool.next_cases next with ⟨i, x, rfl, -, rfl⟩ | ⟨i, c, op, k, r, s', rfl, at_, run, rfl⟩ |
      ⟨i, rfl, -, rfl⟩
  · exact done
  · exact fun t o owned => exec_seen run (done t o (exec_owned run owned))
  · exact done

theorem returns_once (inv : Inv rt id pool)
    (next : pool.next (machine rt) (Handler.code rt) m = some after)
    (event : returnsHold rt id pool m = true) : Returned id after := by
  obtain ⟨i, c, req, rows, k, rfl, thread, held, effect⟩ := returnsHold_cases event
  intro t o owned
  rcases Pool.next_cases next with ⟨_, _, eq, -, -⟩ | ⟨i', c', op, k', r, s', eq, at_, run, rfl⟩ |
      ⟨_, eq, -, -⟩
  · cases eq
  · cases eq
    rw [thread] at at_
    cases at_
    have run : exec rt i (.releaseStock req rows) c pool.state = some (r, s') := run
    have before := exec_owned run owned
    have own := not_not.1 fun other => (inv.keyed i _ thread t o before).1 ⟨held, other⟩
    rcases exec_releaseStock run with ⟨u, resp, db, parse, -, moved, rfl⟩ | ⟨⟨e, rfl⟩, rfl⟩
    · have same : u = t := Option.some.inj (parse.symm.trans own.1)
      have key : req.idempotencyKey ≠ "" := own.2 ▸ compensationKey_ne _ o
      rw [← own.2, ← same]
      exact moved_self moved key
    · -- A request that takes effect is not answered with an error.
      unfold takesEffect at effect
      rcases stockCall_some run with ⟨-, answer, -⟩ | ⟨fault, -, -⟩
      · rw [← answer] at effect
        simp [Except.isOk, Except.toBool] at effect
      · simp [fault] at effect
  · cases eq

theorem no_second_return (inv : Inv rt id pool) (done : Returned id pool) :
    returnsHold rt id pool m = false := by
  by_contra returns
  obtain ⟨i, c, req, rows, k, rfl, thread, held, effect⟩ :=
    returnsHold_cases (Bool.eq_true_of_not_eq_false returns)
  unfold takesEffect at effect
  cases parse : rt.scan req.tenantId with
  | none => simp [parse] at effect
  | some u =>
    obtain ⟨t, o, owned⟩ := owner_exists inv.numbered id u
    have own := not_not.1 fun other => (inv.keyed i _ thread t o owned).1 ⟨held, other⟩
    have same : u = t := Option.some.inj (parse.symm.trans own.1)
    have seen : Seen pool.state.stock u req.idempotencyKey := by
      rw [own.2, same]
      exact done t o owned
    simp [parse, seen] at effect

end Moves

/-- In every run in which releases are sent under the compensation key of their
order, the stock of a row is returned at most once. -/
theorem hold_returned_once (rt : Runtime) (start : Stack) (numbered : Numbered start.reservation)
    (moves : List (Move Handler Choice))
    (keeps : Pool.Keeps (machine rt) (Handler.code rt) (OneKey rt) moves (idle start)) (id : ℕ) :
    Pool.count (machine rt) (Handler.code rt) (returnsHold rt id) moves (idle start) ≤ 1 := by
  refine Pool.count_le_one (Inv rt id) (fun _ _ _ inv key next => next_inv inv key next)
    (Returned id) ?_ ?_ ?_ keeps ⟨numbered, fun i p h => by cases h⟩
  · exact fun _ _ _ inv _ next event => returns_once inv next event
  · exact fun _ _ _ _ done _ next => next_returned done next
  · exact fun _ _ _ inv done _ _ => no_second_return inv done

def reserveFor (orderID : String) : Handler :=
  .reserve ⟨sampleTenant.text, orderID, orderID ++ ":reserve", [⟨"SKU", "W1", 2⟩], 900⟩

def releaseUnder (key : String) : Handler :=
  .release ⟨sampleTenant.text, "", "ord-1", "", key⟩

/-- Two orders hold two units each. One is released and the process stops after
the stock service has committed; then it is released again. -/
def interruptedRelease (key : String) : List (Move Handler Choice) :=
  .spawn 0 (reserveFor "ord-2") :: List.replicate 5 (.step 0 .healthy) ++
    .stop 0 :: .spawn 0 (reserveFor "ord-1") :: List.replicate 5 (.step 0 .healthy) ++
    .stop 0 :: .spawn 0 (releaseUnder key) :: List.replicate 3 (.step 0 .healthy) ++
    .stop 0 :: .spawn 0 (releaseUnder key) :: List.replicate 3 (.step 0 .healthy)

theorem hold_returned_once_interrupted :
    Pool.count (machine (reference [])) (Handler.code (reference [])) (returnsHold (reference []) 1)
      (interruptedRelease (compensationKey sampleTenant.text "ord-1")) (idle sampleStack) ≤ 1 := by
  refine hold_returned_once (reference []) sampleStack numbered_empty _ (Pool.keeps_of_moves ?_) 1
  have own : UsesCompensationKey (reference [])
      (releaseUnder (compensationKey sampleTenant.text "ord-1")) := by
    intro t parse
    have same : sampleTenant = t :=
      Option.some.inj (((reference []).scan_text sampleTenant).symm.trans parse)
    rw [← same]
  intro m member pool
  cases m with
  | spawn i h =>
    have which : h = reserveFor "ord-2" ∨ h = reserveFor "ord-1" ∨
        h = releaseUnder (compensationKey sampleTenant.text "ord-1") := by
      simp only [interruptedRelease, List.cons_append, List.mem_cons, List.mem_append,
        List.mem_replicate, reduceCtorEq, and_false, false_or, Move.spawn.injEq] at member
      tauto
    rcases which with rfl | rfl | rfl
    · trivial
    · trivial
    · exact own
  | _ => trivial

/-- Without a key the second release is no repetition: the other order's units
are returned. -/
theorem unkeyed_release_repeats :
    Pool.count (machine (reference [])) (Handler.code (reference [])) (returnsHold (reference []) 1)
      (interruptedRelease "") (idle sampleStack) = 2 := by
  rw [reference_recognizing]
  decide +kernel

end Taper.HoldReturned
