import Taper.KeyedService
import Taper.StockReplays
import Taper.ReservationRuns
import Taper.FulfilledOnce

set_option autoImplicit false

/-!
# What is taken for a repetition

All requests to a service share one table of keys, and a key that is found there
is taken for a repetition whatever the request is.
-/
namespace Taper.TrueRepeats
open Messages Platform Ledger StockTables StockHandlers StockConservation StockEffects
open ReservationTables ReservationRuns OrderTables OrderSteps Program ServiceStack Services
open StackSteps KeyedService Fulfillment FulfilledOnce
open StockSteps (Seen)

/-- The request whose fingerprint is stored beside the key. -/
def stockMessage : StockCall → Option Message
  | .adjustStock req => some (.adjustStock req)
  | .reserveStock req => some (.reserveStock req)
  | .releaseStock req => some (.releaseStock req)
  | .confirmStockAllocation req => some (.confirmStockAllocation req)
  | .fulfillStock req => some (.fulfillStock req)
  | .unlockStockForAudit _ | .reconcile => none

def stockRequest (rt : Runtime) (call : StockCall) : Option (KeyedRequest UUID Message) := do
  let tenantID ← rt.scan call.tenantId
  let msg ← stockMessage call
  pure ⟨tenantID, column 255 call.idempotencyKey, msg⟩

def StockRepeated (rt : Runtime) (db : StockDb) (call : StockCall) : Prop :=
  call.idempotencyKey ≠ "" ∧ call.succeeded rt db = true ∧ call.apply rt db = db

theorem stockMessage_keyed {call : StockCall} (keyed : call.idempotencyKey ≠ "") :
    ∃ msg, stockMessage call = some msg := by
  cases call with
  | unlockStockForAudit req => exact absurd rfl keyed
  | reconcile => exact absurd rfl keyed
  | _ => exact ⟨_, rfl⟩

variable {rt : Runtime} {q : KeyedRequest UUID Message} {op : Op}

theorem stockRequest_eq {call : StockCall} (h : stockRequest rt call = some q) :
    rt.scan call.tenantId = some q.tenantID ∧ q.key = column 255 call.idempotencyKey := by
  obtain ⟨t, parse, h⟩ := Option.bind_eq_some_iff.1 h
  obtain ⟨msg, -, h⟩ := Option.bind_eq_some_iff.1 h
  cases h
  exact ⟨parse, rfl⟩

def stockService (rt : Runtime) : Service StockDb StockCall UUID Message where
  next db call := some (call.apply rt db)
  request _ call := stockRequest rt call
  recorded db t k := Seen db t k ∧ column 255 k = k
  repeated := StockRepeated rt
  own db call db' t k step new found := by
    cases step
    rcases apply_claims found.1 with old | ⟨parse, key⟩
    · exact absurd ⟨old, found.2⟩ new
    · have keyed : call.idempotencyKey ≠ "" := fun empty => by
        rw [empty, found.2] at key
        exact found.1.1 key.symm
      obtain ⟨msg, message⟩ := stockMessage_keyed keyed
      refine ⟨⟨t, column 255 call.idempotencyKey, msg⟩, ?_, rfl, key.trans found.2⟩
      simp [stockRequest, parse, message]
  seen db call q := by
    rintro ⟨keyed, succeeded, same⟩ request
    obtain ⟨parse, key⟩ := stockRequest_eq request
    have commits : StockReplays.commits rt call db = true := by
      simp [StockReplays.commits, keyed, succeeded]
    obtain ⟨t, parse', seen⟩ := StockReplays.commits_repeats commits
    rw [same] at seen
    rw [key, Option.some.inj (parse.symm.trans parse')]
    exact ⟨StockSteps.seen_column (column_column _ _) seen, column_column _ _⟩

def reservationRequest : Op → Option (KeyedRequest UUID Message)
  | .insertReservations t req _ => some ⟨t, column 255 req.idempotencyKey, .reserve req⟩
  | .beginRelease t req | .commitRelease t req _ =>
    some ⟨t, column 255 req.idempotencyKey, .release req⟩
  | .allocate t req => some ⟨t, column 255 req.idempotencyKey, .allocateReservation req⟩
  | _ => none

def movedRequest (pool : StackPool) : Move Handler Choice → Option (KeyedRequest UUID Message)
  | .step i _ =>
    match pool.threads i with
    | some (.step op _) => reservationRequest op
    | _ => none
  | _ => none

/-- The answers on which `Reserve`, `Release` and `AllocateReservation` report a
success without an effect of their own. -/
def AnsweredAgain (s s' : Stack) : (op : Op) → Resp op → Prop
  | .insertReservations _ _ _, r => r = .error .alreadyProcessed
  | .beginRelease _ _, r => r = .error .alreadyProcessed
  | .allocate _ req, r =>
    req.idempotencyKey ≠ "" ∧ (∃ count, r = .ok count) ∧ s'.reservation = s.reservation
  | _, _ => False

def ReservationRepeated (rt : Runtime) (pool : StackPool) (m : Move Handler Choice) : Prop :=
  ∃ i c op, ∃ k : Resp op → Code Unit, ∃ r s', m = .step i c ∧
    pool.threads i = some (.step op k) ∧ exec rt i op c pool.state = some (r, s') ∧
    AnsweredAgain pool.state s' op r

theorem request_of_claims {t : UUID} {key : String} (h : claims op = some (t, key)) :
    ∃ q, reservationRequest op = some q ∧ q.tenantID = t ∧ q.key = key := by
  cases op with
  | insertReservations u req expiresAt =>
    cases h
    exact ⟨_, rfl, rfl, rfl⟩
  | beginRelease u req =>
    cases h
    exact ⟨_, rfl, rfl, rfl⟩
  | commitRelease u req rows =>
    cases h
    exact ⟨_, rfl, rfl, rfl⟩
  | allocate u req =>
    cases h
    exact ⟨_, rfl, rfl, rfl⟩
  | _ => cases h

theorem reservationRequest_stored (request : reservationRequest op = some q) :
    column 255 q.key = q.key := by
  cases op with
  | insertReservations t req expiresAt =>
    cases request
    exact column_column _ _
  | beginRelease t req =>
    cases request
    exact column_column _ _
  | commitRelease t req rows =>
    cases request
    exact column_column _ _
  | allocate t req =>
    cases request
    exact column_column _ _
  | _ => cases request

theorem answeredAgain_recorded {me : ℕ} {c : Choice} {s s' : Stack} {r : Resp op}
    (h : exec rt me op c s = some (r, s')) (again : AnsweredAgain s s' op r)
    (request : reservationRequest op = some q) :
    Recorded reservationKeys s.reservation q.tenantID q.key ∧ column 255 q.key = q.key := by
  refine ⟨?_, reservationRequest_stored request⟩
  cases op with
  | insertReservations t req expiresAt =>
    cases request
    cases again
    exact recorded_column (column_column _ _) (insert_repeated h)
  | beginRelease t req =>
    cases request
    cases again
    exact recorded_column (column_column _ _) (begin_repeated h)
  | allocate t req =>
    cases request
    obtain ⟨key, ⟨count, rfl⟩, same⟩ := again
    rw [← same]
    exact recorded_column (column_column _ _) (allocate_answered key h)
  | _ => exact again.elim

def reservationService (rt : Runtime) : Service StackPool (Move Handler Choice) UUID Message where
  next pool m := pool.next (machine rt) (Handler.code rt) m
  request := movedRequest
  recorded pool t k := Recorded reservationKeys pool.state.reservation t k ∧ column 255 k = k
  repeated := ReservationRepeated rt
  own pool m after t k step new found := by
    rcases Pool.next_cases step with ⟨i, x, rfl, -, rfl⟩ |
        ⟨i, c, op, k', r, s', rfl, at_, run, rfl⟩ | ⟨i, rfl, -, rfl⟩
    · exact absurd found new
    · rcases (exec_recorded run t k).2 found.1 with old | claim
      · exact absurd ⟨old, found.2⟩ new
      · rw [found.2] at claim
        obtain ⟨q, request, tenant, key⟩ := request_of_claims claim
        exact ⟨q, by simp only [movedRequest, at_, request], tenant, key⟩
    · exact absurd found new
  seen pool m q := by
    rintro ⟨i, c, op, k, r, s', rfl, at_, run, again⟩ request
    simp only [movedRequest, at_] at request
    exact answeredAgain_recorded run again request

def orderRequest (rt : Runtime) : OrderCall → Option (KeyedRequest UUID Message)
  | .createOrder req =>
    (rt.scan req.tenantId).map fun t => ⟨t, column 255 req.idempotencyKey, .createOrder req⟩
  | .fulfillOrder req =>
    (rt.scan req.tenantId).map fun t => ⟨t, column 255 req.idempotencyKey, .fulfillOrder req⟩
  | _ => none

def OrderRepeated (rt : Runtime) (db : OrderDb) : OrderCall → Prop
  | .createOrder req => req.orderId ≠ "" ∧ req.lines ≠ [] ∧ 0 < orderTotal req.lines ∧
    ∃ t, rt.scan req.tenantId = some t ∧ (execTxWithTenant rt req.tenantId
      (createOrderRow rt t req (orderTotal req.lines)) db).1 = .error .idempotentReplay
  | _ => False

theorem order_claims {call : OrderCall} {db : OrderDb} {t : UUID} {key : String}
    (found : Recorded orderKeys (call.apply rt db) t key) :
    Recorded orderKeys db t key ∨
      ∃ q, orderRequest rt call = some q ∧ q.tenantID = t ∧ q.key = column 255 key := by
  have claim : ∀ {u : UUID} {k hash : String} {db' : OrderDb},
      db'.processedKeys = (claimed orderKeys u k hash db).processedKeys →
      Recorded orderKeys db' t key →
        Recorded orderKeys db t key ∨ (t = u ∧ column 255 key = column 255 k) := by
    intro u k hash db' keys now
    have there : Recorded orderKeys (claimed orderKeys u k hash db) t key :=
      ⟨now.1, (congrArg (KeyTable.has · t (column 255 key)) keys).symm.trans now.2⟩
    by_cases same : t = u ∧ column 255 key = column 255 k
    · exact .inr same
    · exact .inl ((claimed_other (not_and_or.1 same)).1 there)
  rcases orderCall_cases rt call db with same | ⟨u, req, total, rfl, parse, -, -, -, same⟩ |
      ⟨u, o, state, step, error, row, saga, -, same⟩ | ⟨u, o, txn, row, -, same⟩ |
      ⟨u, req, row, rfl, parse, -, same⟩
  · rw [same] at found
    exact .inl found
  · rw [same] at found
    refine (claim rfl found).imp_right ?_
    rintro ⟨rfl, key_⟩
    exact ⟨⟨t, column 255 req.idempotencyKey, .createOrder req⟩, by simp [orderRequest, parse], rfl,
      key_.symm⟩
  · rw [same] at found
    exact .inl found
  · rw [same] at found
    exact .inl found
  · rw [same] at found
    refine (claim rfl found).imp_right ?_
    rintro ⟨rfl, key_⟩
    exact ⟨⟨t, column 255 req.idempotencyKey, .fulfillOrder req⟩, by simp [orderRequest, parse],
      rfl, key_.symm⟩

def orderService (rt : Runtime) : Service OrderDb OrderCall UUID Message where
  next db call := some (call.apply rt db)
  request _ call := orderRequest rt call
  recorded db t k := Recorded orderKeys db t k ∧ column 255 k = k
  repeated := OrderRepeated rt
  own db call db' t k step new found := by
    cases step
    have claim := (order_claims found.1).resolve_left fun old => new ⟨old, found.2⟩
    rwa [found.2] at claim
  seen db call q repeated request := by
    cases call with
    | createOrder req =>
      obtain ⟨-, -, -, t, parse, replayed⟩ := repeated
      simp only [orderRequest, parse, Option.map_some, Option.some.injEq] at request
      subst request
      generalize result : execTxWithTenant rt req.tenantId
        (createOrderRow rt t req (orderTotal req.lines)) db = out at replayed
      obtain ⟨answer, db'⟩ := out
      cases replayed
      rcases execTx_failed result with eq | eq | run
      · cases eq
      · cases eq
      · exact ⟨recorded_column (column_column _ _) (createOrderRow_repeated run),
          column_column _ _⟩
    | _ => exact repeated.elim

/-- In each service, a request that is answered as already processed repeats a
committed request of the same RPC with the same payload, if no other request of
the run came to that service under the same tenant and stored key. -/
theorem only_true_repeats (rt : Runtime) :
    (stockService rt).TrueRepeats ∧ (reservationService rt).TrueRepeats ∧
      (orderService rt).TrueRepeats :=
  ⟨(stockService rt).trueRepeats, (reservationService rt).trueRepeats,
    (orderService rt).trueRepeats⟩

def isRepeat {α : Type} : Except Failure α → Bool
  | .error .alreadyProcessed => true
  | _ => false

def again : (op : Op) → Resp op → Bool
  | .insertReservations _ _ _, r => isRepeat r
  | .beginRelease _ _, r => isRepeat r
  | _, _ => false

def repeatedMove (rt : Runtime) (pool : StackPool) : Move Handler Choice → Bool
  | .step i c =>
    match pool.threads i with
    | some (.step op _) => (exec rt i op c pool.state).any fun out => again op out.1
    | _ => false
  | _ => false

def sampleCall : StockCall := .reserveStock ⟨sampleTenant.text, "O1", "K", [⟨"SKU", "W1", 2⟩]⟩

def otherCall : StockCall :=
  .releaseStock ⟨sampleTenant.text, "O1", "", "K", [⟨"SKU", "W1", 2⟩]⟩

def reserving (i : ℕ) (operations : ℕ) : List (Move Handler Choice) :=
  .spawn i (.reserve (sampleReserve "K")) :: List.replicate operations (.step i .healthy)

theorem answered_of_again {s s' : Stack} {r : Resp op} (h : again op r = true) :
    AnsweredAgain s s' op r := by
  have repeated : ∀ {α : Type} {e : Except Failure α}, isRepeat e = true →
      e = .error .alreadyProcessed := by
    intro α e h
    unfold isRepeat at h
    split at h
    · rfl
    · cases h
  cases op with
  | insertReservations t req expiresAt => exact repeated h
  | beginRelease t req => exact repeated h
  | _ => cases h

theorem repeated_of_move {pool : StackPool} {m : Move Handler Choice}
    (h : repeatedMove rt pool m = true) : ReservationRepeated rt pool m := by
  cases m with
  | step i c =>
    simp only [repeatedMove] at h
    split at h
    · rename_i op k at_
      obtain ⟨out, run, answered⟩ := (Option.any_eq_true _ _).1 h
      exact ⟨i, c, op, k, out.1, out.2, rfl, at_, run, answered_of_again answered⟩
    · cases h
  | _ => cases h

theorem only_true_repeats_retried :
    (stockService (reference [])).Recorder ⟨sampleTenant, "K", .reserveStock
        ⟨sampleTenant.text, "O1", "K", [⟨"SKU", "W1", 2⟩]⟩⟩ [sampleCall] sampleStack.stock ∧
      (reservationService (reference [])).Recorder ⟨sampleTenant, "K", .reserve (sampleReserve "K")⟩
        (reserving 0 5 ++ reserving 1 4) (idle sampleStack) ∧
      (orderService (reference [])).Recorder
        ⟨sampleTenant, "K", .createOrder (sampleOrder "O1" "K")⟩
        [.createOrder (sampleOrder "O1" "K")] .empty := by
  obtain ⟨stock, reservation, order⟩ := only_true_repeats (reference [])
  refine ⟨?_, ?_, ?_⟩
  · have again : sampleCall.Repeats (reference [])
        (sampleCall.apply (reference []) sampleStack.stock) :=
      ⟨sampleTenant, rfl, by decide +kernel⟩
    refine stock _ _ _ sampleCall _ rfl rfl ⟨by decide, by decide +kernel,
      StockReplays.repeats_apply again⟩
      (mt And.left (show ¬Seen sampleStack.stock sampleTenant "K" by decide)) fun p member _ _ => ?_
    cases List.mem_singleton.1 member
    rfl
  · have ends : (((reservationService (reference [])).run (reserving 0 5 ++ reserving 1 4)
        (idle sampleStack)).map fun pool => (movedRequest pool (.step 1 .healthy),
          repeatedMove (reference []) pool (.step 1 .healthy))) =
        some (some ⟨sampleTenant, "K", .reserve (sampleReserve "K")⟩, true) := by
      rw [reference_recognizing]
      decide +kernel
    have asked : (reservationService (reference [])).requests (reserving 0 5 ++ reserving 1 4)
        (idle sampleStack) = [⟨sampleTenant, "K", .reserve (sampleReserve "K")⟩] := by
      rw [reference_recognizing]
      decide +kernel
    obtain ⟨pool, run, facts⟩ := Option.map_eq_some_iff.1 ends
    refine reservation _ _ pool (.step 1 .healthy) _ run (congrArg Prod.fst facts)
      (repeated_of_move (congrArg Prod.snd facts))
      (mt And.left (show ¬Recorded reservationKeys sampleStack.reservation sampleTenant "K" by
        decide))
      fun p member _ _ => ?_
    rw [asked] at member
    cases List.mem_singleton.1 member
    rfl
  · refine order _ _ _ (.createOrder (sampleOrder "O1" "K")) _ rfl rfl ⟨by decide, by decide,
      by decide, sampleTenant, rfl, by decide +kernel⟩
      (mt And.left (show ¬Recorded orderKeys .empty sampleTenant "K" by decide))
      fun p member _ _ => ?_
    cases List.mem_singleton.1 member
    rfl

/-- Under the key of another request: a release is answered like the hold it
should have undone, in both services, and an order with other lines is answered
with the outcome of the first. -/
theorem shared_key_swallowed :
    ((otherCall.succeeded (reference []) (sampleCall.apply (reference []) sampleStack.stock),
      held (otherCall.apply (reference []) (sampleCall.apply (reference []) sampleStack.stock))
        ⟨sampleTenant, "SKU", "W1"⟩)) = (true, (3, 2, 0)) ∧
    ((runWith (machine (reference [])) 0 (fun _ _ _ => true) (List.replicate 5 .healthy)
        (reserve (reference []) (sampleReserve "K")) sampleStack).bind fun out =>
      (runWith (machine (reference [])) 0 (fun _ _ _ => true) [.healthy]
        (release (reference []) ⟨sampleTenant.text, "", "O1", "", "K"⟩) out.2).map fun out' =>
          (out'.1.toOption, statusOf out'.2 0)) = some (some ⟨true, []⟩, some .active) ∧
    ((runWith (machine (reference [])) 0 (fun _ _ _ => true) (List.replicate 21 .healthy)
        (createOrder (reference []) (sampleOrder "O1" "K")) sampleStack).bind fun out =>
      (runWith (machine (reference [])) 0 (fun _ _ _ => true) [.healthy, .healthy]
        (createOrder (reference []) { sampleOrder "O1" "K" with lines := [⟨"SKU", "W1", 1, 7⟩] })
          out.2).map fun out' => out'.1.toOption) = some (some ⟨"O1", .confirmed, 0, ""⟩) := by
  rw [reference_recognizing]
  decide +kernel

end Taper.TrueRepeats
