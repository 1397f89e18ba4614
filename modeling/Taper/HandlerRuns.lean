import Taper.StackSteps
import Taper.ReservationSteps

set_option autoImplicit false

/-!
# A handler run alone

Rules for the programs of the stack when nothing else runs.
-/
namespace Taper.HandlerRuns
open Messages Transaction Platform Ledger ReservationTables
open ReservationSteps OrderTables Program ServiceStack Services StackSteps

/-- Run by the one thread there is; `I` holds wherever it can be stopped. -/
abbrev Reaches {α : Type} (rt : Runtime) (adm : Op → Choice → Stack → Prop) (I : Stack → Prop)
    (Q : α → Stack → Prop) (p : Code α) (s : Stack) : Prop := Wp (machine rt) 0 adm I Q p s

section Rules

variable {α β : Type} {rt : Runtime} {adm : Op → Choice → Stack → Prop} {I : Stack → Prop}
  {s : Stack}

variable {Q : α → Stack → Prop}

theorem reaches_ask {op : Op} {f : Resp op → Code α} (here : I s)
    (h : ∀ c r t, adm op c s → exec rt 0 op c s = some (r, t) → Reaches rt adm I Q (f r) t) :
    Reaches rt adm I Q (ask op >>= f) s := wp_bind (wp_perform here h)

theorem reaches_last {o : Op} {Q : Resp o → Stack → Prop} (here : I s)
    (h : ∀ c r t, adm o c s → exec rt 0 o c s = some (r, t) → Q r t) :
    Reaches rt adm I Q (ask o) s := wp_perform here h

theorem reaches_done {a : α} (h : Q a s) : Reaches rt adm I Q (pure a) s := h

theorem reaches_then {Q' : β → Stack → Prop} {p : Code α} {f : α → Code β}
    (first : Reaches rt adm I Q p s) (rest : ∀ a t, Q a t → Reaches rt adm I Q' (f a) t) :
    Reaches rt adm I Q' (p >>= f) s :=
  wp_bind (wp_mono rest first)

/-- A call is lost before it took effect, or afterwards, or it is answered. -/
theorem reaches_rpc {site : Site} {body : Code (Except Failure α)}
    {Q : Except Failure α → Stack → Prop} (here : I s)
    (lost : ∀ c, adm (.send site) c s → c.pass = false → Q (.error .transport) s)
    (h : Reaches rt adm I (fun res t => I t ∧ (∀ c, adm (.answer site) c t →
      (c.pass = true → Q res t) ∧ (c.pass = false → Q (.error .transport) t))) body s) :
    Reaches rt adm I Q (rpc site body) s := by
  refine reaches_ask here fun c sent t ok run => ?_
  cases run
  cases passes : c.pass with
  | false => exact lost c ok passes
  | true =>
    refine reaches_then h fun res u after => reaches_ask after.1 fun c' answered v ok' run' => ?_
    cases run'
    have both := after.2 c' ok'
    cases passes' : c'.pass with
    | false => exact both.2 passes'
    | true => exact both.1 passes'

theorem reaches_call {site : Site} {body : Code (Except Failure α)}
    {Q : Except Failure α → Stack → Prop} (here : I s)
    (sent : ∀ c t, adm (.send site) c t → c.pass = true)
    (answered : ∀ c t, adm (.answer site) c t → c.pass = true)
    (h : Reaches rt adm I (fun res t => I t ∧ Q res t) body s) :
    Reaches rt adm I Q (rpc site body) s := by
  refine reaches_rpc here (fun c ok lost => ?_) (wp_mono (fun res t after => ⟨after.1, ?_⟩) h)
  · rw [sent c s ok] at lost
    cases lost
  · intro c ok
    refine ⟨fun _ => after.2, fun lost => ?_⟩
    rw [answered c t ok] at lost
    cases lost

end Rules

section Transactions

variable {rt : Runtime} {me : ℕ} {c : Choice} {s s' : Stack}

variable {o tenantID : String} {t : UUID} {answer : Except Failure Unit}

theorem exec_transition {error : String} {state : SagaState} {step : Int32}
    (h : exec rt me (.transition tenantID t o state step error) c s = some (answer, s')) :
    (∃ row saga, answer = .ok () ∧ s.order.orders t o = some row ∧ s.order.sagas t o = some saga ∧
      OrderSteps.transitionFits t o state error row = true ∧
      s' = { s with order := OrderSteps.transitioned t o state step error row saga s.order }) ∨
    ((∃ e, answer = .error e) ∧ s' = s) := by
  rcases orderTx_some h with ⟨u, db, rfl, run, rfl⟩ | failed
  · obtain ⟨row, saga, order, found, fits, rfl⟩ := OrderSteps.transition_ok_iff.1 run
    exact .inl ⟨row, saga, rfl, order, found, fits, rfl⟩
  · exact .inr failed

theorem exec_transition_forward {error : String} {state : SagaState} {step : Int32}
    {row : OrderRow} {saga : SagaInstance} (healthy : c.fault = false)
    (castable : Castable rt tenantID) (order : s.order.orders t o = some row)
    (found : s.order.sagas t o = some saga)
    (fits : OrderSteps.transitionFits t o state error row = true)
    (h : exec rt me (.transition tenantID t o state step error) c s = some (answer, s')) :
    answer = .ok () ∧
      s' = { s with order := OrderSteps.transitioned t o state step error row saga s.order } := by
  have run : (transition t o state step error).run s.order =
      .ok ((), OrderSteps.transitioned t o state step error row saga s.order) :=
    OrderSteps.transition_ok_iff.2 ⟨row, saga, order, found, fits, rfl⟩
  rw [exec, orderTx_eq healthy castable, Tx.commit_of_ok run] at h
  cases h
  exact ⟨rfl, rfl⟩

theorem exec_record {txn : String}
    (h : exec rt me (.recordTransaction tenantID t o txn) c s = some (answer, s')) :
    (∃ row, answer = .ok () ∧ storable o = true ∧ varchar 255 txn = true ∧
      s.order.orders t o = some row ∧
      s' = { s with order := OrderSteps.paid t o txn row s.order }) ∨
    ((∃ e, answer = .error e) ∧ s' = s) := by
  rcases orderTx_some h with ⟨u, db, rfl, run, rfl⟩ | failed
  · obtain ⟨text, fits, row, order, rfl⟩ := OrderSteps.record_ok_iff.1 run
    exact .inl ⟨row, rfl, text, fits, order, rfl⟩
  · exact .inr failed

theorem exec_createOrderRow {req : CreateOrderRequest} {total : Int64}
    (h : exec rt me (.createOrderRow t req total) c s = some (answer, s')) :
    (answer = .ok () ∧ Castable rt req.tenantId ∧ OrderSteps.Creatable t req total s.order ∧
      s' = { s with order := OrderSteps.orderCreated rt t req total s.order }) ∨
    ((∃ e, answer = .error e) ∧ s' = s) := by
  cases answer with
  | ok u =>
    have castable := orderTx_castable h
    rcases orderTx_some h with ⟨u', db, -, run, rfl⟩ | ⟨⟨e, eq⟩, -⟩
    · obtain ⟨creatable, rfl⟩ := OrderSteps.createOrderRow_ok_iff.1 run
      exact .inl ⟨rfl, castable, creatable, rfl⟩
    · cases eq
  | error e =>
    rcases orderTx_some h with ⟨u', db, eq, -, -⟩ | ⟨-, same⟩
    · cases eq
    · exact .inr ⟨⟨e, rfl⟩, same⟩

theorem exec_insert {req : ReserveRequest} {expiresAt : ℤ} {answer : Except Failure (Option ℕ)}
    (h : exec rt me (.insertReservations t req expiresAt) c s = some (answer, s')) :
    (∃ first, answer = .ok first ∧ ¬Recorded reservationKeys s.reservation t req.idempotencyKey ∧
      (∀ it ∈ req.items, itemFits rt t req.orderId it = true) ∧
      s' = { s with
        reservation := inserted t req.orderId expiresAt req.items
          (keyed t req.idempotencyKey (rt.payloadHash (.reserve req)) s.reservation) }) ∨
    ((∃ e, answer = .error e) ∧ s' = s) := by
  simp only [exec] at h
  split at h
  · cases h
  · rcases reservationTx_some h with ⟨first, db, rfl, run, rfl⟩ | failed
    · obtain ⟨-, new, fits, -, rfl⟩ := insertReservations_ok_iff.1 run
      exact .inl ⟨first, rfl, new, fits, rfl⟩
    · exact .inr failed

theorem exec_allocate {req : AllocateReservationRequest} {answer : Except Failure ℕ}
    (h : exec rt me (.allocate t req) c s = some (answer, s')) :
    s' = s ∨ s' = { s with reservation := allocated rt t req s.locked s.reservation } := by
  simp only [exec] at h
  split at h
  · cases h
  · rcases reservationTx_some h with ⟨count, db, -, run, rfl⟩ | ⟨-, same⟩
    · obtain ⟨-, ⟨-, -, rfl⟩ | ⟨-, -, -, -, rfl⟩⟩ := allocateTx_ok_iff.1 run
      · exact .inl rfl
      · exact .inr rfl
    · exact .inl same

end Transactions

end Taper.HandlerRuns
