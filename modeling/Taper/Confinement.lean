import Taper.OrderViews
import Taper.TenantRuns

set_option autoImplicit false

/-!
# Whose rows an operation changes

An operation of a handler names the tenant it acts for, and changes rows of that
tenant alone.
-/
namespace Taper.Confinement
open Messages Platform Ledger StockTables ReservationTables ReservationSteps
open ReservationRuns OrderTables OrderSteps Program ServiceStack Services StackSteps ServiceRules
open StockConservation (StockCall)
open StockTenants (SameStock)
open ReservationTenants (KeptRows own mem_own)

structure SameOrders (v : UUID) (db db' : OrderDb) : Prop where
  orders : db.orders v = db'.orders v
  lines : db.orderLines v = db'.orderLines v
  sagas : db.sagas v = db'.sagas v
  created : (db.created.filter fun at_ => at_.1 = v) = db'.created.filter fun at_ => at_.1 = v
  outbox : (db.outbox.filter fun e => e.tenantID = v) = db'.outbox.filter fun e => e.tenantID = v
  keys : db.processedKeys v = db'.processedKeys v

structure Untouched (v : UUID) (s t : Stack) : Prop where
  stock : SameStock v s.stock t.stock
  reservation : KeptRows v s.reservation t.reservation
  order : SameOrders v s.order t.order

theorem SameOrders.refl (v : UUID) (db : OrderDb) : SameOrders v db db :=
  ⟨rfl, rfl, rfl, rfl, rfl, rfl⟩

theorem SameOrders.trans {v : UUID} {db db' db'' : OrderDb} (h : SameOrders v db db')
    (h' : SameOrders v db' db'') : SameOrders v db db'' :=
  ⟨h.orders.trans h'.orders, h.lines.trans h'.lines, h.sagas.trans h'.sagas,
    h.created.trans h'.created, h.outbox.trans h'.outbox, h.keys.trans h'.keys⟩

theorem Untouched.refl (v : UUID) (s : Stack) : Untouched v s s :=
  ⟨.refl v _, ⟨rfl, rfl, rfl⟩, .refl v _⟩

theorem Untouched.trans {v : UUID} {s t r : Stack} (h : Untouched v s t) (h' : Untouched v t r) :
    Untouched v s r :=
  ⟨h.stock.trans h'.stock,
    ReservationTenants.reservationParts.kept_trans h.reservation h'.reservation,
    h.order.trans h'.order⟩

theorem parsed_apart {rt : Runtime} {v t : UUID} {text : String} (apart : rt.scan text ≠ some v)
    (parse : parseUUID rt text = .ok t) : t ≠ v := by
  rintro rfl
  unfold parseUUID at parse
  split at parse
  · rename_i found
    cases parse
    exact apart found
  · cases parse

section Stock

variable {rt : Runtime} {v : UUID} {db : StockDb}

theorem apply_apart {call : StockCall} (request : call ≠ .reconcile)
    (apart : rt.scan call.tenantId ≠ some v) : SameStock v db (call.apply rt db) := by
  have kept : ∀ {α : Type} {R : α → α → Prop} {u : UUID} {out out' : Except Failure α × StockDb},
      rt.scan call.tenantId = some u → StockTenants.StockServed u R db out out' →
      SameStock v db out.2 := by
    intro α R u out out' parse served
    obtain ⟨-, -, -, -, others⟩ := served
    exact others v fun same => apart (same ▸ parse)
  cases parse : rt.scan call.tenantId with
  | none =>
    have same : call.apply rt db = db := by
      cases call with
      | reconcile => exact absurd rfl request
      | reserveStock req =>
        simp only [StockCall.tenantId] at parse
        simp [StockCall.apply, StockHandlers.reserveStock, parseUUID, parse]
      | _ =>
        simp only [StockCall.tenantId] at parse
        simp [StockCall.apply, StockHandlers.adjustStock, StockHandlers.releaseStock,
          StockHandlers.confirmStockAllocation, StockHandlers.fulfillStock,
          StockHandlers.unlockStockForAudit, StockHandlers.tenantRpc, parseUUID, parse]
    rw [same]
    exact .refl v db
  | some u =>
    have own := SameStock.refl u db
    cases call with
    | adjustStock req => exact kept parse (StockTenants.adjustStock_served parse own)
    | reserveStock req => exact kept parse (StockTenants.reserveStock_served parse own)
    | releaseStock req => exact kept parse (StockTenants.releaseStock_served parse own)
    | confirmStockAllocation req =>
      exact kept parse (StockTenants.confirmStockAllocation_served parse own)
    | fulfillStock req => exact kept parse (StockTenants.fulfillStock_served parse own)
    | unlockStockForAudit req =>
      exact kept parse (StockTenants.unlockStockForAudit_served parse own)
    | reconcile => exact absurd rfl request

end Stock

theorem insert_apart {v t : UUID} (other : v ≠ t) (keys : KeyTable) (key hash : String) :
    keys.insert t key hash v = keys v := by
  rw [KeyTable.insert, Function.update_of_ne other]

section Reservations

variable {v t : UUID} {db : ReservationDb}

theorem keyed_apart (other : v ≠ t) (key hash : String) : KeptRows v db (keyed t key hash db) := by
  unfold keyed claimed
  split
  · exact ⟨rfl, rfl, rfl⟩
  · exact ⟨rfl, rfl, (insert_apart other _ _ _).symm⟩

theorem inserted_apart (other : v ≠ t) (o : String) (expiresAt : ℤ)
    (items : List ReservationItem) : KeptRows v db (inserted t o expiresAt items db) := by
  refine ⟨?_, ?_, rfl⟩
  · have none_ : (newRows t o expiresAt db.nextID items).filter (fun row => row.tenantID = v) =
        [] := by
      refine List.filter_eq_nil_iff.2 fun row member => ?_
      rw [(newRows_spec member).1]
      simpa using other.symm
    simp only [own, inserted, List.filter_append, none_, List.append_nil]
  · have none_ : (items.map fun it => (reservationEvent t o "reservation.created"
        (linePayload o it.skuId)).stored).filter (fun e => e.tenantID = v) = [] := by
      refine List.filter_eq_nil_iff.2 fun e member => ?_
      obtain ⟨it, -, rfl⟩ := List.mem_map.1 member
      exact fun same => other (of_decide_eq_true same).symm
    simp only [inserted, List.filter_append, none_, List.append_nil]

theorem marked_apart (other : v ≠ t) (o eventType : String) (status : ReservationStatus)
    {rows : List Reservation} (apart : ∀ row ∈ rows, ∀ mine ∈ own v db, row.id ≠ mine.id) :
    KeptRows v db (marked t o eventType status rows db) := by
  refine ⟨?_, ?_, rfl⟩
  · have tenants : ∀ r : Reservation, (if r.id ∈ rows.map (·.id) then withStatus status r
        else r).tenantID = r.tenantID := fun r => by split <;> rfl
    have same : (own v db).map (fun r => if r.id ∈ rows.map (·.id) then withStatus status r
        else r) = own v db := by
      refine (List.map_congr_left fun r mine => ?_).trans (List.map_id _)
      refine if_neg fun member => ?_
      obtain ⟨row, there, same⟩ := List.mem_map.1 member
      exact apart row there r mine same
    unfold own marked ReservationDb.mark
    rw [List.filter_map]
    simp only [Function.comp_def, tenants]
    exact same.symm
  · have none_ : (rows.map fun _ => (reservationEvent t o eventType (orderPayload o)).stored).filter
        (fun e => e.tenantID = v) = [] := by
      refine List.filter_eq_nil_iff.2 fun e member => ?_
      obtain ⟨row, -, rfl⟩ := List.mem_map.1 member
      exact fun same => other (of_decide_eq_true same).symm
    simp only [marked, List.filter_append, none_, List.append_nil]

end Reservations

section Orders

variable {rt : Runtime} {v t : UUID} {db : OrderDb}

theorem setCell_apart {α : Type} {table : UUID → String → α} {o : String} {a : α}
    (other : v ≠ t) : setCell table t o a v = table v := by
  rw [setCell, Function.update_of_ne other]

theorem created_apart {req : CreateOrderRequest} {total : Int64} (other : v ≠ t) :
    SameOrders v db (orderCreated rt t req total db) := by
  refine ⟨(setCell_apart other).symm, (setCell_apart other).symm, (setCell_apart other).symm,
    ?_, rfl, ?_⟩
  · simp [orderCreated, List.filter_append, other.symm]
  · simp only [orderCreated, claimed]
    split
    · rfl
    · exact (insert_apart other _ _ _).symm

theorem transitioned_apart {o error : String} {state : SagaState} {step : Int32} {row : OrderRow}
    {saga : SagaInstance} (other : v ≠ t) :
    SameOrders v db (transitioned t o state step error row saga db) := by
  refine ⟨(setCell_apart other).symm, rfl, (setCell_apart other).symm, rfl, ?_, rfl⟩
  simp [transitioned, transitionEvent, OrderOutboxEvent.stored, List.filter_append, other.symm]

theorem paid_apart {o txn : String} {row : OrderRow} (other : v ≠ t) :
    SameOrders v db (paid t o txn row db) :=
  ⟨(setCell_apart other).symm, rfl, rfl, rfl, rfl, rfl⟩

theorem fulfilled_apart {req : FulfillOrderRequest} {row : OrderRow} (other : v ≠ t) :
    SameOrders v db (FulfilledOnce.orderFulfilled rt t req row db) := by
  obtain ⟨-, lines, sagas, created, -⟩ := claimed_tables t req.idempotencyKey
    (rt.payloadHash (.fulfillOrder req)) db
  refine ⟨(setCell_apart other).symm, ?_, ?_, ?_, ?_, ?_⟩
  · exact (congrFun lines v).symm
  · exact (congrFun sagas v).symm
  · simp only [FulfilledOnce.orderFulfilled, created]
  · simp [FulfilledOnce.orderFulfilled, Fulfillment.fulfilledEvent, OrderOutboxEvent.stored,
      List.filter_append, other.symm]
  · simp only [FulfilledOnce.orderFulfilled, claimed]
    split
    · rfl
    · exact (insert_apart other _ _ _).symm

theorem fulfillOrder_apart {req : FulfillOrderRequest} (apart : rt.scan req.tenantId ≠ some v)
    (db : OrderDb) : SameOrders v db (Fulfillment.fulfillOrder rt req db).2 := by
  rcases OrderViews.fulfillOrder_cases rt req db with same | ⟨u, row, parse, -, eq⟩
  · rw [same]
    exact .refl v db
  · rw [eq]
    exact fulfilled_apart (parsed_apart apart parse).symm

end Orders

/-- The operations that may change rows of a tenant, given the numbers that its
reservation rows have. The sweeper acts for whoever's rows have expired. -/
def Concerns (rt : Runtime) (v : UUID) (held : ℕ → Prop) : Op → Prop
  | .reserveStock req => rt.scan req.tenantId = some v
  | .releaseStock req _ => rt.scan req.tenantId = some v
  | .confirmStockAllocation req => rt.scan req.tenantId = some v
  | .insertReservations t _ _ => t = v
  | .beginRelease t _ => t = v
  | .commitRelease t _ rows => t = v ∨ ∃ row ∈ rows, held row.id
  | .allocate t _ => t = v
  | .markExpired _ => True
  | .expiredEvent _ => True
  | .createOrderRow t _ _ => t = v
  | .transition _ t _ _ _ _ => t = v
  | .recordTransaction _ t _ _ => t = v
  | _ => False

section Operations

variable {rt : Runtime} {v : UUID} {held : ℕ → Prop} {me : ℕ} {op : Op} {c : Choice}
  {s s' : Stack} {r : Resp op}

theorem exec_stock_apart (h : exec rt me op c s = some (r, s')) (apart : ¬Concerns rt v held op) :
    SameStock v s.stock s'.stock := by
  have called : ∀ {α : Type} {call : StockDb → Except Failure α × StockDb} {a : Except Failure α},
      stockCall call c s = some (a, s') → SameStock v s.stock (call s.stock).2 →
      SameStock v s.stock s'.stock := by
    intro α call a run kept
    rcases stockCall_some run with ⟨-, -, rfl⟩ | ⟨-, -, rfl⟩
    · exact kept
    · exact .refl v _
  by_cases quiet : writesStock op = false
  · rw [(exec_frame h).stock quiet]
    exact .refl v _
  · cases op with
    | reserveStock req =>
      have kept : SameStock v s.stock (StockCall.apply rt (.reserveStock req) s.stock) :=
        apply_apart StockCall.noConfusion apart
      exact called h kept
    | releaseStock req rows =>
      have kept : SameStock v s.stock (StockCall.apply rt (.releaseStock req) s.stock) :=
        apply_apart StockCall.noConfusion apart
      exact called h kept
    | confirmStockAllocation req =>
      have kept : SameStock v s.stock (StockCall.apply rt (.confirmStockAllocation req) s.stock) :=
        apply_apart StockCall.noConfusion apart
      exact called h kept
    | _ => exact absurd rfl quiet

theorem exec_order_apart (h : exec rt me op c s = some (r, s')) (apart : ¬Concerns rt v held op) :
    SameOrders v s.order s'.order := by
  rcases exec_order_cases h with same | write
  · rw [same]
    exact .refl v _
  · generalize s'.order = db at write
    cases write with
    | created ok => exact created_apart fun same => apart same.symm
    | moved order found fits => exact transitioned_apart fun same => apart same.symm
    | recorded order => exact paid_apart fun same => apart same.symm

theorem exec_reservation_apart (h : exec rt me op c s = some (r, s'))
    (numbered : Numbered s.reservation) (all : ∀ row ∈ own v s.reservation, held row.id)
    (apart : ¬Concerns rt v held op) : KeptRows v s.reservation s'.reservation := by
  have chain := @ReservationTenants.reservationParts.kept_trans
  rcases exec_reservation_cases h with same | write
  · rw [same]
    exact ⟨rfl, rfl, rfl⟩
  · generalize s'.reservation = db at write
    cases write with
    | inserted new =>
      have other : v ≠ _ := fun same => apart same.symm
      exact chain (keyed_apart other _ _) (inserted_apart other _ _ _)
    | nothingHeld new none => exact keyed_apart (fun same => apart same.symm) _ _
    | @released t req rows new =>
      have other : v ≠ t := fun same => apart (.inl same.symm)
      have first : KeptRows v s.reservation (keyed t req.idempotencyKey
        (rt.payloadHash (.release req)) s.reservation) := keyed_apart other _ _
      refine chain first (marked_apart other _ _ _ fun row member mine there same => ?_)
      rw [← first.rows] at there
      exact apart (.inr ⟨row, member, same ▸ all mine there⟩)
    | @allocated t req count new =>
      have other : v ≠ t := fun same => apart same.symm
      have first : KeptRows v s.reservation (keyed t req.idempotencyKey
        (rt.payloadHash (.allocateReservation req)) s.reservation) := keyed_apart other _ _
      refine chain first (marked_apart other _ _ _ fun row member mine there same => ?_)
      rw [← first.rows] at there
      -- the rows are the other tenant's, and no two rows have one number
      obtain ⟨stored, tenant, -⟩ := mem_activeRows.1 member
      obtain ⟨kept, owner⟩ := mem_own.1 there
      rw [numbered.unique stored kept same, owner] at tenant
      exact other tenant
    | expired => exact absurd trivial apart
    | noted => exact absurd trivial apart

theorem exec_untouched (h : exec rt me op c s = some (r, s')) (numbered : Numbered s.reservation)
    (all : ∀ row ∈ own v s.reservation, held row.id) (apart : ¬Concerns rt v held op) :
    Untouched v s s' :=
  ⟨exec_stock_apart h apart, exec_reservation_apart h numbered all apart, exec_order_apart h apart⟩

def Given (held : ℕ → Prop) : (op : Op) → Resp op → Prop
  | .beginRelease _ _, answer => ∀ rows, answer = .ok rows → ∀ row ∈ rows, ¬held row.id
  | _, _ => True

theorem exec_given (h : exec rt me op c s = some (r, s')) (numbered : Numbered s.reservation)
    (only : ∀ id, held id → ∃ row ∈ own v s.reservation, row.id = id)
    (apart : ¬Concerns rt v held op) : Given held op r := by
  cases op with
  | beginRelease t req =>
    rintro rows rfl row member mine
    rcases beginRelease_some (Option.ite_none_left_eq_some.1 h).2 with
      ⟨⟨e, failed⟩, -⟩ | ⟨rows', db, same, claim, -⟩
    · cases failed
    · cases same
      obtain ⟨-, -, -, rfl, -⟩ := releaseClaim_ok_iff.1 claim
      obtain ⟨stored, tenant, -⟩ := mem_activeRows.1 member
      obtain ⟨owned, there, number⟩ := only row.id mine
      obtain ⟨kept, owner⟩ := mem_own.1 there
      rw [numbered.unique stored kept number.symm, owner] at tenant
      exact apart tenant.symm
  | _ => trivial

end Operations

/-- A program that is never up to rows of the tenant. -/
abbrev Foreign {α : Type} (rt : Runtime) (v : UUID) (held : ℕ → Prop) (p : Code α) : Prop :=
  Safe (Given held) (Concerns rt v held) (fun _ => True) p

section Handlers

variable {rt : Runtime} {v : UUID} {held : ℕ → Prop}

theorem foreign_ask {op : Op} (apart : ¬Concerns rt v held op) : Foreign rt v held (ask op) :=
  safe_ask apart fun _ _ => trivial

theorem foreign_walks : Walks (fun op => ¬Concerns rt v held op) fun _ p =>
    Foreign rt v held p where
  pure _ := safe_done
  bind first rest := safe_bind first fun a _ => rest a
  ask _ := foreign_ask
  neutral op idle := by cases op <;> first | exact id | cases idle

theorem scanned_apart {t : UUID} {text : String} (apart : rt.scan text ≠ some v)
    (parse : rt.scan text = some t) : t ≠ v := fun same => apart (same ▸ parse)

theorem reserve_foreign {req : ReserveRequest} (apart : rt.scan req.tenantId ≠ some v) :
    Foreign rt v held (reserve rt req) :=
  foreign_walks.reserve (fun _ => apart) (fun _ _ parse => scanned_apart apart parse)
    (foreign_ask apart)

theorem release_foreign {req : ReleaseRequest} (apart : rt.scan req.tenantId ≠ some v) :
    Foreign rt v held (release rt req) := by
  unfold release
  split
  · exact safe_done
  rename_i t parse
  have other := parsed_apart apart parse
  refine safe_then other fun claim given => ?_
  split
  · exact safe_done
  · exact safe_done
  · exact safe_done
  · rename_i rows _
    refine foreign_walks.bind (foreign_walks.rpc (foreign_ask apart)) fun answer => ?_
    cases answer with
    | error e => exact foreign_walks.bind (foreign_ask id) fun _ => safe_done
    | ok stockResp =>
      have commits : ¬Concerns rt v held (.commitRelease t req rows) := by
        rintro (same | ⟨row, member, mine⟩)
        · exact other same
        · exact given rows rfl row member mine
      refine foreign_walks.bind (foreign_ask commits) fun done => ?_
      cases done with
      | error e => exact safe_done
      | ok u => exact safe_done

theorem allocateReservation_foreign {req : AllocateReservationRequest}
    (apart : rt.scan req.tenantId ≠ some v) : Foreign rt v held (allocateReservation rt req) :=
  foreign_walks.allocateReservation fun _ parse => scanned_apart apart parse

theorem runSaga_foreign {input : SagaInput} (apart : rt.scan input.tenantID ≠ some v)
    (other : input.tenantUUID ≠ v) : Foreign rt v held (runSaga rt input) := by
  have saga : SagaFine rt (fun op => ¬Concerns rt v held op) input :=
    ⟨fun _ _ _ _ parse _ => scanned_apart apart parse, fun _ _ _ => other,
      fun _ parse => scanned_apart apart parse, fun _ => apart⟩
  exact foreign_walks.runSaga saga (reserve_foreign apart)
    (foreign_walks.paySteps saga (release_foreign apart) id fun _ => other)

theorem createOrder_foreign {req : CreateOrderRequest} (apart : rt.scan req.tenantId ≠ some v) :
    Foreign rt v held (createOrder rt req) :=
  foreign_walks.createOrder (fun _ _ parse => scanned_apart apart parse) fun _ parse =>
    runSaga_foreign apart (scanned_apart apart parse)

theorem cancelOrder_foreign {req : CancelOrderRequest} (apart : rt.scan req.tenantId ≠ some v) :
    Foreign rt v held (cancelOrder rt req) :=
  foreign_walks.cancelOrder (fun _ _ _ _ parse _ => scanned_apart apart parse)
    (release_foreign apart)

end Handlers

end Taper.Confinement
