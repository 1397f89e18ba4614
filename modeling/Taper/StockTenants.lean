import Taper.Isolation
import Taper.StockHandlers
import Mathlib.Order.CompleteBooleanAlgebra
import Mathlib.Order.CompletePartialOrder

set_option autoImplicit false

/-!
# Tenants of the stock service

Every statement of a stock request names its tenant, so a request depends on
and changes the rows of that tenant alone.
-/
namespace Taper.StockTenants
open Messages Transaction Platform StockTables StockHandlers Isolation

structure SameStock (u : UUID) (db db' : StockDb) : Prop where
  levels : ∀ loc : StockLocation, loc.tenantID = u → db.stockLevels loc = db'.stockLevels loc
  events : (db.stockEvents.filter fun e => e.tenantID = u) =
    db'.stockEvents.filter fun e => e.tenantID = u
  outbox : (db.outbox.filter fun e => e.tenantID = u) = db'.outbox.filter fun e => e.tenantID = u
  keys : db.processedKeys u = db'.processedKeys u

theorem SameStock.refl (u : UUID) (db : StockDb) : SameStock u db db :=
  ⟨fun _ _ => rfl, rfl, rfl, rfl⟩

theorem SameStock.trans {u : UUID} {db db' db'' : StockDb} (h : SameStock u db db')
    (h' : SameStock u db' db'') : SameStock u db db'' :=
  ⟨fun loc own => (h.levels loc own).trans (h'.levels loc own), h.events.trans h'.events,
    h.outbox.trans h'.outbox, h.keys.trans h'.keys⟩

theorem SameStock.symm {u : UUID} {db db' : StockDb} (h : SameStock u db db') :
    SameStock u db' db :=
  ⟨fun loc own => (h.levels loc own).symm, h.events.symm, h.outbox.symm, h.keys.symm⟩

def stockParts : Parts UUID Unit StockDb where
  Alike u _ := SameStock u
  Kept := SameStock
  kept_refl := SameStock.refl
  kept_trans := SameStock.trans

abbrev Within {α β : Type} (u : UUID) (R : α → β → Prop) (m : StockTx α) (m' : StockTx β) :
    Prop :=
  Confined stockParts u (fun _ => R) () m m'

variable {loc : StockLocation}

section Writes

variable {u v : UUID} {db db' : StockDb}

theorem setLevel_same (level : StockLevel) (same : SameStock u db db') :
    SameStock u (db.setLevel loc level) (db'.setLevel loc level) := by
  refine ⟨fun other own => ?_, same.events, same.outbox, same.keys⟩
  by_cases here : other = loc
  · rw [here, setLevel_self, setLevel_self]
  · rw [setLevel_of_ne _ _ here, setLevel_of_ne _ _ here]
    exact same.levels other own

theorem setLevel_kept (level : StockLevel) (other : v ≠ loc.tenantID) :
    SameStock v db (db.setLevel loc level) := by
  refine ⟨fun at_ own => ?_, rfl, rfl, rfl⟩
  have elsewhere : at_ ≠ loc := fun here => other (by rw [← own, here])
  rw [setLevel_of_ne _ _ elsewhere]

theorem setKey_same (key hash : String) (same : SameStock u db db') :
    SameStock u (db.setKey u key hash) (db'.setKey u key hash) := by
  refine ⟨same.levels, same.events, same.outbox, ?_⟩
  simp only [StockDb.setKey, Function.update_self]
  rw [same.keys]

theorem setKey_kept (key hash : String) (other : v ≠ u) :
    SameStock v db (db.setKey u key hash) := by
  refine ⟨fun _ _ => rfl, rfl, rfl, ?_⟩
  simp only [StockDb.setKey]
  rw [Function.update_of_ne other]

theorem addEvent_same (e : StockEvent) (same : SameStock u db db') :
    SameStock u { db with stockEvents := db.stockEvents ++ [e] }
      { db' with stockEvents := db'.stockEvents ++ [e] } := by
  refine ⟨same.levels, ?_, same.outbox, same.keys⟩
  rw [List.filter_append, List.filter_append, same.events]

theorem addEvent_kept {e : StockEvent} (other : e.tenantID ≠ v) :
    SameStock v db { db with stockEvents := db.stockEvents ++ [e] } := by
  refine ⟨fun _ _ => rfl, ?_, rfl, rfl⟩
  simp [List.filter_append, other]

theorem addOutbox_same (e : StockOutboxEvent) (same : SameStock u db db') :
    SameStock u { db with outbox := db.outbox ++ [e] }
      { db' with outbox := db'.outbox ++ [e] } := by
  refine ⟨same.levels, same.events, ?_, same.keys⟩
  rw [List.filter_append, List.filter_append, same.outbox]

theorem addOutbox_kept {e : StockOutboxEvent} (other : e.tenantID ≠ v) :
    SameStock v db { db with outbox := db.outbox ++ [e] } := by
  refine ⟨fun _ _ => rfl, rfl, ?_, rfl⟩
  simp [List.filter_append, other]

end Writes

section Statements

variable {u : UUID} {α β γ : Type}

/-- Stock rows have no generated names, so there is nothing to pair. -/
theorem within_bind {R : β → γ → Prop} {m m' : StockTx α} {f : α → StockTx β}
    {f' : α → StockTx γ} (first : Within u Eq m m') (rest : ∀ a, Within u R (f a) (f' a)) :
    Within u R (m >>= f) (m' >>= f') :=
  confined_bind_eq first fun _ a _ => rest a

theorem within_pure (a : α) : Within u Eq (pure a) (pure a) := confined_pure fun _ _ => rfl

theorem getStockLevelForUpdate_within (own : loc.tenantID = u) :
    Within u Eq (getStockLevelForUpdate loc) (getStockLevelForUpdate loc) := by
  refine within_bind (confined_require _ _) fun _ => ?_
  refine confined_read (fun db => db.find loc) (fun _ db db' same => ?_)
    fun _ _ _ _ same => confined_pure fun _ _ => same
  rw [StockDb.find, same.levels loc own, StockDb.find]

theorem writeLevel_within (loc : StockLocation) (own : loc.tenantID = u) (level : StockLevel) :
    Within u Eq (writeLevel loc level) (writeLevel loc level) := by
  unfold writeLevel
  cases level.check with
  | error e => exact confined_throw _
  | ok _ =>
    exact confined_modify (fun _ _ _ same => setLevel_same level same)
      fun _ _ other => setLevel_kept level (own ▸ other)

theorem updateStockLevel_within (own : loc.tenantID = u) (level : StockLevel) :
    Within u Eq (updateStockLevel loc level) (updateStockLevel loc level) := by
  refine confined_read (fun db => db.stockLevels loc) (fun _ _ _ same => same.levels loc own)
    fun _ db db' _ same => ?_
  simp only [same]
  cases db'.stockLevels loc with
  | none => exact confined_throw _
  | some _ => exact writeLevel_within _ own level

/-- The number of the new event is generated. -/
theorem insertStockEvent_within {e : StockEvent} (own : e.tenantID = u) :
    Within u (fun _ _ => True) (insertStockEvent e) (insertStockEvent e) := by
  refine within_bind (confined_require _ _) fun _ => ?_
  refine confined_read (fun _ => ()) (fun _ _ _ _ => rfl) fun _ _ _ _ _ => ?_
  have written : Within u Eq
      (.modify fun db => { db with stockEvents := db.stockEvents ++ [e.stored] })
      (.modify fun db => { db with stockEvents := db.stockEvents ++ [e.stored] }) :=
    confined_modify (fun _ _ _ same => addEvent_same e.stored same)
      fun _ _ other => addEvent_kept (own ▸ other.symm)
  exact within_bind written fun _ => confined_pure fun _ _ => trivial

theorem insertOutboxEvent_within {e : StockOutboxEvent} (own : e.tenantID = u) :
    Within u Eq (insertOutboxEvent e) (insertOutboxEvent e) :=
  within_bind (confined_require _ _) fun _ =>
    confined_modify (fun _ _ _ same => addOutbox_same e.stored same)
      fun _ _ other => addOutbox_kept (own ▸ other.symm)

theorem checkAndInsertIdempotencyKey_within (key hash : String) :
    Within u Eq (checkAndInsertIdempotencyKey u key hash)
      (checkAndInsertIdempotencyKey u key hash) := by
  refine within_bind (confined_require _ _) fun _ => ?_
  refine confined_read (fun db => db.processedKeys u (column 255 key))
    (fun _ _ _ same => congrFun same.keys (column 255 key)) fun _ db db' _ same => ?_
  simp only [same]
  cases db'.processedKeys u (column 255 key) with
  | some _ => exact within_pure false
  | none =>
    have written : Within u Eq (.modify fun db => db.setKey u (column 255 key) hash)
        (.modify fun db => db.setKey u (column 255 key) hash) :=
      confined_modify (fun _ _ _ same => setKey_same _ hash same)
        fun _ _ other => setKey_kept _ hash other
    exact within_bind written fun _ => within_pure true

theorem upsertStockLevel_within (own : loc.tenantID = u) (qty : Int32) :
    Within u Eq (upsertStockLevel loc qty) (upsertStockLevel loc qty) := by
  refine within_bind (confined_require _ _) fun _ => ?_
  dsimp only
  cases (⟨qty, 0, 0, false⟩ : StockLevel).check with
  | error e => exact confined_throw _
  | ok _ =>
    refine confined_read (fun db => db.stockLevels loc.stored)
      (fun _ _ _ same => same.levels loc.stored own) fun _ db db' _ same => ?_
    simp only [same]
    cases db'.stockLevels loc.stored with
    | none => exact writeLevel_within loc.stored own _
    | some level =>
      dsimp only
      split
      · exact writeLevel_within loc.stored own _
      · exact confined_throw _

theorem setAuditLock_within (own : loc.tenantID = u) (locked : Bool) :
    Within u Eq (.modify (setAuditLock loc locked)) (.modify (setAuditLock loc locked)) := by
  refine confined_modify (fun _ db db' same => ?_) fun v db other => ?_
  · unfold setAuditLock
    rw [same.levels loc own]
    cases db'.stockLevels loc with
    | none => exact same
    | some level => exact setLevel_same _ same
  · unfold setAuditLock
    cases db.stockLevels loc with
    | none => exact .refl v db
    | some level => exact setLevel_kept _ (own ▸ other)

end Statements

section Handlers

variable {u : UUID} {α β γ : Type} (rt : Runtime)

theorem keyedTx_within {R : α → β → Prop} {again work : StockTx α} {again' work' : StockTx β}
    (key : String) (msg : Message) (repeated : Within u R again again')
    (fresh : Within u R work work') :
    Within u R (keyedTx rt u key msg again work) (keyedTx rt u key msg again' work') := by
  have claim : Within u Eq (tryIdempotency rt u key msg) (tryIdempotency rt u key msg) := by
    unfold tryIdempotency
    split
    · exact within_pure false
    · exact within_bind (checkAndInsertIdempotencyKey_within key _) fun _ => within_pure _
  refine within_bind claim fun dup => ?_
  cases dup with
  | true => exact repeated
  | false => exact fresh

theorem moveLine_within (m : Movement) (orderID : String) (l : StockLine) (level : StockLevel) :
    Within u Eq (moveLine m u orderID l level) (moveLine m u orderID l level) := by
  have own : (lineLocation u l).tenantID = u := rfl
  refine within_bind (updateStockLevel_within own _) fun _ => ?_
  have logged : (m.event u l).tenantID = u := rfl
  exact confined_bind (insertStockEvent_within logged) fun _ _ _ _ _ =>
    insertOutboxEvent_within rfl

theorem collect_within {visit : StockLine → StockTx (Option γ)}
    (each : ∀ l, Within u Eq (visit l) (visit l)) (lines : List StockLine) :
    Within u Eq (Tx.collect visit lines) (Tx.collect visit lines) := by
  induction lines with
  | nil => exact within_pure []
  | cons l rest ih => exact within_bind (each l) fun _ => within_bind ih fun _ => within_pure _

theorem reserveLine_within (orderID : String) (l : StockLine) :
    Within u Eq (reserveLine u orderID l) (reserveLine u orderID l) := by
  refine within_bind (getStockLevelForUpdate_within rfl) fun found => ?_
  cases found with
  | none => exact within_pure _
  | some level =>
    dsimp only
    split
    · exact within_pure _
    · exact within_bind (moveLine_within _ orderID l level) fun _ => within_pure none

theorem releaseLine_within (orderID reason : String) (l : StockLine) :
    Within u Eq (releaseLine u orderID reason l) (releaseLine u orderID reason l) := by
  refine within_bind (getStockLevelForUpdate_within rfl) fun found => ?_
  cases found with
  | none => exact within_pure none
  | some level => exact within_bind (moveLine_within _ orderID l level) fun _ => within_pure _

theorem requiredLine_within (m : Movement) (report : StockLevel → γ) (orderID : String)
    (l : StockLine) :
    Within u Eq (requiredLine m report u orderID l) (requiredLine m report u orderID l) := by
  refine within_bind (getStockLevelForUpdate_within rfl) fun found => ?_
  cases found with
  | none => exact confined_throw _
  | some level => exact within_bind (moveLine_within m orderID l level) fun _ => within_pure _

/-- The answer without the number of the event. -/
def AdjustStockResponse.bare (resp : AdjustStockResponse) : AdjustStockResponse :=
  { resp with eventId := resp.eventId.map fun _ => 0 }

theorem adjustTx_within (req : AdjustStockRequest) :
    Within u (fun a b => AdjustStockResponse.bare a = AdjustStockResponse.bare b)
      (adjustTx rt u req) (adjustTx rt u req) := by
  have own : (StockLocation.mk u req.skuId req.warehouseId).tenantID = u := rfl
  refine keyedTx_within rt _ _ ?_ ?_
  · refine within_bind (getStockLevelForUpdate_within own) fun found => ?_
    cases found with
    | none => exact confined_throw _
    | some level => exact confined_pure fun _ _ => rfl
  · refine within_bind (upsertStockLevel_within own _) fun _ => ?_
    refine within_bind (getStockLevelForUpdate_within own) fun found => ?_
    cases found with
    | none => exact confined_throw _
    | some level =>
      refine within_bind (updateStockLevel_within own _) fun _ => ?_
      refine confined_bind (insertStockEvent_within rfl) fun _ n n' _ _ => ?_
      refine within_bind (insertOutboxEvent_within rfl) fun _ => ?_
      dsimp only
      split
      · exact within_bind (insertOutboxEvent_within rfl) fun _ => confined_pure fun _ _ => rfl
      · exact confined_pure fun _ _ => rfl

theorem reserveTx_within (req : ReserveStockRequest) :
    Within u Eq (reserveTx rt u req) (reserveTx rt u req) := by
  refine keyedTx_within rt _ _ (within_pure _) ?_
  refine within_bind (collect_within (reserveLine_within req.orderId) _) fun failed => ?_
  split
  · exact within_pure _
  · exact confined_throw _

theorem releaseTx_within (req : ReleaseStockRequest) :
    Within u Eq (releaseTx rt u req) (releaseTx rt u req) :=
  keyedTx_within rt _ _ (within_pure _)
    (within_bind (collect_within (releaseLine_within req.orderId req.reason) _) fun _ =>
      within_pure _)

theorem confirmTx_within (req : ConfirmStockAllocationRequest) :
    Within u Eq (confirmTx rt u req) (confirmTx rt u req) :=
  keyedTx_within rt _ _ (within_pure _)
    (within_bind (collect_within (fun l => requiredLine_within _ _ req.orderId l) _) fun _ =>
      within_pure _)

theorem fulfillTx_within (req : FulfillStockRequest) :
    Within u Eq (fulfillTx rt u req) (fulfillTx rt u req) :=
  keyedTx_within rt _ _ (within_pure _)
    (within_bind (collect_within (fun l => requiredLine_within _ _ req.orderId l) _) fun _ =>
      within_pure _)

theorem unlockTx_within (req : UnlockStockForAuditRequest) :
    Within u Eq (unlockTx u req) (unlockTx u req) := by
  have own : (StockLocation.mk u req.skuId req.warehouseId).tenantID = u := rfl
  refine within_bind (getStockLevelForUpdate_within own) fun found => ?_
  cases found with
  | none => exact within_pure _
  | some _ =>
    refine within_bind (setAuditLock_within own false) fun _ => ?_
    exact confined_bind (insertStockEvent_within rfl) fun _ _ _ _ _ => within_pure _

end Handlers

theorem execTx_served {ι W σ α β : Type} [Preorder W] {P : Parts ι W σ} {u : ι} {w : W} {s s' : σ}
    {R : α → β → Prop} {m : Tx σ Failure α} {m' : Tx σ Failure β} (rt : Runtime)
    (tenantId : String) (confined : Confined P u (fun _ => R) w m m') (alike : P.Alike u w s s') :
    Served P u (Answers R) w s (execTxWithTenant rt tenantId m s)
      (execTxWithTenant rt tenantId m' s') := by
  unfold execTxWithTenant
  split
  · exact served_refused alike (.error _)
  · cases rt.cast tenantId with
    | none => exact served_refused alike (.error _)
    | some _ => exact served_commit confined alike

section Requests

variable {rt : Runtime} {u : UUID} {db db' : StockDb} {α β : Type}

abbrev StockServed (u : UUID) (R : α → β → Prop) (db : StockDb)
    (out : Except Failure α × StockDb) (out' : Except Failure β × StockDb) : Prop :=
  Served stockParts u (Answers R) () db out out'

theorem tenantRpc_served {R : α → α → Prop} {tenantId : String} (context : String)
    {fn : UUID → StockTx α} (parse : rt.scan tenantId = some u) (own : Within u R (fn u) (fn u))
    (same : SameStock u db db') :
    StockServed u R db (tenantRpc rt tenantId context fn db)
      (tenantRpc rt tenantId context fn db') := by
  have out := execTx_served rt tenantId own same
  simp only [tenantRpc, parseUUID, parse]
  generalize execTxWithTenant rt tenantId (fn u) db = x at out
  generalize execTxWithTenant rt tenantId (fn u) db' = y at out
  obtain ⟨res, t⟩ := x
  obtain ⟨res', t'⟩ := y
  obtain ⟨w, le, answer, alike, kept⟩ := out
  cases answer with
  | error e => exact ⟨w, le, .error _, alike, kept⟩
  | ok value => exact ⟨w, le, .ok value, alike, kept⟩

theorem adjustStock_served {req : AdjustStockRequest} (parse : rt.scan req.tenantId = some u)
    (same : SameStock u db db') :
    StockServed u (fun a b => AdjustStockResponse.bare a = AdjustStockResponse.bare b) db
      (adjustStock rt req db) (adjustStock rt req db') :=
  tenantRpc_served _ parse (adjustTx_within rt req) same

/-- What cannot be held is an answer and not an error. -/
theorem reserveStock_served {req : ReserveStockRequest} (parse : rt.scan req.tenantId = some u)
    (same : SameStock u db db') :
    StockServed u Eq db (reserveStock rt req db) (reserveStock rt req db') := by
  have out := execTx_served rt req.tenantId (reserveTx_within rt req) same
  simp only [reserveStock, parseUUID, parse]
  split
  · exact served_refused same (.error _)
  · generalize execTxWithTenant rt req.tenantId (reserveTx rt u req) db = x at out
    generalize execTxWithTenant rt req.tenantId (reserveTx rt u req) db' = y at out
    obtain ⟨res, t⟩ := x
    obtain ⟨res', t'⟩ := y
    obtain ⟨w, le, answer, alike, kept⟩ := out
    cases answer with
    | error e =>
      cases e with
      | insufficientStock failed => exact ⟨w, le, .ok rfl, alike, kept⟩
      | _ => exact ⟨w, le, .error _, alike, kept⟩
    | ok value => exact ⟨w, le, .ok value, alike, kept⟩

theorem releaseStock_served {req : ReleaseStockRequest} (parse : rt.scan req.tenantId = some u)
    (same : SameStock u db db') :
    StockServed u Eq db (releaseStock rt req db) (releaseStock rt req db') :=
  tenantRpc_served _ parse (releaseTx_within rt req) same

theorem confirmStockAllocation_served {req : ConfirmStockAllocationRequest}
    (parse : rt.scan req.tenantId = some u) (same : SameStock u db db') :
    StockServed u Eq db (confirmStockAllocation rt req db) (confirmStockAllocation rt req db') :=
  tenantRpc_served _ parse (confirmTx_within rt req) same

theorem fulfillStock_served {req : FulfillStockRequest} (parse : rt.scan req.tenantId = some u)
    (same : SameStock u db db') :
    StockServed u Eq db (fulfillStock rt req db) (fulfillStock rt req db') :=
  tenantRpc_served _ parse (fulfillTx_within rt req) same

theorem unlockStockForAudit_served {req : UnlockStockForAuditRequest}
    (parse : rt.scan req.tenantId = some u) (same : SameStock u db db') :
    StockServed u Eq db (unlockStockForAudit rt req db) (unlockStockForAudit rt req db') :=
  tenantRpc_served _ parse (unlockTx_within req) same

end Requests

end Taper.StockTenants
