import Taper.StockRuns
import Taper.StockConservation
import Mathlib.Algebra.Order.BigOperators.Group.List
import Mathlib.Algebra.Order.Ring.Int

set_option autoImplicit false

/-!
# Movements that cannot fail

A release or a confirmation of lines that are held goes through.
-/
namespace Taper.StockForward
open Messages Transaction Platform StockTables StockHandlers StockSteps StockConservation StockRuns
open MachineInt ReservationTables ServiceStack StackSteps

def Representable (b : Buckets) : Prop :=
  (0 ≤ b.1 ∧ b.1 ≤ 2147483647) ∧ (0 ≤ b.2.1 ∧ b.2.1 ≤ 2147483647) ∧
    (0 ≤ b.2.2 ∧ b.2.2 ≤ 2147483647)

def Lands (m : Movement) (d : Buckets) : Prop :=
  ∀ (level : StockLevel) (q : Int32), Representable (buckets level + q.toInt • d) →
    (m.level level q).check = .ok ()

theorem releaseMove_lands (orderID reason : String) :
    Lands (releaseMove orderID reason) (1, -1, 0) := by
  intro level q range
  simp only [Representable, buckets, Prod.smul_mk, smul_eq_mul, Prod.mk_add_mk, mul_one, mul_neg,
    mul_zero, add_zero] at range
  rw [check_ok_iff]
  simp only [releaseMove]
  rw [add_in_range (by omega) (by omega), sub_in_range (by omega) (by omega)]
  omega

theorem confirmMove_lands : Lands confirmMove (0, -1, 1) := by
  intro level q range
  simp only [Representable, buckets, Prod.smul_mk, smul_eq_mul, Prod.mk_add_mk, mul_one, mul_neg,
    mul_zero, add_zero] at range
  rw [check_ok_iff]
  simp only [confirmMove]
  rw [sub_in_range (by omega) (by omega), add_in_range (by omega) (by omega)]
  omega

theorem fulfillMove_lands : Lands fulfillMove (0, 0, -1) := by
  intro level q range
  simp only [Representable, buckets, Prod.smul_mk, smul_eq_mul, Prod.mk_add_mk, mul_neg, mul_one,
    mul_zero, add_zero] at range
  rw [check_ok_iff]
  simp only [fulfillMove]
  rw [sub_in_range (by omega) (by omega)]
  omega

variable {level : StockLevel} {l : StockLine} {lines : List StockLine}

theorem representable_of_check (check : level.check = .ok ()) :
    Representable (buckets level) := by
  have nonneg := (check_ok_iff level).1 check
  have available := int32_bounds level.availableQty
  have reserved := int32_bounds level.reservedQty
  have allocated := int32_bounds level.allocatedQty
  simp only [Representable, buckets]
  omega

theorem representable_held {db : StockDb} (checked : Checked db) (loc : StockLocation) :
    Representable (held db loc) := by
  unfold held
  cases row : db.stockLevels loc with
  | none => simp [Representable]
  | some level => exact representable_of_check (checked loc level row).2

theorem between {x d q total : ℤ} (low : 0 ≤ q) (high : q ≤ total)
    (start : 0 ≤ x ∧ x ≤ 2147483647) (stop : 0 ≤ x + total * d ∧ x + total * d ≤ 2147483647) :
    0 ≤ x + q * d ∧ x + q * d ≤ 2147483647 := by
  rcases le_total 0 d with up | down
  · have first : 0 ≤ q * d := mul_nonneg low up
    have second : q * d ≤ total * d := mul_le_mul_of_nonneg_right high up
    omega
  · have first : q * d ≤ 0 := mul_nonpos_of_nonneg_of_nonpos low down
    have second : total * d ≤ q * d := mul_le_mul_of_nonpos_right high down
    omega

theorem representable_between {b d : Buckets} {q total : ℤ} (low : 0 ≤ q) (high : q ≤ total)
    (start : Representable b) (stop : Representable (b + total • d)) : Representable (b + q • d) :=
  ⟨between low high start.1 stop.1, between low high start.2.1 stop.2.1,
    between low high start.2.2 stop.2.2⟩

theorem quantityAt_nonneg {t : UUID} {loc : StockLocation}
    (nonneg : ∀ l ∈ lines, 0 ≤ l.quantity.toInt) : 0 ≤ quantityAt t loc lines := by
  unfold quantityAt
  refine List.sum_nonneg fun x hx => ?_
  obtain ⟨l, member, rfl⟩ := List.mem_map.1 hx
  split
  · exact nonneg l member
  · exact le_rfl

/-- Lines that a movement along `d` can take in any order. -/
structure CanMove (m : Movement) (d : Buckets) (t : UUID) (o : String) (lines : List StockLine)
    (db : StockDb) : Prop where
  nonneg : ∀ l ∈ lines, 0 ≤ l.quantity.toInt
  located : ∀ l ∈ lines, db.stockLevels (lineLocation t l) ≠ none
  fits : ∀ l ∈ lines, Movement.fits m t o l = true
  room : ∀ loc level, db.stockLevels loc = some level →
    Representable (buckets level) ∧ Representable (buckets level + quantityAt t loc lines • d)

section Lines

variable {m : Movement} {d : Buckets} {t : UUID} {o : String} {db : StockDb}

theorem CanMove.perm {xs ys : List StockLine} (can : CanMove m d t o xs db) (perm : xs.Perm ys) :
    CanMove m d t o ys db where
  nonneg l hl := can.nonneg l (perm.mem_iff.2 hl)
  located l hl := can.located l (perm.mem_iff.2 hl)
  fits l hl := can.fits l (perm.mem_iff.2 hl)
  room loc level row := by
    rw [← quantityAt_perm t loc perm]
    exact can.room loc level row

theorem CanMove.first {rest : List StockLine} (along : Along m d) (lands : Lands m d)
    (can : CanMove m d t o (l :: rest) db) (checked : Checked db) :
    ∃ level, db.find (lineLocation t l) = some level ∧
      (m.level level l.quantity).check = .ok () ∧
      CanMove m d t o rest (applyLine m t o l level db) := by
  have later : ∀ x ∈ rest, x ∈ l :: rest := fun x hx => List.mem_cons_of_mem l hx
  have restNonneg : ∀ loc, 0 ≤ quantityAt t loc rest := fun loc =>
    quantityAt_nonneg fun x hx => can.nonneg x (later x hx)
  obtain ⟨level, row⟩ := Option.ne_none_iff_exists'.1 (can.located l List.mem_cons_self)
  have total : quantityAt t (lineLocation t l) (l :: rest) =
      l.quantity.toInt + quantityAt t (lineLocation t l) rest := by
    rw [quantityAt_cons, if_pos rfl]
  have room := can.room _ level row
  have restHere := restNonneg (lineLocation t l)
  have here : Representable (buckets level + l.quantity.toInt • d) :=
    representable_between (can.nonneg l List.mem_cons_self) (by omega) room.1 room.2
  have check := lands level l.quantity here
  refine ⟨level, (checked.find _).trans row, check, fun x hx => can.nonneg x (later x hx),
    fun x hx => ?_,
    fun x hx => can.fits x (later x hx), fun loc level' row' => ?_⟩
  · by_cases same : lineLocation t l = lineLocation t x
    · rw [applyLine_self same]
      exact Option.some_ne_none _
    · rw [applyLine_other same]
      exact can.located x (later x hx)
  · by_cases same : lineLocation t l = loc
    · subst same
      rw [applyLine_self rfl] at row'
      cases row'
      rw [(along level l.quantity (checked _ _ row).2 check).1, add_assoc, ← add_smul, ← total]
      exact ⟨here, room.2⟩
    · rw [applyLine_other same] at row'
      have other := can.room loc level' row'
      rw [quantityAt_cons, if_neg same, zero_add] at other
      exact other

variable {β : Type} {db' : StockDb}

/-- A loop over such lines, whatever it reports of them. -/
theorem collect_forward {visit : StockLine → StockTx (Option β)} (along : Along m d)
    (lands : Lands m d)
    (visits : ∀ l db level, db.find (lineLocation t l) = some level →
      (m.level level l.quantity).check = .ok () → Movement.fits m t o l = true →
      ∃ x, (visit l).run db = .ok (x, applyLine m t o l level db))
    (checked : Checked db) (can : CanMove m d t o lines db) :
    ∃ out db', (Tx.collect visit lines).run db = .ok (out, db') := by
  induction lines generalizing db with
  | nil => exact ⟨[], db, rfl⟩
  | cons l rest ih =>
    obtain ⟨level, row, check, next⟩ := can.first along lands checked
    obtain ⟨x, run⟩ := visits l db level row check (can.fits l List.mem_cons_self)
    obtain ⟨out, db', loop⟩ := ih (applyLine_checked checked row check) next
    exact ⟨_, db', Tx.collect_cons_ok_iff.2 ⟨x, _, out, run, loop, rfl⟩⟩

theorem fits_texts (fits : Movement.fits m t o l = true) :
    storable l.skuId = true ∧ storable l.warehouseId = true := by
  simp only [Movement.fits, StockSteps.eventFits, Movement.event, varchar, Bool.and_eq_true] at fits
  exact ⟨fits.1.1.1.1.1.2, fits.1.1.1.1.2.2⟩

theorem getLevel_of_fits (fits : Movement.fits m t o l = true) :
    (getStockLevelForUpdate (lineLocation t l)).run db =
      .ok (db.find (lineLocation t l), db) := by
  have texts := fits_texts fits
  rw [getLevel_run]
  simp [lineLocation, texts.1, texts.2]

theorem releaseLine_run {reason : String} (row : db.find (lineLocation t l) = some level)
    (check : ((releaseMove o reason).level level l.quantity).check = .ok ())
    (fits : Movement.fits (releaseMove o reason) t o l = true) :
    (releaseLine t o reason l).run db =
      .ok (some l.skuId, applyLine (releaseMove o reason) t o l level db) := by
  have move : (moveLine (releaseMove o reason) t o l level).run db = .ok ((), _) :=
    moveLine_ok_iff.2 ⟨by rw [(find_some_iff.1 row).2]; rfl, check, fits, rfl⟩
  unfold releaseLine
  rw [Tx.bind_of_ok (getLevel_of_fits fits), row]
  simp only
  rw [Tx.bind_of_ok move]
  rfl

theorem requiredLine_run {report : StockLevel → β} (row : db.find (lineLocation t l) = some level)
    (check : (m.level level l.quantity).check = .ok ()) (fits : Movement.fits m t o l = true) :
    (requiredLine m report t o l).run db =
      .ok (some (report level), applyLine m t o l level db) := by
  have move : (moveLine m t o l level).run db = .ok ((), _) :=
    moveLine_ok_iff.2 ⟨by rw [(find_some_iff.1 row).2]; rfl, check, fits, rfl⟩
  unfold requiredLine
  rw [Tx.bind_of_ok (getLevel_of_fits fits), row]
  simp only
  rw [Tx.bind_of_ok move]
  rfl

theorem CanMove.congr (can : CanMove m d t o lines db)
    (same : db'.stockLevels = db.stockLevels) : CanMove m d t o lines db' where
  nonneg := can.nonneg
  located := by rw [same]; exact can.located
  fits := can.fits
  room := by rw [same]; exact can.room

theorem keyedTx_forward {α : Type} {rt : Runtime} {key : String} {msg : Message}
    {visit : StockLine → StockTx (Option β)} {again : α}
    {report : List β → α} (along : Along m d) (lands : Lands m d)
    (visits : ∀ l db level, db.find (lineLocation t l) = some level →
      (m.level level l.quantity).check = .ok () → Movement.fits m t o l = true →
      ∃ x, (visit l).run db = .ok (x, applyLine m t o l level db)) (checked : Checked db)
    (fits : keyFits key = true) (can : ¬Seen db t key → CanMove m d t o lines db) :
    ∃ resp db', (keyedTx rt t key msg (pure again) (do
      let out ← Tx.collect visit (sortedLines rt lines)
      pure (report out))).run db = .ok (resp, db') := by
  rw [keyedTx_run, if_pos fits]
  split
  · exact ⟨_, _, rfl⟩
  · rename_i unseen
    have sorted := ((can unseen).perm (rt.sortSlice_perm lines).symm).congr
      (claimKey_levels rt t key msg db)
    obtain ⟨out, db', loop⟩ := collect_forward along lands visits (claimKey_checked checked) sorted
    exact ⟨_, db', Tx.bind_ok_iff.2 ⟨out, db', loop, rfl⟩⟩

theorem releaseTx_forward {rt : Runtime} {req : ReleaseStockRequest} (checked : Checked db)
    (key : keyFits req.idempotencyKey = true)
    (can : ¬Seen db t req.idempotencyKey →
      CanMove (releaseMove req.orderId req.reason) (1, -1, 0) t req.orderId req.lines db) :
    ∃ resp db', (releaseTx rt t req).run db = .ok (resp, db') :=
  keyedTx_forward (releaseMove_along _ _) (releaseMove_lands _ _)
    (fun _ _ _ row check fits => ⟨_, releaseLine_run row check fits⟩) checked key can

theorem confirmTx_forward {rt : Runtime} {req : ConfirmStockAllocationRequest}
    (checked : Checked db) (key : keyFits req.idempotencyKey = true)
    (can : ¬Seen db t req.idempotencyKey →
      CanMove confirmMove (0, -1, 1) t req.orderId req.lines db) :
    ∃ resp db', (confirmTx rt t req).run db = .ok (resp, db') :=
  keyedTx_forward confirmMove_along confirmMove_lands
    (fun _ _ _ row check fits => ⟨_, requiredLine_run row check fits⟩) checked key can

theorem fulfillTx_forward {rt : Runtime} {req : FulfillStockRequest}
    (checked : Checked db) (key : keyFits req.idempotencyKey = true)
    (can : ¬Seen db t req.idempotencyKey →
      CanMove fulfillMove (0, 0, -1) t req.orderId req.lines db) :
    ∃ resp db', (fulfillTx rt t req).run db = .ok (resp, db') :=
  keyedTx_forward fulfillMove_along fulfillMove_lands
    (fun _ _ _ row check fits => ⟨_, requiredLine_run row check fits⟩) checked key can

theorem tenantRpc_forward {α : Type} {rt : Runtime} {tenantId context : String}
    {fn : UUID → StockTx α} {resp : α} (parse : rt.scan tenantId = some t)
    (castable : Castable rt tenantId) (run : (fn t).run db = .ok (resp, db')) :
    tenantRpc rt tenantId context fn db = (.ok resp, db') := by
  simp only [tenantRpc, parseUUID, parse, execTx_eq castable, Tx.commit_of_ok run]

theorem reserveLines_open (h : (Tx.collect (reserveLine t o) lines).run db = .ok ([], db')) :
    ∀ l ∈ lines, ∃ level, db.find (lineLocation t l) = some level ∧
      level.isLockedForAudit = false := by
  induction lines generalizing db with
  | nil => exact fun l hl => (List.not_mem_nil hl).elim
  | cons first rest ih =>
    obtain ⟨found, u, later, hv, hc, out⟩ := Tx.collect_cons_ok_iff.1 h
    obtain ⟨none, rfl⟩ := List.append_eq_nil_iff.1 out.symm
    cases found with
    | some sku => simp at none
    | none =>
      obtain ⟨level, row, free, -, -, -, rfl⟩ := reserveLine_held hv
      intro l hl
      by_cases same : lineLocation t first = lineLocation t l
      · exact ⟨level, same ▸ row, free⟩
      · rcases List.mem_cons.1 hl with rfl | tail
        · exact absurd rfl same
        · have there := ih hc l tail
          rwa [applyLine_find_other same] at there

theorem reserveLines_located (h : (Tx.collect (reserveLine t o) lines).run db = .ok ([], db')) :
    ∀ l ∈ lines, db.find (lineLocation t l) ≠ none := by
  intro l hl
  obtain ⟨level, row, -⟩ := reserveLines_open h l hl
  exact row ▸ Option.some_ne_none level

theorem lineRun_fits (run : LineRun m t o lines db db')
    (located : ∀ l ∈ lines, db.find (lineLocation t l) ≠ none) :
    ∀ l ∈ lines, Movement.fits m t o l = true := by
  induction run with
  | nil db => exact fun l hl => (List.not_mem_nil hl).elim
  | skip row tail ih => exact absurd row (located _ List.mem_cons_self)
  | @move first rest db db' level row check fits tail ih =>
    intro l hl
    rcases List.mem_cons.1 hl with rfl | later
    · exact fits
    · refine ih (fun x hx => ?_) l later
      by_cases same : lineLocation t first = lineLocation t x
      · rw [applyLine_find_self row same]
        exact Option.some_ne_none _
      · rw [applyLine_find_other same]
        exact located x (List.mem_cons_of_mem _ hx)

end Lines

theorem releaseMove_fits {t : UUID} {o reason : String}
    (fits : Movement.fits (reserveMove o) t o l = true) (text : varchar 255 reason = true) :
    Movement.fits (releaseMove o reason) t o l = true := by
  simp only [Movement.fits, StockSteps.eventFits, outboxFits, Movement.event, Movement.outboxEvent,
    reserveMove, releaseMove, StockPayload.storable, Bool.and_eq_true] at fits ⊢
  simp only [fits, text, true_and, and_true, and_self]
  decide

theorem confirmMove_fits {t : UUID} {o : String}
    (fits : Movement.fits (reserveMove o) t o l = true) :
    Movement.fits confirmMove t o l = true := by
  simp only [Movement.fits, StockSteps.eventFits, outboxFits, Movement.event, Movement.outboxEvent,
    reserveMove, confirmMove, StockPayload.storable, Bool.and_eq_true] at fits ⊢
  simp only [fits, true_and, and_true, and_self]
  decide

theorem fulfillMove_fits {t : UUID} {o : String} (names : nameFits (lineLocation t l) = true)
    (order : storable o = true) :
    Movement.fits fulfillMove t o l = true := by
  simp only [nameFits, lineLocation, Bool.and_eq_true] at names
  obtain ⟨⟨sku, warehouse⟩, aggregate⟩ := names
  have skuText := (Bool.and_eq_true_iff.1 sku).2
  have warehouseText := (Bool.and_eq_true_iff.1 warehouse).2
  replace sku := fits_varchar sku
  replace warehouse := fits_varchar warehouse
  simp only [Movement.fits, StockSteps.eventFits, outboxFits, Movement.event, Movement.outboxEvent,
    fulfillMove, StockPayload.storable, Bool.and_eq_true]
  simp only [sku, warehouse, aggregate, skuText, warehouseText, order, true_and, and_true]
  decide

section Requests

variable {rt : Runtime} {me : ℕ} {c : Choice} {s s' : Stack} {t : UUID}

theorem exec_release_forward {req : ReleaseStockRequest} {rows : List Reservation}
    {answer : Except Failure ReleaseStockResponse} (healthy : c.fault = false)
    (parse : rt.scan req.tenantId = some t) (castable : Castable rt req.tenantId)
    (checked : Checked s.stock) (key : keyFits req.idempotencyKey = true)
    (can : ¬Seen s.stock t req.idempotencyKey →
      CanMove (releaseMove req.orderId req.reason) (1, -1, 0) t req.orderId req.lines s.stock)
    (h : exec rt me (.releaseStock req rows) c s = some (answer, s')) :
    ∃ resp db, answer = .ok resp ∧
      Moved rt (releaseMove req.orderId req.reason) t req.orderId req.idempotencyKey
        (.releaseStock req) req.lines s.stock db ∧ s' = Stack.withStock s db := by
  obtain ⟨resp, db, run⟩ := releaseTx_forward checked key can
  have answered : releaseStock rt req s.stock = (.ok resp, db) :=
    tenantRpc_forward parse castable run
  rw [exec, stockCall_eq healthy, answered] at h
  cases h
  exact ⟨resp, db, rfl, (releaseTx_ok run).2, rfl⟩

theorem exec_confirm_forward {req : ConfirmStockAllocationRequest}
    {answer : Except Failure ConfirmStockAllocationResponse} (healthy : c.fault = false)
    (parse : rt.scan req.tenantId = some t) (castable : Castable rt req.tenantId)
    (checked : Checked s.stock) (key : keyFits req.idempotencyKey = true)
    (can : ¬Seen s.stock t req.idempotencyKey →
      CanMove confirmMove (0, -1, 1) t req.orderId req.lines s.stock)
    (h : exec rt me (.confirmStockAllocation req) c s = some (answer, s')) :
    ∃ resp db, answer = .ok resp ∧
      Moved rt confirmMove t req.orderId req.idempotencyKey (.confirmStockAllocation req)
        req.lines s.stock db ∧ s' = Stack.withStock s db := by
  obtain ⟨resp, db, run⟩ := confirmTx_forward checked key can
  have answered : confirmStockAllocation rt req s.stock = (.ok resp, db) :=
    tenantRpc_forward parse castable run
  rw [exec, stockCall_eq healthy, answered] at h
  cases h
  exact ⟨resp, db, rfl, (confirmTx_ok run).2, rfl⟩

theorem exec_reserve_again {req : ReserveStockRequest}
    {answer : Except Failure ReserveStockResponse} (healthy : c.fault = false)
    (parse : rt.scan req.tenantId = some t) (castable : Castable rt req.tenantId)
    (key : keyFits req.idempotencyKey = true) (lines : req.lines ≠ [])
    (seen : Seen s.stock t req.idempotencyKey)
    (h : exec rt me (.reserveStock req) c s = some (answer, s')) :
    answer = .ok ⟨true, []⟩ ∧ s' = s := by
  have run : (reserveTx rt t req).run s.stock = .ok (⟨true, []⟩, s.stock) := by
    rw [reserveTx, keyedTx_run, if_pos key, if_pos seen]
    rfl
  have some_ : (sortedLines rt req.lines).length ≠ 0 := by
    rw [sortedLines, (rt.sortSlice_perm req.lines).length_eq]
    exact fun zero => lines (List.length_eq_zero_iff.1 zero)
  have answered : reserveStock rt req s.stock = (.ok ⟨true, []⟩, s.stock) := by
    simp only [reserveStock, parseUUID, parse, if_neg some_, execTx_eq castable,
      Tx.commit_of_ok run]
  rw [exec, stockCall_eq healthy, answered] at h
  cases h
  exact ⟨rfl, rfl⟩

/-- A reservation that succeeds has a key that is accepted, and the first one
has found every line and fitted it. -/
theorem exec_reserve_first {req : ReserveStockRequest} {resp : ReserveStockResponse}
    (parse : rt.scan req.tenantId = some t) (success : resp.success = true)
    (h : exec rt me (.reserveStock req) c s = some (.ok resp, s')) :
    keyFits req.idempotencyKey = true ∧ (¬Seen s.stock t req.idempotencyKey →
      ∀ l ∈ req.lines, s.stock.stockLevels (lineLocation t l) ≠ none ∧
        Movement.fits (reserveMove req.orderId) t req.orderId l = true) := by
  rcases stockCall_some h with ⟨-, answered, -⟩ | ⟨-, ⟨e, error⟩, -⟩
  · unfold reserveStock at answered
    simp only [parseUUID, parse] at answered
    split at answered
    · cases answered
    · split at answered
      · cases answered
        cases success
      · cases answered
      · rename_i resp' after run
        have tx := execTx_ok run
        rw [reserveTx, keyedTx_run] at tx
        split_ifs at tx with key seen
        · exact ⟨key, fun unseen => absurd seen unseen⟩
        obtain ⟨failed, db, loop, rest⟩ := Tx.bind_ok_iff.1 tx
        split at rest
        · rename_i none
          subst none
          have located := reserveLines_located loop
          have fits := lineRun_fits (reserveLines_run loop) located
          refine ⟨key, fun _ l hl => ?_⟩
          have member : l ∈ sortedLines rt req.lines := ((rt.sortSlice_perm req.lines).mem_iff).2 hl
          have there := located l member
          rw [claimKey_find] at there
          exact ⟨located_of_find there, fits l member⟩
        · simp at rest
  · cases error

end Requests

theorem sampleStack_checked : Checked sampleStack.stock := by
  intro loc level row
  simp only [sampleStack, Stack.stocked] at row
  split at row
  · rename_i here
    cases row
    exact ⟨here ▸ rfl, rfl⟩
  · cases row

end Taper.StockForward
