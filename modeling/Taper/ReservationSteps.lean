import Taper.ReservationTables

set_option autoImplicit false

/-!
# What one transaction of the reservation service does

The local transactions of the reservation service in closed form: when each
commits, and the rows it then leaves.
-/
namespace Taper.ReservationSteps
open Messages Transaction Platform Ledger ReservationTables

def withStatus (status : ReservationStatus) (r : Reservation) : Reservation :=
  { r with status := status }

def ReservationDb.mark (db : ReservationDb) (ids : List ℕ) (status : ReservationStatus) :
    List Reservation :=
  db.reservations.map fun r => if r.id ∈ ids then withStatus status r else r

def Present (db : ReservationDb) (id : ℕ) : Prop := ∃ r ∈ db.reservations, r.id = id

variable {id : ℕ} {status : ReservationStatus} {db db' : ReservationDb} {u : Unit} {rt : Runtime}
  {t : UUID} {eventType o : String} {rows : List Reservation} {expiresAt : ℤ} {req : ReleaseRequest}
  {locked : List ℕ}

theorem updateStatus_ok_iff : (updateReservationStatus id status).run db = .ok (u, db') ↔
      Present db id ∧ db' = db.setStatus id status := by
  have found : db.reservations.any (fun r => r.id == id) = true ↔ Present db id := by
    simp [Present]
  unfold updateReservationStatus
  simp only [Tx.bind_run, Tx.read_run]
  by_cases present : Present db id
  · simp [found.2 present, present, eq_comm]
  · have absent : db.reservations.any (fun r => r.id == id) = false :=
      Bool.eq_false_iff.2 fun h => present (found.1 h)
    simp [absent, present]

def eventFits (rt : Runtime) (e : ReservationOutboxEvent) : Bool :=
  varchar 255 e.aggregateID && rt.jsonb e.payload

theorem insertOutbox_ok_iff {e : ReservationOutboxEvent} :
    (insertOutboxEvent rt e).run db = .ok (u, db') ↔
      eventFits rt e = true ∧ db' = { db with outbox := db.outbox ++ [e.stored] } := by
  unfold insertOutboxEvent eventFits
  simp only [Tx.bind_run, Tx.require]
  cases aggregate : varchar 255 e.aggregateID with
  | false => simp
  | true =>
    cases payload : rt.jsonb e.payload with
    | false => simp
    | true => simp [eq_comm]

def marked (t : UUID) (o eventType : String) (status : ReservationStatus)
    (rows : List Reservation) (db : ReservationDb) : ReservationDb where
  reservations := ReservationDb.mark db (rows.map (·.id)) status
  outbox := db.outbox ++ rows.map fun _ => (reservationEvent t o eventType (orderPayload o)).stored
  processedKeys := db.processedKeys
  nextID := db.nextID

theorem markRow_ok_iff {row : Reservation} {x : Option Unit} :
    (markRow rt t o eventType status row).run db = .ok (x, db') ↔
      Present db row.id ∧
        eventFits rt (reservationEvent t o eventType (orderPayload o)) = true ∧ x = some () ∧
        db' = marked t o eventType status [row] db := by
  have same : ({ db.setStatus row.id status with outbox := (db.setStatus row.id status).outbox ++
      [(reservationEvent t o eventType (orderPayload o)).stored] } : ReservationDb) =
        marked t o eventType status [row] db := by
    simp [marked, ReservationDb.mark, ReservationDb.setStatus, withStatus]
  unfold markRow
  rw [Tx.bind_ok_iff]
  constructor
  · rintro ⟨_, db₁, update, body⟩
    obtain ⟨present, rfl⟩ := updateStatus_ok_iff.1 update
    obtain ⟨_, db₂, event, last⟩ := Tx.bind_ok_iff.1 body
    obtain ⟨fits, rfl⟩ := insertOutbox_ok_iff.1 event
    simp only [Tx.pure_run, Except.ok.injEq, Prod.mk.injEq] at last
    exact ⟨present, fits, last.1.symm, last.2.symm.trans same⟩
  · rintro ⟨present, fits, rfl, rfl⟩
    refine ⟨(), _, updateStatus_ok_iff.2 ⟨present, rfl⟩, Tx.bind_ok_iff.2 ⟨(), _,
      insertOutbox_ok_iff.2 ⟨fits, rfl⟩, ?_⟩⟩
    rw [same]
    rfl

theorem present_marked :
    Present (marked t o eventType status rows db) id ↔ Present db id := by
  unfold Present marked ReservationDb.mark
  constructor
  · rintro ⟨r, member, rfl⟩
    obtain ⟨r', old, rfl⟩ := List.mem_map.1 member
    refine ⟨r', old, ?_⟩
    split
    · rfl
    · rfl
  · rintro ⟨r, member, rfl⟩
    refine ⟨_, List.mem_map.2 ⟨r, member, rfl⟩, ?_⟩
    split
    · rfl
    · rfl

theorem marked_cons {row : Reservation} {rest : List Reservation} :
    marked t o eventType status rest (marked t o eventType status [row] db) =
      marked t o eventType status (row :: rest) db := by
  have rows : ∀ r : Reservation,
      (if (if r.id ∈ [row.id] then withStatus status r else r).id ∈ rest.map (·.id)
        then withStatus status (if r.id ∈ [row.id] then withStatus status r else r)
        else (if r.id ∈ [row.id] then withStatus status r else r)) =
      if r.id ∈ row.id :: rest.map (·.id) then withStatus status r else r := by
    intro r
    by_cases first : r.id = row.id
    · simp [first, withStatus]
    · simp [first]
  simp only [marked, ReservationDb.mark, List.map_map, List.map_cons, List.map_nil,
    List.append_assoc, List.cons_append, List.nil_append]
  congr 1
  exact List.map_congr_left fun r _ => rows r

theorem markRows_ok_iff {out : List Unit} :
    (Tx.collect (markRow rt t o eventType status) rows).run db = .ok (out, db') ↔
      (∀ row ∈ rows, Present db row.id ∧
        eventFits rt (reservationEvent t o eventType (orderPayload o)) = true) ∧
      out = rows.map (fun _ => ()) ∧ db' = marked t o eventType status rows db := by
  induction rows generalizing db out with
  | nil =>
    have same : marked t o eventType status [] db = db := by
      simp [marked, ReservationDb.mark]
    rw [Tx.collect_nil, same]
    simp only [List.not_mem_nil, false_implies, implies_true, List.map_nil, true_and,
      Except.ok.injEq, Prod.mk.injEq]
    exact ⟨fun h => ⟨h.1.symm, h.2.symm⟩, fun h => ⟨h.1.symm, h.2.symm⟩⟩
  | cons row rest ih =>
    rw [Tx.collect_cons_ok_iff]
    simp only [markRow_ok_iff, ih]
    constructor
    · rintro ⟨found, mid, later, ⟨present, fits, rfl, rfl⟩, ⟨tail, rfl, rfl⟩, rfl⟩
      refine ⟨fun x hx => ?_, rfl, marked_cons⟩
      rcases List.mem_cons.1 hx with rfl | hx
      · exact ⟨present, fits⟩
      · exact ⟨present_marked.1 (tail x hx).1, fits⟩
    · rintro ⟨all, rfl, rfl⟩
      have head := all row List.mem_cons_self
      refine ⟨some (), _, rest.map fun _ => (), ⟨head.1, head.2, rfl, rfl⟩, ⟨fun x hx => ?_, rfl,
        marked_cons.symm⟩, rfl⟩
      have here := all x (List.mem_cons_of_mem row hx)
      exact ⟨present_marked.2 here.1, here.2⟩

def itemFits (rt : Runtime) (t : UUID) (o : String) (it : ReservationItem) : Bool :=
  (varchar 255 o && varchar 255 it.skuId && varchar 255 it.warehouseId) &&
    decide (0 < it.quantity) &&
    eventFits rt (reservationEvent t o "reservation.created" (linePayload o it.skuId))

def newRow (t : UUID) (o : String) (expiresAt : ℤ) (id : ℕ) (it : ReservationItem) : Reservation :=
  ⟨id, t, column 255 o, column 255 it.skuId, column 255 it.warehouseId, it.quantity, .active,
    expiresAt⟩

def newRows (t : UUID) (o : String) (expiresAt : ℤ) : ℕ → List ReservationItem → List Reservation
  | _, [] => []
  | id, it :: rest => newRow t o expiresAt id it :: newRows t o expiresAt (id + 1) rest

def inserted (t : UUID) (o : String) (expiresAt : ℤ) (items : List ReservationItem)
    (db : ReservationDb) : ReservationDb where
  reservations := db.reservations ++ newRows t o expiresAt db.nextID items
  outbox := db.outbox ++ items.map fun it =>
    (reservationEvent t o "reservation.created" (linePayload o it.skuId)).stored
  processedKeys := db.processedKeys
  nextID := db.nextID + items.length

theorem insertItem_ok_iff {it : ReservationItem} {x : Option ℕ} :
    (insertItem rt t o expiresAt it).run db = .ok (x, db') ↔
      itemFits rt t o it = true ∧ x = some db.nextID ∧ db' = inserted t o expiresAt [it] db := by
  unfold insertItem insertReservation itemFits
  simp only [Tx.bind_run, Tx.require, Tx.read_run]
  cases texts : (varchar 255 o && varchar 255 it.skuId && varchar 255 it.warehouseId) with
  | false => simp
  | true =>
    by_cases quantity : 0 < it.quantity
    · simp only [quantity, decide_true, ↓reduceIte, Tx.pure_run, Tx.modify_run, Bool.true_and]
      cases fits : eventFits rt (reservationEvent t o "reservation.created"
          (linePayload o it.skuId)) with
      | false =>
        have refused : ∀ db₁ db₂ u, (insertOutboxEvent rt (reservationEvent t o
            "reservation.created" (linePayload o it.skuId))).run db₁ ≠ .ok (u, db₂) := by
          intro db₁ db₂ u run
          rw [(insertOutbox_ok_iff.1 run).1] at fits
          cases fits
        split
        · simp
        · rename_i run
          exact absurd run (refused _ _ _)
      | true =>
        have run : ∀ db₁ : ReservationDb, (insertOutboxEvent rt (reservationEvent t o
            "reservation.created" (linePayload o it.skuId))).run db₁ = .ok ((), { db₁ with
              outbox := db₁.outbox ++ [(reservationEvent t o "reservation.created"
                (linePayload o it.skuId)).stored] }) := fun db₁ => insertOutbox_ok_iff.2 ⟨fits, rfl⟩
        simp [run, inserted, newRows, newRow, eq_comm]
    · simp [quantity]

theorem newRows_ids (t : UUID) (o : String) (expiresAt : ℤ) (n : ℕ) (items : List ReservationItem) :
    (newRows t o expiresAt n items).map (·.id) = List.range' n items.length := by
  induction items generalizing n with
  | nil => rfl
  | cons it rest ih =>
    rw [newRows, List.map_cons, ih, List.length_cons, List.range'_succ]
    rfl

theorem newRows_spec {n : ℕ} {items : List ReservationItem} {r : Reservation}
    (h : r ∈ newRows t o expiresAt n items) :
    r.tenantID = t ∧ r.orderID = column 255 o ∧ r.status = .active ∧ n ≤ r.id ∧
      r.id < n + items.length := by
  induction items generalizing n with
  | nil => cases h
  | cons it rest ih =>
    rw [newRows] at h
    rw [List.length_cons]
    rcases List.mem_cons.1 h with rfl | tail
    · refine ⟨rfl, rfl, rfl, ?_⟩
      simp only [newRow]
      omega
    · have spec := ih tail
      refine ⟨spec.1, spec.2.1, spec.2.2.1, ?_⟩
      omega

theorem inserted_cons {it : ReservationItem} {rest : List ReservationItem} :
    inserted t o expiresAt rest (inserted t o expiresAt [it] db) =
      inserted t o expiresAt (it :: rest) db := by
  have counted : db.nextID + 1 + rest.length = db.nextID + (rest.length + 1) := by omega
  simp [inserted, newRows, counted]

theorem insertItems_ok_iff {items : List ReservationItem} {out : List ℕ} :
    (Tx.collect (insertItem rt t o expiresAt) items).run db = .ok (out, db') ↔
      (∀ it ∈ items, itemFits rt t o it = true) ∧
      out = List.range' db.nextID items.length ∧ db' = inserted t o expiresAt items db := by
  induction items generalizing db out with
  | nil =>
    have same : inserted t o expiresAt [] db = db := by
      simp [inserted, newRows]
    rw [Tx.collect_nil, same]
    simp only [List.not_mem_nil, false_implies, implies_true, List.length_nil, List.range'_zero,
      true_and, Except.ok.injEq, Prod.mk.injEq]
    exact ⟨fun h => ⟨h.1.symm, h.2.symm⟩, fun h => ⟨h.1.symm, h.2.symm⟩⟩
  | cons it rest ih =>
    rw [Tx.collect_cons_ok_iff]
    simp only [insertItem_ok_iff, ih]
    constructor
    · rintro ⟨found, mid, later, ⟨fits, rfl, rfl⟩, ⟨tail, rfl, rfl⟩, rfl⟩
      refine ⟨fun x hx => ?_, ?_, inserted_cons⟩
      · rcases List.mem_cons.1 hx with rfl | hx
        · exact fits
        · exact tail x hx
      · rw [List.length_cons, List.range'_succ]
        rfl
    · rintro ⟨all, rfl, rfl⟩
      refine ⟨some db.nextID, _, List.range' (db.nextID + 1) rest.length,
        ⟨all it List.mem_cons_self, rfl, rfl⟩, ⟨fun x hx => all x (List.mem_cons_of_mem it hx), rfl,
        inserted_cons.symm⟩, ?_⟩
      rw [List.length_cons, List.range'_succ]
      rfl

abbrev keyed (t : UUID) (key hash : String) (db : ReservationDb) : ReservationDb :=
  claimed reservationKeys t key hash db

theorem keyed_rows (t : UUID) (key hash : String) (db : ReservationDb) :
    (keyed t key hash db).reservations = db.reservations ∧
      (keyed t key hash db).nextID = db.nextID := by
  unfold keyed claimed
  split
  · exact ⟨rfl, rfl⟩
  · exact ⟨rfl, rfl⟩

theorem insertReservations_ok_iff {req : ReserveRequest} {first : Option ℕ} :
    (insertReservations rt t req expiresAt).run db = .ok (first, db') ↔
      keyFits req.idempotencyKey = true ∧ ¬Recorded reservationKeys db t req.idempotencyKey ∧
      (∀ it ∈ req.items, itemFits rt t req.orderId it = true) ∧
      first = (List.range' db.nextID req.items.length).head? ∧
      db' = inserted t req.orderId expiresAt req.items
        (keyed t req.idempotencyKey (rt.payloadHash (.reserve req)) db) := by
  have number := (keyed_rows t req.idempotencyKey (rt.payloadHash (.reserve req)) db).2
  unfold insertReservations
  rw [claimOnce_bind_ok_iff, Tx.bind_ok_iff]
  refine and_congr_right fun fits => and_congr_right fun new => ?_
  constructor
  · rintro ⟨ids, db₂, loop, last⟩
    obtain ⟨items, rfl, rfl⟩ := insertItems_ok_iff.1 loop
    simp only [Tx.pure_run, Except.ok.injEq, Prod.mk.injEq] at last
    rw [number] at last
    exact ⟨items, last.1.symm, last.2.symm⟩
  · rintro ⟨items, rfl, rfl⟩
    refine ⟨_, _, insertItems_ok_iff.2 ⟨items, rfl, rfl⟩, ?_⟩
    rw [number]
    rfl

theorem insertOutbox_fails {e : ReservationOutboxEvent} :
    (insertOutboxEvent rt e).Fails (· ≠ .alreadyProcessed) :=
  Tx.fails_bind (Tx.fails_require Failure.noConfusion) fun _ =>
    Tx.fails_bind (Tx.fails_require Failure.noConfusion) fun _ => Tx.fails_modify _

theorem insertItem_fails (it : ReservationItem) :
    (insertItem rt t o expiresAt it).Fails (· ≠ .alreadyProcessed) := by
  refine Tx.fails_bind ?_ fun row => Tx.fails_bind insertOutbox_fails fun _ => Tx.fails_pure _
  exact Tx.fails_bind (Tx.fails_require Failure.noConfusion) fun _ =>
    Tx.fails_bind (Tx.fails_require Failure.noConfusion) fun _ =>
      Tx.fails_bind Tx.fails_read fun _ => Tx.fails_bind (Tx.fails_modify _) fun _ =>
        Tx.fails_pure _

theorem insertReservations_repeated {req : ReserveRequest}
    (h : (insertReservations rt t req expiresAt).run db = .error .alreadyProcessed) :
    keyFits req.idempotencyKey = true ∧ Recorded reservationKeys db t req.idempotencyKey :=
  claimOnce_repeated Failure.noConfusion (fun _ => Tx.fails_bind
    (Tx.fails_collect insertItem_fails req.items) fun _ => Tx.fails_pure _) h

theorem releaseClaim_repeated
    (h : (releaseClaim rt t req locked).run db = .error .alreadyProcessed) :
    Recorded reservationKeys db t req.idempotencyKey :=
  (claimOnce_repeated Failure.noConfusion (fun _ => Tx.fails_bind
    (Tx.fails_require Failure.noConfusion) fun _ => Tx.fails_bind Tx.fails_read fun _ =>
      Tx.fails_pure _) h).2

theorem getActive_ok_iff :
    (getActiveReservationsByOrder rt t o locked).run db = .ok (rows, db') ↔
      storable o = true ∧ rows = activeRows rt t o locked db ∧ db' = db := by
  unfold getActiveReservationsByOrder
  rw [Tx.bind_ok_iff]
  constructor
  · rintro ⟨_, db₁, text, body⟩
    obtain ⟨stored, rfl⟩ := Tx.require_ok_iff.1 text
    simp only [Tx.bind_run, Tx.read_run, Tx.pure_run, Except.ok.injEq, Prod.mk.injEq] at body
    exact ⟨stored, body.1.symm, body.2.symm⟩
  · rintro ⟨stored, rfl, rfl⟩
    exact ⟨(), _, Tx.require_ok_iff.2 ⟨stored, rfl⟩, rfl⟩

theorem activeRows_keyed {u : UUID} {key hash : String} :
    activeRows rt t o locked (keyed u key hash db) = activeRows rt t o locked db := by
  unfold activeRows
  rw [(keyed_rows u key hash db).1]

theorem mem_activeRows {r : Reservation} :
    r ∈ activeRows rt t o locked db ↔
      r ∈ db.reservations ∧ r.tenantID = t ∧ r.orderID = o ∧ r.status = .active ∧
        r.id ∉ locked := by
  unfold activeRows
  rw [(rt.rows_perm _).mem_iff, List.mem_filter]
  simp

theorem releaseClaim_ok_iff :
    (releaseClaim rt t req locked).run db = .ok (rows, db') ↔
      keyFits req.idempotencyKey = true ∧ ¬Recorded reservationKeys db t req.idempotencyKey ∧
      storable req.orderId = true ∧ rows = activeRows rt t req.orderId locked db ∧
      db' = keyed t req.idempotencyKey (rt.payloadHash (.release req)) db := by
  unfold releaseClaim
  rw [claimOnce_bind_ok_iff, getActive_ok_iff, activeRows_keyed]

theorem present_keyed {key hash : String} :
    Present (keyed t key hash db) id ↔ Present db id := by
  unfold Present
  rw [(keyed_rows t key hash db).1]

theorem releaseMark_ok_iff :
    (releaseMark rt t req rows).run db = .ok (u, db') ↔
      keyFits req.idempotencyKey = true ∧ ¬Recorded reservationKeys db t req.idempotencyKey ∧
      (∀ row ∈ rows, Present db row.id ∧ eventFits rt
        (reservationEvent t req.orderId "reservation.released" (orderPayload req.orderId)) = true) ∧
      db' = marked t req.orderId "reservation.released" .released rows
        (keyed t req.idempotencyKey (rt.payloadHash (.release req)) db) := by
  unfold releaseMark
  rw [claimOnce_bind_ok_iff, Tx.bind_ok_iff]
  refine and_congr_right fun fits => and_congr_right fun new => ?_
  constructor
  · rintro ⟨out, db₂, loop, last⟩
    obtain ⟨each, -, rfl⟩ := markRows_ok_iff.1 loop
    simp only [Tx.pure_run, Except.ok.injEq, Prod.mk.injEq] at last
    exact ⟨fun row hr => ⟨present_keyed.1 (each row hr).1, (each row hr).2⟩, last.2.symm⟩
  · rintro ⟨each, rfl⟩
    refine ⟨_, _, markRows_ok_iff.2 ⟨fun row hr => ?_, rfl, rfl⟩, rfl⟩
    exact ⟨present_keyed.2 (each row hr).1, (each row hr).2⟩

def allocated (rt : Runtime) (t : UUID) (req : AllocateReservationRequest) (locked : List ℕ)
    (db : ReservationDb) : ReservationDb :=
  marked t req.orderId "reservation.allocated" .allocated (activeRows rt t req.orderId locked db)
    (keyed t req.idempotencyKey (rt.payloadHash (.allocateReservation req)) db)

/-- An allocation commits with nothing to do, or marks every active row that is
not locked; how many these are makes no difference to its success. -/
theorem allocateTx_ok_iff {req : AllocateReservationRequest} {count : ℕ} :
    (allocateTx rt t req locked).run db = .ok (count, db') ↔
      keyFits req.idempotencyKey = true ∧
      ((Recorded reservationKeys db t req.idempotencyKey ∧ count = 0 ∧ db' = db) ∨
        (¬Recorded reservationKeys db t req.idempotencyKey ∧ storable req.orderId = true ∧
          (∀ row ∈ activeRows rt t req.orderId locked db, eventFits rt (reservationEvent t
            req.orderId "reservation.allocated" (orderPayload req.orderId)) = true) ∧
          count = (activeRows rt t req.orderId locked db).length ∧
          db' = allocated rt t req locked db)) := by
  unfold allocateTx
  rw [Tx.bind_run, claimNew_run]
  cases fits : keyFits req.idempotencyKey with
  | false => simp
  | true =>
    by_cases repeated : Recorded reservationKeys db t req.idempotencyKey
    · simp only [repeated, if_true, Bool.false_eq_true, if_false, Tx.pure_run, Except.ok.injEq,
        Prod.mk.injEq, true_and, not_true_eq_false, false_and, or_false]
      exact ⟨fun h => ⟨h.1.symm, h.2.symm⟩, fun h => ⟨h.1.symm, h.2.symm⟩⟩
    · simp only [repeated, if_true, if_false, not_false_eq_true, true_and, false_and, false_or]
      rw [Tx.bind_ok_iff]
      constructor
      · rintro ⟨rows, db₁, fetch, body⟩
        obtain ⟨stored, rfl, rfl⟩ := getActive_ok_iff.1 fetch
        rw [activeRows_keyed] at body
        obtain ⟨out, db₂, loop, last⟩ := Tx.bind_ok_iff.1 body
        obtain ⟨each, rfl, rfl⟩ := markRows_ok_iff.1 loop
        simp only [Tx.pure_run, Except.ok.injEq, Prod.mk.injEq, List.length_map] at last
        exact ⟨stored, fun row hr => (each row hr).2, last.1.symm, last.2.symm⟩
      · rintro ⟨stored, each, rfl, rfl⟩
        refine ⟨_, _, getActive_ok_iff.2 ⟨stored, rfl, rfl⟩, ?_⟩
        rw [activeRows_keyed]
        refine Tx.bind_ok_iff.2 ⟨_, _, markRows_ok_iff.2 ⟨fun row hr => ?_, rfl, rfl⟩, ?_⟩
        · exact ⟨present_keyed.2 ⟨row, (mem_activeRows.1 hr).1, rfl⟩, each row hr⟩
        · rw [Tx.pure_run, List.length_map]
          rfl

end Taper.ReservationSteps
