import Taper.StackSteps
import Taper.ReservationSteps
import Taper.StockSteps

set_option autoImplicit false

/-!
# Reservation rows along a run

Rows are numbered once and never deleted; an operation appends new rows or gives
some of the old ones a new status.
-/
namespace Taper.ReservationRuns
open Messages Platform Ledger ReservationTables ReservationSteps Program ServiceStack
open Services StockTables StackSteps

inductive ReservationWrite (rt : Runtime) (s : Stack) : (op : Op) → Resp op → ReservationDb → Prop
    where
  | inserted {t : UUID} {req : ReserveRequest} {expiresAt : ℤ} {first : Option ℕ}
      (new : ¬Recorded reservationKeys s.reservation t req.idempotencyKey)
      (fits : keyFits req.idempotencyKey = true) :
      ReservationWrite rt s (.insertReservations t req expiresAt) (.ok first)
        (inserted t req.orderId expiresAt req.items
          (keyed t req.idempotencyKey (rt.payloadHash (.reserve req)) s.reservation))
  | nothingHeld {t : UUID} {req : ReleaseRequest}
      (new : ¬Recorded reservationKeys s.reservation t req.idempotencyKey)
      (none : activeRows rt t req.orderId s.locked s.reservation = []) :
      ReservationWrite rt s (.beginRelease t req) (.ok [])
        (keyed t req.idempotencyKey (rt.payloadHash (.release req)) s.reservation)
  | released {t : UUID} {req : ReleaseRequest} {rows : List Reservation}
      (new : ¬Recorded reservationKeys s.reservation t req.idempotencyKey) :
      ReservationWrite rt s (.commitRelease t req rows) (.ok ())
        (marked t req.orderId "reservation.released" .released rows
          (keyed t req.idempotencyKey (rt.payloadHash (.release req)) s.reservation))
  | allocated {t : UUID} {req : AllocateReservationRequest} {count : ℕ}
      (new : ¬Recorded reservationKeys s.reservation t req.idempotencyKey)
      (fits : keyFits req.idempotencyKey = true) :
      ReservationWrite rt s (.allocate t req) (.ok count)
        (allocated rt t req s.locked s.reservation)
  | expired {row : Reservation} :
      ReservationWrite rt s (.markExpired row) (.ok ()) (s.reservation.setStatus row.id .expired)
  | noted {row : Reservation} {event : ReservationOutboxEvent} :
      ReservationWrite rt s (.expiredEvent row) (.ok ())
        { s.reservation with outbox := s.reservation.outbox ++ [event] }

variable {rt : Runtime} {me : ℕ} {op : Op} {c : Choice} {s s' : Stack} {r : Resp op}

theorem exec_reservation_cases (h : exec rt me op c s = some (r, s')) :
    s'.reservation = s.reservation ∨ ReservationWrite rt s op r s'.reservation := by
  by_cases quiet : writesReservation op = false
  · exact .inl ((exec_frame h).reservation quiet)
  · cases op with
    | insertReservations t req expiresAt =>
      simp only [exec] at h
      split at h
      · cases h
      · rcases reservationTx_some h with ⟨first, db, rfl, run, rfl⟩ | ⟨-, rfl⟩
        · obtain ⟨fits, new, -, -, rfl⟩ := insertReservations_ok_iff.1 run
          exact .inr (.inserted new fits)
        · exact .inl rfl
    | beginRelease t req =>
      simp only [exec] at h
      split at h
      · cases h
      · rcases beginRelease_some h with ⟨-, rfl⟩ | ⟨rows, db, rfl, run, ⟨rfl, rfl⟩ | ⟨-, rfl⟩⟩
        · exact .inl rfl
        · obtain ⟨-, new, -, none, rfl⟩ := releaseClaim_ok_iff.1 run
          exact .inr (.nothingHeld new none.symm)
        · exact .inl rfl
    | commitRelease t req rows =>
      rcases commitRelease_some h with ⟨_, db, rfl, run, rfl⟩ | ⟨-, rfl⟩
      · obtain ⟨-, new, -, rfl⟩ := releaseMark_ok_iff.1 run
        exact .inr (.released new)
      · exact .inl rfl
    | allocate t req =>
      simp only [exec] at h
      split at h
      · cases h
      · rcases reservationTx_some h with ⟨count, db, rfl, run, rfl⟩ | ⟨-, rfl⟩
        · obtain ⟨fits, ⟨-, -, rfl⟩ | ⟨new, -, -, -, rfl⟩⟩ := allocateTx_ok_iff.1 run
          · exact .inl rfl
          · exact .inr (.allocated new fits)
        · exact .inl rfl
    | markExpired row =>
      simp only [exec] at h
      split at h
      · cases h
      · rcases sweeperTx_some h with ⟨_, db, rfl, run, rfl⟩ | ⟨-, rfl⟩
        · obtain ⟨-, rfl⟩ := updateStatus_ok_iff.1 run
          exact .inr .expired
        · exact .inl rfl
    | expiredEvent row =>
      rcases sweeperTx_some h with ⟨_, db, rfl, run, rfl⟩ | ⟨-, rfl⟩
      · obtain ⟨-, rfl⟩ := insertOutbox_ok_iff.1 run
        exact .inr .noted
      · exact .inl rfl
    | _ => exact absurd rfl quiet

/-- The key an operation records, if it commits, as it is stored. -/
def claims : Op → Option (UUID × String)
  | .insertReservations t req _ => some (t, column 255 req.idempotencyKey)
  | .beginRelease t req | .commitRelease t req _ => some (t, column 255 req.idempotencyKey)
  | .allocate t req => some (t, column 255 req.idempotencyKey)
  | _ => none

theorem exec_recorded (h : exec rt me op c s = some (r, s')) (t : UUID) (key : String) :
    (Recorded reservationKeys s.reservation t key → Recorded reservationKeys s'.reservation t key) ∧
      (Recorded reservationKeys s'.reservation t key →
        Recorded reservationKeys s.reservation t key ∨ claims op = some (t, column 255 key)) := by
  have claim : ∀ {u : UUID} {key' hash : String} {db : ReservationDb},
      claims op = some (u, column 255 key') → db.processedKeys =
        (keyed u key' hash s.reservation).processedKeys →
      (Recorded reservationKeys s.reservation t key → Recorded reservationKeys db t key) ∧
        (Recorded reservationKeys db t key →
          Recorded reservationKeys s.reservation t key ∨
            claims op = some (t, column 255 key)) := by
    intro u key' hash db by_ keys
    have same : Recorded reservationKeys db t key ↔
        Recorded reservationKeys (keyed u key' hash s.reservation) t key := by
      unfold Recorded reservationKeys
      simp only [keys]
    refine ⟨fun old => same.2 (claimed_mono old), fun new => ?_⟩
    by_cases equal : t = u ∧ column 255 key = column 255 key'
    · rw [equal.1, equal.2]
      exact .inr by_
    · exact .inl ((claimed_other (not_and_or.1 equal)).1 (same.1 new))
  rcases exec_reservation_cases h with same | write
  · rw [same]
    exact ⟨fun old => old, .inl⟩
  · generalize s'.reservation = db at write
    cases write with
    | inserted new => exact claim rfl rfl
    | nothingHeld new none => exact claim rfl rfl
    | released new => exact claim rfl rfl
    | allocated new => exact claim rfl rfl
    | expired => exact ⟨fun old => old, .inl⟩
    | noted => exact ⟨fun old => old, .inl⟩

def touched (rt : Runtime) (s : Stack) : Op → Option (List ℕ × ReservationStatus)
  | .commitRelease _ _ rows => some (rows.map (·.id), .released)
  | .allocate t req =>
    some ((activeRows rt t req.orderId s.locked s.reservation).map (·.id), .allocated)
  | .markExpired row => some ([row.id], .expired)
  | _ => none

inductive RowsStep (rt : Runtime) (s s' : Stack) (op : Op) : Prop where
  | same (rows : s'.reservation.reservations = s.reservation.reservations)
      (next : s'.reservation.nextID = s.reservation.nextID)
  | marked (ids : List ℕ) (status : ReservationStatus) (by_ : touched rt s op = some (ids, status))
      (new : ∀ t req, op = .allocate t req →
        ¬Recorded reservationKeys s.reservation t req.idempotencyKey)
      (rows : s'.reservation.reservations = ReservationDb.mark s.reservation ids status)
      (next : s'.reservation.nextID = s.reservation.nextID)
  | inserted (t : UUID) (req : ReserveRequest) (expiresAt : ℤ)
      (by_ : op = .insertReservations t req expiresAt)
      (new : ¬Recorded reservationKeys s.reservation t req.idempotencyKey)
      (recorded : req.idempotencyKey ≠ "" →
        Recorded reservationKeys s'.reservation t req.idempotencyKey)
      (rows : s'.reservation.reservations = s.reservation.reservations ++
        newRows t req.orderId expiresAt s.reservation.nextID req.items)
      (next : s'.reservation.nextID = s.reservation.nextID + req.items.length)
      (fits : keyFits req.idempotencyKey = true)

theorem exec_rows (h : exec rt me op c s = some (r, s')) : RowsStep rt s s' op := by
  rcases exec_reservation_cases h with same | write
  · exact .same (by rw [same]) (by rw [same])
  · generalize after : s'.reservation = db at write
    cases write with
    | @inserted t req expiresAt first new fits =>
      have old := keyed_rows t req.idempotencyKey (rt.payloadHash (.reserve req)) s.reservation
      refine .inserted t req expiresAt rfl new (fun key => ?_) ?_ ?_ fits
      · rw [after]
        exact claimed_self reservationKeys t _ s.reservation key
      · rw [after, ReservationSteps.inserted, old.1, old.2]
      · rw [after, ReservationSteps.inserted, old.2]
    | @nothingHeld t req new none =>
      have old := keyed_rows t req.idempotencyKey (rt.payloadHash (.release req)) s.reservation
      exact .same (by rw [after, old.1]) (by rw [after, old.2])
    | @released t req rows new =>
      have old := keyed_rows t req.idempotencyKey (rt.payloadHash (.release req)) s.reservation
      refine .marked _ _ rfl (fun _ _ other => by cases other) ?_ ?_
      · rw [after, ReservationSteps.marked, ReservationDb.mark, old.1]
        rfl
      · rw [after, ReservationSteps.marked, old.2]
    | @allocated t req count new =>
      have old := keyed_rows t req.idempotencyKey (rt.payloadHash (.allocateReservation req))
        s.reservation
      refine .marked _ _ rfl (fun _ _ same => by cases same; exact new) ?_ ?_
      · rw [after, ReservationSteps.allocated, ReservationSteps.marked, ReservationDb.mark, old.1]
        rfl
      · rw [after, ReservationSteps.allocated, ReservationSteps.marked, old.2]
    | @expired row =>
      refine .marked _ _ rfl (fun _ _ other => by cases other) ?_ (by rw [after]; rfl)
      rw [after]
      simp [ReservationDb.setStatus, ReservationDb.mark, withStatus]
    | noted => exact .same (by rw [after]) (by rw [after])

structure Numbered (db : ReservationDb) : Prop where
  once : (db.reservations.map (·.id)).Nodup
  below : ∀ row ∈ db.reservations, row.id < db.nextID

theorem numbered_empty : Numbered .empty := ⟨List.nodup_nil, fun _ h => by cases h⟩

variable {db : ReservationDb} {status : ReservationStatus} {row : Reservation} {i id limit : ℕ}
  {candidates out : List Reservation} {picks : List ℕ} {t : UUID} {req : ReserveRequest}
  {expiresAt : ℤ}

theorem Numbered.unique (numbered : Numbered db) {a b : Reservation} (ha : a ∈ db.reservations)
    (hb : b ∈ db.reservations) (same : a.id = b.id) : a = b :=
  List.inj_on_of_nodup_map numbered.once ha hb same

theorem mark_ids (db : ReservationDb) (ids : List ℕ) (status : ReservationStatus) :
    (ReservationDb.mark db ids status).map (·.id) = db.reservations.map (·.id) := by
  rw [ReservationDb.mark, List.map_map]
  refine List.map_congr_left fun row _ => ?_
  simp only [Function.comp_apply]
  split
  · rfl
  · rfl

theorem numbered_setStatus (numbered : Numbered db) (id : ℕ) (status : ReservationStatus) :
    Numbered (db.setStatus id status) := by
  have ids : (db.setStatus id status).reservations.map (·.id) = db.reservations.map (·.id) := by
    rw [ReservationDb.setStatus, List.map_map]
    refine List.map_congr_left fun row _ => ?_
    simp only [Function.comp_apply]
    split
    · rfl
    · rfl
  refine ⟨ids ▸ numbered.once, fun row member => ?_⟩
  obtain ⟨old, there, eq⟩ := List.mem_map.1 (ids ▸ List.mem_map_of_mem member)
  exact eq ▸ numbered.below old there

theorem mem_mark {ids : List ℕ} : row ∈ ReservationDb.mark db ids status ↔
      ∃ old ∈ db.reservations, row = if old.id ∈ ids then withStatus status old else old := by
  rw [ReservationDb.mark, List.mem_map]
  constructor
  · rintro ⟨old, member, eq⟩
    exact ⟨old, member, eq.symm⟩
  · rintro ⟨old, member, eq⟩
    exact ⟨old, member, eq.symm⟩

theorem exec_numbered (h : exec rt me op c s = some (r, s')) (numbered : Numbered s.reservation) :
    Numbered s'.reservation := by
  cases exec_rows h with
  | same rows next => exact ⟨rows ▸ numbered.once, rows ▸ next ▸ numbered.below⟩
  | marked ids status by_ new rows next =>
    refine ⟨by rw [rows, mark_ids]; exact numbered.once, fun row member => ?_⟩
    rw [rows] at member
    obtain ⟨old, there, rfl⟩ := mem_mark.1 member
    have bound := numbered.below old there
    rw [next]
    split
    · exact bound
    · exact bound
  | inserted t req expiresAt by_ new recorded rows next =>
    refine ⟨?_, fun row member => ?_⟩
    · rw [rows, List.map_append, newRows_ids, List.nodup_append]
      refine ⟨numbered.once, List.nodup_range', fun a old b fresh => ?_⟩
      obtain ⟨row, there, rfl⟩ := List.mem_map.1 old
      have low := numbered.below row there
      have high := (List.mem_range'_1.1 fresh).1
      omega
    · rw [rows] at member
      rw [next]
      rcases List.mem_append.1 member with old | fresh
      · have low := numbered.below row old
        omega
      · exact (newRows_spec fresh).2.2.2.2

def statusOf (s : Stack) (id : ℕ) : Option ReservationStatus :=
  (s.reservation.reservations.find? fun row => row.id == id).map (·.status)

def rowLocation (row : Reservation) : StockLocation := ⟨row.tenantID, row.skuID, row.warehouseID⟩

def holdOf (s : Stack) (id : ℕ) : Option (String × StockLocation) :=
  (s.reservation.reservations.find? fun row => row.id == id).map fun row =>
    (row.orderID, rowLocation row)

theorem found_iff {α : Type} {f : Reservation → α} (numbered : Numbered s.reservation) {a : α} :
    (s.reservation.reservations.find? fun row => row.id == id).map f = some a ↔
      ∃ row ∈ s.reservation.reservations, row.id = id ∧ f row = a := by
  rw [Option.map_eq_some_iff]
  constructor
  · rintro ⟨row, found, rfl⟩
    exact ⟨row, List.mem_of_find?_eq_some found, by simpa using List.find?_some found, rfl⟩
  · rintro ⟨row, member, rfl, rfl⟩
    cases found : s.reservation.reservations.find? fun other => other.id == row.id with
    | none =>
      have absent := List.find?_eq_none.1 found row member
      simp at absent
    | some other =>
      have equal : other.id = row.id := by simpa using List.find?_some found
      refine ⟨other, rfl, ?_⟩
      rw [numbered.unique (List.mem_of_find?_eq_some found) member equal]

theorem statusOf_eq_iff (numbered : Numbered s.reservation) :
    statusOf s id = some status ↔
      ∃ row ∈ s.reservation.reservations, row.id = id ∧ row.status = status := found_iff numbered

theorem exec_holdOf (h : exec rt me op c s = some (r, s')) (numbered : Numbered s.reservation)
    {hold : String × StockLocation} (here : (statusOf s id).isSome = true)
    (after : holdOf s' id = some hold) : holdOf s id = some hold := by
  obtain ⟨status, here⟩ := Option.isSome_iff_exists.1 here
  obtain ⟨row, member, rfl, -⟩ := (statusOf_eq_iff numbered).1 here
  obtain ⟨row', member', same, rfl⟩ := (found_iff (exec_numbered h numbered)).1 after
  refine (found_iff numbered).2 ⟨row, member, rfl, ?_⟩
  cases exec_rows h with
  | same rows next => rw [numbered.unique member (rows ▸ member') same.symm]
  | marked ids st by_ new rows next =>
    rw [rows] at member'
    obtain ⟨old, there, rfl⟩ := mem_mark.1 member'
    split
    · rename_i chosen
      rw [if_pos chosen] at same
      rw [numbered.unique member there same.symm]
      rfl
    · rename_i kept
      rw [if_neg kept] at same
      rw [numbered.unique member there same.symm]
  | inserted t req expiresAt by_ new recorded rows next =>
    rw [rows] at member'
    rcases List.mem_append.1 member' with old | fresh
    · rw [numbered.unique member old same.symm]
    · have low := numbered.below row member
      have high := (newRows_spec fresh).2.2.2.1
      omega

theorem exec_statusOf (h : exec rt me op c s = some (r, s')) (numbered : Numbered s.reservation)
    (here : statusOf s id = some status)
    (apart : ∀ ids st, touched rt s op = some (ids, st) → id ∉ ids) :
    statusOf s' id = some status := by
  rw [statusOf_eq_iff (exec_numbered h numbered)]
  obtain ⟨row, member, rfl, rfl⟩ := (statusOf_eq_iff numbered).1 here
  cases exec_rows h with
  | same rows next => exact ⟨row, rows ▸ member, rfl, rfl⟩
  | marked ids st by_ new rows next =>
    refine ⟨row, ?_, rfl, rfl⟩
    rw [rows, mem_mark]
    exact ⟨row, member, by rw [if_neg (apart ids st by_)]⟩
  | inserted t req expiresAt by_ new recorded rows next =>
    exact ⟨row, by rw [rows]; exact List.mem_append_left _ member, rfl, rfl⟩

theorem mem_limited (h : limited candidates limit picks = some out) (member : row ∈ out) :
    row ∈ candidates := by
  unfold limited at h
  simp only at h
  split at h
  · cases h
    obtain ⟨id, -, found⟩ := List.mem_filterMap.1 member
    exact List.mem_of_find?_eq_some found
  · cases h

theorem filterMap_ids {α β : Type} {f : α → Option β} {g : β → α}
    (back : ∀ a b, f a = some b → g b = a) {as : List α}
    (all : (as.filterMap f).length = as.length) : (as.filterMap f).map g = as := by
  induction as with
  | nil => rfl
  | cons a rest ih =>
    cases found : f a with
    | none =>
      rw [List.filterMap_cons_none found, List.length_cons] at all
      have short := List.length_filterMap_le f rest
      omega
    | some b =>
      rw [List.filterMap_cons_some found, List.length_cons, List.length_cons] at all
      rw [List.filterMap_cons_some found, List.map_cons, back a b found, ih (by omega)]

theorem limited_ids (h : limited candidates limit picks = some out) :
    out.map (·.id) = picks ∧ picks.Nodup := by
  unfold limited at h
  simp only at h
  split at h
  · rename_i spec
    cases h
    refine ⟨filterMap_ids (fun id row found => ?_) spec.2.1, spec.1⟩
    have same := List.find?_some found
    exact eq_of_beq same
  · cases h

theorem limited_all (h : limited candidates limit picks = some out)
    (room : candidates.length ≤ limit) :
    out.Perm candidates := by
  obtain ⟨ids, nodup⟩ := limited_ids h
  rw [← ids] at nodup
  have within : out.Subperm candidates :=
    List.subperm_of_subset (List.Nodup.of_map _ nodup) fun row member => mem_limited h member
  refine within.perm_of_length_le ?_
  unfold limited at h
  simp only at h
  split at h
  · rename_i spec
    cases h
    omega
  · cases h

theorem ranged_perm {keys out : List GroupKey} (h : ranged keys picks = some out) :
    out.Perm keys := by
  unfold ranged at h
  simp only at h
  split at h
  · rename_i perm
    cases h
    exact perm
  · cases h

theorem getExpired_same {now : ℤ} {limit : Int32} {found : Except Failure (List Reservation)}
    (h : exec rt me (.getExpiredReservations now limit) c s = some (found, s')) : s' = s := by
  simp only [exec] at h
  split at h
  · cases h
    rfl
  · split at h
    · cases h
      rfl
    · obtain ⟨out, -, eq⟩ := Option.map_eq_some_iff.1 h
      cases eq
      rfl

theorem getExpired_rows {now : ℤ} {limit : Int32} {rows : List Reservation}
    (h : exec rt me (.getExpiredReservations now limit) c s = some (.ok rows, s'))
    (member : row ∈ rows) :
    row ∈ s.reservation.reservations ∧ row.status = .active := by
  simp only [exec] at h
  split at h
  · simp at h
  · split at h
    · simp at h
    · obtain ⟨out, limit, eq⟩ := Option.map_eq_some_iff.1 h
      simp only [Prod.mk.injEq, Except.ok.injEq] at eq
      have there := mem_limited limit (eq.1 ▸ member)
      have spec := List.mem_filter.1 there
      simp only [decide_eq_true_eq] at spec
      exact ⟨spec.1, spec.2.2.1⟩

theorem beginRelease_rows {req : ReleaseRequest} {rows : List Reservation}
    (h : exec rt me (.beginRelease t req) c s = some (.ok rows, s')) :
    rows = activeRows rt t req.orderId s.locked s.reservation ∧
      s'.openTxs = s.openTxs ++ if rows = [] then [] else [opened me t req rows] := by
  simp only [exec] at h
  split at h
  · cases h
  · rcases beginRelease_some h with ⟨⟨e, answer⟩, -⟩ |
        ⟨found, db, answer, run, ⟨rfl, rfl⟩ | ⟨some_, rfl⟩⟩
    · cases answer
    · cases answer
      exact ⟨(releaseClaim_ok_iff.1 run).2.2.2.1, by simp⟩
    · cases answer
      exact ⟨(releaseClaim_ok_iff.1 run).2.2.2.1, by simp [some_]⟩

theorem insert_repeated (h : exec rt me (.insertReservations t req expiresAt) c s =
      some (.error .alreadyProcessed, s')) :
    Recorded reservationKeys s.reservation t req.idempotencyKey := by
  simp only [exec] at h
  split at h
  · cases h
  · exact (insertReservations_repeated (reservationTx_repeated h)).2

theorem begin_repeated {req : ReleaseRequest}
    (h : exec rt me (.beginRelease t req) c s = some (.error .alreadyProcessed, s')) :
    Recorded reservationKeys s.reservation t req.idempotencyKey := by
  simp only [exec, ServiceStack.beginRelease] at h
  split at h
  · cases h
  · split at h
    · cases h
    · split at h
      · rename_i e db result
        cases h
        rcases execTx_failed result with eq | eq | run
        · cases eq
        · cases eq
        · exact releaseClaim_repeated run
      · cases h
      · cases h

theorem insert_answered {answer : Except Failure (Option ℕ)} (key : req.idempotencyKey ≠ "")
    (h : exec rt me (.insertReservations t req expiresAt) c s = some (answer, s'))
    (stored : (∃ id, answer = .ok id) ∨ answer = .error .alreadyProcessed) :
    Recorded reservationKeys s'.reservation t req.idempotencyKey := by
  rcases stored with ⟨id, rfl⟩ | rfl
  · simp only [exec] at h
    split at h
    · cases h
    · rcases reservationTx_some h with ⟨first, db, -, run, rfl⟩ | ⟨⟨e, eq⟩, -⟩
      · obtain ⟨-, -, -, -, rfl⟩ := insertReservations_ok_iff.1 run
        exact claimed_self reservationKeys t _ s.reservation key
      · cases eq
  · exact (exec_recorded h _ _).1 (insert_repeated h)

/-- And only a key that fits its column lets them be stored. -/
theorem insert_fits {answer : Except Failure (Option ℕ)}
    (h : exec rt me (.insertReservations t req expiresAt) c s = some (answer, s'))
    (stored : (∃ id, answer = .ok id) ∨ answer = .error .alreadyProcessed) :
    keyFits req.idempotencyKey = true := by
  simp only [exec] at h
  split at h
  · cases h
  · rcases stored with ⟨id, rfl⟩ | rfl
    · rcases reservationTx_some h with ⟨first, db, -, run, rfl⟩ | ⟨⟨e, eq⟩, -⟩
      · exact (insertReservations_ok_iff.1 run).1
      · cases eq
    · exact (insertReservations_repeated (reservationTx_repeated h)).1

theorem allocate_fits {req : AllocateReservationRequest} {count : ℕ}
    (h : exec rt me (.allocate t req) c s = some (.ok count, s')) :
    keyFits req.idempotencyKey = true := by
  simp only [exec] at h
  split at h
  · cases h
  · rcases reservationTx_some h with ⟨n, db, -, run, rfl⟩ | ⟨⟨e, eq⟩, -⟩
    · exact (allocateTx_ok_iff.1 run).1
    · cases eq

theorem allocate_answered {req : AllocateReservationRequest} {count : ℕ}
    (key : req.idempotencyKey ≠ "") (h : exec rt me (.allocate t req) c s = some (.ok count, s')) :
    Recorded reservationKeys s'.reservation t req.idempotencyKey := by
  simp only [exec] at h
  split at h
  · cases h
  · rcases reservationTx_some h with ⟨n, db, -, run, rfl⟩ | ⟨⟨e, eq⟩, -⟩
    · obtain ⟨-, ⟨found, -, rfl⟩ | ⟨-, -, -, -, rfl⟩⟩ := allocateTx_ok_iff.1 run
      · exact found
      · exact claimed_self reservationKeys t _ s.reservation key
    · cases eq

def HeldBy (s : Stack) (i id : ℕ) : Prop := ∃ o ∈ s.openTxs, o.thread = i ∧ id ∈ o.rows

theorem HeldBy.locked (h : HeldBy s i id) : id ∈ s.locked := by
  obtain ⟨o, member, -, row⟩ := h
  exact List.mem_flatMap.2 ⟨o, member, row⟩

def closes : Op → Bool
  | .commitRelease _ _ _ | .endTx => true
  | _ => false

theorem heldBy_close {me : ℕ} (h : HeldBy s i id) (other : i ≠ me) :
    HeldBy (s.close me) i id := by
  obtain ⟨o, member, thread, row⟩ := h
  refine ⟨o, List.mem_filter.2 ⟨member, ?_⟩, thread, row⟩
  simpa [thread] using other

theorem exec_heldBy (h : exec rt me op c s = some (r, s')) (held : HeldBy s i id)
    (stays : i = me → closes op = false) : HeldBy s' i id := by
  by_cases plain : locks op = false
  · unfold HeldBy
    rw [exec_openTxs h plain]
    exact held
  cases op with
  | firstReservationID t req =>
    rcases firstReservationID_some h with rfl | rfl
    · exact held
    · obtain ⟨o, member, thread, row⟩ := held
      exact ⟨o, List.mem_append_left _ member, thread, row⟩
  | beginRelease t req =>
    rcases beginRelease_some (Option.ite_none_left_eq_some.1 h).2 with
      ⟨-, rfl⟩ | ⟨rows, db, -, -, ⟨-, rfl⟩ | ⟨-, rfl⟩⟩
    · exact held
    · exact held
    · obtain ⟨o, member, thread, row⟩ := held
      exact ⟨o, List.mem_append_left _ member, thread, row⟩
  | commitRelease t req rows =>
    have other : i ≠ me := fun eq => Bool.noConfusion (stays eq)
    rcases commitRelease_some h with ⟨u, db, -, -, rfl⟩ | ⟨-, rfl⟩
    · exact heldBy_close held other
    · exact heldBy_close held other
  | endTx =>
    have other : i ≠ me := fun eq => Bool.noConfusion (stays eq)
    have eq := (Prod.mk.inj (Option.some.inj h)).2
    rw [← eq]
    exact heldBy_close held other
  | _ => exact absurd rfl plain

/-- The stock service commits the release, and not as a repetition. -/
def takesEffect (rt : Runtime) (req : ReleaseStockRequest) (c : Choice) (db : StockDb) : Bool :=
  !c.fault && (StockHandlers.releaseStock rt req db).1.isOk &&
    match rt.scan req.tenantId with
    | some t => !decide (StockSteps.Seen db t req.idempotencyKey)
    | none => false

def returnsHold (rt : Runtime) (id : ℕ) (pool : StackPool) : Move Handler Choice → Bool
  | .step i c =>
    match pool.threads i with
    | some (.step (.releaseStock req rows) _) =>
      rows.any (fun row => row.id == id) && takesEffect rt req c pool.state.stock
    | _ => false
  | _ => false

theorem returnsHold_cases {pool : StackPool} {m : Move Handler Choice}
    (h : returnsHold rt id pool m = true) : ∃ i c req rows k, m = .step i c ∧
      pool.threads i = some (.step (.releaseStock req rows) k) ∧ (∃ row ∈ rows, row.id = id) ∧
      takesEffect rt req c pool.state.stock = true := by
  unfold returnsHold at h
  split at h
  · rename_i i c
    split at h
    · rename_i req rows k thread
      simp only [Bool.and_eq_true, List.any_eq_true, beq_iff_eq] at h
      exact ⟨i, c, req, rows, k, rfl, thread, h.1, h.2⟩
    · cases h
  · cases h

def undoes (rt : Runtime) (hold : String × StockLocation) (req : ReleaseStockRequest)
    (rows : List Reservation) : Bool :=
  decide (rows = [] ∧ rt.scan req.tenantId = some hold.2.tenantID ∧
    column 255 req.orderId = hold.1 ∧
    hold.2 ∈ req.lines.map (StockHandlers.lineLocation hold.2.tenantID))

/-- The stock service commits a release that includes the line of the row: one
for the row itself, or the undo of a reservation of its order at its location. -/
def returnsLine (rt : Runtime) (id : ℕ) (pool : StackPool) : Move Handler Choice → Bool
  | .step i c =>
    match pool.threads i with
    | some (.step (.releaseStock req rows) _) =>
      (rows.any (fun row => row.id == id) ||
        (holdOf pool.state id).any fun hold => undoes rt hold req rows) &&
          takesEffect rt req c pool.state.stock
    | _ => false
  | _ => false

theorem returnsLine_cases {pool : StackPool} {m : Move Handler Choice}
    (h : returnsLine rt id pool m = true) : ∃ i c req rows k, m = .step i c ∧
      pool.threads i = some (.step (.releaseStock req rows) k) ∧ ((∃ row ∈ rows, row.id = id) ∨
        ∃ hold, holdOf pool.state id = some hold ∧ undoes rt hold req rows = true) := by
  unfold returnsLine at h
  split at h
  · rename_i i c
    split at h
    · rename_i req rows k thread
      simp only [Bool.and_eq_true, Bool.or_eq_true, List.any_eq_true, beq_iff_eq,
        Option.any_eq_true] at h
      exact ⟨i, c, req, rows, k, rfl, thread, h.1⟩
    · cases h
  · cases h

end Taper.ReservationRuns
