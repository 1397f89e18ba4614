import Taper.Isolation
import Taper.ReservationRuns

set_option autoImplicit false

/-!
# Tenants of the reservation database

Row numbers are given out across tenants: two runs that agree on a tenant have
numbered its rows differently, and a naming says which numbers belong together.
-/
namespace Taper.ReservationTenants
open Messages Transaction Platform Ledger ReservationTables ReservationSteps ReservationRuns
open Isolation

def bare (row : Reservation) : Reservation := { row with id := 0, expiresAt := 0 }

def own (u : UUID) (db : ReservationDb) : List Reservation :=
  db.reservations.filter fun row => row.tenantID = u

abbrev Naming := ℕ → ℕ → Prop

def Twin (w : Naming) (row row' : Reservation) : Prop := w row.id row'.id ∧ bare row = bare row'

variable {row row' : Reservation} {a b : ℕ}

theorem Twin.later {w w' : Naming} (le : w ≤ w') (twin : Twin w row row') : Twin w' row row' :=
  ⟨le _ _ twin.1, twin.2⟩

structure SameRows (u : UUID) (w : Naming) (db db' : ReservationDb) : Prop where
  numbered : Numbered db
  numbered' : Numbered db'
  one : ∀ {a b c d : ℕ}, w a b → w c d → (a = c ↔ b = d)
  named : ∀ {a b : ℕ}, w a b → (∃ row ∈ own u db, row.id = a) ∧ ∃ row ∈ own u db', row.id = b
  rows : List.Forall₂ (Twin w) (own u db) (own u db')
  outbox : (db.outbox.filter fun e => e.tenantID = u) = db'.outbox.filter fun e => e.tenantID = u
  keys : db.processedKeys u = db'.processedKeys u

structure KeptRows (v : UUID) (db db' : ReservationDb) : Prop where
  rows : own v db = own v db'
  outbox : (db.outbox.filter fun e => e.tenantID = v) = db'.outbox.filter fun e => e.tenantID = v
  keys : db.processedKeys v = db'.processedKeys v

def reservationParts : Parts UUID Naming ReservationDb where
  Alike := SameRows
  Kept := KeptRows
  kept_refl _ _ := ⟨rfl, rfl, rfl⟩
  kept_trans h h' :=
    ⟨h.rows.trans h'.rows, h.outbox.trans h'.outbox, h.keys.trans h'.keys⟩

section Rows

variable {u v : UUID} {w : Naming} {db db' : ReservationDb}

theorem mem_own :
    row ∈ own u db ↔ row ∈ db.reservations ∧ row.tenantID = u := by
  simp [own]

theorem own_setStatus (db : ReservationDb) (id : ℕ) (status : ReservationStatus) :
    own u (db.setStatus id status) = (own u db).map
      fun row => if row.id = id then { row with status := status } else row := by
  unfold own ReservationDb.setStatus
  rw [List.filter_map]
  congr 1
  refine List.filter_congr fun row _ => ?_
  simp only [Function.comp_apply]
  split
  · rfl
  · rfl

theorem SameRows.refl (u : UUID) (numbered : Numbered db) :
    SameRows u (fun a b => a = b ∧ ∃ row ∈ own u db, row.id = a) db db where
  numbered := numbered
  numbered' := numbered
  one := by
    rintro a _ c _ ⟨rfl, -⟩ ⟨rfl, -⟩
    exact Iff.rfl
  named := by
    rintro a _ ⟨rfl, there⟩
    exact ⟨there, there⟩
  rows := List.forall₂_same.2 fun row member => ⟨⟨rfl, row, member, rfl⟩, rfl⟩
  outbox := rfl
  keys := rfl

/-- What others do in one of the databases is not seen. -/
theorem SameRows.kept {t : ReservationDb} (same : SameRows u w db db') (kept : KeptRows u db t)
    (numbered : Numbered t) : SameRows u w t db' where
  numbered := numbered
  numbered' := same.numbered'
  one := same.one
  named := kept.rows ▸ same.named
  rows := kept.rows ▸ same.rows
  outbox := kept.outbox ▸ same.outbox
  keys := kept.keys ▸ same.keys

theorem SameRows.rows_bare (same : SameRows u w db db') :
    (own u db).map bare = (own u db').map bare := by
  have rows := same.rows
  generalize own u db = xs at rows
  generalize own u db' = ys at rows
  induction rows with
  | nil => rfl
  | cons head tail ih => rw [List.map_cons, List.map_cons, head.2, ih]

/-- The other two tables may change as long as they stay the same for the tenant. -/
theorem SameRows.rest {events events' : List ReservationOutboxEvent} {keys keys' : KeyTable}
    (same : SameRows u w db db')
    (outbox : (events.filter fun e => e.tenantID = u) = events'.filter fun e => e.tenantID = u)
    (recorded : keys u = keys' u) :
    SameRows u w { db with outbox := events, processedKeys := keys }
      { db' with outbox := events', processedKeys := keys' } :=
  ⟨⟨same.numbered.once, same.numbered.below⟩, ⟨same.numbered'.once, same.numbered'.below⟩,
    same.one, same.named, same.rows, outbox, recorded⟩

def ReservationDb.add (db : ReservationDb) (row : Reservation) : ReservationDb :=
  { db with reservations := db.reservations ++ [row], nextID := db.nextID + 1 }

theorem own_add (mine : row.tenantID = u) :
    own u (ReservationDb.add db row) = own u db ++ [row] := by
  simp [own, ReservationDb.add, mine]

theorem numbered_add (numbered : Numbered db) (fresh : row.id = db.nextID) :
    Numbered (ReservationDb.add db row) := by
  refine ⟨?_, fun old member => ?_⟩
  · simp only [ReservationDb.add, List.map_append, List.map_cons, List.map_nil]
    refine List.nodup_append.2 ⟨numbered.once, List.nodup_singleton _, fun a old b new => ?_⟩
    obtain ⟨other, there, rfl⟩ := List.mem_map.1 old
    have below := numbered.below other there
    rw [List.mem_singleton.1 new, fresh]
    omega
  · simp only [ReservationDb.add] at member ⊢
    rcases List.mem_append.1 member with there | new
    · have below := numbered.below old there
      omega
    · rw [List.mem_singleton.1 new, fresh]
      omega

def Naming.with (w : Naming) (n n' : ℕ) : Naming := fun a b => w a b ∨ a = n ∧ b = n'

theorem SameRows.add (same : SameRows u w db db') (fresh : row.id = db.nextID)
    (fresh' : row'.id = db'.nextID) (mine : row.tenantID = u) (mine' : row'.tenantID = u)
    (twins : bare row = bare row') :
    SameRows u (Naming.with w db.nextID db'.nextID) (ReservationDb.add db row)
      (ReservationDb.add db' row') := by
  have old : ∀ {a b}, w a b → a < db.nextID ∧ b < db'.nextID := by
    intro a b pair
    obtain ⟨⟨x, there, rfl⟩, y, there', rfl⟩ := same.named pair
    exact ⟨same.numbered.below x (mem_own.1 there).1, same.numbered'.below y (mem_own.1 there').1⟩
  refine ⟨numbered_add same.numbered fresh, numbered_add same.numbered' fresh', ?_, ?_, ?_,
    same.outbox, same.keys⟩
  · rintro a b c d (pair | ⟨rfl, rfl⟩) (pair' | ⟨rfl, rfl⟩)
    · exact same.one pair pair'
    · have := old pair
      omega
    · have := old pair'
      omega
    · exact ⟨fun _ => rfl, fun _ => rfl⟩
  · rintro a b (pair | ⟨rfl, rfl⟩)
    · obtain ⟨⟨x, there, eq⟩, y, there', eq'⟩ := same.named pair
      rw [own_add mine, own_add mine']
      exact ⟨⟨x, List.mem_append_left _ there, eq⟩, y, List.mem_append_left _ there', eq'⟩
    · rw [own_add mine, own_add mine']
      exact ⟨⟨row, by simp, fresh⟩, row', by simp, fresh'⟩
  · rw [own_add mine, own_add mine']
    refine List.rel_append ?_ ?_
    · exact same.rows.imp fun _ _ twin => ⟨.inl twin.1, twin.2⟩
    · exact .cons ⟨.inr ⟨fresh, fresh'⟩, twins⟩ .nil

theorem kept_add (other : row.tenantID ≠ v) :
    KeptRows v db (ReservationDb.add db row) := by
  refine ⟨?_, rfl, rfl⟩
  simp [own, ReservationDb.add, List.filter_append, other]

theorem SameRows.setStatus (same : SameRows u w db db') (pair : w a b)
    (status : ReservationStatus) :
    SameRows u w (db.setStatus a status) (db'.setStatus b status) := by
  refine ⟨numbered_setStatus same.numbered a status, numbered_setStatus same.numbered' b status,
    same.one, ?_, ?_, same.outbox, same.keys⟩
  · intro c d named
    have keep : ∀ {db : ReservationDb} {id n : ℕ}, (∃ row ∈ own u db, row.id = n) →
        ∃ row ∈ own u (db.setStatus id status), row.id = n := by
      rintro db id n ⟨row, there, rfl⟩
      rw [own_setStatus]
      refine ⟨_, List.mem_map_of_mem there, ?_⟩
      split
      · rfl
      · rfl
    exact ⟨keep (same.named named).1, keep (same.named named).2⟩
  · rw [own_setStatus, own_setStatus, List.forall₂_map_left_iff, List.forall₂_map_right_iff]
    refine same.rows.imp fun row row' twin => ?_
    have together := same.one twin.1 pair
    by_cases here : row.id = a
    · rw [if_pos here, if_pos (together.1 here)]
      refine ⟨twin.1, ?_⟩
      have equal := twin.2
      simp only [bare, Reservation.mk.injEq] at equal ⊢
      simp [equal]
    · rw [if_neg here, if_neg fun there => here (together.2 there)]
      exact twin

theorem kept_setStatus (same : SameRows u w db db') (pair : w a b) (status : ReservationStatus)
    (other : v ≠ u) : KeptRows v db (db.setStatus a status) := by
  obtain ⟨mine, there, rfl⟩ := (same.named pair).1
  refine ⟨?_, rfl, rfl⟩
  have unchanged : ∀ row ∈ own v db,
      (if row.id = mine.id then { row with status := status } else row) = row := by
    intro row member
    refine if_neg fun equal => other ?_
    have one := same.numbered.unique (mem_own.1 member).1 (mem_own.1 there).1 equal
    rw [← (mem_own.1 member).2, one, (mem_own.1 there).2]
  rw [own_setStatus, List.map_congr_left unchanged, List.map_id']

end Rows

section Statements

variable {u : UUID} {w : Naming} {α β γ : Type}

abbrev Within (u : UUID) (R : Naming → α → β → Prop) (w : Naming) (m : ReservationTx α)
    (m' : ReservationTx β) : Prop :=
  Confined reservationParts u R w m m'

theorem insertOutboxEvent_within (rt : Runtime) {e : ReservationOutboxEvent}
    (mine : e.tenantID = u) :
    Within u (fun _ => Eq) w (insertOutboxEvent rt e) (insertOutboxEvent rt e) := by
  refine confined_bind_eq (confined_require _ _) fun w₁ _ _ => ?_
  refine confined_bind_eq (confined_require _ _) fun w₂ _ _ => ?_
  refine confined_modify (fun w₃ db db' same => ?_) fun v db other => ?_
  · refine same.rest ?_ same.keys
    rw [List.filter_append, List.filter_append, same.outbox]
  · refine ⟨rfl, ?_, rfl⟩
    simp [List.filter_append, ReservationOutboxEvent.stored, mine ▸ other.symm]

theorem insertReservation_within (orderID : String) (it : ReservationItem)
    (status : ReservationStatus) (expiresAt expiresAt' : ℤ) :
    Within u (fun _ _ _ => True) w (insertReservation u orderID it status expiresAt)
      (insertReservation u orderID it status expiresAt') := by
  refine confined_bind_eq (confined_require _ _) fun w₁ _ _ => ?_
  refine confined_bind_eq (confined_require _ _) fun w₂ _ _ => ?_
  intro w₃ _ db db' same
  exact .done (fun _ _ => .inl) trivial (same.add rfl rfl rfl rfl rfl)
    fun _ other => kept_add other.symm

theorem updateReservationStatus_within (pair : w a b) (status : ReservationStatus) :
    Within u (fun _ => Eq) w (updateReservationStatus a status)
      (updateReservationStatus b status) := by
  intro w' le db db' same
  have found := le a b pair
  obtain ⟨⟨row, there, eq⟩, row', there', eq'⟩ := same.named found
  have first : (updateReservationStatus a status).run db = .ok ((), db.setStatus a status) :=
    updateStatus_ok_iff.2 ⟨⟨row, (mem_own.1 there).1, eq⟩, rfl⟩
  have second : (updateReservationStatus b status).run db' = .ok ((), db'.setStatus b status) :=
    updateStatus_ok_iff.2 ⟨⟨row', (mem_own.1 there').1, eq'⟩, rfl⟩
  rw [first, second]
  exact .done le_rfl rfl (same.setStatus found status)
    fun _ other => kept_setStatus same found status other

theorem insertKey_within (key hash : String) :
    Within u (fun _ => Eq) w
      (.modify fun db => reservationKeys.put db ((reservationKeys.keys db).insert u key hash))
      (.modify fun db => reservationKeys.put db ((reservationKeys.keys db).insert u key hash)) := by
  refine confined_modify (fun w' db db' same => same.rest same.outbox ?_)
    fun v db other => ⟨rfl, rfl, ?_⟩
  · simp only [reservationKeys, KeyTable.insert, Function.update_self, same.keys]
  · simp only [reservationKeys, KeyTable.insert, Function.update_of_ne other]

theorem claimNew_within (key hash : String) :
    Within u (fun _ => Eq) w (claimNew reservationKeys u key hash)
      (claimNew reservationKeys u key hash) := by
  unfold claimNew
  split
  · exact confined_pure fun _ _ => rfl
  · refine confined_bind_eq (confined_require _ _) fun w₁ _ _ => ?_
    refine confined_read (fun db => (reservationKeys.keys db).has u (column 255 key)) ?_ ?_
    · intro w₂ db db' same
      simp only [KeyTable.has, reservationKeys, same.keys]
    · intro w₂ db db' _ same
      rw [same]
      split
      · exact confined_pure fun _ _ => rfl
      · exact confined_bind_eq (insertKey_within (column 255 key) hash) fun _ _ _ =>
          confined_pure fun _ _ => rfl

theorem claimOnce_within (key hash : String) (repeated : Failure) :
    Within u (fun _ => Eq) w (claimOnce reservationKeys u key hash repeated)
      (claimOnce reservationKeys u key hash repeated) := by
  refine confined_bind_eq (claimNew_within key hash) fun w' new _ => ?_
  cases new with
  | true => exact confined_pure fun _ _ => rfl
  | false => exact confined_throw repeated

/-- The order in which rows are fetched does not depend on what is in them. -/
def Positional (rt : Runtime) : Prop :=
  ∀ {α β : Type} (R : α → β → Prop) (xs : List α) (ys : List β),
    List.Forall₂ R xs ys → List.Forall₂ R (rt.rows xs) (rt.rows ys)

theorem activeRows_own (rt : Runtime) (orderID : String) (db : ReservationDb) :
    activeRows rt u orderID [] db = rt.rows ((own u db).filter fun row =>
      row.orderID = orderID ∧ row.status = .active) := by
  unfold activeRows own
  rw [List.filter_filter]
  congr 1
  refine List.filter_congr fun row _ => ?_
  simp only [List.not_mem_nil, not_false_eq_true, and_true, Bool.decide_and]
  exact Bool.and_comm _ _

theorem activeRows_twins {rt : Runtime} (positional : Positional rt) {db db' : ReservationDb}
    (same : SameRows u w db db') (orderID : String) :
    List.Forall₂ (Twin w) (activeRows rt u orderID [] db) (activeRows rt u orderID [] db') := by
  rw [activeRows_own, activeRows_own]
  refine positional _ _ _ (List.rel_filter ?_ same.rows)
  intro row row' twin
  have equal := twin.2
  simp only [bare, Reservation.mk.injEq] at equal
  simp [equal]

end Statements

section Transactions

variable {u : UUID} {w : Naming} (rt : Runtime)

theorem getActive_within (positional : Positional rt) (orderID : String) :
    Within u (fun w' => List.Forall₂ (Twin w')) w (getActiveReservationsByOrder rt u orderID [])
      (getActiveReservationsByOrder rt u orderID []) := by
  refine confined_bind_eq (confined_require _ _) fun w₁ _ _ => ?_
  intro w₂ _ db db' same
  exact .done le_rfl (activeRows_twins positional same orderID) same
    fun v _ => reservationParts.kept_refl v db

theorem markRow_within (orderID eventType : String) (status : ReservationStatus)
    (twin : Twin w row row') :
    Within u (fun _ x y => Option.Rel (fun _ _ => True) x y) w
      (markRow rt u orderID eventType status row) (markRow rt u orderID eventType status row') := by
  refine confined_bind_eq (updateReservationStatus_within twin.1 status) fun w₁ _ _ => ?_
  exact confined_bind_eq (insertOutboxEvent_within rt rfl) fun _ _ _ => confined_pure fun _ _ =>
    .some trivial

theorem markRows_within (orderID eventType : String) (status : ReservationStatus)
    {rows rows' : List Reservation} (twins : List.Forall₂ (Twin w) rows rows') :
    Within u (fun _ x y => List.Forall₂ (fun _ _ => True) x y) w
      (Tx.collect (markRow rt u orderID eventType status) rows)
      (Tx.collect (markRow rt u orderID eventType status) rows') :=
  confined_collect (I := Twin) Twin.later
    (fun _ _ _ _ twin => markRow_within rt orderID eventType status twin) twins

theorem insertItem_within (orderID : String) (expiresAt expiresAt' : ℤ) (it : ReservationItem) :
    Within u (fun _ x y => Option.Rel (fun _ _ => True) x y) w
      (insertItem rt u orderID expiresAt it) (insertItem rt u orderID expiresAt' it) := by
  refine confined_bind (insertReservation_within orderID it .active expiresAt expiresAt')
    fun w₁ _ _ _ _ => ?_
  exact confined_bind_eq (insertOutboxEvent_within rt rfl) fun _ _ _ => confined_pure fun _ _ =>
    .some trivial

/-- Whether there is a first row does not depend on the tenant's number for it. -/
theorem insertReservations_within (req : ReserveRequest) (expiresAt expiresAt' : ℤ) :
    Within u (fun _ x y => x.isSome = y.isSome) w (insertReservations rt u req expiresAt)
      (insertReservations rt u req expiresAt') := by
  refine confined_bind_eq (claimOnce_within _ _ _) fun w₁ _ _ => ?_
  have items : List.Forall₂ (fun it it' : ReservationItem => it = it') req.items req.items :=
    List.forall₂_eq_eq_eq ▸ rfl
  have written : Within u (fun _ x y => List.Forall₂ (fun _ _ => True) x y) w₁
      (Tx.collect (insertItem rt u req.orderId expiresAt) req.items)
      (Tx.collect (insertItem rt u req.orderId expiresAt') req.items) :=
    confined_collect (I := fun _ => Eq) (fun _ same => same)
      (fun _ it _ _ same => same ▸ insertItem_within rt req.orderId expiresAt expiresAt' it) items
  refine confined_bind written fun _ ids ids' _ values => confined_pure fun _ _ => ?_
  cases values with
  | nil => rfl
  | cons _ _ => rfl

theorem allocateTx_within (positional : Positional rt) (req : AllocateReservationRequest) :
    Within u (fun _ => Eq) w (allocateTx rt u req []) (allocateTx rt u req []) := by
  refine confined_bind_eq (claimNew_within _ _) fun w₁ new _ => ?_
  cases new with
  | false => exact confined_pure fun _ _ => rfl
  | true =>
    refine confined_bind (getActive_within rt positional req.orderId)
      fun w₂ rows rows' _ twins => ?_
    refine confined_bind (markRows_within rt _ _ _ twins) fun w₃ done done' _ values => ?_
    exact confined_pure fun _ _ => values.length_eq

theorem releaseClaim_within (positional : Positional rt) (req : ReleaseRequest) :
    Within u (fun w' => List.Forall₂ (Twin w')) w (releaseClaim rt u req [])
      (releaseClaim rt u req []) :=
  confined_bind_eq (claimOnce_within _ _ _) fun _ _ _ => getActive_within rt positional req.orderId

theorem releaseMark_within (req : ReleaseRequest) {rows rows' : List Reservation}
    (twins : List.Forall₂ (Twin w) rows rows') :
    Within u (fun _ => Eq) w (releaseMark rt u req rows) (releaseMark rt u req rows') := by
  refine confined_bind_eq (claimOnce_within _ _ _) fun w₁ _ le => ?_
  have later : List.Forall₂ (Twin w₁) rows rows' :=
    twins.imp fun _ _ twin => twin.later le
  exact confined_bind (markRows_within rt _ _ _ later) fun _ _ _ _ _ => confined_pure fun _ _ => rfl

end Transactions

end Taper.ReservationTenants
