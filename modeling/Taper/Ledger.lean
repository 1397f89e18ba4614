import Taper.Platform

set_option autoImplicit false

/-!
# The idempotency ledger

Each service keeps the keys it has processed in a table of its own, with the
same columns and the same two queries.
-/
namespace Taper.Ledger
open Messages Transaction

abbrev KeyTable := UUID → String → Option String

def KeyTable.insert (keys : KeyTable) (tenantID : UUID) (key hash : String) : KeyTable :=
  Function.update keys tenantID (Function.update (keys tenantID) key (some hash))

def KeyTable.has (keys : KeyTable) (tenantID : UUID) (key : String) : Bool :=
  (keys tenantID key).isSome

structure Keyed (σ : Type) where
  keys : σ → KeyTable
  put : σ → KeyTable → σ
  keys_put : ∀ s t, keys (put s t) = t

variable {σ : Type}

/-- Whether a row was inserted; `false` is the conflict that returns no row. -/
def checkAndInsertKey (K : Keyed σ) (tenantID : UUID) (key hash : String) : Tx σ Failure Bool := do
  .require (varchar 255 key) (.sql .tooLong)
  let db ← .read
  if (K.keys db).has tenantID (column 255 key) then pure false
  else do
    .modify fun db => K.put db ((K.keys db).insert tenantID (column 255 key) hash)
    pure true

def claimNew (K : Keyed σ) (tenantID : UUID) (key hash : String) : Tx σ Failure Bool :=
  if key = "" then pure true else checkAndInsertKey K tenantID key hash

/-- A key recorded before ends the transaction with `repeated`. -/
def claimOnce (K : Keyed σ) (tenantID : UUID) (key hash : String) (repeated : Failure) :
    Tx σ Failure Unit := do
  let new ← claimNew K tenantID key hash
  if new then pure () else .throw repeated

def claimed (K : Keyed σ) (tenantID : UUID) (key hash : String) (db : σ) : σ :=
  if key = "" then db else K.put db ((K.keys db).insert tenantID (column 255 key) hash)

theorem insert_self (keys : KeyTable) (tenantID : UUID) (key hash : String) :
    (keys.insert tenantID key hash).has tenantID key = true := by
  simp [KeyTable.insert, KeyTable.has]

variable {other tenantID : UUID} {hash key key' : String} {K : Keyed σ} {db : σ}

theorem insert_other (keys : KeyTable) (hash : String) (h : other ≠ tenantID ∨ key' ≠ key) :
    (keys.insert tenantID key hash).has other key' = keys.has other key' := by
  unfold KeyTable.insert KeyTable.has
  by_cases same : other = tenantID
  · subst same
    have differs : key' ≠ key := h.resolve_left (fun ne => ne rfl)
    rw [Function.update_self, Function.update_of_ne differs]
  · rw [Function.update_of_ne same]

theorem insert_mono (keys : KeyTable) (h : keys.has other key' = true) :
    (keys.insert tenantID key hash).has other key' = true := by
  by_cases same : other = tenantID ∧ key' = key
  · obtain ⟨rfl, rfl⟩ := same
    exact insert_self _ _ _ _
  · rw [insert_other keys hash (not_and_or.1 same)]
    exact h

theorem checkAndInsertKey_run (K : Keyed σ) (tenantID : UUID) (key hash : String) (db : σ) :
    (checkAndInsertKey K tenantID key hash).run db =
      if varchar 255 key then
        if (K.keys db).has tenantID (column 255 key) then .ok (false, db)
        else .ok (true, K.put db ((K.keys db).insert tenantID (column 255 key) hash))
      else .error (.sql .tooLong) := by
  unfold checkAndInsertKey
  rw [Tx.bind_run]
  cases fits : varchar 255 key with
  | false => rfl
  | true =>
    cases found : (K.keys db).has tenantID (column 255 key) with
    | false => simp [Tx.require, Tx.bind_run, found]
    | true => simp [Tx.require, Tx.bind_run, found]

/-- The key is in the table already; an empty key never is. -/
def Recorded (K : Keyed σ) (db : σ) (tenantID : UUID) (key : String) : Prop :=
  key ≠ "" ∧ (K.keys db).has tenantID (column 255 key) = true

instance (K : Keyed σ) (db : σ) (tenantID : UUID) (key : String) :
    Decidable (Recorded K db tenantID key) := inferInstanceAs (Decidable (_ ∧ _))

theorem recorded_column {k k' : String} (same : column 255 k' = column 255 k)
    (h : Recorded K db tenantID k) :
    Recorded K db tenantID k' := by
  refine ⟨fun empty => h.1 ?_, same ▸ h.2⟩
  rw [empty] at same
  exact (column_eq_empty (by decide)).1 same.symm

def keyFits (key : String) : Bool := key == "" || varchar 255 key

theorem claimNew_run (K : Keyed σ) (tenantID : UUID) (key hash : String) (db : σ) :
    (claimNew K tenantID key hash).run db =
      if keyFits key then
        if Recorded K db tenantID key then .ok (false, db)
        else .ok (true, claimed K tenantID key hash db)
      else .error (.sql .tooLong) := by
  unfold claimNew claimed keyFits Recorded
  by_cases empty : key = ""
  · simp [empty]
  · simp only [empty, if_false]
    rw [checkAndInsertKey_run]
    cases fits : varchar 255 key with
    | false => simp [empty]
    | true =>
      cases found : (K.keys db).has tenantID (column 255 key) with
      | false => simp [empty]
      | true => simp [empty]

theorem claimOnce_run (K : Keyed σ) (tenantID : UUID) (key hash : String) (repeated : Failure)
    (db : σ) : (claimOnce K tenantID key hash repeated).run db =
      if keyFits key then
        if Recorded K db tenantID key then .error repeated
        else .ok ((), claimed K tenantID key hash db)
      else .error (.sql .tooLong) := by
  unfold claimOnce
  rw [Tx.bind_run, claimNew_run]
  cases fits : keyFits key with
  | false => rfl
  | true =>
    by_cases found : Recorded K db tenantID key
    · simp [found]
    · simp [found]

theorem claimOnce_bind_ok_iff {α : Type} {repeated : Failure} {rest : Unit → Tx σ Failure α}
    {a : α} {db' : σ} :
    (claimOnce K tenantID key hash repeated >>= rest).run db = .ok (a, db') ↔
      keyFits key = true ∧ ¬Recorded K db tenantID key ∧
        (rest ()).run (claimed K tenantID key hash db) = .ok (a, db') := by
  rw [Tx.bind_run, claimOnce_run]
  cases fits : keyFits key with
  | false => simp
  | true =>
    by_cases found : Recorded K db tenantID key
    · simp [found]
    · simp [found]

theorem claimOnce_repeated {α : Type} {repeated : Failure} {rest : Unit → Tx σ Failure α}
    (plain : repeated ≠ .sql .tooLong) (others : ∀ u, (rest u).Fails (· ≠ repeated))
    (h : (claimOnce K tenantID key hash repeated >>= rest).run db = .error repeated) :
    keyFits key = true ∧ Recorded K db tenantID key := by
  rw [Tx.bind_run, claimOnce_run] at h
  split_ifs at h with fits found
  · exact ⟨fits, found⟩
  · exact absurd rfl (others () _ _ h)
  · exact absurd (Except.error.inj h).symm plain

theorem claimed_self (K : Keyed σ) (tenantID : UUID) (hash : String) (db : σ) (h : key ≠ "") :
    Recorded K (claimed K tenantID key hash db) tenantID key := by
  unfold Recorded claimed
  rw [if_neg h, K.keys_put]
  exact ⟨h, insert_self _ _ _ _⟩

theorem claimed_mono (h : Recorded K db other key') :
    Recorded K (claimed K tenantID key hash db) other key' := by
  unfold claimed
  split
  · exact h
  · refine ⟨h.1, ?_⟩
    rw [K.keys_put]
    exact insert_mono _ h.2

theorem claimed_other (differs : other ≠ tenantID ∨ column 255 key' ≠ column 255 key) :
    Recorded K (claimed K tenantID key hash db) other key' ↔ Recorded K db other key' := by
  unfold Recorded claimed
  split
  · rfl
  · rw [K.keys_put, insert_other _ _ differs]

end Taper.Ledger
