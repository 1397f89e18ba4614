import Taper.Auth
import Taper.Utf8
import Mathlib.Data.UInt

set_option autoImplicit false

/-!
# The gateway's users

`GATEWAY_AUTH_USERS` is a comma-separated list of `username:password:tenant:role`.
The parser accepts exactly the texts that are written this way.
-/
namespace Taper.AuthUsers
open Utf8

abbrev Bytes := List UInt8

structure AuthUser where
  username : Bytes
  password : Bytes
  tenantID : Bytes
  role : Bytes
  deriving DecidableEq

def comma : UInt8 := 44

def colon : UInt8 := 58

def spaces : List Bytes :=
  [0x09, 0x0A, 0x0B, 0x0C, 0x0D, 0x20, 0x85, 0xA0, 0x1680, 0x2000, 0x2001, 0x2002, 0x2003, 0x2004,
    0x2005, 0x2006, 0x2007, 0x2008, 0x2009, 0x200A, 0x2028, 0x2029, 0x202F, 0x205F, 0x3000].map
    encode

def spaceWidth (s : Bytes) : ℕ := ((spaces.find? fun sp => sp.isPrefixOf s).getD []).length

/-- The first `n` bytes belong to white space that has been found. -/
def blankFrom : ℕ → Bytes → Bool
  | _, [] => true
  | n + 1, _ :: rest => blankFrom n rest
  | 0, b :: rest =>
    match spaceWidth (b :: rest) with
    | 0 => false
    | n + 1 => blankFrom n rest

/-- `strings.TrimSpace` leaves nothing. -/
def blank (s : Bytes) : Bool := blankFrom 0 s

inductive ParseError where
  | empty (i : ℕ)
  | fields (i : ℕ) (entry : Bytes)
  | unknownRole (i : ℕ) (role : Bytes)
  | required (i : ℕ)
  | duplicate (i : ℕ) (username : Bytes)
  deriving DecidableEq

def ParseError.text (quote : Bytes → String) : ParseError → String
  | empty i => s!"GATEWAY_AUTH_USERS entry {i} is empty"
  | fields i entry =>
    s!"GATEWAY_AUTH_USERS entry {i}: want username:password:tenant_id:role, got " ++ quote entry
  | unknownRole i role => s!"GATEWAY_AUTH_USERS entry {i}: unknown role " ++ quote role
  | required i =>
    s!"GATEWAY_AUTH_USERS entry {i}: username, password and tenant_id are required"
  | duplicate i username =>
    s!"GATEWAY_AUTH_USERS entry {i}: duplicate username " ++ quote username

def roles : List Bytes := [ascii Auth.roleReadOnly, ascii Auth.roleReadWrite, ascii Auth.roleAdmin]

def parseEntry (i : ℕ) (entry : Bytes) : Except ParseError AuthUser :=
  if blank entry then .error (.empty i)
  else
    match entry.splitOn colon with
    | [username, password, tenantID, role] =>
      if role ∉ roles then .error (.unknownRole i role)
      else if username = [] ∨ password = [] ∨ tenantID = [] then .error (.required i)
      else .ok ⟨username, password, tenantID, role⟩
    | _ => .error (.fields i entry)

/-- Entry `i` and those after it, with the names and the users so far. -/
def parseEntries (i : ℕ) (seen : List Bytes) (users : List AuthUser) :
    List Bytes → Except ParseError (List AuthUser)
  | [] => .ok users
  | entry :: rest =>
    match parseEntry i entry with
    | .error e => .error e
    | .ok u =>
      if u.username ∈ seen then .error (.duplicate i u.username)
      else parseEntries (i + 1) (u.username :: seen) (users ++ [u]) rest

def parseAuthUsers (spec : Bytes) : Except ParseError (List AuthUser) :=
  if blank spec then .ok [] else parseEntries 1 [] [] (spec.splitOn comma)

def AuthUser.entry (u : AuthUser) : Bytes :=
  [colon].intercalate [u.username, u.password, u.tenantID, u.role]

def render (us : List AuthUser) : Bytes := [comma].intercalate (us.map AuthUser.entry)

def Plain (s : Bytes) : Prop := comma ∉ s ∧ colon ∉ s

structure AuthUser.WellFormed (u : AuthUser) : Prop where
  username : u.username ≠ [] ∧ Plain u.username
  password : u.password ≠ [] ∧ Plain u.password
  tenantID : u.tenantID ≠ [] ∧ Plain u.tenantID
  role : u.role ∈ roles

section Blank

theorem spaces_plain : ∀ sp ∈ spaces, colon ∉ sp := by decide

theorem colon_after_space {s : Bytes} (h : colon ∈ s) : colon ∈ s.drop (spaceWidth s) := by
  unfold spaceWidth
  cases found : spaces.find? fun sp => sp.isPrefixOf s with
  | none => simpa using h
  | some sp =>
    have member := List.mem_of_find?_eq_some found
    have front := List.find?_some found
    obtain ⟨rest, rfl⟩ := List.isPrefixOf_iff_prefix.1 front
    have later := (List.mem_append.1 h).resolve_left (spaces_plain sp member)
    simpa using later

theorem blankFrom_colon (n : ℕ) {s : Bytes} (h : colon ∈ s.drop n) : blankFrom n s = false := by
  induction s generalizing n with
  | nil => simp at h
  | cons b rest ih =>
    cases n with
    | succ n =>
      rw [List.drop_succ_cons] at h
      exact ih n h
    | zero =>
      have later : colon ∈ (b :: rest).drop (spaceWidth (b :: rest)) := colon_after_space h
      rw [blankFrom]
      cases width : spaceWidth (b :: rest) with
      | zero => rfl
      | succ n =>
        rw [width, List.drop_succ_cons] at later
        exact ih n later

end Blank

section Entries

theorem mem_splitOn_free (x : UInt8) (s : Bytes) : ∀ part ∈ s.splitOn x, x ∉ part := by
  induction s with
  | nil => simp
  | cons b rest ih =>
    rw [List.splitOn_cons_eq_if_modifyHead]
    by_cases here : b = x
    · simpa [here] using ih
    · cases split : rest.splitOn x with
      | nil => exact absurd split (List.splitOn_ne_nil _ _)
      | cons first others =>
        rw [split] at ih
        simp only [beq_iff_eq, here, if_false, List.modifyHead_cons, List.forall_mem_cons] at ih ⊢
        refine ⟨?_, ih.2⟩
        rw [List.mem_cons, not_or]
        exact ⟨fun same => here same.symm, ih.1⟩

theorem roles_plain : ∀ role ∈ roles, Plain role := by
  unfold Plain
  decide

theorem mem_entry {x : UInt8} (u : AuthUser) : x ∈ u.entry ↔
    x ∈ u.username ∨ x = colon ∨ x ∈ u.password ∨ x ∈ u.tenantID ∨ x ∈ u.role := by
  simp only [AuthUser.entry, List.intercalate, List.intersperse_cons_cons,
    List.intersperse_singleton, List.flatten_cons, List.flatten_nil, List.append_nil,
    List.mem_append, List.mem_singleton]
  tauto

theorem parseEntry_ok_iff {i : ℕ} {entry : Bytes} {u : AuthUser} :
    parseEntry i entry = .ok u ↔ entry = u.entry ∧ u.role ∈ roles ∧
      (u.username ≠ [] ∧ colon ∉ u.username) ∧ (u.password ≠ [] ∧ colon ∉ u.password) ∧
      (u.tenantID ≠ [] ∧ colon ∉ u.tenantID) := by
  constructor
  · intro h
    unfold parseEntry at h
    split_ifs at h
    split at h
    · rename_i username password tenantID role split
      have free := mem_splitOn_free colon entry
      rw [split] at free
      simp only [List.forall_mem_cons] at free
      split_ifs at h with known given
      cases h
      simp only [not_or] at given
      refine ⟨?_, known, ⟨given.1, free.1⟩, ⟨given.2.1, free.2.1⟩, given.2.2, free.2.2.1⟩
      rw [AuthUser.entry, ← split, List.intercalate_splitOn]
    · cases h
  · rintro ⟨rfl, known, username, password, tenantID⟩
    have some_ : blank u.entry = false := blankFrom_colon 0 ((mem_entry u).2 (.inr (.inl rfl)))
    have split : u.entry.splitOn colon = [u.username, u.password, u.tenantID, u.role] := by
      refine List.splitOn_intercalate colon ?_ (List.cons_ne_nil _ _)
      simp only [List.forall_mem_cons]
      exact ⟨username.2, password.2, tenantID.2, (roles_plain _ known).2, nofun⟩
    simp [parseEntry, some_, split, known, username.1, password.1, tenantID.1]

theorem parseEntries_ok_iff {i : ℕ} {seen : List Bytes} {users us : List AuthUser}
    {entries : List Bytes} : parseEntries i seen users entries = .ok us ↔
      ∃ new, us = users ++ new ∧ entries = new.map AuthUser.entry ∧
        (∀ u ∈ new, ∀ n, parseEntry n u.entry = .ok u) ∧ (new.map (·.username)).Nodup ∧
        ∀ u ∈ new, u.username ∉ seen := by
  induction entries generalizing i seen users with
  | nil =>
    constructor
    · intro h
      cases h
      exact ⟨[], (List.append_nil us).symm, rfl, nofun, List.nodup_nil, nofun⟩
    · rintro ⟨new, rfl, none, -⟩
      rw [eq_comm, List.map_eq_nil_iff] at none
      rw [none, List.append_nil]
      rfl
  | cons entry rest ih =>
    constructor
    · intro h
      rw [parseEntries] at h
      split at h
      · cases h
      · rename_i u parsed
        split_ifs at h with known
        obtain ⟨new, rfl, rfl, each, once, fresh⟩ := ih.1 h
        obtain ⟨rfl, valid⟩ := parseEntry_ok_iff.1 parsed
        refine ⟨u :: new, by simp, rfl, ?_, ?_, ?_⟩
        · exact List.forall_mem_cons.2 ⟨fun n => parseEntry_ok_iff.2 ⟨rfl, valid⟩, each⟩
        · rw [List.map_cons, List.nodup_cons]
          refine ⟨fun member => ?_, once⟩
          obtain ⟨v, there, same⟩ := List.mem_map.1 member
          exact fresh v there (same ▸ List.mem_cons_self)
        · refine List.forall_mem_cons.2 ⟨known, fun v there member => ?_⟩
          exact fresh v there (List.mem_cons_of_mem _ member)
    · rintro ⟨new, rfl, entries, each, once, fresh⟩
      cases new with
      | nil => cases entries
      | cons u new =>
        obtain ⟨rfl, rfl⟩ := List.cons_eq_cons.1 entries
        rw [List.map_cons, List.nodup_cons] at once
        rw [List.forall_mem_cons] at each fresh
        rw [parseEntries, each.1 i]
        simp only [fresh.1, if_false]
        refine ih.2 ⟨new, by simp, rfl, each.2, once.2, fun v there member => ?_⟩
        rcases List.mem_cons.1 member with same | member
        · exact once.1 (List.mem_map.2 ⟨v, there, same⟩)
        · exact fresh.2 v there member

theorem wellFormed_iff {u : AuthUser} :
    u.WellFormed ↔ (∀ n, parseEntry n u.entry = .ok u) ∧ comma ∉ u.entry := by
  rw [mem_entry]
  simp only [parseEntry_ok_iff, true_and, forall_const, not_or]
  constructor
  · intro h
    exact ⟨⟨h.role, ⟨h.username.1, h.username.2.2⟩, ⟨h.password.1, h.password.2.2⟩,
      h.tenantID.1, h.tenantID.2.2⟩, h.username.2.1, by decide, h.password.2.1, h.tenantID.2.1,
      (roles_plain _ h.role).1⟩
  · rintro ⟨⟨role, username, password, tenantID⟩, free⟩
    exact ⟨⟨username.1, free.1, username.2⟩, ⟨password.1, free.2.2.1, password.2⟩,
      ⟨tenantID.1, free.2.2.2.1, tenantID.2⟩, role⟩

end Entries

structure Valid (us : List AuthUser) : Prop where
  some_ : us ≠ []
  distinct : (us.map (·.username)).Nodup
  each : ∀ u ∈ us, u.WellFormed

theorem render_not_blank {us : List AuthUser} (some_ : us ≠ []) : blank (render us) = false := by
  refine blankFrom_colon 0 ?_
  cases us with
  | nil => exact absurd rfl some_
  | cons u rest =>
    have here : colon ∈ u.entry := (mem_entry u).2 (.inr (.inl rfl))
    cases rest with
    | nil => simpa [render] using here
    | cons v rest => simp [render, List.intercalate, here]

theorem splitOn_eq_iff {spec : Bytes} {entries : List Bytes} : spec.splitOn comma = entries ↔
    entries ≠ [] ∧ (∀ entry ∈ entries, comma ∉ entry) ∧ spec = [comma].intercalate entries := by
  constructor
  · rintro rfl
    exact ⟨List.splitOn_ne_nil _ _, mem_splitOn_free comma spec, (List.intercalate_splitOn _).symm⟩
  · rintro ⟨some_, free, rfl⟩
    exact List.splitOn_intercalate comma free some_

/-- The parser takes exactly what is written for a list of users with distinct
names; written again it is the same text, and what is written is read back. -/
theorem parseAuthUsers_iff (spec : Bytes) (some_ : blank spec = false) :
    (∀ us, parseAuthUsers spec = .ok us ↔ Valid us ∧ spec = render us) ∧
    (∀ us, parseAuthUsers spec = .ok us → render us = spec) ∧
    ∀ us, Valid us → parseAuthUsers (render us) = .ok us := by
  have accepts : ∀ spec, blank spec = false → ∀ us,
      parseAuthUsers spec = .ok us ↔ Valid us ∧ spec = render us := by
    intro spec some_ us
    simp only [parseAuthUsers, some_, Bool.false_eq_true, if_false, parseEntries_ok_iff,
      List.nil_append, List.not_mem_nil, not_false_eq_true, implies_true, and_true]
    constructor
    · rintro ⟨new, rfl, split, each, once⟩
      obtain ⟨any, free, whole⟩ := splitOn_eq_iff.1 split
      refine ⟨⟨fun none => any (none ▸ rfl), once, fun u there => ?_⟩, whole⟩
      exact wellFormed_iff.2 ⟨each u there, free _ (List.mem_map_of_mem there)⟩
    · rintro ⟨valid, whole⟩
      refine ⟨us, rfl, splitOn_eq_iff.2 ⟨?_, ?_, whole⟩, fun u there => ?_, valid.distinct⟩
      · exact fun none => valid.some_ (List.map_eq_nil_iff.1 none)
      · rw [List.forall_mem_map]
        exact fun u there => (wellFormed_iff.1 (valid.each u there)).2
      · exact (wellFormed_iff.1 (valid.each u there)).1
  refine ⟨accepts spec some_, fun us parsed => ?_, fun us valid => ?_⟩
  · exact ((accepts spec some_ us).1 parsed).2.symm
  · exact (accepts _ (render_not_blank valid.some_) us).2 ⟨valid, rfl⟩

def sampleSpec : Bytes := ascii "alice:pw1:tenant-a:read-write,bob:pw2:tenant-b:admin"

theorem parseAuthUsers_two : ∃ us, parseAuthUsers sampleSpec = .ok us ∧ us.length = 2 ∧
    Valid us ∧ render us = sampleSpec := by
  have some_ : blank sampleSpec = false := by decide +kernel
  have parsed : parseAuthUsers sampleSpec = .ok
      [⟨ascii "alice", ascii "pw1", ascii "tenant-a", ascii "read-write"⟩,
        ⟨ascii "bob", ascii "pw2", ascii "tenant-b", ascii "admin"⟩] := by decide +kernel
  have accepted := parseAuthUsers_iff sampleSpec some_
  exact ⟨_, parsed, rfl, ((accepted.1 _).1 parsed).1, accepted.2.1 _ parsed⟩

end Taper.AuthUsers
