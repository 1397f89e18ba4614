import Taper.AuthUsers
import Taper.Jwt
import Taper.OrderRoutes

set_option autoImplicit false

/-!
# Logging in

A login checks a name and a password against the configured users and answers
with a token.
-/
namespace Taper.Login
open AuthUsers Gateway Json Times Utf8
open Jwt (Primitives IssueOptions bytes dot fillStruct issue issuedClaims lifetime readString sign
  verifier)

/-- What the handler takes from libraries: the tokens' primitives, the hash of a
password, the first JSON document of a body, bytes written as JSON text, and the
seconds of a duration as an integer, by way of a floating-point number. -/
structure Library where
  tokens : Primitives
  sha256 : Bytes → Bytes
  decodeFirst : Bytes → Option Value
  text : Bytes → String
  text_bytes : ∀ s, text (bytes s) = s
  text_empty : ∀ b, text b = "" → b = []
  seconds : Int64 → ℤ
  seconds_whole : ∀ d : Int64, d.toInt % 1000000000 = 0 → seconds d = d.toInt / 1000000000

structure AuthRoutes where
  users : Bytes → Option AuthUser
  ttl : Int64

def enter (m : Bytes → Option AuthUser) (u : AuthUser) : Bytes → Option AuthUser :=
  Function.update m u.username (some u)

def newAuthRoutes (users : List AuthUser) (ttl : Int64) : AuthRoutes :=
  ⟨users.foldl enter fun _ => none, ttl⟩

structure Credentials where
  username : String
  password : String
deriving DecidableEq

inductive CredentialsField where
  | username
  | password

def credentialsFields : List (String × CredentialsField) :=
  [("username", .username), ("password", .password)]

def setCredentials (f : CredentialsField) (v : Value) (c : Credentials) : Option Credentials :=
  match f with
  | .username => (readString c.username v).map fun s => { c with username := s }
  | .password => (readString c.password v).map fun s => { c with password := s }

def credentialsOf : Value → Option Credentials :=
  fillStruct credentialsFields setCredentials ⟨"", ""⟩

def readCredentials (L : Library) (body : Bytes) : Option Credentials :=
  (L.decodeFirst (body.take OrderRoutes.maxBodyBytes)).bind credentialsOf

structure LoginResponse where
  token : Bytes
  tokenType : String
  expiresIn : ℤ
  tenantID : String

def invalidCredentials : HttpError := ⟨401, "unauthenticated", "invalid username or password"⟩

def login (L : Library) (secret : Bytes) (a : AuthRoutes) (now : Time) (body : Bytes) :
    Except HttpError LoginResponse :=
  match readCredentials L body with
  | none => .error ⟨400, "invalid_argument", "invalid JSON body"⟩
  | some req =>
    if req.username = "" ∨ req.password = "" then
      .error ⟨400, "invalid_argument", "username and password are required"⟩
    else
      match a.users (bytes req.username) with
      | none => .error invalidCredentials
      | some u =>
        if L.sha256 u.password ≠ L.sha256 (bytes req.password) then .error invalidCredentials
        else
          match issue L.tokens secret (L.text u.tenantID) a.ttl
              [⟨L.text u.username, L.text u.role, none⟩] now with
          | .error _ => .error ⟨500, "internal", "token issue failed"⟩
          | .ok token => .ok ⟨token, "Bearer", L.seconds a.ttl, L.text u.tenantID⟩

section Users

theorem lookup_fold (users : List AuthUser) (m : Bytes → Option AuthUser) (name : Bytes)
    (distinct : (users.map (·.username)).Nodup) (u : AuthUser) :
    users.foldl enter m name = some u ↔
      (u ∈ users ∧ u.username = name) ∨
        ((∀ v ∈ users, v.username ≠ name) ∧ m name = some u) := by
  induction users generalizing m with
  | nil => simp
  | cons v rest ih =>
    rw [List.map_cons, List.nodup_cons] at distinct
    rw [List.foldl_cons, ih _ distinct.2]
    by_cases here : v.username = name
    · subst here
      have later : ∀ w ∈ rest, w.username ≠ v.username := fun w hw same =>
        distinct.1 (List.mem_map.2 ⟨w, hw, same⟩)
      rw [enter, Function.update_self]
      constructor
      · rintro (⟨member, same⟩ | ⟨-, same⟩)
        · exact absurd same (later u member)
        · cases same
          exact .inl ⟨List.mem_cons_self, rfl⟩
      · rintro (⟨member, same⟩ | ⟨none_, -⟩)
        · rcases List.mem_cons.1 member with rfl | tail
          · exact .inr ⟨later, rfl⟩
          · exact absurd same (later u tail)
        · exact absurd rfl (none_ v List.mem_cons_self)
    · rw [enter, Function.update_of_ne (Ne.symm here)]
      simp only [List.mem_cons, forall_eq_or_imp]
      constructor
      · rintro (⟨member, same⟩ | ⟨none_, known⟩)
        · exact .inl ⟨.inr member, same⟩
        · exact .inr ⟨⟨here, none_⟩, known⟩
      · rintro (⟨rfl | member, same⟩ | ⟨⟨-, none_⟩, known⟩)
        · exact absurd same here
        · exact .inl ⟨member, same⟩
        · exact .inr ⟨none_, known⟩

theorem newAuthRoutes_users {users : List AuthUser} {ttl : Int64}
    (distinct : (users.map (·.username)).Nodup) {name : Bytes} {u : AuthUser} :
    (newAuthRoutes users ttl).users name = some u ↔ u ∈ users ∧ u.username = name := by
  have found := lookup_fold users (fun _ => none) name distinct u
  simpa [newAuthRoutes] using found

theorem parsed_users {spec : Bytes} {users : List AuthUser}
    (parsed : parseAuthUsers spec = .ok users) :
    (users.map (·.username)).Nodup ∧ ∀ u ∈ users, u.tenantID ≠ [] ∧ u.role ∈ roles := by
  unfold parseAuthUsers at parsed
  split_ifs at parsed with empty
  · cases parsed
    exact ⟨List.nodup_nil, fun u member => (List.not_mem_nil member).elim⟩
  · obtain ⟨new, rfl, -, each, once, -⟩ := parseEntries_ok_iff.1 parsed
    refine ⟨once, fun u member => ?_⟩
    obtain ⟨-, known, -, -, tenant, -⟩ := parseEntry_ok_iff.1 (each u member 0)
    exact ⟨tenant, known⟩

end Users

section Texts

theorem bytes_ofList (cs : List Char) : bytes (.ofList cs) = cs.flatMap String.utf8EncodeChar := by
  rw [bytes, String.toUTF8, String.toByteArray_ofList, List.utf8Encode]
  simp

theorem encode_ascii : ∀ n < 128, String.utf8EncodeChar (.ofNat n) = [.ofNat n] := by
  decide +kernel

theorem exists_text {b : Bytes} (seven : ∀ x ∈ b, x.toNat < 128) : ∃ s, bytes s = b := by
  refine ⟨.ofList (b.map fun x => .ofNat x.toNat), ?_⟩
  rw [bytes_ofList]
  induction b with
  | nil => rfl
  | cons x rest ih =>
    rw [List.map_cons, List.flatMap_cons, ih fun y hy => seven y (List.mem_cons_of_mem x hy),
      encode_ascii _ (seven x List.mem_cons_self), UInt8.ofNat_toNat]
    rfl

theorem urlDigit_seven (n : ℕ) : (Base64.urlDigit n).toNat < 128 := by
  unfold Base64.urlDigit Base64.digit
  split_ifs <;> simp only [UInt8.toNat_ofNat', UInt8.reduceToNat] <;> omega

theorem encodeUrl_seven (s : Bytes) : ∀ c ∈ Base64.encodeUrl s, c.toNat < 128 := by
  induction s using Base64.encodeUrl.induct with
  | case4 a b c rest ih => simpa [Base64.encodeUrl, urlDigit_seven] using ih
  | _ => simp [Base64.encodeUrl, urlDigit_seven]

theorem token_text (P : Primitives) (secret : Bytes) (claims : Jwt.Claims) :
    ∃ s, bytes s = Jwt.body P claims ++ dot :: sign P secret (Jwt.body P claims) := by
  refine exists_text fun x member => ?_
  simp only [Jwt.body, sign, List.mem_append, List.mem_cons] at member
  rcases member with (header | rfl | payload) | rfl | sig
  · exact encodeUrl_seven _ x header
  · decide
  · exact encodeUrl_seven _ x payload
  · decide
  · exact encodeUrl_seven _ x sig

theorem trimPrefix_append (lead s : String) : trimPrefix (lead ++ s) lead = s := by
  have front : lead.toList.isPrefixOf (lead ++ s).toList = true := by
    simp [List.isPrefixOf_iff_prefix]
  rw [trimPrefix, if_pos front, String.toList_append, ← String.length_toList, List.drop_left,
    String.ofList_toList]

end Texts

def granted (L : Library) (u : AuthUser) (ttl : Int64) (t₀ : Time) : Auth.Claims :=
  (issuedClaims (L.text u.tenantID) ttl ⟨L.text u.username, L.text u.role, none⟩ t₀).granted

/-- What a user's token does: sent back as a bearer token, it lets the request in
until its lifetime ends, as the user, with the operations of the user's role. -/
structure Opens (L : Library) (secret : Bytes) (u : AuthUser) (ttl : Int64) (t₀ : Time)
    (token : Bytes) : Prop where
  text : ∃ s, bytes s = token
  accepted : ∀ (c : Core) (r : Request) (t : Time) (s : String), t₀.nanos ≤ t.nanos →
    c.verify = verifier L.tokens secret t → bytes s = token → r.authorization = "Bearer " ++ s →
    ∀ claims, c.authorize r = .ok claims ↔
      claims = granted L u ttl t₀ ∧ t.floor < (t₀.add ttl).floor
  tenant : (granted L u ttl t₀).tenantID = L.text u.tenantID
  operations : ∀ op, (granted L u ttl t₀).allows op = true ↔
    u.role = ascii Auth.roleAdmin ∨ op ∈ Auth.roleOperations (L.text u.role)
  lasts : ttl.toInt % 1000000000 = 0 →
    (t₀.nanos + ttl.toInt) / 1000000000 + epoch.toInt < 9223372036854775808 →
    (t₀.add ttl).floor = t₀.floor + L.seconds ttl

section Tokens

variable {L : Library} {secret : Bytes} {u : AuthUser} {ttl : Int64} {t₀ : Time}

theorem role_text (L : Library) {role : String} (plain : bytes role = ascii role) :
    L.text (ascii role) = role := by
  rw [← plain, L.text_bytes]

theorem operations_of_role (known : u.role ∈ roles) (op : String) :
    (granted L u ttl t₀).allows op = true ↔
      u.role = ascii Auth.roleAdmin ∨ op ∈ Auth.roleOperations (L.text u.role) := by
  have readOnly := role_text L (by decide +kernel : bytes Auth.roleReadOnly = _)
  have readWrite := role_text L (by decide +kernel : bytes Auth.roleReadWrite = _)
  have admin := role_text L (by decide +kernel : bytes Auth.roleAdmin = _)
  have limited : ∀ role, L.text u.role = role → role = Auth.roleReadOnly ∨
      role = Auth.roleReadWrite → ((granted L u ttl t₀).allows op = true ↔
        op ∈ Auth.roleOperations role) := by
    intro role same either
    have own : (granted L u ttl t₀).role = role := same
    have none_ : (granted L u ttl t₀).scopes = [] := rfl
    have grant : (granted L u ttl t₀).limited = true := by
      rw [Auth.Claims.limited, own]
      rcases either with rfl | rfl <;> decide
    rw [← Auth.allows_unscoped op (.inr none_), Auth.unscoped_allows grant, Auth.Claims.grant, own,
      if_neg]
    rcases either with rfl | rfl <;> decide
  simp only [roles, List.mem_cons, List.not_mem_nil, or_false] at known
  rcases known with is | is | is
  · rw [limited _ (by rw [is, readOnly]) (.inl rfl), is, readOnly]
    exact (or_iff_right (by decide +kernel)).symm
  · rw [limited _ (by rw [is, readWrite]) (.inr rfl), is, readWrite]
    exact (or_iff_right (by decide +kernel)).symm
  · have own : (granted L u ttl t₀).role = Auth.roleAdmin := by
      rw [← admin, ← is]
      rfl
    refine iff_of_true ?_ (.inl is)
    rw [Auth.Claims.allows, if_pos own]

theorem lifetime_eq (positive : 0 < ttl.toInt) : lifetime ttl = ttl := by
  rw [lifetime, if_neg]
  rw [Int64.le_iff_toInt_le, Int64.toInt_zero]
  omega

def tokenOf (L : Library) (secret : Bytes) (u : AuthUser) (ttl : Int64) (t₀ : Time) : Bytes :=
  let claims := issuedClaims (L.text u.tenantID) ttl ⟨L.text u.username, L.text u.role, none⟩ t₀
  Jwt.body L.tokens claims ++ dot :: sign L.tokens secret (Jwt.body L.tokens claims)

theorem opens (since : 0 ≤ t₀.nanos) (positive : 0 < ttl.toInt) (tenant : u.tenantID ≠ [])
    (known : u.role ∈ roles) : Opens L secret u ttl t₀ (tokenOf L secret u ttl t₀) where
  text := token_text _ _ _
  accepted := by
    intro c r t s later tokens sent header claims
    have named : L.text u.tenantID ≠ "" := fun empty => tenant (L.text_empty _ empty)
    have some_ : s ≠ "" := by
      rintro rfl
      have length := congrArg List.length sent
      simp [tokenOf, bytes, String.toUTF8] at length
    have expires : (t₀.add (lifetime ttl)).unix ≤ t.unix ↔
        ¬t.floor < (t₀.add (lifetime ttl)).floor := Jwt.expired_iff since later
    have read : c.verify s = if t.floor < (t₀.add ttl).floor then some (granted L u ttl t₀)
        else none := by
      rw [tokens, verifier, sent, tokenOf, Jwt.verify_issued named rfl]
      rw [lifetime_eq positive] at expires
      have same : (issuedClaims (L.text u.tenantID) ttl ⟨L.text u.username, L.text u.role, none⟩
          t₀).expiry ≤ t.unix ↔ ¬t.floor < (t₀.add ttl).floor := by
        rw [← expires, issuedClaims, lifetime_eq positive]
      by_cases fresh : t.floor < (t₀.add ttl).floor
      · rw [if_neg (mt same.1 (not_not.2 fresh)), if_pos fresh]
        exact congrArg some (Jwt.stored_granted _)
      · rw [if_pos (same.2 fresh), if_neg fresh]
        rfl
    rw [Core.authorize, header, trimPrefix_append, if_neg some_, read]
    split_ifs with fresh
    · rw [Except.ok.injEq, eq_comm]
      exact (and_iff_left fresh).symm
    · exact iff_of_false (fun h => by cases h) fun h => fresh h.2
  tenant := rfl
  operations := operations_of_role known
  lasts := by
    intro whole high
    have start : epoch.toInt = 62135596800 := by decide
    have sum := add_nanos t₀ ttl (by omega) high
    rw [L.seconds_whole ttl whole, Time.floor, sum, Time.floor]
    omega

end Tokens

/-- A login succeeds exactly with the name of a configured user and a password of
the same hash, and all other names and passwords get one and the same answer. The
token opens the gateway as that user, with the operations of the user's role,
until the announced number of seconds is over. -/
theorem login_opens (L : Library) (secret : Bytes) (spec : Bytes) (users : List AuthUser)
    (ttl : Int64) (t₀ : Time) (body : Bytes) (req : Credentials)
    (parsed : parseAuthUsers spec = .ok users) (positive : 0 < ttl.toInt) (since : 0 ≤ t₀.nanos)
    (read : readCredentials L body = some req) (named : req.username ≠ "")
    (locked : req.password ≠ "") :
    (∃ u ∈ users, u.username = bytes req.username ∧
      L.sha256 u.password = L.sha256 (bytes req.password) ∧
      ∃ token, login L secret (newAuthRoutes users ttl) t₀ body =
          .ok ⟨token, "Bearer", L.seconds ttl, L.text u.tenantID⟩ ∧
        Opens L secret u ttl t₀ token) ∨
    ((∀ u ∈ users, u.username = bytes req.username →
        L.sha256 u.password ≠ L.sha256 (bytes req.password)) ∧
      login L secret (newAuthRoutes users ttl) t₀ body = .error invalidCredentials) := by
  obtain ⟨distinct, valid⟩ := parsed_users parsed
  have given : ¬(req.username = "" ∨ req.password = "") := not_or.2 ⟨named, locked⟩
  unfold login
  rw [read]
  dsimp only
  rw [if_neg given]
  cases found : (newAuthRoutes users ttl).users (bytes req.username) with
  | none =>
    refine .inr ⟨fun u member same => ?_, rfl⟩
    rw [(newAuthRoutes_users distinct).2 ⟨member, same⟩] at found
    cases found
  | some u =>
    obtain ⟨member, same⟩ := (newAuthRoutes_users distinct).1 found
    dsimp only
    by_cases right : L.sha256 u.password = L.sha256 (bytes req.password)
    · obtain ⟨tenant, known⟩ := valid u member
      have some_ : L.text u.tenantID ≠ "" := fun empty => tenant (L.text_empty _ empty)
      have issued : issue L.tokens secret (L.text u.tenantID) (newAuthRoutes users ttl).ttl
          [⟨L.text u.username, L.text u.role, none⟩] t₀ = .ok (tokenOf L secret u ttl t₀) :=
        if_neg some_
      refine .inl ⟨u, member, same, right, _, ?_, opens since positive tenant known⟩
      rw [if_neg (not_not.2 right), issued]
      rfl
    · rw [if_pos right]
      refine .inr ⟨fun v there name => ?_, rfl⟩
      have one : v = u := List.inj_on_of_nodup_map distinct there member (name.trans same.symm)
      rwa [one]

def plainLibrary : Library where
  tokens := Jwt.plainPrimitives
  sha256 := id
  decodeFirst := Jwt.plainPrimitives.unmarshal
  text b := (String.fromUTF8? ⟨b.toArray⟩).getD "\uFFFD"
  text_bytes s := by
    have valid : String.fromUTF8? s.toUTF8 = some s := dif_pos s.isValidUTF8
    rw [bytes, Array.toArray_toList, valid, Option.getD_some]
  text_empty b empty := by
    unfold String.fromUTF8? at empty
    split_ifs at empty
    · have none_ : b.toArray.toList = [] :=
        congrArg (fun s : String => s.toByteArray.data.toList) empty
      simpa using none_
    · exact absurd empty (by decide)
  seconds d := d.toInt / 1000000000
  seconds_whole _ _ := rfl

def alice : AuthUser := ⟨ascii "alice", ascii "pw1", ascii "tenant-a", ascii "read-write"⟩

def bob : AuthUser := ⟨ascii "bob", ascii "pw2", ascii "tenant-b", ascii "admin"⟩

def sampleBody : Bytes := bytes "\x7b\"username\":\"bob\",\"password\":\"pw2\"\x7d"

theorem login_opens_hour : ∃ token,
    login plainLibrary [1] (newAuthRoutes [alice, bob] 3600000000000) (Jwt.second 1000)
      sampleBody = .ok ⟨token, "Bearer", 3600, "tenant-b"⟩ ∧
    Opens plainLibrary [1] bob 3600000000000 (Jwt.second 1000) token := by
  obtain ⟨u, member, name, -, token, answered, opened⟩ | ⟨none_, -⟩ :=
    login_opens plainLibrary [1] sampleSpec [alice, bob] 3600000000000 (Jwt.second 1000)
      sampleBody ⟨"bob", "pw2"⟩ (by decide +kernel) (by decide) (by decide) (by decide +kernel)
      (by decide) (by decide)
  · have is : u = bob := by
      simp only [List.mem_cons, List.not_mem_nil, or_false] at member
      rcases member with rfl | rfl
      · exact absurd name (by decide +kernel)
      · rfl
    subst is
    have tenant : plainLibrary.text bob.tenantID = "tenant-b" := by decide +kernel
    rw [tenant] at answered
    exact ⟨token, answered, opened⟩
  · exact absurd (by decide +kernel : bob.password = bytes "pw2")
      (none_ bob (by decide) (by decide +kernel))

end Taper.Login
