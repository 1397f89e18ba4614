import Taper.Base64
import Taper.Gateway
import Taper.Json
import Taper.Times

set_option autoImplicit false

/-!
# Tokens

A token is three base64url segments: a fixed header, the claims, and a keyed
hash of the two.
-/
namespace Taper.Jwt
open Json Times

abbrev Bytes := List UInt8

/-- What the tokens are made with: documents as texts that read back, and a keyed
hash of 32 bytes. -/
structure Primitives where
  marshal : Value → Bytes
  unmarshal : Bytes → Option Value
  unmarshal_marshal : ∀ v, unmarshal (marshal v) = some v
  unmarshal_nil : unmarshal [] = none
  hmac : Bytes → Bytes → Bytes
  hmac_length : ∀ secret input, (hmac secret input).length = 32

section Structs

/-- Names are compared without regard to case; two further letters fold to ASCII
ones. -/
def foldRune (c : Char) : Char :=
  if 'a' ≤ c ∧ c ≤ 'z' then .ofNat (c.toNat - 32)
  else if c = '\u017f' then 'S'
  else if c = '\u212a' then 'K'
  else c

def foldName (k : String) : List Char := k.toList.map foldRune

def fieldFor {α : Type} (fields : List (String × α)) (k : String) : Option α :=
  (fields.lookup k).or ((fields.find? fun f => foldName f.1 = foldName k).map (·.2))

def fill {σ α : Type} (fields : List (String × α)) (set : α → Value → σ → Option σ) :
    List (String × Value) → σ → Option σ
  | [], s => some s
  | (k, v) :: ms, s =>
    match fieldFor fields k with
    | none => fill fields set ms s
    | some f =>
      match set f v s with
      | some s' => fill fields set ms s'
      | none => none

def fillStruct {σ α : Type} (fields : List (String × α)) (set : α → Value → σ → Option σ)
    (zero : σ) : Value → Option σ
  | .null => some zero
  | .obj ms => fill fields set ms zero
  | _ => none

def readString (old : String) : Value → Option String
  | .null => some old
  | .str s => some s
  | _ => none

def readInt64 (old : Int64) : Value → Option Int64
  | .null => some old
  | .num n =>
    match integer n.text with
    | some z =>
      if -9223372036854775808 ≤ z ∧ z < 9223372036854775808 then some (.ofInt z) else none
    | none => none
  | _ => none

def readStrings : Value → Option (Option (List String))
  | .null => some none
  | .arr vs => (vs.mapM (readString "")).map some
  | _ => none

section Fill

variable {σ α : Type} {fields : List (String × α)} {set : α → Value → σ → Option σ} {k : String}
  {f : α} {s s' : σ} {ms : List (String × Value)}

theorem fill_cons {v : Value} (field : fieldFor fields k = some f) (put : set f v s = some s') :
    fill fields set ((k, v) :: ms) s = fill fields set ms s' := by
  rw [fill, field]
  simp only [put]

theorem readInt64_value (old n : Int64) : readInt64 old (.num (.ofInt n.toInt)) = some n := by
  have low := n.le_toInt
  have high := n.toInt_lt
  rw [readInt64, integer_ofInt]
  simp only
  rw [if_pos ⟨low, high⟩, Int64.ofInt_toInt]

theorem readStrings_value (ss : List String) :
    readStrings (.arr (ss.map .str)) = some (some ss) := by
  have each : (ss.map Value.str).mapM (readString "") = some ss := by
    induction ss with
    | nil => rfl
    | cons s ss ih =>
      rw [List.map_cons, List.mapM_cons, ih]
      rfl
  rw [readStrings, each]
  rfl

end Fill

end Structs

section Claims

structure Header where
  alg : String
  typ : String

inductive HeaderField where
  | alg
  | typ
  deriving DecidableEq

def headerFields : List (String × HeaderField) := [("alg", .alg), ("typ", .typ)]

def setHeader (f : HeaderField) (v : Value) (h : Header) : Option Header :=
  match f with
  | .alg => (readString h.alg v).map fun alg => { h with alg := alg }
  | .typ => (readString h.typ v).map fun typ => { h with typ := typ }

def headerOf : Value → Option Header := fillStruct headerFields setHeader ⟨"", ""⟩

def headerValue (h : Header) : Value := .obj [("alg", .str h.alg), ("typ", .str h.typ)]

/-- A list of scopes may be missing altogether. -/
structure Claims where
  tenantID : String
  expiry : Int64
  subject : String
  role : String
  scopes : Option (List String)
  issuedAt : Int64
  notBefore : Int64
  deriving DecidableEq

inductive ClaimsField where
  | tenantID
  | expiry
  | subject
  | role
  | scopes
  | issuedAt
  | notBefore
  deriving DecidableEq

def claimsFields : List (String × ClaimsField) :=
  [("tenant_id", .tenantID), ("exp", .expiry), ("sub", .subject), ("role", .role),
    ("scopes", .scopes), ("iat", .issuedAt), ("nbf", .notBefore)]

def setClaims (f : ClaimsField) (v : Value) (c : Claims) : Option Claims :=
  match f with
  | .tenantID => (readString c.tenantID v).map fun s => { c with tenantID := s }
  | .expiry => (readInt64 c.expiry v).map fun n => { c with expiry := n }
  | .subject => (readString c.subject v).map fun s => { c with subject := s }
  | .role => (readString c.role v).map fun s => { c with role := s }
  | .scopes => (readStrings v).map fun ss => { c with scopes := ss }
  | .issuedAt => (readInt64 c.issuedAt v).map fun n => { c with issuedAt := n }
  | .notBefore => (readInt64 c.notBefore v).map fun n => { c with notBefore := n }

def Claims.zero : Claims := ⟨"", 0, "", "", none, 0, 0⟩

def claimsOf : Value → Option Claims := fillStruct claimsFields setClaims .zero

def textMember (k s : String) : List (String × Value) :=
  if s = "" then [] else [(k, .str s)]

def numberMember (k : String) (n : Int64) : List (String × Value) :=
  if n = 0 then [] else [(k, .num (.ofInt n.toInt))]

def listMember (k : String) : Option (List String) → List (String × Value)
  | none => []
  | some [] => []
  | some ss => [(k, .arr (ss.map .str))]

/-- The tenant and the expiry are always there, the rest where it is not empty. -/
def claimsValue (c : Claims) : Value :=
  .obj ([("tenant_id", .str c.tenantID), ("exp", .num (.ofInt c.expiry.toInt))] ++
    (textMember "sub" c.subject ++ (textMember "role" c.role ++ (listMember "scopes" c.scopes ++
      (numberMember "iat" c.issuedAt ++ numberMember "nbf" c.notBefore)))))

def Claims.stored (c : Claims) : Claims := { c with scopes := c.scopes.filter fun ss => ss ≠ [] }

section Members

variable {σ α : Type} {fields : List (String × α)} {set : α → Value → σ → Option σ} {k : String}
  {f : α} {s s' : σ} (ms : List (String × Value))

theorem fill_text {text : String} (field : fieldFor fields k = some f)
    (put : set f (.str text) s = some s') (same : text = "" → s' = s) :
    fill fields set (textMember k text ++ ms) s = fill fields set ms s' := by
  unfold textMember
  split
  · rename_i empty
    rw [same empty]
    rfl
  · exact fill_cons field put

theorem fill_number {n : Int64} (field : fieldFor fields k = some f)
    (put : set f (.num (.ofInt n.toInt)) s = some s') (same : n = 0 → s' = s) :
    fill fields set (numberMember k n ++ ms) s = fill fields set ms s' := by
  unfold numberMember
  split
  · rename_i zero
    rw [same zero]
    rfl
  · exact fill_cons field put

theorem fill_list {ss : Option (List String)} (field : fieldFor fields k = some f)
    (put : ∀ list, ss = some list → list ≠ [] → set f (.arr (list.map .str)) s = some s')
    (same : ss.filter (fun list => list ≠ []) = none → s' = s) :
    fill fields set (listMember k ss ++ ms) s = fill fields set ms s' := by
  unfold listMember
  split
  · rw [same rfl]
    rfl
  · rw [same rfl]
    rfl
  · rename_i list other
    exact fill_cons field (put list rfl fun empty => other (by rw [empty]))

end Members

theorem claimsOf_value (c : Claims) : claimsOf (claimsValue c) = some c.stored := by
  have tenantID : fieldFor claimsFields "tenant_id" = some .tenantID := by decide +kernel
  have expiry : fieldFor claimsFields "exp" = some .expiry := by decide +kernel
  have subject : fieldFor claimsFields "sub" = some .subject := by decide +kernel
  have role : fieldFor claimsFields "role" = some .role := by decide +kernel
  have scopes : fieldFor claimsFields "scopes" = some .scopes := by decide +kernel
  have issuedAt : fieldFor claimsFields "iat" = some .issuedAt := by decide +kernel
  have notBefore : fieldFor claimsFields "nbf" = some .notBefore := by decide +kernel
  have number (old n : Int64) (put : Int64 → Claims) :
      (readInt64 old (.num (.ofInt n.toInt))).map put = some (put n) := by
    rw [readInt64_value, Option.map_some]
  rw [claimsOf, claimsValue, fillStruct]
  calc fill claimsFields setClaims _ Claims.zero
    _ = fill claimsFields setClaims (("exp", .num (.ofInt c.expiry.toInt)) :: _)
          ⟨c.tenantID, 0, "", "", none, 0, 0⟩ := fill_cons tenantID rfl
    _ = fill claimsFields setClaims _ ⟨c.tenantID, c.expiry, "", "", none, 0, 0⟩ :=
      fill_cons expiry (number 0 c.expiry _)
    _ = fill claimsFields setClaims _ ⟨c.tenantID, c.expiry, c.subject, "", none, 0, 0⟩ :=
      fill_text _ subject rfl fun empty => by rw [empty]
    _ = fill claimsFields setClaims _ ⟨c.tenantID, c.expiry, c.subject, c.role, none, 0, 0⟩ :=
      fill_text _ role rfl fun empty => by rw [empty]
    _ = fill claimsFields setClaims _
          ⟨c.tenantID, c.expiry, c.subject, c.role, c.stored.scopes, 0, 0⟩ := by
      refine fill_list _ scopes (fun list eq some_ => ?_) fun none => ?_
      · simp [setClaims, readStrings_value, Claims.stored, Option.filter, eq, some_]
      · rw [Claims.stored, none]
    _ = fill claimsFields setClaims (numberMember "nbf" c.notBefore ++ [])
          ⟨c.tenantID, c.expiry, c.subject, c.role, c.stored.scopes, c.issuedAt, 0⟩ := by
      rw [List.append_nil]
      exact fill_number _ issuedAt (number 0 c.issuedAt _) fun zero => by rw [zero]
    _ = fill claimsFields setClaims [] c.stored :=
      fill_number [] notBefore (number 0 c.notBefore _) fun zero => by rw [Claims.stored, zero]
    _ = some c.stored := rfl

theorem headerOf_value (h : Header) : headerOf (headerValue h) = some h := by
  have alg : fieldFor headerFields "alg" = some .alg := by decide +kernel
  have typ : fieldFor headerFields "typ" = some .typ := by decide +kernel
  rw [headerOf, headerValue, fillStruct]
  calc fill headerFields setHeader _ ⟨"", ""⟩
    _ = fill headerFields setHeader [("typ", .str h.typ)] ⟨h.alg, ""⟩ := fill_cons alg rfl
    _ = fill headerFields setHeader [] h := fill_cons typ rfl
    _ = some h := rfl

end Claims

def dot : UInt8 := 46

def errUnauthenticated : String := "unauthenticated"

structure IssueOptions where
  subject : String
  role : String
  scopes : Option (List String)

section Tokens

variable (P : Primitives) (secret : Bytes)

def sign (input : Bytes) : Bytes := Base64.encodeUrl (P.hmac secret input)

def lifetime (ttl : Int64) : Int64 := if ttl ≤ 0 then 900000000000 else ttl

def issuedClaims (tenantID : String) (ttl : Int64) (o : IssueOptions) (now : Time) : Claims where
  tenantID := tenantID
  expiry := (now.add (lifetime ttl)).unix
  subject := o.subject
  role := o.role
  scopes := o.scopes
  issuedAt := now.unix
  notBefore := 0

def body (claims : Claims) : Bytes :=
  Base64.encodeUrl (P.marshal (headerValue ⟨"HS256", "JWT"⟩)) ++
    dot :: Base64.encodeUrl (P.marshal (claimsValue claims))

def issue (tenantID : String) (ttl : Int64) (opts : List IssueOptions) (now : Time) :
    Except String Bytes :=
  if tenantID = "" then .error (errUnauthenticated ++ ": empty tenant")
  else
    let o := opts.head?.getD ⟨"", "", none⟩
    let body := body P (issuedClaims tenantID ttl o now)
    .ok (body ++ dot :: sign P secret body)

def cut : Bytes → Option (Bytes × Bytes)
  | [] => none
  | b :: rest =>
    if b = dot then some ([], rest)
    else (cut rest).map fun (before, after) => (b :: before, after)

def verify (now : Time) (token : Bytes) : Except String Claims :=
  match cut token with
  | none => .error errUnauthenticated
  | some (header, rest) =>
    match cut rest with
    | none => .error errUnauthenticated
    | some (payload, sig) =>
      if header = [] ∨ payload = [] ∨ sig = [] then .error errUnauthenticated
      else if sig ≠ sign P secret (header ++ dot :: payload) then .error errUnauthenticated
      else
        match Base64.decodeUrlText header with
        | none => .error errUnauthenticated
        | some hb =>
          match (P.unmarshal hb).bind headerOf with
          | none => .error errUnauthenticated
          | some h =>
            if h.alg ≠ "HS256" then .error errUnauthenticated
            else
              match Base64.decodeUrlText payload with
              | none => .error errUnauthenticated
              | some pb =>
                match (P.unmarshal pb).bind claimsOf with
                | none => .error errUnauthenticated
                | some claims =>
                  if claims.tenantID = "" then .error errUnauthenticated
                  else if claims.expiry ≤ now.unix then .error errUnauthenticated
                  else if claims.notBefore ≠ 0 ∧ now.unix < claims.notBefore then
                    .error errUnauthenticated
                  else .ok claims

end Tokens

section Verified

variable {P : Primitives} {secret : Bytes} {now : Time}

theorem cut_eq {before after : Bytes} (dotless : dot ∉ before) :
    cut (before ++ dot :: after) = some (before, after) := by
  induction before with
  | nil => rfl
  | cons b before ih =>
    obtain ⟨other, rest⟩ := not_or.1 (mt List.mem_cons.2 dotless)
    rw [List.cons_append, cut, if_neg (Ne.symm other), ih rest]
    rfl

theorem cut_some {s before after : Bytes} (h : cut s = some (before, after)) :
    s = before ++ dot :: after ∧ dot ∉ before := by
  induction s generalizing before with
  | nil => cases h
  | cons b s ih =>
    rw [cut] at h
    split_ifs at h with same
    · cases h
      exact ⟨by rw [same]; rfl, List.not_mem_nil⟩
    · obtain ⟨⟨before', after'⟩, found, eq⟩ := Option.map_eq_some_iff.1 h
      cases eq
      obtain ⟨whole, dotless⟩ := ih found
      exact ⟨by rw [whole]; rfl, mt List.mem_cons.1 (not_or.2 ⟨Ne.symm same, dotless⟩)⟩

theorem encodeUrl_dotless (s : Bytes) : dot ∉ Base64.encodeUrl s :=
  fun member => (Base64.encodeUrl_inline s dot member).1 rfl

/-- Whatever is accepted has three parts, the last of which signs the others, and
names a tenant before it expires. -/
theorem verify_form {token : Bytes} {claims : Claims}
    (h : verify P secret now token = .ok claims) :
    (∃ header payload, token = header ++ dot :: (payload ++ dot :: sign P secret
      (header ++ dot :: payload)) ∧ dot ∉ header ∧ dot ∉ payload) ∧
    claims.tenantID ≠ "" ∧ now.unix < claims.expiry := by
  unfold verify at h
  split at h
  · cases h
  · rename_i header rest first
    split at h
    · cases h
    · rename_i payload sig second
      split_ifs at h with empty forged
      obtain ⟨rfl, headerDotless⟩ := cut_some first
      obtain ⟨rfl, payloadDotless⟩ := cut_some second
      rw [not_not.1 forged]
      refine ⟨⟨header, payload, rfl, headerDotless, payloadDotless⟩, ?_⟩
      -- every further check ends in a refusal or goes on
      repeat' (split at h; · cases h)
      rename_i unnamed expired _
      cases h
      exact ⟨unnamed, Int64.not_le.1 expired⟩

theorem segment_ne_nil (P : Primitives) (v : Value) : Base64.encodeUrl (P.marshal v) ≠ [] := by
  refine Base64.encodeUrl_ne_nil fun empty => ?_
  have read := P.unmarshal_marshal v
  rw [empty, P.unmarshal_nil] at read
  cases read

theorem sign_ne_nil (P : Primitives) (secret input : Bytes) : sign P secret input ≠ [] := by
  refine Base64.encodeUrl_ne_nil fun empty => ?_
  have length := P.hmac_length secret input
  rw [empty] at length
  cases length

theorem verify_issued {claims : Claims} (named : claims.tenantID ≠ "")
    (always : claims.notBefore = 0) :
    verify P secret now (body P claims ++ dot :: sign P secret (body P claims)) =
      if claims.expiry ≤ now.unix then .error errUnauthenticated else .ok claims.stored := by
  have first : cut (body P claims ++ dot :: sign P secret (body P claims)) = some (
      Base64.encodeUrl (P.marshal (headerValue ⟨"HS256", "JWT"⟩)),
      Base64.encodeUrl (P.marshal (claimsValue claims)) ++
        dot :: sign P secret (body P claims)) := by
    rw [body, List.append_assoc]
    exact cut_eq (encodeUrl_dotless _)
  have second : cut (Base64.encodeUrl (P.marshal (claimsValue claims)) ++
      dot :: sign P secret (body P claims)) = some (Base64.encodeUrl (P.marshal
        (claimsValue claims)), sign P secret (body P claims)) := cut_eq (encodeUrl_dotless _)
  have genuine : ¬sign P secret (body P claims) ≠ sign P secret (Base64.encodeUrl (P.marshal
      (headerValue ⟨"HS256", "JWT"⟩)) ++ dot :: Base64.encodeUrl (P.marshal
        (claimsValue claims))) := not_not.2 rfl
  rw [verify, first]
  simp only [second]
  rw [if_neg (not_or.2 ⟨segment_ne_nil P _, not_or.2 ⟨segment_ne_nil P _, sign_ne_nil P _ _⟩⟩),
    if_neg genuine]
  simp only [Base64.decodeUrlText_encodeUrl, P.unmarshal_marshal, Option.bind_some,
    headerOf_value, claimsOf_value, ne_eq, not_true_eq_false, if_false]
  rw [if_neg (show ¬claims.stored.tenantID = "" from named),
    if_neg (show ¬(¬claims.stored.notBefore = 0 ∧ _) from fun early => early.1 always)]
  rfl

end Verified

theorem lifetime_positive (ttl : Int64) : 0 ≤ (lifetime ttl).toInt := by
  unfold lifetime
  split_ifs with none
  · decide
  · rw [Int64.le_iff_toInt_le, Int64.toInt_zero] at none
    omega

/-- The comparison of whole seconds that `Verify` makes. -/
theorem expired_iff {t₀ t : Time} {ttl : Int64} (since : 0 ≤ t₀.nanos)
    (later : t₀.nanos ≤ t.nanos) : (t₀.add (lifetime ttl)).unix ≤ t.unix ↔
      ¬t.floor < (t₀.add (lifetime ttl)).floor := by
  have start : 0 ≤ t₀.floor := Int.ediv_nonneg since (by decide)
  have ends : 0 ≤ (t₀.add (lifetime ttl)).nanos := by
    have after := add_floor (t := t₀) (lifetime_positive ttl)
    unfold Time.floor at after start
    omega
  rw [Int64.le_iff_toInt_le, unix_toInt ends, unix_toInt (since.trans later), not_lt]

/-- A token is accepted until the second in which its lifetime ends and gives
back the claims it was issued with; what is accepted has three parts, the last
of which signs the others. -/
theorem token_round_trip (P : Primitives) (secret : Bytes) (tenantID : String)
    (named : tenantID ≠ "") (ttl : Int64) (opts : List IssueOptions) (t₀ t : Time)
    (since : 0 ≤ t₀.nanos) (later : t₀.nanos ≤ t.nanos) :
    (∃ token, issue P secret tenantID ttl opts t₀ = .ok token ∧
      ∀ claims, verify P secret t token = .ok claims ↔
        claims = (issuedClaims tenantID ttl (opts.head?.getD ⟨"", "", none⟩) t₀).stored ∧
          t.floor < (t₀.add (lifetime ttl)).floor) ∧
    ((t₀.nanos + (lifetime ttl).toInt) / 1000000000 + epoch.toInt < 9223372036854775808 →
      (t₀.add (lifetime ttl)).nanos = t₀.nanos + (lifetime ttl).toInt) ∧
    ∀ token claims, verify P secret t token = .ok claims →
      ∃ header payload, token = header ++ dot :: (payload ++ dot :: sign P secret
        (header ++ dot :: payload)) ∧ token.count dot = 2 := by
  have positive := lifetime_positive ttl
  refine ⟨⟨_, if_neg named, fun claims => ?_⟩, fun high => ?_, fun token claims accepted => ?_⟩
  · rw [verify_issued named rfl]
    generalize opts.head?.getD ⟨"", "", none⟩ = o
    have expires : (issuedClaims tenantID ttl o t₀).expiry ≤ t.unix ↔
        ¬t.floor < (t₀.add (lifetime ttl)).floor := expired_iff since later
    split_ifs with expired
    · exact ⟨nofun, fun h => absurd h.2 (expires.1 expired)⟩
    · rw [Except.ok.injEq]
      exact ⟨fun same => ⟨same.symm, not_not.1 (mt expires.2 expired)⟩, fun h => h.1.symm⟩
  · have start : epoch.toInt = 62135596800 := by decide
    exact add_nanos t₀ _ (by omega) high
  · obtain ⟨⟨header, payload, rfl, headerDotless, payloadDotless⟩, -⟩ := verify_form accepted
    have sigDotless : dot ∉ sign P secret (header ++ dot :: payload) := encodeUrl_dotless _
    refine ⟨header, payload, rfl, ?_⟩
    rw [List.count_append, List.count_cons_self, List.count_append, List.count_cons_self,
      List.count_eq_zero_of_not_mem headerDotless, List.count_eq_zero_of_not_mem payloadDotless,
      List.count_eq_zero_of_not_mem sigDotless]

/-- Documents as UTF-8 texts, with a hash that is all zeros. -/
def plainPrimitives : Primitives where
  marshal v := (String.ofList (write v)).toUTF8.data.toList
  unmarshal b := (String.fromUTF8? ⟨b.toArray⟩).bind parse
  unmarshal_marshal v := by
    have text : String.fromUTF8? (String.ofList (write v)).toUTF8 = some (.ofList (write v)) :=
      dif_pos (String.ofList (write v)).isValidUTF8
    rw [Array.toArray_toList]
    exact (congrArg (Option.bind · parse) text).trans (parse_write v)
  unmarshal_nil := by decide +kernel
  hmac _ _ := List.replicate 32 0
  hmac_length _ _ := by rw [List.length_replicate]

def second (n : Int64) : Time := ⟨epoch + n, 0, by decide⟩

theorem token_accepted : ∃ token,
    issue plainPrimitives [1] "tenant-1" 60000000000 [⟨"user-7", "admin", some []⟩] (second 1000) =
      .ok token ∧
    verify plainPrimitives [1] (second 1059) token =
      .ok ⟨"tenant-1", 1060, "user-7", "admin", none, 1000, 0⟩ := by
  obtain ⟨⟨token, issued, accepted⟩, -⟩ := token_round_trip plainPrimitives [1] "tenant-1"
    (by decide) 60000000000 [⟨"user-7", "admin", some []⟩] (second 1000) (second 1059)
    (by decide) (by decide)
  exact ⟨token, issued, (accepted _).2 ⟨by decide +kernel, by decide +kernel⟩⟩

def Claims.granted (c : Claims) : Auth.Claims :=
  ⟨c.tenantID, c.expiry, c.subject, c.role, c.scopes.getD [], c.issuedAt, c.notBefore⟩

/-- Leaving out an empty list of scopes changes nothing of the grant. -/
theorem stored_granted (c : Claims) : c.stored.granted = c.granted := by
  rcases c with ⟨_, _, _, _, _ | _ | ⟨s, ss⟩, _, _⟩ <;> rfl

def bytes (s : String) : Bytes := s.toUTF8.data.toList

def verifier (P : Primitives) (secret : Bytes) (now : Time) (token : String) :
    Option Auth.Claims :=
  (verify P secret now (bytes token)).toOption.map Claims.granted

end Taper.Jwt
