import Taper.Gateway

set_option autoImplicit false

/-!
# The order routes of the gateway

Cancel and fulfill write the order of the path after the body has been decoded,
get writes it before.
-/
namespace Taper.OrderRoutes
open Auth Gateway Utf8 UrlPath

structure Descriptor where
  stringFields : List String

def getOrderRequest : Descriptor := ⟨["tenant_id", "order_id"]⟩

def cancelOrderRequest : Descriptor := ⟨["tenant_id", "order_id", "reason", "idempotency_key"]⟩

def fulfillOrderRequest : Descriptor := ⟨["tenant_id", "order_id", "idempotency_key"]⟩

abbrev Fields := String → String

def Fields.zero : Fields := fun _ => ""

def stringField (d : Descriptor) (msg : Fields) (field : String) : String :=
  if field ∈ d.stringFields then msg field else ""

def setStringField (d : Descriptor) (msg : Fields) (field value : String) : Fields :=
  if field ∈ d.stringFields then Function.update msg field value else msg

abbrev Protojson := Descriptor → Bytes → Except String (List (String × String))

def unmarshal (json : Protojson) (d : Descriptor) (body : Bytes) : Except String Fields :=
  (json d body).map fun present =>
    present.foldl (fun msg f => setStringField d msg f.1 f.2) Fields.zero

/-- A request behind the middleware: the wildcard of its path, its body, if it can
be read, the header `Idempotency-Key` and the claims of its context. -/
structure Incoming where
  id : String
  body : Option Bytes
  idempotencyKey : String
  claims : Option Claims

def maxBodyBytes : ℕ := 1048576

def readAll (r : Incoming) : Option Bytes := r.body.filter fun body => body.length ≤ maxBodyBytes

/-- A kind of message with the fields that the gateway reads and sets by name. -/
structure ProtoMessage (P : Type) where
  zero : P
  unmarshal : Bytes → Except String P
  tenantID : P → String
  setTenantID : String → P → P
  setIdempotencyKey : String → P → P
  setOrderID : String → P → P

section Handlers

variable {P : Type} (kind : ProtoMessage P)

def decodeBody (r : Incoming) (msg : P) : Except HttpError P :=
  match readAll r with
  | none => .error ⟨400, "invalid_argument", "unreadable body"⟩
  | some [] => .ok msg
  | some body =>
    match kind.unmarshal body with
    | .error e => .error ⟨400, "invalid_argument", "invalid JSON body: " ++ e⟩
    | .ok msg => .ok msg

def decode (r : Incoming) (claims : Claims) (msg : P) : Except HttpError P :=
  match decodeBody kind r msg with
  | .error e => .error e
  | .ok msg =>
    let bodyTenant := kind.tenantID msg
    if bodyTenant ≠ "" ∧ bodyTenant ≠ claims.tenantID then
      .error ⟨403, "permission_denied", "body tenant does not match token tenant"⟩
    else
      let msg := kind.setTenantID claims.tenantID msg
      if r.idempotencyKey ≠ "" then .ok (kind.setIdempotencyKey r.idempotencyKey msg)
      else .ok msg

def missingID : HttpError := ⟨400, "invalid_argument", "missing order id"⟩

def missingClaims : HttpError := ⟨401, "unauthenticated", "missing claims"⟩

def byID (r : Incoming) : Except HttpError P :=
  if r.id = "" then .error missingID
  else
    match r.claims with
    | none => .error missingClaims
    | some claims => (decode kind r claims kind.zero).map (kind.setOrderID r.id)

def get (r : Incoming) : Except HttpError P :=
  if r.id = "" then .error missingID
  else
    match r.claims with
    | none => .error missingClaims
    | some claims => decode kind r claims (kind.setOrderID r.id kind.zero)

end Handlers

/-- The messages of a descriptor. -/
def ofDescriptor (json : Protojson) (d : Descriptor) : ProtoMessage Fields where
  zero := Fields.zero
  unmarshal := unmarshal json d
  tenantID msg := stringField d msg "tenant_id"
  setTenantID value msg := setStringField d msg "tenant_id" value
  setIdempotencyKey value msg := setStringField d msg "idempotency_key" value
  setOrderID value msg := setStringField d msg "order_id" value

inductive Outcome where
  | refused (e : HttpError)
  | called (msg : Fields)

def invoke (breaker : Option String) : Except HttpError Fields → Outcome
  | .error e => .refused e
  | .ok req =>
    match breaker with
    | some reason => .refused ⟨503, "unavailable", reason⟩
    | none => .called req

inductive Route where
  | get
  | cancel
  | fulfill
  deriving DecidableEq

def Route.handle (json : Protojson) (breaker : Option String) (route : Route) (r : Incoming) :
    Outcome :=
  invoke breaker <| match route with
    | .get => OrderRoutes.get (ofDescriptor json getOrderRequest) r
    | .cancel => byID (ofDescriptor json cancelOrderRequest) r
    | .fulfill => byID (ofDescriptor json fulfillOrderRequest) r

section Decode

variable {json : Protojson} {d : Descriptor} {r : Incoming} {claims : Claims} {msg out : Fields}

theorem setStringField_same {field value : String} (has : field ∈ d.stringFields) :
    setStringField d msg field value field = value := by
  rw [setStringField, if_pos has, Function.update_self]

theorem setStringField_other {field other value : String} (ne : other ≠ field) :
    setStringField d msg field value other = msg other := by
  unfold setStringField
  split
  · exact Function.update_of_ne ne _ _
  · rfl

theorem decode_ok (tenant : "tenant_id" ∈ d.stringFields)
    (h : decode (ofDescriptor json d) r claims msg = .ok out) :
    out "tenant_id" = claims.tenantID ∧
      ∃ read, decodeBody (ofDescriptor json d) r msg = .ok read ∧
        out "order_id" = read "order_id" := by
  unfold decode at h
  cases body : decodeBody (ofDescriptor json d) r msg with
  | error e =>
    rw [body] at h
    cases h
  | ok read =>
    rw [body] at h
    dsimp only [ofDescriptor] at h
    split_ifs at h with mismatch header
    · cases h
      refine ⟨?_, read, rfl, ?_⟩
      · rw [setStringField_other (by decide), setStringField_same tenant]
      · rw [setStringField_other (by decide), setStringField_other (by decide)]
    · cases h
      exact ⟨setStringField_same tenant, read, rfl, setStringField_other (by decide)⟩

theorem invoke_called {breaker : Option String} {req : Except HttpError Fields}
    (h : invoke breaker req = .called out) : req = .ok out := by
  cases req with
  | error e => cases h
  | ok msg =>
    cases breaker with
    | some reason => cases h
    | none =>
      cases h
      rfl

theorem byID_ok (tenant : "tenant_id" ∈ d.stringFields) (order : "order_id" ∈ d.stringFields)
    (h : byID (ofDescriptor json d) r = .ok out) :
    ∃ claims, r.claims = some claims ∧ out "tenant_id" = claims.tenantID ∧
      out "order_id" = r.id := by
  unfold byID at h
  split_ifs at h
  split at h
  · cases h
  · rename_i claims given
    cases decoded : decode (ofDescriptor json d) r claims (ofDescriptor json d).zero with
    | error e =>
      rw [decoded] at h
      cases h
    | ok req =>
      rw [decoded] at h
      cases h
      refine ⟨claims, given, ?_, setStringField_same order⟩
      exact (setStringField_other (by decide)).trans (decode_ok tenant decoded).1

theorem get_ok (h : get (ofDescriptor json getOrderRequest) r = .ok out) :
    ∃ claims, r.claims = some claims ∧ out "tenant_id" = claims.tenantID ∧
      ∃ read, decodeBody (ofDescriptor json getOrderRequest) r
          (setStringField getOrderRequest Fields.zero "order_id" r.id) = .ok read ∧
        out "order_id" = read "order_id" := by
  unfold get at h
  split_ifs at h
  split at h
  · cases h
  · rename_i claims given
    exact ⟨claims, given, decode_ok (by decide) h⟩

end Decode

def Names (json : Protojson) (r : Incoming) : Prop :=
  r.body = some [] ∨
    ∃ body msg, r.body = some body ∧ unmarshal json getOrderRequest body = .ok msg ∧
      msg "order_id" = r.id

theorem decodeBody_names {json : Protojson} {r : Incoming} {read : Fields}
    (h : decodeBody (ofDescriptor json getOrderRequest) r
      (setStringField getOrderRequest Fields.zero "order_id" r.id) = .ok read) :
    read "order_id" = r.id ↔ Names json r := by
  unfold decodeBody at h
  split at h
  · cases h
  · rename_i found
    obtain ⟨empty, -⟩ := Option.filter_eq_some_iff.1 found
    cases h
    exact iff_of_true (setStringField_same (by decide)) (.inl empty)
  · rename_i body some_ found
    obtain ⟨given, -⟩ := Option.filter_eq_some_iff.1 found
    split at h
    · cases h
    · rename_i msg parsed
      cases h
      constructor
      · intro same
        exact .inr ⟨body, read, given, parsed, same⟩
      · rintro (empty | ⟨body', msg', given', parsed', same⟩)
        · rw [given] at empty
          cases empty
          exact absurd rfl some_
        · rw [given] at given'
          cases given'
          cases parsed.symm.trans parsed'
          exact same

/-- Every request that is sent carries the tenant of the token. It carries the
order of the path, on `GET` exactly if the body is empty or names that order. -/
theorem path_decides_iff (json : Protojson) (breaker : Option String) (route : Route)
    (r : Incoming) (msg : Fields) (sent : route.handle json breaker r = .called msg) :
    ∃ claims, r.claims = some claims ∧ msg "tenant_id" = claims.tenantID ∧
      (msg "order_id" = r.id ↔ (route = .get → Names json r)) := by
  cases route with
  | get =>
    obtain ⟨claims, given, tenant, read, decoded, order⟩ := get_ok (invoke_called sent)
    refine ⟨claims, given, tenant, ?_⟩
    rw [order, decodeBody_names decoded]
    exact ⟨fun names _ => names, fun names => names rfl⟩
  | cancel =>
    obtain ⟨claims, given, tenant, order⟩ := byID_ok (by decide) (by decide) (invoke_called sent)
    exact ⟨claims, given, tenant, iff_of_true order nofun⟩
  | fulfill =>
    obtain ⟨claims, given, tenant, order⟩ := byID_ok (by decide) (by decide) (invoke_called sent)
    exact ⟨claims, given, tenant, iff_of_true order nofun⟩

def sampleJson : Protojson := fun _ body =>
  if body = ascii "\x7b\x7d" then .ok []
  else if body = ascii "\x7b\"order_id\":\"ord-2\"\x7d" then .ok [("order_id", "ord-2")]
  else .error "syntax error"

def sampleIncoming (body : String) : Incoming :=
  ⟨"ord-1", some (ascii body), "", some (sampleClaims roleReadWrite)⟩

def orderSent : Outcome → Option String
  | .refused _ => none
  | .called msg => some (msg "order_id")

theorem orderSent_some {out : Outcome} {o : String} (h : orderSent out = some o) :
    ∃ msg, out = .called msg ∧ msg "order_id" = o := by
  cases out with
  | refused e => cases h
  | called msg => exact ⟨msg, rfl, Option.some.inj h⟩

theorem path_decides_cancel : ∃ msg,
    Route.cancel.handle sampleJson none (sampleIncoming "\x7b\"order_id\":\"ord-2\"\x7d") =
      .called msg ∧ msg "order_id" = "ord-1" := by
  have sent : orderSent (Route.cancel.handle sampleJson none
      (sampleIncoming "\x7b\"order_id\":\"ord-2\"\x7d")) = some "ord-1" := by decide +kernel
  obtain ⟨msg, called, -⟩ := orderSent_some sent
  obtain ⟨claims, -, -, order⟩ := path_decides_iff _ _ _ _ _ called
  exact ⟨msg, called, order.2 nofun⟩

/-- A body on `GET` takes the order of the path away, or puts another in its
place. -/
theorem body_decides_get :
    orderSent (Route.get.handle sampleJson none (sampleIncoming "\x7b\x7d")) = some "" ∧
    orderSent (Route.get.handle sampleJson none
      (sampleIncoming "\x7b\"order_id\":\"ord-2\"\x7d")) = some "ord-2" := by
  decide +kernel

end Taper.OrderRoutes
