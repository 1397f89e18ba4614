import Taper.Auth
import Taper.Utf8
import Taper.UrlPath

set_option autoImplicit false

/-!
# The gateway's permissions

The middleware reads the operation of a request off the unescaped path, the mux
chooses the handler by the segments of the escaped one.
-/
namespace Taper.Gateway
open Auth UrlPath Utf8

structure URL where
  escapedPath : Bytes
  path : Bytes
  decodes : unescape escapedPath = some path

structure Request where
  method : String
  url : URL
  authorization : String
  remoteAddr : String

structure HttpError where
  status : ℕ
  code : String
  message : String
  deriving DecidableEq

/-- An error response with its `Retry-After`, if it has one. -/
structure Refusal where
  error : HttpError
  retryAfter : Option ℤ
  deriving DecidableEq

structure Decision where
  allowed : Bool
  retryAfter : ℤ

/-- What the gateway depends on: the verifier, the limiter at this moment, and
the library's host splitting and text of a duration. -/
structure Core where
  verify : String → Option Claims
  take : String → Decision
  splitHostPort : String → Option String
  durationText : ℤ → String

def trimPrefix (s lead : String) : String :=
  if lead.toList.isPrefixOf s.toList then .ofList (s.toList.drop lead.length) else s

def Core.authorize (c : Core) (r : Request) : Except HttpError Claims :=
  let token := trimPrefix r.authorization "Bearer "
  if token = "" then .error ⟨401, "unauthenticated", "missing bearer token"⟩
  else
    match c.verify token with
    | none => .error ⟨401, "unauthenticated", "invalid token"⟩
    | some claims => .ok claims

def reads (method : String) : Bool := method = "GET" ∨ method = "HEAD"

def operationFor (method : String) (path : Bytes) : Option String :=
  match (trim path).splitOn slash with
  | version :: area :: rest =>
    if version ≠ ascii "v1" then none
    else if area = ascii "orders" then
      some (if reads method then opOrderRead else opOrderMutate)
    else if area = ascii "stock" then
      if reads method then some opStockRead
      else if rest.head? = some (ascii "unlock") then some opStockAdmin
      else some opStockWrite
    else if area = ascii "reservations" then
      some (if reads method then opReservationRead else opReservationMutate)
    else none
  | _ => none

def loginPath : Bytes := ascii "/v1/auth/login"

def Core.loginHost (c : Core) (remoteAddr : String) : String :=
  (c.splitHostPort remoteAddr).getD remoteAddr

def Core.admit (c : Core) (tenant : String) : Option Refusal :=
  let d := c.take tenant
  if d.allowed then none
  else some ⟨⟨429, "resource_exhausted", "rate limit exceeded, retry after " ++
    c.durationText d.retryAfter⟩, some (d.retryAfter.tdiv 1000000000 + 1)⟩

inductive Passage where
  | refused (refusal : Refusal)
  | next (claims : Option Claims)

def forbidden : Refusal :=
  ⟨⟨403, "permission_denied", "token role does not permit this operation"⟩, none⟩

/-- An operation that the claims do not cover; a path without one passes. -/
def denied (op : Option String) (claims : Claims) : Bool := op.any fun op => !claims.allows op

def Core.middleware (c : Core) (r : Request) : Passage :=
  if r.url.path = ascii "/healthz" ∨ r.url.path = ascii "/readyz" then .next none
  else if r.url.path = loginPath then
    match c.admit ("login:" ++ c.loginHost r.remoteAddr) with
    | some refusal => .refused refusal
    | none => .next none
  else
    match c.authorize r with
    | .error e => .refused ⟨e, none⟩
    | .ok claims =>
      if denied (operationFor r.method r.url.path) claims then .refused forbidden
      else
        match c.admit claims.tenantID with
        | some refusal => .refused refusal
        | none => .next (some claims)

inductive Handler where
  | adjustStock | reserveStock | releaseStock | confirmStockAllocation | fulfillStock
  | unlockStockForAudit
  | reserve | release | allocateReservation
  | createOrder | cancelOrder | fulfillOrder | getOrder
  deriving DecidableEq

inductive Segment where
  | literal (s : String)
  | wildcard
  deriving DecidableEq

structure Pattern where
  method : String
  segments : List Segment

open Segment in
def Handler.pattern : Handler → Pattern
  | .adjustStock => ⟨"POST", [literal "v1", literal "stock", literal "adjust"]⟩
  | .reserveStock => ⟨"POST", [literal "v1", literal "stock", literal "reserve"]⟩
  | .releaseStock => ⟨"POST", [literal "v1", literal "stock", literal "release"]⟩
  | .confirmStockAllocation => ⟨"POST", [literal "v1", literal "stock", literal "allocate"]⟩
  | .fulfillStock => ⟨"POST", [literal "v1", literal "stock", literal "fulfill"]⟩
  | .unlockStockForAudit => ⟨"POST", [literal "v1", literal "stock", literal "unlock"]⟩
  | .reserve => ⟨"POST", [literal "v1", literal "reservations"]⟩
  | .release => ⟨"POST", [literal "v1", literal "reservations", literal "release"]⟩
  | .allocateReservation => ⟨"POST", [literal "v1", literal "reservations", literal "allocate"]⟩
  | .createOrder => ⟨"POST", [literal "v1", literal "orders"]⟩
  | .cancelOrder => ⟨"POST", [literal "v1", literal "orders", wildcard, literal "cancel"]⟩
  | .fulfillOrder => ⟨"POST", [literal "v1", literal "orders", wildcard, literal "fulfill"]⟩
  | .getOrder => ⟨"GET", [literal "v1", literal "orders", wildcard]⟩

def Segment.matches : Segment → Bytes → Bool
  | .literal s, seg => seg = ascii s
  | .wildcard, seg => seg ≠ []

def Pattern.admits (p : Pattern) (method : String) : Bool :=
  method = p.method ∨ (p.method = "GET" ∧ method = "HEAD")

def matchSegments : List Segment → List Bytes → Bool
  | [], [] => true
  | p :: ps, seg :: segs => p.matches seg && matchSegments ps segs
  | _, _ => false

structure Mux where
  dispatch : String → Bytes → Option Handler
  matched : ∀ {method escapedPath h}, dispatch method escapedPath = some h →
    ∃ segs, segments escapedPath = some segs ∧ h.pattern.admits method = true ∧
      matchSegments h.pattern.segments segs = true

def handlers : List Handler :=
  [.adjustStock, .reserveStock, .releaseStock, .confirmStockAllocation, .fulfillStock,
    .unlockStockForAudit, .reserve, .release, .allocateReservation, .createOrder, .cancelOrder,
    .fulfillOrder, .getOrder]

def Mux.routes : Mux where
  dispatch method escapedPath := (segments escapedPath).bind fun segs => handlers.find? fun h =>
    h.pattern.admits method && matchSegments h.pattern.segments segs
  matched := by
    intro method escapedPath h found
    obtain ⟨segs, read, first⟩ := Option.bind_eq_some_iff.1 found
    have both := List.find?_some first
    exact ⟨segs, read, Bool.and_eq_true_iff.1 both⟩

inductive Served where
  | refused (refusal : Refusal)
  | handled (h : Handler) (claims : Option Claims)
  | elsewhere
  deriving DecidableEq

def serve (c : Core) (mux : Mux) (r : Request) : Served :=
  match c.middleware r with
  | .refused refusal => .refused refusal
  | .next claims =>
    match mux.dispatch r.method r.url.escapedPath with
    | some h => .handled h claims
    | none => .elsewhere

inductive Area where
  | stock | reservation | order
  deriving DecidableEq

def Area.read : Area → String
  | .stock => opStockRead
  | .reservation => opReservationRead
  | .order => opOrderRead

def Area.mutate : Area → String
  | .stock => opStockWrite
  | .reservation => opReservationMutate
  | .order => opOrderMutate

def Handler.area : Handler → Area
  | .adjustStock | .reserveStock | .releaseStock | .confirmStockAllocation | .fulfillStock
  | .unlockStockForAudit => .stock
  | .reserve | .release | .allocateReservation => .reservation
  | .createOrder | .cancelOrder | .fulfillOrder | .getOrder => .order

def Handler.operation (h : Handler) (method : String) : String :=
  if method = "GET" ∨ method = "HEAD" then h.area.read
  else if h = .unlockStockForAudit then opStockAdmin
  else h.area.mutate

section Routes

variable {method : String} {segs : List Bytes}

def joined (segs : List Bytes) : Bytes := slash :: [slash].intercalate segs

theorem operationFor_orders {rest : Bytes} (tail : rest = [] ∨ ∃ more, rest = slash :: more) :
    operationFor method (slash :: (ascii "v1" ++ slash :: (ascii "orders" ++ rest))) =
      some (if reads method then opOrderRead else opOrderMutate) := by
  obtain ⟨more, split⟩ : ∃ more, (trim (slash :: (ascii "v1" ++ slash :: (ascii "orders" ++
      rest)))).splitOn slash = ascii "v1" :: ascii "orders" :: more :=
    split_trim (by decide) (by decide) (by decide) (by decide) tail
  rw [operationFor, split]
  rfl

theorem operationFor_order {id : Bytes} (rest : List Bytes) :
    operationFor method (joined (ascii "v1" :: ascii "orders" :: id :: rest)) =
      some (if reads method then opOrderRead else opOrderMutate) :=
  operationFor_orders (.inr ⟨_, rfl⟩)

variable {ps : List Segment}

theorem matchSegments_cons {p : Segment} (h : matchSegments (p :: ps) segs = true) :
    ∃ seg rest, segs = seg :: rest ∧ p.matches seg = true ∧ matchSegments ps rest = true := by
  cases segs with
  | nil => cases h
  | cons seg rest => exact ⟨seg, rest, rfl, Bool.and_eq_true_iff.1 h⟩

def fixed : List Segment → Option (List Bytes)
  | [] => some []
  | .literal s :: ps => (fixed ps).map (ascii s :: ·)
  | .wildcard :: _ => none

theorem matchSegments_fixed {names : List Bytes} (only : fixed ps = some names)
    (h : matchSegments ps segs = true) : segs = names := by
  induction ps generalizing segs names with
  | nil =>
    cases only
    cases segs with
    | nil => rfl
    | cons seg rest => cases h
  | cons p ps ih =>
    obtain ⟨seg, rest, rfl, here, later⟩ := matchSegments_cons h
    cases p with
    | wildcard => cases only
    | literal s =>
      obtain ⟨more, read, rfl⟩ := Option.map_eq_some_iff.1 only
      rw [ih read later, of_decide_eq_true here]

theorem matchSegments_order
    (h : matchSegments (.literal "v1" :: .literal "orders" :: .wildcard :: ps) segs = true) :
    ∃ id rest, segs = ascii "v1" :: ascii "orders" :: id :: rest := by
  obtain ⟨version, segs, rfl, here, later⟩ := matchSegments_cons h
  obtain ⟨area, segs, rfl, next, later⟩ := matchSegments_cons later
  obtain ⟨id, rest, rfl, -, -⟩ := matchSegments_cons later
  obtain rfl := of_decide_eq_true here
  obtain rfl := of_decide_eq_true next
  exact ⟨id, rest, rfl⟩

theorem posted (h : (Pattern.mk "POST" ps).admits method = true) :
    method = "POST" := by
  rcases of_decide_eq_true h with post | ⟨get, -⟩
  · exact post
  · exact absurd (show "POST" = "GET" from get) (by decide)

theorem operationFor_matched (h : Handler) (admits : h.pattern.admits method = true)
    (matched : matchSegments h.pattern.segments segs = true) :
    operationFor method (joined segs) = some (h.operation method) := by
  cases h with
  | getOrder =>
    obtain ⟨id, rest, rfl⟩ := matchSegments_order matched
    rw [operationFor_order]
    rcases of_decide_eq_true admits with rfl | ⟨-, rfl⟩ <;> rfl
  | cancelOrder =>
    obtain ⟨id, rest, rfl⟩ := matchSegments_order matched
    obtain rfl := posted admits
    exact operationFor_order rest
  | fulfillOrder =>
    obtain ⟨id, rest, rfl⟩ := matchSegments_order matched
    obtain rfl := posted admits
    exact operationFor_order rest
  | _ =>
    obtain rfl := posted admits
    obtain rfl := matchSegments_fixed rfl matched
    rfl

end Routes

variable {r : Request} {c : Core}

theorem authorize_verifies {claims : Claims} (h : c.authorize r = .ok claims) :
    c.verify (trimPrefix r.authorization "Bearer ") = some claims := by
  unfold Core.authorize at h
  dsimp only at h
  split_ifs at h with missing
  cases read : c.verify (trimPrefix r.authorization "Bearer ") with
  | none =>
    rw [read] at h
    cases h
  | some found =>
    rw [read] at h
    rw [Except.ok.inj h]

theorem operationFor_exempt {path : Bytes} (method : String)
    (exempt : path = ascii "/healthz" ∨ path = ascii "/readyz" ∨ path = loginPath) :
    operationFor method path = none := by
  rcases exempt with rfl | rfl | rfl <;> rfl

/-- A request with an operation goes on only with claims that cover it. -/
theorem middleware_next {ctx : Option Claims} {op : String} (next : c.middleware r = .next ctx)
    (needs : operationFor r.method r.url.path = some op) :
    ∃ claims, ctx = some claims ∧ c.authorize r = .ok claims ∧ claims.allows op = true := by
  unfold Core.middleware at next
  split_ifs at next with probe login
  · rcases probe with here | here
    · rw [operationFor_exempt r.method (.inl here)] at needs
      cases needs
    · rw [operationFor_exempt r.method (.inr (.inl here))] at needs
      cases needs
  · rw [operationFor_exempt r.method (.inr (.inr login))] at needs
    cases needs
  · cases auth : c.authorize r with
    | error e =>
      rw [auth] at next
      cases next
    | ok claims =>
      rw [auth, needs] at next
      dsimp only at next
      split_ifs at next with refused
      cases limit : c.admit claims.tenantID with
      | some refusal =>
        rw [limit] at next
        cases next
      | none =>
        rw [limit] at next
        cases next
        refine ⟨claims, rfl, rfl, ?_⟩
        simpa [denied] using refused

/-- A request that reaches a handler has passed the middleware with the handler's
operation. -/
theorem serve_handled {mux : Mux} {h : Handler} {ctx : Option Claims}
    (runs : serve c mux r = .handled h ctx) :
    c.middleware r = .next ctx ∧
      operationFor r.method r.url.path = some (h.operation r.method) := by
  unfold serve at runs
  cases passage : c.middleware r with
  | refused refusal =>
    rw [passage] at runs
    cases runs
  | next claims =>
    rw [passage] at runs
    dsimp only at runs
    cases route : mux.dispatch r.method r.url.escapedPath with
    | none =>
      rw [route] at runs
      cases runs
    | some found =>
      rw [route] at runs
      cases runs
      obtain ⟨segs, read, admits, matched⟩ := mux.matched route
      have path : r.url.path = joined segs := unescape_segments r.url.decodes read
      rw [path]
      exact ⟨rfl, operationFor_matched h admits matched⟩

/-- No handler of the API runs without claims of a verified token that cover the
handler's operation. -/
theorem handler_permitted (c : Core) (mux : Mux) (r : Request) (h : Handler) (ctx : Option Claims)
    (runs : serve c mux r = .handled h ctx) :
    ∃ claims, ctx = some claims ∧ c.authorize r = .ok claims ∧
      claims.allows (h.operation r.method) = true := by
  obtain ⟨passage, needs⟩ := serve_handled runs
  exact middleware_next passage needs

def sampleClaims (role : String) : Claims := ⟨"tenant-1", 900, "ops", role, [], 0, 0⟩

def sampleCore (role : String) : Core :=
  ⟨fun _ => some (sampleClaims role), fun _ => ⟨true, 0⟩, fun _ => none, fun _ => "0s"⟩

def slashedCancel : Request :=
  ⟨"POST", ⟨ascii "/v1/orders/a%2Fb/cancel", ascii "/v1/orders/a/b/cancel", by decide +kernel⟩,
    "Bearer token", "10.0.0.1:4000"⟩

theorem handler_permitted_slashed :
    serve (sampleCore roleReadWrite) .routes slashedCancel =
      .handled .cancelOrder (some (sampleClaims roleReadWrite)) ∧
    ∃ claims, some (sampleClaims roleReadWrite) = some claims ∧
      (sampleCore roleReadWrite).authorize slashedCancel = .ok claims ∧
      claims.allows (Handler.cancelOrder.operation slashedCancel.method) = true :=
  ⟨by decide +kernel, handler_permitted (sampleCore roleReadWrite) .routes slashedCancel
    .cancelOrder (some (sampleClaims roleReadWrite)) (by decide +kernel)⟩

example : serve (sampleCore roleReadOnly) .routes slashedCancel = .refused forbidden := by
  decide +kernel

/-- Scopes only narrow the grant of a token exactly if they lie within its role.
Then what such a token does behind the middleware its role allows as well. -/
theorem scopes_narrow_iff (claims : Claims) :
    ((∀ op, claims.allows op = true → claims.unscoped.allows op = true) ↔ claims.Narrowed) ∧
    (claims.Narrowed → ∀ (c : Core) (r : Request) (op : String),
      c.middleware r = .next (some claims) → operationFor r.method r.url.path = some op →
      claims.unscoped.allows op = true) := by
  refine ⟨narrows_iff claims, fun narrowed c r op next needs => ?_⟩
  obtain ⟨found, same, -, allowed⟩ := middleware_next next needs
  cases same
  exact (narrows_iff claims).2 narrowed op allowed

/-- A read-only token with a scope beyond its role. -/
def widenedClaims : Claims := { sampleClaims roleReadOnly with scopes := [opOrderMutate] }

theorem scope_widens :
    widenedClaims.allows opOrderMutate = true ∧
    widenedClaims.unscoped.allows opOrderMutate = false ∧
    serve { sampleCore roleReadOnly with verify := fun _ => some widenedClaims } .routes
      slashedCancel = .handled .cancelOrder (some widenedClaims) := by
  decide +kernel

end Taper.Gateway
