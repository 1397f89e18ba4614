import Mathlib.Data.List.Basic

set_option autoImplicit false

/-!
# Token claims

A role stands for a set of operations; scopes, when there are any, are the
grant instead of that set.
-/
namespace Taper.Auth

def roleReadOnly : String := "read-only"
def roleReadWrite : String := "read-write"
def roleAdmin : String := "admin"

def opStockRead : String := "stock:read"
def opStockWrite : String := "stock:write"
def opStockAdmin : String := "stock:admin"
def opReservationRead : String := "reservation:read"
def opReservationMutate : String := "reservation:mutate"
def opOrderRead : String := "order:read"
def opOrderMutate : String := "order:mutate"

structure Claims where
  tenantID : String
  expiry : Int64
  subject : String
  role : String
  scopes : List String
  issuedAt : Int64
  notBefore : Int64
  deriving DecidableEq

def roleOperations (role : String) : List String :=
  if role = roleReadOnly then [opStockRead, opReservationRead, opOrderRead]
  else if role = roleReadWrite then
    [opStockRead, opStockWrite, opReservationRead, opReservationMutate, opOrderRead, opOrderMutate]
  else []

def Claims.allows (c : Claims) (op : String) : Bool :=
  if c.role = roleAdmin then true
  else if c.role = roleReadOnly ∨ c.role = roleReadWrite ∨ c.role = "" then
    -- a token without a role is from before there were roles
    let role := if c.role = "" then roleReadWrite else c.role
    if 0 < c.scopes.length then c.scopes.contains op else (roleOperations role).contains op
  else false

def Claims.unscoped (c : Claims) : Claims := { c with scopes := [] }

def Claims.limited (c : Claims) : Bool :=
  c.role = roleReadOnly ∨ c.role = roleReadWrite ∨ c.role = ""

def Claims.grant (c : Claims) : List String :=
  roleOperations (if c.role = "" then roleReadWrite else c.role)

def Claims.Narrowed (c : Claims) : Prop := c.limited = true → ∀ s ∈ c.scopes, s ∈ c.grant

theorem limited_ne_admin {c : Claims} (limited : c.limited = true) : c.role ≠ roleAdmin := by
  intro admin
  rw [Claims.limited, admin] at limited
  exact absurd limited (by decide)

theorem unscoped_allows {c : Claims} {op : String} (limited : c.limited = true) :
    c.unscoped.allows op = true ↔ op ∈ c.grant := by
  have role := of_decide_eq_true limited
  have kept : c.unscoped.role = c.role := rfl
  unfold Claims.allows
  rw [kept, if_neg (limited_ne_admin limited), if_pos role]
  exact List.contains_iff_mem

theorem scoped_allows {c : Claims} {op : String} (limited : c.limited = true)
    (some_ : c.scopes ≠ []) : c.allows op = true ↔ op ∈ c.scopes := by
  have role := of_decide_eq_true limited
  unfold Claims.allows
  rw [if_neg (limited_ne_admin limited), if_pos role]
  simp only [List.length_pos_iff.2 some_, if_true]
  exact List.contains_iff_mem

/-- Admin and unknown roles do not look at the scopes. -/
theorem allows_unscoped {c : Claims} (op : String) (other : c.limited = false ∨ c.scopes = []) :
    c.unscoped.allows op = c.allows op := by
  rcases other with other | none
  · have role := of_decide_eq_false other
    simp [Claims.allows, Claims.unscoped, role]
  · have same : c.unscoped = c := by
      rw [Claims.unscoped, ← none]
    rw [same]

theorem narrows_iff (c : Claims) :
    (∀ op, c.allows op = true → c.unscoped.allows op = true) ↔ c.Narrowed := by
  constructor
  · intro narrows limited s member
    exact (unscoped_allows limited).1 (narrows s ((scoped_allows limited
      (List.ne_nil_of_mem member)).2 member))
  · intro narrowed op allowed
    cases limited : c.limited with
    | false => rwa [allows_unscoped op (.inl limited)]
    | true =>
      by_cases none : c.scopes = []
      · rwa [allows_unscoped op (.inr none)]
      · exact (unscoped_allows limited).2 (narrowed limited op ((scoped_allows limited none).1
          allowed))

end Taper.Auth
