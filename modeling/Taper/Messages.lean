import Mathlib.Data.Int.Notation
import Mathlib.Tactic.Common

set_option autoImplicit false

/-!
# Values that cross the service boundaries

Message fields keep the wire types: `int32` quantities are `Int32`, prices and
totals are `Int64`.
-/
namespace Taper.Messages

def hexDigit (c : Char) : Bool := c.isDigit || ('a' ≤ c && c ≤ 'f')

/-- The 8-4-4-4-12 lower-case form in which a UUID is printed. -/
def canonicalUUID (s : String) : Bool :=
  s.length == 36 && s.toList.zipIdx.all fun (c, i) =>
    if i = 8 ∨ i = 13 ∨ i = 18 ∨ i = 23 then c == '-' else hexDigit c

/-- A UUID, represented by its printed form. -/
structure UUID where
  text : String
  canonical : canonicalUUID text = true
  deriving DecidableEq

structure StockLine where
  skuId : String
  warehouseId : String
  quantity : Int32
  deriving DecidableEq

structure AdjustStockRequest where
  tenantId : String
  skuId : String
  warehouseId : String
  quantityDelta : Int32
  reason : String
  source : String
  idempotencyKey : String
  deriving DecidableEq

structure AdjustStockResponse where
  success : Bool
  availableQty : Int32
  reservedQty : Int32
  allocatedQty : Int32
  isClampedZero : Bool
  eventId : Option ℕ
  deriving DecidableEq

structure ReserveStockRequest where
  tenantId : String
  orderId : String
  idempotencyKey : String
  lines : List StockLine
  deriving DecidableEq

structure ReserveStockResponse where
  success : Bool
  failedSkuIds : List String
  deriving DecidableEq

structure ReleaseStockRequest where
  tenantId : String
  orderId : String
  reason : String
  idempotencyKey : String
  lines : List StockLine
  deriving DecidableEq

structure ReleaseStockResponse where
  success : Bool
  releasedSkuIds : List String
  deriving DecidableEq

structure ConfirmStockAllocationRequest where
  tenantId : String
  orderId : String
  idempotencyKey : String
  lines : List StockLine
  deriving DecidableEq

structure StockAllocationLine where
  skuId : String
  warehouseId : String
  allocatedQty : Int32
  deriving DecidableEq

structure ConfirmStockAllocationResponse where
  success : Bool
  lines : List StockAllocationLine
  deriving DecidableEq

structure FulfillStockRequest where
  tenantId : String
  orderId : String
  idempotencyKey : String
  lines : List StockLine
  deriving DecidableEq

structure FulfillStockLine where
  skuId : String
  warehouseId : String
  remainingAllocatedQty : Int32
  deriving DecidableEq

structure FulfillStockResponse where
  success : Bool
  lines : List FulfillStockLine
  deriving DecidableEq

structure UnlockStockForAuditRequest where
  tenantId : String
  skuId : String
  warehouseId : String
  reason : String
  actorId : String
  deriving DecidableEq

structure UnlockStockForAuditResponse where
  success : Bool
  isUnlocked : Bool
  deriving DecidableEq

structure ReservationItem where
  skuId : String
  warehouseId : String
  quantity : Int32
  deriving DecidableEq

structure ReserveRequest where
  tenantId : String
  orderId : String
  idempotencyKey : String
  items : List ReservationItem
  ttlSeconds : Int32
  deriving DecidableEq

structure ReserveResponse where
  success : Bool
  reservationId : Option ℕ
  expiresAtUnix : ℤ
  failedSkuIds : List String
  deriving DecidableEq

structure ReleaseRequest where
  tenantId : String
  reservationId : String
  orderId : String
  reason : String
  idempotencyKey : String
  deriving DecidableEq

structure ReleaseResponse where
  success : Bool
  releasedSkuIds : List String
  deriving DecidableEq

structure AllocateReservationRequest where
  tenantId : String
  orderId : String
  idempotencyKey : String
  deriving DecidableEq

structure AllocateReservationResponse where
  success : Bool
  allocatedCount : Int32
  deriving DecidableEq

structure OrderLine where
  skuId : String
  warehouseId : String
  quantity : Int32
  unitPrice : Int64
  deriving DecidableEq

structure CreateOrderRequest where
  tenantId : String
  orderId : String
  lines : List OrderLine
  idempotencyKey : String
  ttlSeconds : Int32
  forcePaymentFailure : Bool
  deriving DecidableEq

inductive SagaState where
  | pendingPayment
  | reserved
  | allocated
  | confirmed
  | compensated
  | failed
  deriving DecidableEq

def SagaState.text : SagaState → String
  | pendingPayment => "PENDING_PAYMENT"
  | reserved => "RESERVED"
  | allocated => "ALLOCATED"
  | confirmed => "CONFIRMED"
  | compensated => "COMPENSATED"
  | failed => "FAILED"

structure CreateOrderResponse where
  orderId : String
  status : SagaState
  totalAmount : Int64
  transactionId : String
  deriving DecidableEq

structure CancelOrderRequest where
  tenantId : String
  orderId : String
  reason : String
  idempotencyKey : String
  deriving DecidableEq

structure CancelOrderResponse where
  success : Bool
  status : SagaState
  deriving DecidableEq

structure FulfillOrderRequest where
  tenantId : String
  orderId : String
  idempotencyKey : String
  deriving DecidableEq

/-- The requests whose fingerprint is stored beside their idempotency key. -/
inductive Message where
  | adjustStock (req : AdjustStockRequest)
  | reserveStock (req : ReserveStockRequest)
  | releaseStock (req : ReleaseStockRequest)
  | confirmStockAllocation (req : ConfirmStockAllocationRequest)
  | fulfillStock (req : FulfillStockRequest)
  | reserve (req : ReserveRequest)
  | release (req : ReleaseRequest)
  | allocateReservation (req : AllocateReservationRequest)
  | createOrder (req : CreateOrderRequest)
  | fulfillOrder (req : FulfillOrderRequest)
  deriving DecidableEq

inductive Code where
  | invalidArgument
  | notFound
  | failedPrecondition
  | internal
  | unavailable
  deriving DecidableEq

inductive SqlError where
  | noRows
  | checkViolation (constraint : String)
  | uniqueViolation (constraint : String)
  | outOfRange
  | tooLong
  | badText
  | badJson
  | badUuid
  | connection
  deriving DecidableEq

/-- Errors as the handlers build them; `errorf` and `statusf` render the cause
after a context and a colon. -/
inductive Failure where
  | sql (e : SqlError)
  | text (message : String)
  | invalidUUID (s : String)
  /-- The rolled back reservation's error, with the answer already prepared. -/
  | insufficientStock (failedSkuIds : List String)
  | alreadyProcessed
  | idempotentReplay
  | circuitOpen
  | paymentDeclined (detail : String)
  /-- The caller's view of a call that was lost on the way or whose answer was. -/
  | transport
  | errorf (context : String) (cause : Failure)
  | status (code : Code) (message : String)
  | statusf (code : Code) (context : String) (cause : Failure)
  deriving DecidableEq

/-- `text` columns hold any characters but NUL. -/
def storable (s : String) : Bool := s.toList.all fun c => c != '\x00'

/-- `VARCHAR(n)` columns take a longer text only if the excess is spaces. -/
def varchar (n : ℕ) (s : String) : Bool :=
  (s.length ≤ n || (s.toList.drop n).all (· == ' ')) && storable s

/-- What the column keeps of a text that it takes: the excess is cut off. -/
def column (n : ℕ) (s : String) : String :=
  if s.length ≤ n then s else .ofList (s.toList.take n)

def fits (n : ℕ) (s : String) : Bool := s.length ≤ n && storable s

variable {n : ℕ} {s : String}

theorem column_of_le (short : s.length ≤ n) : column n s = s := if_pos short

theorem column_length_le (n : ℕ) (s : String) : (column n s).length ≤ n := by
  unfold column
  split_ifs with short
  · exact short
  · rw [String.length_ofList]
    exact List.length_take_le _ _

theorem column_eq_iff : column n s = s ↔ s.length ≤ n :=
  ⟨fun same => same ▸ column_length_le n s, column_of_le⟩

@[simp] theorem column_column (n : ℕ) (s : String) : column n (column n s) = column n s :=
  column_of_le (column_length_le n s)

theorem column_eq_take (n : ℕ) (s : String) : column n s = .ofList (s.toList.take n) := by
  unfold column
  split
  · rename_i le
    rw [List.take_of_length_le (by rwa [String.length_toList]), String.ofList_toList]
  · rfl

theorem column_append (n : ℕ) (s tail : String) :
    column n (column n s ++ tail) = column n (s ++ tail) := by
  rw [column_eq_take, column_eq_take n (s ++ tail), column_eq_take n s, String.toList_append,
    String.toList_append, String.toList_ofList, List.take_append, List.take_append, List.take_take,
    List.length_take]
  congr 3
  · omega
  · omega

theorem fits_iff :
    fits n s = true ↔ varchar n s = true ∧ column n s = s := by
  simp only [fits, varchar, column_eq_iff, Bool.and_eq_true, Bool.or_eq_true, decide_eq_true_eq]
  tauto

theorem fits_varchar (h : fits n s = true) : varchar n s = true :=
  (fits_iff.1 h).1

theorem fits_column (h : fits n s = true) : column n s = s := (fits_iff.1 h).2

theorem column_eq_short {short : String} (lt : short.length < n) :
    column n s = short ↔ s = short := by
  constructor
  · intro same
    by_cases le : s.length ≤ n
    · rwa [column_of_le le] at same
    · have length := congrArg String.length same
      rw [column, if_neg le, String.length_ofList, List.length_take, String.length_toList] at length
      omega
  · rintro rfl
    exact column_of_le (Nat.le_of_lt lt)

@[simp] theorem column_eq_empty (pos : 0 < n) : column n s = "" ↔ s = "" :=
  column_eq_short pos

theorem column_ne_empty (h : s ≠ "") : column 255 s ≠ "" :=
  fun empty => h ((column_eq_empty (by decide)).1 empty)

theorem storable_column (text : storable s = true) :
    storable (column n s) = true := by
  unfold column
  split
  · exact text
  · rw [storable, String.toList_ofList, List.all_eq_true]
    exact fun c member => List.all_eq_true.1 text c (List.mem_of_mem_take member)

/-- No excess is cut from a text that does not end in a space. -/
theorem varchar_column (h : varchar n s = true) :
    varchar n (column n s) = true := by
  refine fits_varchar ?_
  rw [varchar, Bool.and_eq_true] at h
  rw [fits, storable_column h.2, Bool.and_true]
  exact decide_eq_true (column_length_le n s)

theorem varchar_append {tail : String} {c : Char} (last : tail.toList.getLast? = some c)
    (solid : c ≠ ' ') : varchar n (s ++ tail) = fits n (s ++ tail) := by
  unfold varchar fits
  by_cases le : (s ++ tail).length ≤ n
  · rw [decide_eq_true le, Bool.true_or]
  · have end_ : ((s ++ tail).toList.drop n).getLast? = some c := by
      rw [List.getLast?_drop, String.length_toList, if_neg le, String.toList_append,
        List.getLast?_append, last]
      rfl
    have cut : ((s ++ tail).toList.drop n).all (· == ' ') = false := by
      rw [List.all_eq_false]
      exact ⟨c, List.mem_of_getLast? end_, by simpa using solid⟩
    rw [decide_eq_false le, cut]
    rfl

def compensationKey (tenantID orderID : String) : String := "comp:" ++ tenantID ++ ":" ++ orderID

theorem compensationKey_ne (tenantID orderID : String) : compensationKey tenantID orderID ≠ "" := by
  intro empty
  have length := congrArg String.length empty
  simp [compensationKey, String.length_append] at length

end Taper.Messages
