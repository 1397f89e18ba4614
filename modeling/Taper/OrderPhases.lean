import Taper.HandlerRuns
import Taper.OrderRows
import Taper.StockForward

set_option autoImplicit false

/-!
# One order in the three databases

What each request of the saga does to the lines, the reservation rows and the
saga of an order, the first time and when it is repeated.
-/
namespace Taper.OrderPhases
open Messages Transaction Platform Ledger StockTables StockHandlers StockConservation StockRuns
open StockForward ReservationTables ReservationSteps ReservationRuns OrderTables
open ServiceStack Services StackSteps HandlerRuns OrderRows
open StockSteps (Seen)

/-- An order with the buckets from before it, the keys under which its hold may
be given back, and whether other orders have rows too. -/
structure Order where
  tenant : UUID
  id : String
  key : String
  lines : List OrderLine
  base : StockLocation → Buckets
  comps : List String
  shared : Bool

def Order.stock (x : Order) : List StockLine := stockLines x.lines

def Order.units (x : Order) (loc : StockLocation) : ℤ := quantityAt x.tenant loc x.stock

inductive Hold where
  | free
  | held
  | allocated
  | returned
  deriving DecidableEq

def Hold.shift : Hold → Buckets
  | free => 0
  | held => (-1, 1, 0)
  | allocated => (-1, 0, 1)
  | returned => 0

/-- The stock service's view: the buckets, the keys it has recorded, and what
it has accepted once. -/
structure StockAt (x : Order) (hold : Hold) (db : StockDb) : Prop where
  checked : Checked db
  levels : ∀ loc, held db loc = x.base loc + x.units loc • hold.shift
  reserved : Seen db x.tenant (reserveKey x.key) ↔ hold ≠ .free
  confirmed : hold ≠ .returned → (Seen db x.tenant (confirmKey x.key) ↔ hold = .allocated)
  compensated : hold ≠ .allocated → ((∃ k ∈ x.comps, Seen db x.tenant k) ↔ hold = .returned)
  keyFits : hold ≠ .free → StockSteps.keyFits (reserveKey x.key) = true
  located : hold ≠ .free → ∀ l ∈ x.stock, db.stockLevels (lineLocation x.tenant l) ≠ none
  fits : hold ≠ .free → ∀ l ∈ x.stock,
    StockSteps.Movement.fits (reserveMove x.id) x.tenant x.id l = true

structure RowsAt (x : Order) (status : Option ReservationStatus) (s : Stack) : Prop where
  numbered : Numbered s.reservation
  lines : ((rowsOf s x.tenant x.id).map rowLine).Perm (if status = none then [] else x.stock)
  uniform : ∀ row ∈ rowsOf s x.tenant x.id, some row.status = status
  foreign : ∀ row ∈ s.reservation.reservations, ¬(row.tenantID = x.tenant ∧ row.orderID = x.id) →
    x.shared = true
  reserved : Recorded reservationKeys s.reservation x.tenant (reserveKey x.key) ↔ status ≠ none
  allocated : status ≠ some .released →
    (Recorded reservationKeys s.reservation x.tenant (allocateKey x.key) ↔
      status = some .allocated)
  released : status ≠ some .allocated →
    ((∃ k ∈ x.comps, Recorded reservationKeys s.reservation x.tenant k) ↔
      status = some .released)

structure Order.Regular (x : Order) : Prop where
  own : column 255 x.id = x.id
  nonempty : x.lines ≠ []
  whole : x.lines.map storedLine = x.lines
  positive : ∀ l ∈ x.stock, 0 < l.quantity.toInt
  base : ∀ loc, Representable (x.base loc)
  apart : ∀ k ∈ x.comps, column 255 k ≠ reserveKey x.key

variable {k reason : String} {rows : List Reservation}

section Stock

variable {rt : Runtime} {me : ℕ} {c : Choice} {s s' : Stack} {x : Order} {hold : Hold}
  {tenantID : String} {ls : List StockLine}

theorem Order.Regular.stock_ne (regular : x.Regular) : x.stock ≠ [] := by
  unfold Order.stock stockLines
  exact fun empty => regular.nonempty (List.map_eq_nil_iff.1 empty)

theorem Order.Regular.units_nonneg (regular : x.Regular) (loc : StockLocation) : 0 ≤ x.units loc :=
  quantityAt_nonneg fun l hl => le_of_lt (regular.positive l hl)

theorem Order.Regular.stock_cut (regular : x.Regular) {ls : List StockLine}
    (lines : ls.Perm x.stock) : (ls.map cutLine).Perm x.stock := by
  have same : x.stock.map cutLine = x.stock := by
    rw [Order.stock, ← stockLines_stored, regular.whole]
  exact same ▸ lines.map cutLine

theorem Order.Regular.apart_stored (regular : x.Regular) (member : k ∈ x.comps)
    (fits : keyFits (reserveKey x.key) = true) : column 255 k ≠ column 255 (reserveKey x.key) := by
  rw [reserveKey_stored fits]
  exact regular.apart k member

theorem stockAt_reserve {answer : Except Failure ReserveStockResponse} (regular : x.Regular)
    (h : StockAt x .free s.stock) (parse : rt.scan tenantID = some x.tenant)
    (lines : ls.Perm x.stock)
    (run : exec rt me (.reserveStock ⟨tenantID, x.id, reserveKey x.key, ls⟩) c s =
      some (answer, s')) :
    (answer = .ok ⟨true, []⟩ ∧ ∃ db, StockAt x .held db ∧ s' = Stack.withStock s db) ∨
      ((∀ resp, answer = .ok resp → resp.success = false) ∧ s' = s) := by
  have unseen : ¬Seen s.stock x.tenant (reserveKey x.key) := fun seen => h.reserved.1 seen rfl
  rcases exec_reserveStock run with ⟨u, db, parse', rfl, moved, rfl⟩ | failed
  · cases parse'.symm.trans parse
    obtain ⟨key, found⟩ := exec_reserve_first parse rfl run
    have each := found unseen
    have effect := moved_held (reserveMove_along _) moved h.checked fun l hl => (each l hl).1
    simp only [if_neg unseen] at effect
    refine .inl ⟨rfl, db, ⟨moved_checked moved h.checked, fun loc => ?_, ?_, ?_, ?_, fun _ => key,
      fun _ l hl => ?_, fun _ l hl => ?_⟩, rfl⟩
    · rw [effect, h.levels, quantityAt_perm _ _ lines]
      simp [Hold.shift, Order.units]
    · exact iff_of_true (moved_self moved (reserveKey_ne x.key)) (by decide)
    · refine fun _ => iff_of_false
        (moved_unseen moved (.inr ?_) ?_) (by decide)
      · change column 255 (confirmKey x.key) ≠ column 255 (reserveKey x.key)
        rw [confirmKey_stored (confirmKey_fits key), reserveKey_stored key]
        exact (reserveKey_ne_confirmKey _ _).symm
      · exact fun seen => absurd ((h.confirmed (by decide)).1 seen) (by decide)
    · refine fun _ => iff_of_false (fun ⟨k, member, seen⟩ => ?_) (by decide)
      refine moved_unseen moved (.inr (regular.apart_stored member key)) (fun old => ?_) seen
      exact absurd ((h.compensated (by decide)).1 ⟨k, member, old⟩) (by decide)
    · exact moved_located moved (each l (lines.mem_iff.2 hl)).1
    · exact (each l (lines.mem_iff.2 hl)).2
  · exact .inr failed

theorem stockAt_refused {answer : Except Failure ReserveStockResponse} {o key : String}
    (h : StockAt x .free s.stock) (parse : rt.scan tenantID = some x.tenant)
    (own : x.key = column 255 key) (cut : ¬(column 255 key = key ∧ ls.map cutLine = ls))
    (run : exec rt me (.reserveStock ⟨tenantID, o, reserveKey key, ls⟩) c s = some (answer, s')) :
    (∀ resp, answer = .ok resp → resp.success = false) ∧ s' = s := by
  rcases exec_reserveStock run with ⟨u, db, parse', rfl, moved, rfl⟩ | failed
  · obtain ⟨fits, found⟩ := exec_reserve_first parse rfl run
    have whole : column 255 key = key := column_of_append (reserveKey_stored fits)
    have unseen : ¬Seen s.stock x.tenant (reserveKey key) := by
      rw [← whole, ← own]
      exact fun seen => h.reserved.1 seen rfl
    exact absurd ⟨whole, cut_located h.checked fun l hl => (found unseen l hl).1⟩ cut
  · exact failed

theorem stockAt_reserve_again {answer : Except Failure ReserveStockResponse}
    (regular : x.Regular) (h : StockAt x hold s.stock) (later : hold ≠ .free)
    (healthy : c.fault = false) (castable : Castable rt tenantID)
    (parse : rt.scan tenantID = some x.tenant) (lines : ls.Perm x.stock)
    (run : exec rt me (.reserveStock ⟨tenantID, x.id, reserveKey x.key, ls⟩) c s =
      some (answer, s')) : answer = .ok ⟨true, []⟩ ∧ s' = s := by
  refine exec_reserve_again healthy parse castable (h.keyFits later) (fun empty => ?_)
    (h.reserved.2 later) run
  rw [show ls = [] from empty] at lines
  exact regular.stock_ne lines.nil_eq.symm

theorem StockAt.canMove {db : StockDb} {m : Movement} {d : Buckets} (regular : x.Regular)
    (h : StockAt x .held db) (lines : ls.Perm x.stock)
    (texts : ∀ l ∈ x.stock, StockSteps.Movement.fits m x.tenant x.id l = true)
    (room : ∀ loc, Representable (x.base loc + x.units loc • (Hold.held.shift + d))) :
    CanMove m d x.tenant x.id ls db where
  nonneg l hl := le_of_lt (regular.positive l (lines.mem_iff.1 hl))
  located l hl := h.located (by decide) l (lines.mem_iff.1 hl)
  fits l hl := texts l (lines.mem_iff.1 hl)
  room loc level row := by
    have here : buckets level = x.base loc + x.units loc • Hold.held.shift := by
      rw [← h.levels loc]
      simp [held, row]
    refine ⟨representable_of_check (h.checked loc level row).2, ?_⟩
    rw [quantityAt_perm _ _ lines, here, add_assoc, ← Order.units, ← smul_add]
    exact room loc

/-- A held order is given back under a key not used before. -/
theorem stockAt_release {answer : Except Failure ReleaseStockResponse} (regular : x.Regular)
    (h : StockAt x .held s.stock) (healthy : c.fault = false) (castable : Castable rt tenantID)
    (parse : rt.scan tenantID = some x.tenant) (lines : ls.Perm x.stock) (member : k ∈ x.comps)
    (some_ : k ≠ "") (fits : StockSteps.keyFits k = true) (text : varchar 255 reason = true)
    (run : exec rt me (.releaseStock ⟨tenantID, x.id, reason, k, ls⟩ rows) c s =
      some (answer, s')) :
    ∃ resp db, answer = .ok resp ∧ StockAt x .returned db ∧ s' = Stack.withStock s db := by
  have unseen : ¬Seen s.stock x.tenant k := fun seen =>
    absurd ((h.compensated (by decide)).1 ⟨k, member, seen⟩) (by decide)
  have can := h.canMove (d := (1, -1, 0)) regular lines
    (fun l hl => releaseMove_fits (h.fits (by decide) l hl) text) fun loc => by
      have zero : Hold.held.shift + ((1, -1, 0) : Buckets) = 0 := by decide
      rw [zero, smul_zero, add_zero]
      exact regular.base loc
  obtain ⟨resp, db, rfl, moved, rfl⟩ :=
    exec_release_forward healthy parse castable h.checked fits (fun _ => can) run
  have effect := moved_held (releaseMove_along _ _) moved h.checked can.located
  simp only [if_neg unseen] at effect
  refine ⟨resp, db, rfl, ⟨moved_checked moved h.checked, fun loc => ?_, ?_, (absurd rfl ·), ?_,
    fun _ => h.keyFits (by decide), fun _ l hl => ?_, fun _ => h.fits (by decide)⟩, rfl⟩
  · rw [effect, h.levels, quantityAt_perm _ _ lines, add_assoc, ← Order.units, ← smul_add]
    rfl
  · exact iff_of_true (moved_seen moved (h.reserved.2 (by decide))) (by decide)
  · exact fun _ => iff_of_true ⟨k, member, moved_self moved some_⟩ rfl
  · exact moved_located moved (h.located (by decide) l hl)

theorem stockAt_release_again {answer : Except Failure ReleaseStockResponse}
    (healthy : c.fault = false) (castable : Castable rt tenantID)
    (parse : rt.scan tenantID = some x.tenant) (checked : Checked s.stock)
    (seen : Seen s.stock x.tenant k) (fits : StockSteps.keyFits k = true)
    (run : exec rt me (.releaseStock ⟨tenantID, x.id, reason, k, ls⟩ rows) c s =
      some (answer, s')) : ∃ resp, answer = .ok resp ∧ s' = s := by
  obtain ⟨resp, db, rfl, moved, rfl⟩ :=
    exec_release_forward healthy parse castable checked fits (fun new => absurd seen new) run
  cases moved with
  | duplicate _ same =>
    subst same
    exact ⟨resp, rfl, rfl⟩
  | fresh unseen _ _ => exact absurd seen unseen

theorem stockAt_confirm {answer : Except Failure ConfirmStockAllocationResponse}
    (regular : x.Regular) (h : StockAt x hold s.stock) (mine : hold = .held ∨ hold = .allocated)
    (healthy : c.fault = false) (castable : Castable rt tenantID)
    (parse : rt.scan tenantID = some x.tenant) (lines : ls.Perm x.stock)
    (fits : StockSteps.keyFits (confirmKey x.key) = true)
    (room : ∀ loc, (x.base loc).2.2 + x.units loc ≤ 2147483647)
    (run : exec rt me (.confirmStockAllocation ⟨tenantID, x.id, confirmKey x.key, ls⟩) c s =
      some (answer, s')) :
    ∃ resp db, answer = .ok resp ∧ StockAt x .allocated db ∧ s' = Stack.withStock s db := by
  rcases mine with rfl | rfl
  · have unseen : ¬Seen s.stock x.tenant (confirmKey x.key) := fun seen =>
      absurd ((h.confirmed (by decide)).1 seen) (by decide)
    have can := h.canMove (d := (0, -1, 1)) regular lines
      (fun l hl => confirmMove_fits (h.fits (by decide) l hl)) fun loc => by
        have now := representable_held h.checked loc
        have base := regular.base loc
        have least := regular.units_nonneg loc
        have most := room loc
        rw [h.levels] at now
        simp only [Representable, Hold.shift, Prod.fst_add, Prod.snd_add, Prod.smul_fst,
          Prod.smul_snd, smul_eq_mul] at now base ⊢
        omega
    obtain ⟨resp, db, rfl, moved, rfl⟩ :=
      exec_confirm_forward healthy parse castable h.checked fits (fun _ => can) run
    have effect := moved_held confirmMove_along moved h.checked can.located
    simp only [if_neg unseen] at effect
    refine ⟨resp, db, rfl, ⟨moved_checked moved h.checked, fun loc => ?_, ?_, fun _ => ?_,
      (absurd rfl ·), fun _ => h.keyFits (by decide), fun _ l hl => ?_,
      fun _ => h.fits (by decide)⟩, rfl⟩
    · rw [effect, h.levels, quantityAt_perm _ _ lines, add_assoc, ← Order.units, ← smul_add]
      rfl
    · exact iff_of_true (moved_seen moved (h.reserved.2 (by decide))) (by decide)
    · exact iff_of_true (moved_self moved (confirmKey_ne x.key)) rfl
    · exact moved_located moved (h.located (by decide) l hl)
  · obtain ⟨resp, db, rfl, moved, rfl⟩ := exec_confirm_forward healthy parse castable h.checked fits
      (fun new => absurd ((h.confirmed (by decide)).2 rfl) new) run
    cases moved with
    | duplicate _ same =>
      subst same
      exact ⟨resp, _, rfl, h, rfl⟩
    | fresh unseen _ _ => exact absurd ((h.confirmed (by decide)).2 rfl) unseen

end Stock

section Rows

variable {rt : Runtime} {me : ℕ} {c : Choice} {s s' : Stack} {x : Order}
  {status : Option ReservationStatus} {tenantID : String}

theorem rowsOf_mark {t : UUID} {o : String} {ids : List ℕ} {next : ReservationStatus}
    (rows : s'.reservation.reservations = ReservationDb.mark s.reservation ids next)
    (all : ∀ row ∈ rowsOf s t o, row.id ∈ ids) :
    rowsOf s' t o = (rowsOf s t o).map (withStatus next) := by
  have same : ((fun row : Reservation => decide (row.tenantID = t ∧ row.orderID = o)) ∘
      fun row => if row.id ∈ ids then withStatus next row else row) =
        fun row => decide (row.tenantID = t ∧ row.orderID = o) := by
    funext row
    simp only [Function.comp_apply]
    split
    · rfl
    · rfl
  rw [rowsOf, rows, ReservationDb.mark, List.filter_map, same]
  exact List.map_congr_left fun row member => if_pos (all row member)

theorem RowsAt.rows_nil (h : RowsAt x none s) : rowsOf s x.tenant x.id = [] := by
  have empty := h.lines
  rw [if_pos rfl, List.perm_nil] at empty
  exact List.map_eq_nil_iff.1 empty

theorem RowsAt.stock_perm (h : RowsAt x status s) (some_ : status ≠ none) :
    ((rowsOf s x.tenant x.id).map rowLine).Perm x.stock := by
  have lines := h.lines
  rwa [if_neg some_] at lines

theorem RowsAt.activeRows_perm (rt : Runtime) (h : RowsAt x (some .active) s)
    (unlocked : s.openTxs = []) :
    (activeRows rt x.tenant x.id s.locked s.reservation).Perm (rowsOf s x.tenant x.id) := by
  have free : s.locked = [] := by
    unfold Stack.locked
    rw [unlocked]
    rfl
  unfold activeRows
  refine (rt.rows_perm _).trans ?_
  rw [rowsOf]
  refine List.Perm.of_eq (List.filter_congr fun row member => ?_)
  simp only [free, List.not_mem_nil, not_false_eq_true, and_true, decide_eq_decide]
  constructor
  · exact fun parts => ⟨parts.1, parts.2.1⟩
  · intro parts
    have active := h.uniform row (mem_rowsOf.2 ⟨member, parts⟩)
    exact ⟨parts.1, parts.2, Option.some.inj active⟩

variable {items : List ReservationItem} {ttl : Int32} {expiresAt : ℤ}
  {answer : Except Failure (Option ℕ)}

theorem rowsAt_insert (regular : x.Regular) (h : RowsAt x none s) (healthy : c.fault = false)
    (castable : Castable rt tenantID) (key : keyFits (reserveKey x.key) = true)
    (lines : (items.map itemLine).Perm x.stock)
    (fits : ∀ it ∈ items, itemFits rt x.tenant x.id it = true)
    (run : exec rt me (.insertReservations x.tenant ⟨tenantID, x.id, reserveKey x.key, items, ttl⟩
      expiresAt) c s = some (answer, s')) :
    (∃ first, answer = .ok first) ∧ RowsAt x (some .active) s' ∧
      ∃ db, s' = { s with reservation := db } := by
  have new : ¬Recorded reservationKeys s.reservation x.tenant (reserveKey x.key) := fun old =>
    absurd (h.reserved.1 old) (by simp)
  have recorded := exec_recorded run x.tenant
  have numbered := exec_numbered run h.numbered
  have answered : ∃ first db, answer = .ok first ∧ s' = { s with reservation := db } ∧
      db = inserted x.tenant x.id expiresAt items (keyed x.tenant (reserveKey x.key)
        (rt.payloadHash (.reserve ⟨tenantID, x.id, reserveKey x.key, items, ttl⟩))
          s.reservation) := by
    have ok := run
    simp only [exec] at ok
    split at ok
    · cases ok
    · have tx : (insertReservations rt x.tenant ⟨tenantID, x.id, reserveKey x.key, items, ttl⟩
          expiresAt).run s.reservation = .ok (_, _) :=
        insertReservations_ok_iff.2 ⟨key, new, fits, rfl, rfl⟩
      rw [reservationTx_eq healthy castable, Tx.commit_of_ok tx] at ok
      cases ok
      exact ⟨_, _, rfl, rfl, rfl⟩
  obtain ⟨first, db, rfl, rfl, after⟩ := answered
  have old := keyed_rows x.tenant (reserveKey x.key)
    (rt.payloadHash (.reserve ⟨tenantID, x.id, reserveKey x.key, items, ttl⟩)) s.reservation
  have appended : db.reservations = s.reservation.reservations ++
      newRows x.tenant x.id expiresAt s.reservation.nextID items := by
    rw [after]
    simp only [inserted, old.1, old.2]
  have rows : rowsOf { s with reservation := db } x.tenant x.id =
      newRows x.tenant x.id expiresAt s.reservation.nextID items := by
    rw [rowsOf_append appended, if_pos ⟨rfl, regular.own⟩, ← rowsOf, h.rows_nil, List.nil_append]
  refine ⟨⟨first, rfl⟩, ⟨numbered, ?_, fun row member => ?_, fun row member other => ?_, ?_, ?_,
    ?_⟩, db, rfl⟩
  · rw [rows, newRows_lines, if_neg (by simp)]
    exact regular.stock_cut lines
  · rw [rows] at member
    rw [(newRows_spec member).2.2.1]
  · rw [appended] at member
    rcases List.mem_append.1 member with old | new
    · exact h.foreign row old other
    · exact absurd ⟨(newRows_spec new).1, (newRows_spec new).2.1.trans regular.own⟩ other
  · exact iff_of_true (insert_answered (reserveKey_ne x.key) run (.inl ⟨first, rfl⟩)) (by simp)
  · refine fun _ => iff_of_false (fun now => ?_) (by simp)
    rcases (recorded _).2 now with before | mine
    · exact absurd ((h.allocated (by simp)).1 before) (by simp)
    · simp only [claims, Option.some.injEq, Prod.mk.injEq, true_and] at mine
      exact reserveKey_stored_ne_allocateKey key mine
  · refine fun _ => iff_of_false ?_ (by simp)
    rintro ⟨k, member, now⟩
    rcases (recorded _).2 now with before | mine
    · exact absurd ((h.released (by simp)).1 ⟨k, member, before⟩) (by simp)
    · simp only [claims, Option.some.injEq, Prod.mk.injEq, true_and] at mine
      exact regular.apart_stored member key mine.symm

theorem rowsAt_insert_refused (h : RowsAt x none s)
    (unfit : ¬∀ it ∈ items, itemFits rt x.tenant x.id it = true)
    (run : exec rt me (.insertReservations x.tenant ⟨tenantID, x.id, reserveKey x.key, items, ttl⟩
      expiresAt) c s = some (answer, s')) :
    (∃ e, answer = .error e ∧ e ≠ .alreadyProcessed) ∧ s' = s := by
  have ok := run
  simp only [exec] at ok
  split at ok
  · cases ok
  · rcases reservationTx_some ok with ⟨first, db, rfl, tx, -⟩ | ⟨⟨e, rfl⟩, rfl⟩
    · exact absurd (insertReservations_ok_iff.1 tx).2.2.1 unfit
    · refine ⟨⟨e, rfl, fun repeated => ?_⟩, rfl⟩
      subst repeated
      have old := insert_answered (reserveKey_ne x.key) run (.inr rfl)
      exact absurd (h.reserved.1 old) (by simp)

theorem rowsAt_insert_again (h : RowsAt x status s) (some_ : status ≠ none)
    (healthy : c.fault = false) (castable : Castable rt tenantID)
    (key : keyFits (reserveKey x.key) = true)
    (run : exec rt me (.insertReservations x.tenant ⟨tenantID, x.id, reserveKey x.key, items, ttl⟩
      expiresAt) c s = some (answer, s')) : answer = .error .alreadyProcessed ∧ s' = s := by
  have old := h.reserved.2 some_
  have tx : (insertReservations rt x.tenant ⟨tenantID, x.id, reserveKey x.key, items, ttl⟩
      expiresAt).run s.reservation = .error .alreadyProcessed := by
    unfold insertReservations
    refine Tx.bind_of_error ?_
    rw [claimOnce_run]
    simp only [if_pos key, if_pos old]
  simp only [exec] at run
  split at run
  · cases run
  · rw [reservationTx_eq healthy castable, Tx.commit_of_error tx] at run
    cases run
    exact ⟨rfl, rfl⟩

theorem keyHeld_free (unlocked : s.openTxs = []) (t : UUID) (key : String) :
    s.keyHeld t key = false := by
  unfold Stack.keyHeld
  rw [unlocked]
  rfl

theorem rowsAt_begin {found : Except Failure (List Reservation)} (regular : x.Regular)
    (h : RowsAt x (some .active) s) (unlocked : s.openTxs = []) (healthy : c.fault = false)
    (castable : Castable rt tenantID) (member : k ∈ x.comps) (fits : keyFits k = true)
    (text : storable x.id = true)
    (run : exec rt me (.beginRelease x.tenant ⟨tenantID, "", x.id, reason, k⟩) c s =
      some (found, s')) :
    ∃ first rest o, found = .ok (first :: rest) ∧
      (first :: rest).Perm (rowsOf s x.tenant x.id) ∧ o.thread = me ∧
      s' = { s with openTxs := [o] } := by
  have new : ¬Recorded reservationKeys s.reservation x.tenant k := fun old =>
    absurd ((h.released (by simp)).1 ⟨k, member, old⟩) (by simp)
  have tx : (releaseClaim rt x.tenant ⟨tenantID, "", x.id, reason, k⟩ s.locked).run s.reservation =
      .ok (_, _) := releaseClaim_ok_iff.2 ⟨fits, new, text, rfl, rfl⟩
  have here := h.activeRows_perm rt unlocked
  simp only [exec, keyHeld_free unlocked, Bool.false_eq_true, if_false, beginRelease, healthy,
    execTx_eq castable, Tx.commit_of_ok tx] at run
  cases rows : activeRows rt x.tenant x.id s.locked s.reservation with
  | nil =>
    rw [rows] at here
    have lines := h.stock_perm (by simp)
    rw [here.nil_eq.symm, List.map_nil] at lines
    exact absurd lines.nil_eq.symm regular.stock_ne
  | cons first rest =>
    rw [rows] at here
    simp only [rows, unlocked, List.nil_append, Option.some.injEq, Prod.mk.injEq] at run
    exact ⟨first, rest, _, run.1.symm, here, rfl, run.2.symm⟩

theorem rowsAt_begin_again {found : Except Failure (List Reservation)} (unlocked : s.openTxs = [])
    (healthy : c.fault = false) (castable : Castable rt tenantID) (fits : keyFits k = true)
    (old : Recorded reservationKeys s.reservation x.tenant k)
    (run : exec rt me (.beginRelease x.tenant ⟨tenantID, "", x.id, reason, k⟩) c s =
      some (found, s')) : found = .error .alreadyProcessed ∧ s' = s := by
  have tx : (releaseClaim rt x.tenant ⟨tenantID, "", x.id, reason, k⟩ s.locked).run s.reservation =
      .error .alreadyProcessed := by
    unfold releaseClaim
    refine Tx.bind_of_error ?_
    rw [claimOnce_run]
    simp only [if_pos fits, if_pos old]
  simp only [exec, keyHeld_free unlocked, Bool.false_eq_true, if_false, beginRelease, healthy,
    execTx_eq castable, Tx.commit_of_error tx, Option.some.injEq, Prod.mk.injEq] at run
  exact ⟨run.1.symm, run.2.symm⟩

theorem RowsAt.marked_lines {ids : List ℕ} {next : ReservationStatus}
    (h : RowsAt x (some .active) s)
    (rows : s'.reservation.reservations = ReservationDb.mark s.reservation ids next)
    (all : ∀ row ∈ rowsOf s x.tenant x.id, row.id ∈ ids) :
    ((rowsOf s' x.tenant x.id).map rowLine).Perm x.stock ∧
      (∀ row ∈ rowsOf s' x.tenant x.id, row.status = next) ∧
      ∀ row ∈ s'.reservation.reservations, ¬(row.tenantID = x.tenant ∧ row.orderID = x.id) →
        x.shared = true := by
  have after := rowsOf_mark rows all
  refine ⟨?_, ?_, ?_⟩
  · rw [after, rowLine_withStatus]
    exact h.stock_perm (by simp)
  · intro row member
    rw [after] at member
    obtain ⟨old, -, rfl⟩ := List.mem_map.1 member
    rfl
  · intro row member other
    rw [rows] at member
    obtain ⟨old, here, rfl⟩ := List.mem_map.1 member
    refine h.foreign old here fun own => other ?_
    split
    · exact own
    · exact own

theorem marked_keyed (t : UUID) (o eventType key hash : String) (next : ReservationStatus)
    (rows : List Reservation) (db : ReservationDb) :
    (marked t o eventType next rows (keyed t key hash db)).reservations =
      ReservationDb.mark db (rows.map (·.id)) next := by
  simp only [marked, ReservationDb.mark, keyed_rows]

theorem rowsAt_commit {done : Except Failure Unit} (h : RowsAt x (some .active) s)
    (healthy : c.fault = false) (castable : Castable rt tenantID) (member : k ∈ x.comps)
    (some_ : k ≠ "") (fits : keyFits k = true)
    (payload : eventFits rt (reservationEvent x.tenant x.id "reservation.released"
      (orderPayload x.id)) = true) (mine : rows.Perm (rowsOf s x.tenant x.id))
    (run : exec rt me (.commitRelease x.tenant ⟨tenantID, "", x.id, reason, k⟩ rows) c s =
      some (done, s')) :
    done = .ok () ∧ RowsAt x (some .released) s' ∧
      ∃ db, s' = { s.close me with reservation := db } := by
  have new : ¬Recorded reservationKeys s.reservation x.tenant k := fun old =>
    absurd ((h.released (by simp)).1 ⟨k, member, old⟩) (by simp)
  have tx : (releaseMark rt x.tenant ⟨tenantID, "", x.id, reason, k⟩ rows).run s.reservation =
      .ok ((), _) := releaseMark_ok_iff.2 ⟨fits, new, fun row hr =>
        ⟨⟨row, (mem_rowsOf.1 (mine.mem_iff.1 hr)).1, rfl⟩, payload⟩, rfl⟩
  have numbered := exec_numbered run h.numbered
  have kept := (exec_recorded run x.tenant (reserveKey x.key)).1 (h.reserved.2 (by simp))
  simp only [exec, commitRelease, healthy, Bool.false_eq_true, if_false, execTx_eq castable,
    Tx.commit_of_ok tx, Option.some.injEq, Prod.mk.injEq] at run
  obtain ⟨rfl, after⟩ := run
  have rows' := congrArg (·.reservation.reservations) after.symm
  have marks := h.marked_lines (rows'.trans (marked_keyed _ _ _ _ _ _ _ _)) fun row hr =>
    List.mem_map.2 ⟨row, mine.mem_iff.2 hr, rfl⟩
  subst after
  exact ⟨rfl, ⟨numbered, marks.1, fun row hr => congrArg some (marks.2.1 row hr), marks.2.2,
    iff_of_true kept (by simp), (absurd rfl ·), fun _ => iff_of_true
      ⟨k, member, claimed_self reservationKeys x.tenant _ s.reservation some_⟩ rfl⟩, _, rfl⟩

variable {count : Except Failure ℕ}

theorem rowsAt_allocate (h : RowsAt x (some .active) s) (unlocked : s.openTxs = [])
    (healthy : c.fault = false) (castable : Castable rt tenantID)
    (fits : keyFits (allocateKey x.key) = true) (text : storable x.id = true)
    (payload : eventFits rt (reservationEvent x.tenant x.id "reservation.allocated"
      (orderPayload x.id)) = true)
    (run : exec rt me (.allocate x.tenant ⟨tenantID, x.id, allocateKey x.key⟩) c s =
      some (count, s')) :
    (∃ n, count = .ok n) ∧ RowsAt x (some .allocated) s' ∧
      ∃ db, s' = { s with reservation := db } := by
  have new : ¬Recorded reservationKeys s.reservation x.tenant (allocateKey x.key) := fun old =>
    absurd ((h.allocated (by simp)).1 old) (by simp)
  have tx : (allocateTx rt x.tenant ⟨tenantID, x.id, allocateKey x.key⟩ s.locked).run
      s.reservation = .ok (_, _) :=
    allocateTx_ok_iff.2 ⟨fits, .inr ⟨new, text, fun _ _ => payload, rfl, rfl⟩⟩
  have numbered := exec_numbered run h.numbered
  have kept := (exec_recorded run x.tenant (reserveKey x.key)).1 (h.reserved.2 (by simp))
  have here := h.activeRows_perm rt unlocked
  simp only [exec, keyHeld_free unlocked, Bool.false_eq_true, if_false,
    reservationTx_eq healthy castable, Tx.commit_of_ok tx, Option.some.injEq,
    Prod.mk.injEq] at run
  obtain ⟨rfl, after⟩ := run
  have rows' := congrArg (·.reservation.reservations) after.symm
  have marks := h.marked_lines (rows'.trans (marked_keyed _ _ _ _ _ _ _ _)) fun row hr =>
    List.mem_map.2 ⟨row, here.mem_iff.2 hr, rfl⟩
  subst after
  exact ⟨⟨_, rfl⟩, ⟨numbered, marks.1, fun row hr => congrArg some (marks.2.1 row hr), marks.2.2,
    iff_of_true kept (by simp), fun _ => iff_of_true
      (claimed_self reservationKeys x.tenant _ s.reservation (allocateKey_ne x.key)) rfl,
    (absurd rfl ·)⟩, _, rfl⟩

/-- The rows are allocated, or the request is refused and nothing has happened. -/
theorem rowsAt_allocate_cases (regular : x.Regular) (h : RowsAt x (some .active) s)
    (unlocked : s.openTxs = []) (healthy : c.fault = false) (castable : Castable rt tenantID)
    (run : exec rt me (.allocate x.tenant ⟨tenantID, x.id, allocateKey x.key⟩) c s =
      some (count, s')) :
    ((∃ n, count = .ok n) ∧ keyFits (allocateKey x.key) = true ∧ RowsAt x (some .allocated) s' ∧
      ∃ db, s' = { s with reservation := db }) ∨ ((∃ e, count = .error e) ∧ s' = s) := by
  have tx := run
  simp only [exec, keyHeld_free unlocked, Bool.false_eq_true, if_false] at tx
  rcases reservationTx_some tx with ⟨n, db, rfl, ran, -⟩ | failed
  · obtain ⟨fits, ⟨old, -⟩ | ⟨-, text, events, -⟩⟩ := allocateTx_ok_iff.1 ran
    · exact absurd ((h.allocated (by simp)).1 old) (by simp)
    · have some_ : activeRows rt x.tenant x.id s.locked s.reservation ≠ [] := fun empty => by
        have none_ := h.activeRows_perm rt unlocked
        rw [empty] at none_
        have lines := h.stock_perm (by simp)
        rw [none_.nil_eq.symm, List.map_nil] at lines
        exact regular.stock_ne lines.nil_eq.symm
      obtain ⟨row, rest, rows⟩ := List.exists_cons_of_ne_nil some_
      have payload := events row (by rw [rows]; exact List.mem_cons_self)
      have after := rowsAt_allocate h unlocked healthy castable fits text payload run
      exact .inl ⟨after.1, fits, after.2⟩
  · exact .inr failed

theorem rowsAt_allocate_again (h : RowsAt x (some .allocated) s) (unlocked : s.openTxs = [])
    (healthy : c.fault = false) (castable : Castable rt tenantID)
    (fits : keyFits (allocateKey x.key) = true)
    (run : exec rt me (.allocate x.tenant ⟨tenantID, x.id, allocateKey x.key⟩) c s =
      some (count, s')) : (∃ n, count = .ok n) ∧ s' = s := by
  have tx : (allocateTx rt x.tenant ⟨tenantID, x.id, allocateKey x.key⟩ s.locked).run
      s.reservation = .ok (0, s.reservation) :=
    allocateTx_ok_iff.2 ⟨fits, .inl ⟨(h.allocated (by simp)).2 rfl, rfl, rfl⟩⟩
  simp only [exec, keyHeld_free unlocked, Bool.false_eq_true, if_false,
    reservationTx_eq healthy castable, Tx.commit_of_ok tx, Option.some.injEq,
    Prod.mk.injEq] at run
  exact ⟨⟨0, run.1.symm⟩, run.2.symm⟩

end Rows

/-- The order service's view: the order with its lines and its saga, which is
the only one that can be resumed. -/
structure Filed (x : Order) (state : SagaState) (db : OrderDb) : Prop where
  saga : ∃ saga, db.sagas x.tenant x.id = some saga ∧ saga.state = state ∧
    saga.idempotencyKey = x.key
  order : ∃ row, db.orders x.tenant x.id = some row
  lines : db.orderLines x.tenant x.id = x.lines
  listed : OrderSteps.Listed db
  created : (x.tenant, x.id) ∈ db.created
  alone : ∀ at_ ∈ db.created, ∀ saga, db.sagas at_.1 at_.2 = some saga → resumable saga = true →
    at_ = (x.tenant, x.id)

section Saga

variable {rt : Runtime} {me : ℕ} {c : Choice} {s s' : Stack} {x : Order} {state next : SagaState}
  {tenantID error : String} {step : Int32} {answer : Except Failure Unit}

theorem transitioned_filed {db : OrderDb} {row : OrderRow} {saga : SagaInstance}
    (h : Filed x state db) (found : db.sagas x.tenant x.id = some saga) :
    Filed x next (OrderSteps.transitioned x.tenant x.id next step error row saga db) where
  saga := by
    obtain ⟨saga', found', -, key⟩ := h.saga
    cases found'.symm.trans found
    exact ⟨_, OrderSteps.setCell_self _ _ _ _, rfl, key⟩
  order := ⟨_, OrderSteps.setCell_self _ _ _ _⟩
  lines := h.lines
  listed := OrderSteps.transitioned_listed h.listed found
  created := h.created
  alone at_ member saga' here resumes := by
    by_cases same : at_.1 = x.tenant ∧ at_.2 = x.id
    · exact Prod.ext same.1 same.2
    · refine h.alone at_ member saga' ?_ resumes
      simp only [OrderSteps.transitioned] at here
      rwa [OrderSteps.setCell_other _ _ same] at here

theorem filed_transition (h : Filed x state s.order)
    (run : exec rt me (.transition tenantID x.tenant x.id next step error) c s =
      some (answer, s')) :
    (answer = .ok () ∧ storable x.id = true ∧ varchar 255 (x.tenant.text ++ ":" ++ x.id) = true ∧
      ∃ db, Filed x next db ∧ s' = { s with order := db }) ∨
    ((∃ e, answer = .error e) ∧ s' = s) := by
  rcases exec_transition run with ⟨row, saga, rfl, -, found, fits, rfl⟩ | failed
  · simp only [OrderSteps.transitionFits, Bool.and_eq_true] at fits
    exact .inl ⟨rfl, fits.1.1.1, fits.1.2, _, transitioned_filed h found, rfl⟩
  · exact .inr failed

theorem filed_transition_forward (h : Filed x state s.order) (healthy : c.fault = false)
    (castable : Castable rt tenantID) (text : storable x.id = true)
    (fits : varchar 255 (x.tenant.text ++ ":" ++ x.id) = true) (reason : varchar 1024 error = true)
    (mirrors : ∀ row, OrderSteps.mirrorFits row next = true)
    (run : exec rt me (.transition tenantID x.tenant x.id next step error) c s =
      some (answer, s')) :
    answer = .ok () ∧ ∃ db, Filed x next db ∧ s' = { s with order := db } := by
  obtain ⟨row, order⟩ := h.order
  obtain ⟨saga, found, -, -⟩ := h.saga
  have all : OrderSteps.transitionFits x.tenant x.id next error row = true := by
    simp only [OrderSteps.transitionFits, text, reason, fits, mirrors, Bool.true_and]
  obtain ⟨rfl, rfl⟩ := exec_transition_forward healthy castable order found all run
  exact ⟨rfl, _, transitioned_filed h found, rfl⟩

theorem filed_record {txn : String} (h : Filed x state s.order)
    (run : exec rt me (.recordTransaction tenantID x.tenant x.id txn) c s = some (answer, s')) :
    ∃ db, Filed x state db ∧ s' = { s with order := db } := by
  rcases exec_record run with ⟨row, rfl, -, -, order, rfl⟩ | ⟨-, rfl⟩
  · refine ⟨_, ?_, rfl⟩
    exact ⟨h.saga, ⟨_, OrderSteps.setCell_self _ _ _ _⟩, h.lines,
      ⟨h.listed.own, h.listed.once, h.listed.stored, h.listed.within⟩, h.created, h.alone⟩
  · exact ⟨s'.order, h, rfl⟩

theorem filed_record_forward {txn : String} (h : Filed x state s.order) (healthy : c.fault = false)
    (castable : Castable rt tenantID) (text : storable x.id = true)
    (fits : varchar 255 txn = true)
    (run : exec rt me (.recordTransaction tenantID x.tenant x.id txn) c s = some (answer, s')) :
    answer = .ok () := by
  obtain ⟨row, order⟩ := h.order
  have tx : (recordTransaction x.tenant x.id txn).run s.order = .ok ((), _) :=
    OrderSteps.record_ok_iff.2 ⟨text, fits, row, order, rfl⟩
  rw [exec, orderTx_eq healthy castable, Tx.commit_of_ok tx] at run
  cases run
  rfl

theorem filed_lines {lines : List OrderLine} (h : Filed x state s.order)
    (run : exec rt me (.getOrderLines tenantID x.tenant x.id) c s = some (.ok lines, s')) :
    lines.Perm x.lines ∧ s' = s := by
  rcases orderTx_some run with ⟨found, db, eq, tx, rfl⟩ | ⟨⟨e, eq⟩, -⟩
  · cases eq
    obtain ⟨-, rfl, rfl⟩ := OrderSteps.getLines_ok_iff.1 tx
    rw [h.lines]
    exact ⟨rt.rows_perm _, rfl⟩
  · cases eq

theorem filed_lines_forward {answer : Except Failure (List OrderLine)} (healthy : c.fault = false)
    (castable : Castable rt tenantID) (text : storable x.id = true)
    (run : exec rt me (.getOrderLines tenantID x.tenant x.id) c s = some (answer, s')) :
    ∃ lines, answer = .ok lines := by
  have tx : (getOrderLines rt x.tenant x.id).run s.order = .ok (_, s.order) :=
    OrderSteps.getLines_ok_iff.2 ⟨text, rfl, rfl⟩
  rw [exec, orderTx_eq healthy castable, Tx.commit_of_ok tx] at run
  cases run
  exact ⟨_, rfl⟩

theorem filed_resumable {limit : Int32} {found : Except Failure (List SagaInstance)}
    (h : Filed x state s.order)
    (run : exec rt me (.getResumableSagas limit) c s = some (found, s')) :
    s' = s ∧ ∀ sagas, found = .ok sagas → sagas = [] ∨ ∃ saga, sagas = [saga] ∧
      saga.tenantID = x.tenant ∧ saga.orderID = x.id ∧ saga.idempotencyKey = x.key ∧
      saga.state = state ∧ (state = .pendingPayment ∨ state = .reserved) := by
  obtain ⟨saga, here, mine, key⟩ := h.saga
  have own := h.listed.own _ _ _ here
  have all : ∀ saga' ∈ resumableSagas s.order, saga' = saga ∧ resumable saga' = true := by
    intro saga' member
    obtain ⟨listed, resumes⟩ := List.mem_filter.1 member
    obtain ⟨at_, created, stored⟩ := List.mem_filterMap.1 listed
    have same := h.alone at_ created saga' stored resumes
    subst same
    exact ⟨Option.some.inj (stored.symm.trans here), resumes⟩
  have once := List.Nodup.of_map _ (OrderSteps.resumableSagas_spec h.listed).1
  simp only [exec] at run
  split at run
  · cases run
    exact ⟨rfl, fun sagas eq => by cases eq⟩
  · obtain ⟨rfl, rfl⟩ : _ = found ∧ s = s' := by
      simpa only [Option.some.injEq, Prod.mk.injEq] using run
    refine ⟨rfl, fun sagas eq => ?_⟩
    rcases (getResumableSagas limit).commit_cases s.order with ⟨got, db, tx, commit⟩ |
      ⟨e, tx, commit⟩
    · rw [commit] at eq
      cases eq
      obtain ⟨-, rfl, -⟩ := OrderSteps.getResumable_ok_iff.1 tx
      have some_ : ∀ saga' ∈ (resumableSagas s.order).take limit.toInt.toNat,
          saga' = saga ∧ resumable saga' = true := fun saga' member =>
        all saga' (List.mem_of_mem_take member)
      have nodup := once.sublist (List.take_sublist limit.toInt.toNat _)
      generalize (resumableSagas s.order).take limit.toInt.toNat = sagas at some_ nodup
      cases sagas with
      | nil => exact .inl rfl
      | cons first rest =>
        cases rest with
        | nil =>
          obtain ⟨rfl, resumes⟩ := some_ first List.mem_cons_self
          simp only [resumable, mine, decide_eq_true_eq] at resumes
          exact .inr ⟨first, rfl, congrArg Prod.fst own, congrArg Prod.snd own, key, mine, resumes⟩
        | cons second _ =>
          have same : first = second :=
            (some_ first (by simp)).1.trans (some_ second (by simp)).1.symm
          exact absurd (same ▸ List.mem_cons_self) (List.nodup_cons.1 nodup).1
    · rw [commit] at eq
      cases eq

theorem filed_resumable_forward {limit : Int32} {found : Except Failure (List SagaInstance)}
    (h : Filed x state s.order) (open_ : state = .pendingPayment ∨ state = .reserved)
    (healthy : c.fault = false) (some_ : 1 ≤ limit.toInt)
    (run : exec rt me (.getResumableSagas limit) c s = some (found, s')) :
    ∃ first rest, found = .ok (first :: rest) := by
  obtain ⟨saga, here, mine, -⟩ := h.saga
  have listed : saga ∈ resumableSagas s.order := by
    refine List.mem_filter.2 ⟨List.mem_filterMap.2 ⟨_, h.created, here⟩, ?_⟩
    simpa [resumable, mine] using open_
  obtain ⟨first, rest, all⟩ := List.exists_cons_of_ne_nil (List.ne_nil_of_mem listed)
  obtain ⟨n, size⟩ : ∃ n, limit.toInt.toNat = n + 1 := ⟨limit.toInt.toNat - 1, by omega⟩
  have sign : 0 ≤ limit := Int32.le_iff_toInt_le.2 (by
    have zero : (0 : Int32).toInt = 0 := rfl
    omega)
  have tx : (getResumableSagas limit).run s.order = .ok (first :: rest.take n, s.order) := by
    refine OrderSteps.getResumable_ok_iff.2 ⟨sign, ?_, rfl⟩
    rw [all, size, List.take_succ_cons]
  rw [exec, if_neg (by simp [healthy]), Tx.commit_of_ok tx] at run
  cases run
  exact ⟨_, _, rfl⟩

end Saga

end Taper.OrderPhases
