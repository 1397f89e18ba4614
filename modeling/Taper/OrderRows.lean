import Taper.ReservationRuns
import Taper.StockConservation

set_option autoImplicit false

/-!
# The rows and the keys of one order

The keys the saga derives from an order's key, and how the rows of one order
change along a run.
-/
namespace Taper.OrderRows
open Messages Platform Ledger ReservationTables ReservationSteps ReservationRuns
open ServiceStack Services

def rowsOf (s : Stack) (t : UUID) (o : String) : List Reservation :=
  s.reservation.reservations.filter fun row => row.tenantID = t ∧ row.orderID = o

def reserveKey (key : String) : String := key ++ ":reserve"

def allocateKey (key : String) : String := key ++ ":allocate"

def confirmKey (key : String) : String := key ++ ":confirm"

theorem reserveKey_inj {a b : String} : reserveKey a = reserveKey b ↔ a = b :=
  String.append_left_inj ":reserve"

theorem allocateKey_inj {a b : String} : allocateKey a = allocateKey b ↔ a = b :=
  String.append_left_inj ":allocate"

theorem reserveKey_ne_allocateKey (a b : String) : reserveKey a ≠ allocateKey b := by
  intro same
  have ends := congrArg (fun s => s.toList.reverse.take 2) same
  simp [reserveKey, allocateKey, String.toList_append, List.reverse_append] at ends

theorem reserveKey_ne_confirmKey (a b : String) : reserveKey a ≠ confirmKey b := by
  intro same
  have ends := congrArg (fun s => s.toList.reverse.take 1) same
  simp [reserveKey, confirmKey, String.toList_append, List.reverse_append] at ends

theorem reserveKey_ne (a : String) : reserveKey a ≠ "" := by
  intro empty
  have length := congrArg String.length empty
  simp [reserveKey, String.length_append] at length

theorem allocateKey_ne (a : String) : allocateKey a ≠ "" := by
  intro empty
  have length := congrArg String.length empty
  simp [allocateKey, String.length_append] at length

theorem confirmKey_ne (a : String) : confirmKey a ≠ "" := by
  intro empty
  have length := congrArg String.length empty
  simp [confirmKey, String.length_append] at length

/-- A key that ends in no blank is stored as it is, or not at all. -/
theorem keyFits_append {key tail : String} {c : Char} (last : tail.toList.getLast? = some c)
    (solid : c ≠ ' ') (h : keyFits (key ++ tail) = true) :
    column 255 (key ++ tail) = key ++ tail := by
  rw [keyFits, Bool.or_eq_true, beq_iff_eq] at h
  rcases h with empty | text
  · rw [empty]
    rfl
  · rw [varchar_append last solid] at text
    exact fits_column text

theorem column_of_append {k tail : String} (h : column 255 (k ++ tail) = k ++ tail) :
    column 255 k = k := by
  have length := column_eq_iff.1 h
  rw [String.length_append] at length
  exact column_of_le (by omega)

theorem reserveKey_stored {key : String} (h : keyFits (reserveKey key) = true) :
    column 255 (reserveKey key) = reserveKey key := keyFits_append rfl (by decide : 'e' ≠ ' ') h

theorem allocateKey_stored {key : String} (h : keyFits (allocateKey key) = true) :
    column 255 (allocateKey key) = allocateKey key := keyFits_append rfl (by decide : 'e' ≠ ' ') h

theorem confirmKey_stored {key : String} (h : keyFits (confirmKey key) = true) :
    column 255 (confirmKey key) = confirmKey key := keyFits_append rfl (by decide : 'm' ≠ ' ') h

theorem reserveKey_stored_ne_allocateKey {key : String} (h : keyFits (reserveKey key) = true) :
    column 255 (reserveKey key) ≠ column 255 (allocateKey key) := by
  intro same
  rw [reserveKey_stored h] at same
  have start : (reserveKey key).toList <+: (allocateKey key).toList := by
    rw [same, column]
    split
    · exact List.prefix_rfl
    · rw [String.toList_ofList]
      exact List.take_prefix _ _
  rw [reserveKey, allocateKey, String.toList_append, String.toList_append,
    List.prefix_append_right_inj] at start
  exact absurd start (by decide)

theorem reserveKey_column_ne {k key : String} (apart : column 255 k ≠ reserveKey key) :
    column 255 k ≠ reserveKey (column 255 key) := by
  intro same
  have length : (reserveKey (column 255 key)).length ≤ 255 := same ▸ column_length_le 255 k
  have suffix : (":reserve" : String).length = 8 := by decide
  rw [reserveKey, String.length_append, suffix] at length
  have whole : key = column 255 key := (column_eq_short (by omega)).1 rfl
  exact apart (by rw [same, ← whole])

theorem confirmKey_fits {key : String} (h : keyFits (reserveKey key) = true) :
    keyFits (confirmKey key) = true := by
  simp only [keyFits, Bool.or_eq_true, beq_iff_eq, reserveKey_ne, confirmKey_ne, false_or] at h ⊢
  rw [reserveKey, varchar_append (c := 'e') rfl (by decide)] at h
  refine fits_varchar ?_
  simp only [fits, storable, confirmKey, String.length_append, String.toList_append,
    List.all_append, Bool.and_eq_true, decide_eq_true_eq] at h ⊢
  have length : ":confirm".length = ":reserve".length := by decide
  have plain : (":confirm".toList.all fun c => c != '\x00') = true := by decide
  rw [length, plain]
  exact ⟨h.1, h.2.1, rfl⟩

section Rows

variable {rt : Runtime} {me : ℕ} {op : Op} {c : Choice} {s s' : Stack} {r : Resp op} {t : UUID}
  {o : String}

theorem mem_rowsOf {row : Reservation} : row ∈ rowsOf s t o ↔
    row ∈ s.reservation.reservations ∧ row.tenantID = t ∧ row.orderID = o := by
  rw [rowsOf, List.mem_filter]
  simp

theorem rowsOf_append {rows : List Reservation} {u : UUID} {o' : String} {expiresAt : ℤ} {n : ℕ}
    {items : List ReservationItem}
    (h : s'.reservation.reservations = rows ++ newRows u o' expiresAt n items) :
    rowsOf s' t o = (rows.filter fun row => row.tenantID = t ∧ row.orderID = o) ++
      if u = t ∧ column 255 o' = o then newRows u o' expiresAt n items else [] := by
  rw [rowsOf, h, List.filter_append]
  congr 1
  split
  · rename_i same
    refine List.filter_eq_self.2 fun row member => ?_
    have spec := newRows_spec member
    simp [spec.1, spec.2.1, same]
  · rename_i other
    refine List.filter_eq_nil_iff.2 fun row member => ?_
    have spec := newRows_spec member
    simpa [spec.1, spec.2.1] using not_and.1 other

theorem exec_rowsOf (h : exec rt me op c s = some (r, s'))
    (repeated : ∀ req expiresAt, op = .insertReservations t req expiresAt →
      column 255 req.orderId = o → keyFits req.idempotencyKey = true →
        Recorded reservationKeys s.reservation t req.idempotencyKey) :
    ∃ f : Reservation → ReservationStatus,
      rowsOf s' t o = (rowsOf s t o).map fun row => withStatus (f row) row := by
  have still : ∀ rows : List Reservation, rows = rows.map fun row => withStatus row.status row :=
    fun rows => (List.map_id rows).symm
  cases exec_rows h with
  | same rows next =>
    refine ⟨(·.status), ?_⟩
    rw [rowsOf, rows]
    exact still _
  | marked ids status by_ new rows next =>
    refine ⟨fun row => if row.id ∈ ids then status else row.status, ?_⟩
    rw [rowsOf, rows, ReservationDb.mark, List.filter_map, rowsOf]
    have same : ((fun row : Reservation => decide (row.tenantID = t ∧ row.orderID = o)) ∘
        fun row => if row.id ∈ ids then withStatus status row else row) =
          fun row => decide (row.tenantID = t ∧ row.orderID = o) := by
      funext row
      simp only [Function.comp_apply]
      split
      · rfl
      · rfl
    rw [same]
    refine List.map_congr_left fun row _ => ?_
    by_cases chosen : row.id ∈ ids
    · simp only [chosen, if_true]
    · simp only [chosen, if_false]
      rfl
  | inserted u req expiresAt by_ new recorded rows next fits =>
    have other : ¬(u = t ∧ column 255 req.orderId = o) := by
      rintro ⟨rfl, here⟩
      exact new (repeated req expiresAt by_ here fits)
    refine ⟨(·.status), ?_⟩
    rw [rowsOf_append rows, if_neg other, List.append_nil]
    exact still _

end Rows

theorem rowLine_withStatus {rows : List Reservation} {f : Reservation → ReservationStatus} :
    (rows.map fun row => withStatus (f row) row).map rowLine = rows.map rowLine := by
  rw [List.map_map]
  rfl

def cutLine (l : StockLine) : StockLine :=
  { l with skuId := column 255 l.skuId, warehouseId := column 255 l.warehouseId }

theorem storedLine_stored (lines : List OrderLine) :
    (lines.map OrderTables.storedLine).map OrderTables.storedLine =
      lines.map OrderTables.storedLine := by
  simp [OrderTables.storedLine, Function.comp_def]

theorem stockLines_stored (lines : List OrderLine) :
    stockLines (lines.map OrderTables.storedLine) = (stockLines lines).map cutLine := by
  simp [stockLines, OrderTables.storedLine, cutLine, Function.comp_def]

theorem reserveItems_lines (lines : List OrderLine) :
    (reserveItems lines).map itemLine = stockLines lines := by
  simp [reserveItems, stockLines, itemLine, Function.comp_def]

theorem cut_located {t : UUID} {lines : List StockLine} {db : StockTables.StockDb}
    (checked : StockConservation.Checked db)
    (located : ∀ l ∈ lines, db.stockLevels (StockHandlers.lineLocation t l) ≠ none) :
    lines.map cutLine = lines := by
  refine (List.map_congr_left fun l member => ?_).trans (List.map_id lines)
  obtain ⟨level, row⟩ := Option.ne_none_iff_exists'.1 (located l member)
  have stored := (checked _ level row).1
  simp only [StockTables.StockLocation.stored, StockHandlers.lineLocation,
    StockTables.StockLocation.mk.injEq, true_and] at stored
  rw [cutLine, stored.1, stored.2]
  rfl

theorem newRows_lines (u : UUID) (o' : String) (expiresAt : ℤ) (n : ℕ)
    (items : List ReservationItem) :
    (newRows u o' expiresAt n items).map rowLine = (items.map itemLine).map cutLine := by
  induction items generalizing n with
  | nil => rfl
  | cons it rest ih =>
    rw [newRows, List.map_cons, List.map_cons, List.map_cons, ih]
    rfl

end Taper.OrderRows
