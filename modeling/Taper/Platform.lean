import Taper.Messages
import Taper.Transaction
import Mathlib.Data.List.Sort

set_option autoImplicit false

/-!
# What the services run on

The functions the code takes from outside the repository. Only their documented
behaviour is assumed.
-/
namespace Taper.Platform
open Messages Transaction

/-- Strings compare by code point, which is how their UTF-8 bytes compare. -/
def textLess : List Char → List Char → Bool
  | _, [] => false
  | [], _ :: _ => true
  | a :: as, b :: bs => a.toNat < b.toNat || (a == b && textLess as bs)

def lineLess (a b : StockLine) : Bool :=
  if a.skuId ≠ b.skuId then textLess a.skuId.toList b.skuId.toList
  else textLess a.warehouseId.toList b.warehouseId.toList

structure Runtime where
  /-- The driver's `Scan` of a UUID. -/
  scan : String → Option UUID
  scan_text : ∀ u : UUID, scan u.text = some u
  /-- The database's `::uuid` cast of the tenant setting. -/
  cast : String → Option UUID
  cast_text : ∀ u : UUID, cast u.text = some u
  cast_scan : ∀ {s : String} {u v : UUID}, scan s = some u → cast s = some v → v = u
  /-- The slice sort may order equal elements either way. -/
  sortSlice : List StockLine → List StockLine
  sortSlice_perm : ∀ lines, (sortSlice lines).Perm lines
  sortSlice_sorted : ∀ lines, (sortSlice lines).Pairwise fun a b => lineLess b a = false
  /-- Rows of a query without `ORDER BY`. -/
  rows : {α : Type} → List α → List α
  rows_perm : ∀ {α : Type} (l : List α), (rows l).Perm l
  payloadHash : Message → String
  jsonb : String → Bool
  sandboxFailListed : String → Bool
  /-- The text of an error value. -/
  errorText : Failure → String

def parseUUID (rt : Runtime) (s : String) : Except Failure UUID :=
  match rt.scan s with
  | some u => .ok u
  | none => .error (.invalidUUID s)

variable {u : UUID} {tenantID : String} {a b : List Char} {rt : Runtime}

theorem parse_scan {s : String} (parse : parseUUID rt s = .ok u) :
    rt.scan s = some u := by
  unfold parseUUID at parse
  split at parse
  · cases parse
    assumption
  · cases parse

variable {σ α : Type}

/-- Row-level security reads the tenant from the setting, so a text the
database cannot cast fails every statement of the transaction. -/
def execTxWithTenant (rt : Runtime) (tenantID : String) (fn : Tx σ Failure α) (s : σ) :
    Except Failure α × σ :=
  if tenantID = "" then (.error (.text "tenant ID missing from context"), s)
  else
    match rt.cast tenantID with
    | none => (.error (.sql .badUuid), s)
    | some _ => fn.commit s

variable {fn : Tx σ Failure α} {s t : σ}

theorem execTx_ok {a : α} (h : execTxWithTenant rt tenantID fn s = (.ok a, t)) :
    fn.run s = .ok (a, t) := by
  unfold execTxWithTenant at h
  split at h
  · simp at h
  · split at h
    · simp at h
    · rcases fn.commit_cases s with ⟨b, u, run, eq⟩ | ⟨e, run, eq⟩
      · rw [eq] at h
        simp only [Prod.mk.injEq, Except.ok.injEq] at h
        rw [run, h.1, h.2]
      · simp [eq] at h

theorem execTx_error {e : Failure} (h : execTxWithTenant rt tenantID fn s = (.error e, t)) :
    t = s := by
  unfold execTxWithTenant at h
  split at h
  · simp only [Prod.mk.injEq] at h
    exact h.2.symm
  · split at h
    · simp only [Prod.mk.injEq] at h
      exact h.2.symm
    · rcases fn.commit_cases s with ⟨b, u, run, eq⟩ | ⟨e', run, eq⟩
      · simp [eq] at h
      · rw [eq] at h
        simp only [Prod.mk.injEq] at h
        exact h.2.symm

theorem execTx_failed {e : Failure} (h : execTxWithTenant rt tenantID fn s = (.error e, t)) :
    e = .text "tenant ID missing from context" ∨ e = .sql .badUuid ∨ fn.run s = .error e := by
  unfold execTxWithTenant at h
  split at h
  · cases h
    exact .inl rfl
  · split at h
    · cases h
      exact .inr (.inl rfl)
    · rcases fn.commit_cases s with ⟨b, u, run, eq⟩ | ⟨e', run, eq⟩
      · simp [eq] at h
      · rw [eq] at h
        cases h
        exact .inr (.inr run)

/-- The statements have run, or nothing has changed. -/
theorem execTx_cases (rt : Runtime) (tenantID : String) (fn : Tx σ Failure α) (s : σ) :
    (∃ a t, execTxWithTenant rt tenantID fn s = (.ok a, t) ∧ fn.run s = .ok (a, t)) ∨
      ∃ e, execTxWithTenant rt tenantID fn s = (.error e, s) := by
  generalize out : execTxWithTenant rt tenantID fn s = result
  obtain ⟨answer, t⟩ := result
  cases answer with
  | ok a => exact .inl ⟨a, t, rfl, execTx_ok out⟩
  | error e => exact .inr ⟨e, by rw [execTx_error out]⟩

section Texts

theorem text_chars (u : UUID) : ∀ c ∈ u.text.toList, c ≠ ':' ∧ c ≠ '\x00' := by
  have canonical := u.canonical
  simp only [canonicalUUID, Bool.and_eq_true, List.all_eq_true] at canonical
  intro c member
  obtain ⟨i, lt, rfl⟩ := List.getElem_of_mem member
  have here := canonical.2 (u.text.toList[i], i) (by
    rw [List.mem_zipIdx_iff_getElem?]
    simp)
  simp only at here
  constructor
  · intro colon
    rw [colon] at here
    split at here
    · cases here
    · cases here
  · intro nul
    rw [nul] at here
    split at here
    · cases here
    · cases here

theorem text_plain (u : UUID) : ∀ c ∈ u.text.toList, (c != ':') = true :=
  fun c member => bne_iff_ne.2 (text_chars u c member).1

theorem text_ne_empty (u : UUID) : u.text.toList ≠ [] := by
  intro empty
  have canonical := u.canonical
  rw [String.toList_eq_nil_iff.1 empty] at canonical
  cases canonical

theorem text_length (u : UUID) : u.text.length = 36 := by
  have canonical := u.canonical
  simp only [canonicalUUID, Bool.and_eq_true, beq_iff_eq] at canonical
  exact canonical.1

theorem text_fits (u : UUID) : fits 255 u.text = true := by
  have length := text_length u
  simp only [fits, storable, Bool.and_eq_true, decide_eq_true_eq, List.all_eq_true]
  exact ⟨by omega, fun c member => bne_iff_ne.2 (text_chars u c member).2⟩

theorem text_injective {v : UUID} (h : u.text = v.text) : u = v := by
  cases u
  cases v
  cases h
  rfl

theorem key_takeWhile (u : UUID) (name : String) :
    (u.text ++ ":" ++ name).toList.takeWhile (· != ':') = u.text.toList := by
  simp [String.toList_append, List.takeWhile_append_of_pos (text_plain u)]

theorem key_dropWhile (u : UUID) (name : String) :
    (u.text ++ ":" ++ name).toList.dropWhile (· != ':') = ':' :: name.toList := by
  simp [String.toList_append, List.dropWhile_append_of_pos (text_plain u)]

end Texts

def Castable (rt : Runtime) (tenantID : String) : Prop :=
  tenantID ≠ "" ∧ (rt.cast tenantID).isSome = true

theorem castable_text (rt : Runtime) (t : UUID) : Castable rt t.text := by
  refine ⟨fun empty => ?_, by rw [rt.cast_text]; rfl⟩
  have canonical := t.canonical
  rw [empty] at canonical
  cases canonical

theorem execTx_eq (castable : Castable rt tenantID) (fn : Tx σ Failure α) (s : σ) :
    execTxWithTenant rt tenantID fn s = fn.commit s := by
  unfold execTxWithTenant
  rw [if_neg castable.1]
  obtain ⟨u, cast⟩ := Option.isSome_iff_exists.1 castable.2
  rw [cast]

theorem castable_of_ok {a : α} (h : execTxWithTenant rt tenantID fn s = (.ok a, t)) :
    Castable rt tenantID := by
  unfold execTxWithTenant at h
  split at h
  · simp at h
  · rename_i present
    refine ⟨present, ?_⟩
    cases cast : rt.cast tenantID with
    | none => simp [cast] at h
    | some u => rfl

theorem textLess_irrefl (a : List Char) : textLess a a = false := by
  induction a with
  | nil => rfl
  | cons c as ih => simp [textLess, ih]

theorem textLess_connected (hab : textLess a b = false) (hba : textLess b a = false) : a = b := by
  induction a generalizing b with
  | nil =>
    cases b with
    | nil => rfl
    | cons d bs => simp [textLess] at hab
  | cons c as ih =>
    cases b with
    | nil => simp [textLess] at hba
    | cons d bs =>
      simp only [textLess, Bool.or_eq_false_iff, Bool.and_eq_false_iff, decide_eq_false_iff_not,
        beq_eq_false_iff_ne] at hab hba
      have same : c = d := Char.ext (UInt32.toNat_inj.1 (Nat.le_antisymm
        (Nat.le_of_not_lt hba.1) (Nat.le_of_not_lt hab.1)))
      subst same
      have tails := ih (hab.2.resolve_left (by simp)) (hba.2.resolve_left (by simp))
      rw [tails]

theorem textLess_trans {c : List Char} (hab : textLess a b = true) (hbc : textLess b c = true) :
    textLess a c = true := by
  induction a generalizing b c with
  | nil =>
    cases c with
    | nil => cases b <;> simp [textLess] at hbc
    | cons _ _ => rfl
  | cons x as ih =>
    cases b with
    | nil => simp [textLess] at hab
    | cons y bs =>
      cases c with
      | nil => simp [textLess] at hbc
      | cons z cs =>
        simp only [textLess, Bool.or_eq_true, Bool.and_eq_true, decide_eq_true_eq, beq_iff_eq]
          at hab hbc ⊢
        rcases hab with xy | ⟨rfl, tail⟩
        · rcases hbc with yz | ⟨rfl, -⟩
          · exact .inl (xy.trans yz)
          · exact .inl xy
        · rcases hbc with yz | ⟨rfl, tail'⟩
          · exact .inl yz
          · exact .inr ⟨rfl, ih tail tail'⟩

theorem textLess_asymm (h : textLess a b = true) : textLess b a = false := by
  cases back : textLess b a with
  | false => rfl
  | true => simpa [textLess_irrefl] using textLess_trans h back

def lineLe (a b : StockLine) : Prop := lineLess b a = false

instance : DecidableRel lineLe := fun a b => inferInstanceAs (Decidable (lineLess b a = false))

theorem lineLe_iff (a b : StockLine) : lineLe a b ↔ textLess a.skuId.toList b.skuId.toList = true ∨
    (a.skuId = b.skuId ∧ textLess b.warehouseId.toList a.warehouseId.toList = false) := by
  unfold lineLe lineLess
  by_cases same : b.skuId = a.skuId
  · simp [same, textLess_irrefl]
  · simp only [ne_eq, same, not_false_eq_true, if_true, Ne.symm same, false_and, or_false]
    constructor
    · intro le
      by_contra less
      have eq := textLess_connected (Bool.eq_false_iff.2 less) le
      exact same (String.toList_inj.1 eq).symm
    · exact textLess_asymm

instance : Std.Total lineLe where
  total a b := by
    by_cases le : lineLe a b
    · exact .inl le
    · have less : lineLess b a = true := Bool.eq_true_of_not_eq_false le
      unfold lineLess at less
      rw [lineLe_iff b a]
      split at less
      · exact .inr (.inl less)
      · rename_i same
        exact .inr (.inr ⟨not_ne_iff.1 same, textLess_asymm less⟩)

instance : IsTrans StockLine lineLe where
  trans a b c hab hbc := by
    rw [lineLe_iff] at hab hbc ⊢
    rcases hab with ab | ⟨ab, le⟩
    · rcases hbc with bc | ⟨bc, -⟩
      · exact .inl (textLess_trans ab bc)
      · exact .inl (bc ▸ ab)
    · rcases hbc with bc | ⟨bc, le'⟩
      · exact .inl (ab ▸ bc)
      · refine .inr ⟨ab.trans bc, Bool.eq_false_iff.2 fun back => ?_⟩
        by_cases eq : b.warehouseId.toList = a.warehouseId.toList
        · rw [← eq, le'] at back
          exact Bool.false_ne_true back
        · have less : textLess a.warehouseId.toList b.warehouseId.toList = true := by
            by_contra none
            exact eq (textLess_connected le (Bool.eq_false_iff.2 none))
          rw [textLess_trans back less] at le'
          exact Bool.false_ne_true le'.symm

/-- A runtime to evaluate the model on: canonical tenants, plain identifiers,
and a gateway that declines the listed orders. -/
def reference (declined : List String) : Runtime where
  scan s := if h : canonicalUUID s = true then some ⟨s, h⟩ else none
  scan_text u := by simp [u.canonical]
  cast s := if h : canonicalUUID s = true then some ⟨s, h⟩ else none
  cast_text u := by simp [u.canonical]
  cast_scan hs hc := by
    rw [hs] at hc
    exact (Option.some.inj hc).symm
  sortSlice lines := lines.insertionSort lineLe
  sortSlice_perm lines := List.perm_insertionSort lineLe lines
  sortSlice_sorted lines := List.pairwise_insertionSort lineLe lines
  rows l := l
  rows_perm _ := .refl _
  payloadHash _ := ""
  jsonb _ := true
  sandboxFailListed orderID := declined.contains orderID
  errorText _ := ""

def sampleTenant : UUID := ⟨"00000000-0000-4000-8000-000000000001", by decide⟩

def firstEvent : UUID := ⟨"00000000-0000-4000-8000-00000000000a", by decide⟩

def secondEvent : UUID := ⟨"00000000-0000-4000-8000-00000000000b", by decide⟩

def readKnown (text : String) (u : UUID) (read : String → Option UUID) (s : String) : Option UUID :=
  if s = text then some u else read s

theorem readKnown_eq {text : String} {read : String → Option UUID} (reads : read text = some u) :
    readKnown text u read = read := by
  funext s
  unfold readKnown
  split_ifs with same
  · rw [same, reads]
  · rfl

/-- The same runtime, on which runs of one tenant are evaluated: it does not go
through the text of the tenant each time. -/
def Runtime.knowing (rt : Runtime) (text : String) (u : UUID) (scans : rt.scan text = some u)
    (casts : rt.cast text = some u) : Runtime :=
  { rt with
    scan := readKnown text u rt.scan
    scan_text := by
      rw [readKnown_eq scans]
      exact rt.scan_text
    cast := readKnown text u rt.cast
    cast_text := by
      rw [readKnown_eq casts]
      exact rt.cast_text
    cast_scan := by
      rw [readKnown_eq scans, readKnown_eq casts]
      exact rt.cast_scan }

theorem Runtime.knowing_eq (rt : Runtime) {text : String} (scans : rt.scan text = some u)
    (casts : rt.cast text = some u) :
    rt.knowing text u scans casts = rt := by
  simp only [Runtime.knowing, readKnown_eq scans, readKnown_eq casts]

def recognizing (declined : List String) : Runtime :=
  (reference declined).knowing sampleTenant.text sampleTenant
    ((reference declined).scan_text _) ((reference declined).cast_text _)

theorem reference_recognizing (declined : List String) :
    reference declined = recognizing declined := (Runtime.knowing_eq _ _ _).symm

end Taper.Platform
