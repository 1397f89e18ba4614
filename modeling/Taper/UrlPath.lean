import Mathlib.Data.List.DropRight
import Mathlib.Data.UInt

set_option autoImplicit false

/-!
# Paths with percent escapes

An escaped slash is a separator when the escapes are read before the path is
split; both readings agree on the segments that hold none.
-/
namespace Taper.UrlPath

abbrev Bytes := List UInt8

def slash : UInt8 := 47

def percent : UInt8 := 37

def hex (c : UInt8) : Option ℕ :=
  if 48 ≤ c.toNat ∧ c.toNat ≤ 57 then some (c.toNat - 48)
  else if 65 ≤ c.toNat ∧ c.toNat ≤ 70 then some (c.toNat - 55)
  else if 97 ≤ c.toNat ∧ c.toNat ≤ 102 then some (c.toNat - 87)
  else none

def unescape : Bytes → Option Bytes
  | [] => some []
  | c :: rest =>
    if c = percent then
      match rest with
      | a :: b :: more => do
        let high ← hex a
        let low ← hex b
        let bytes ← unescape more
        some (.ofNat (high * 16 + low) :: bytes)
      | _ => none
    else (unescape rest).map (c :: ·)

def segments : Bytes → Option (List Bytes)
  | [] => none
  | c :: rest => if c = slash then (rest.splitOn slash).mapM unescape else none

def trim (s : Bytes) : Bytes := (s.dropWhile (· == slash)).rdropWhile (· == slash)

theorem unescape_plain {c : UInt8} (rest : Bytes) (plain : c ≠ percent) :
    unescape (c :: rest) = (unescape rest).map (c :: ·) := by
  rw [unescape.eq_def]
  exact if_neg plain

theorem unescape_slash (a b : Bytes) {p : Bytes} (h : unescape (a ++ slash :: b) = some p) :
    ∃ pa pb, unescape a = some pa ∧ unescape b = some pb ∧ p = pa ++ slash :: pb := by
  induction a using unescape.induct generalizing p with
  | case1 =>
    rw [List.nil_append, unescape_plain _ (by decide)] at h
    obtain ⟨pb, read, rfl⟩ := Option.map_eq_some_iff.1 h
    exact ⟨[], pb, rfl, read, rfl⟩
  | case2 x y more ih =>
    obtain ⟨high, readHigh, h⟩ := Option.bind_eq_some_iff.1 h
    obtain ⟨low, readLow, h⟩ := Option.bind_eq_some_iff.1 h
    obtain ⟨bytes, read, h⟩ := Option.bind_eq_some_iff.1 h
    cases h
    obtain ⟨pa, pb, first, second, rfl⟩ := ih read
    refine ⟨.ofNat (high * 16 + low) :: pa, pb, ?_, second, rfl⟩
    change (hex x).bind (fun high => (hex y).bind fun low => (unescape more).bind _) = _
    rw [readHigh, Option.bind_some, readLow, Option.bind_some, first]
    rfl
  | case3 rest short =>
    match rest with
    | [] =>
      cases b with
      | nil => cases h
      | cons d b => cases h
    | [x] =>
      obtain ⟨high, -, h⟩ := Option.bind_eq_some_iff.1 h
      cases h
    | x :: y :: more => exact absurd rfl (short x y more)
  | case4 c rest plain ih =>
    rw [List.cons_append, unescape_plain _ plain] at h
    obtain ⟨bytes, read, rfl⟩ := Option.map_eq_some_iff.1 h
    obtain ⟨pa, pb, first, second, rfl⟩ := ih read
    refine ⟨c :: pa, pb, ?_, second, rfl⟩
    rw [unescape_plain _ plain, first]
    rfl

theorem unescape_intercalate {parts : List Bytes} (some_ : parts ≠ []) {p : Bytes}
    (h : unescape ([slash].intercalate parts) = some p) :
    ∃ seg segs, parts.mapM unescape = some (seg :: segs) ∧
      p = [slash].intercalate (seg :: segs) := by
  induction parts generalizing p with
  | nil => exact absurd rfl some_
  | cons part rest ih =>
    cases rest with
    | nil =>
      rw [List.intercalate_singleton] at h
      refine ⟨p, [], ?_, List.intercalate_singleton.symm⟩
      rw [List.mapM_cons, h]
      rfl
    | cons next rest =>
      rw [List.intercalate_cons_cons, List.append_assoc] at h
      obtain ⟨pa, pb, first, second, rfl⟩ := unescape_slash _ _ h
      obtain ⟨seg, segs, read, rfl⟩ := ih (List.cons_ne_nil _ _) second
      refine ⟨pa, seg :: segs, ?_, ?_⟩
      · rw [List.mapM_cons, first, read]
        rfl
      · rw [List.intercalate_cons_cons, List.append_assoc]
        rfl

theorem unescape_segments {escaped path : Bytes} {segs : List Bytes}
    (decodes : unescape escaped = some path) (read : segments escaped = some segs) :
    path = slash :: [slash].intercalate segs := by
  match escaped with
  | [] => cases read
  | c :: rest =>
    by_cases first : c = slash
    · subst first
      rw [unescape_plain _ (by decide)] at decodes
      obtain ⟨bytes, whole, rfl⟩ := Option.map_eq_some_iff.1 decodes
      have parts : unescape ([slash].intercalate (rest.splitOn slash)) = some bytes := by
        rw [List.intercalate_splitOn]
        exact whole
      obtain ⟨seg, more, read', rfl⟩ := unescape_intercalate (List.splitOn_ne_nil _ _) parts
      rw [segments, if_pos rfl, read'] at read
      cases read
      rfl
    · rw [segments, if_neg first] at read
      cases read

theorem splitOn_slash {seg : Bytes} (rest : Bytes) (plain : slash ∉ seg) :
    (seg ++ slash :: rest).splitOn slash = seg :: rest.splitOn slash := by
  have other : ∀ c ∈ seg, (c == slash) = false := by
    intro c mem
    exact beq_false_of_ne fun same => plain (same ▸ mem)
  exact List.splitOnP_append_cons_of_forall_mem other slash (beq_self_eq_true slash) rest

theorem dropWhile_front {s : Bytes} (rest : Bytes) (plain : slash ∉ s) (some_ : s ≠ []) :
    (s ++ rest).dropWhile (· == slash) = s ++ rest := by
  cases s with
  | nil => exact absurd rfl some_
  | cons c s =>
    rw [List.cons_append, List.dropWhile_cons_of_neg]
    rw [beq_iff_eq]
    exact fun same => plain (same ▸ List.mem_cons_self)

theorem rdropWhile_back {s : Bytes} (front rest : Bytes) (plain : slash ∉ s) (some_ : s ≠ []) :
    (front ++ s ++ rest).rdropWhile (· == slash) =
      front ++ s ++ rest.rdropWhile (· == slash) := by
  induction rest using List.reverseRecOn with
  | nil =>
    rw [List.append_nil, List.rdropWhile_nil, List.append_nil, List.rdropWhile_eq_self_iff]
    intro nonempty last
    rw [List.getLast_append_of_ne_nil nonempty some_, beq_iff_eq] at last
    exact plain (last ▸ List.getLast_mem some_)
  | append_singleton rest c ih =>
    rw [← List.append_assoc]
    by_cases drops : (c == slash) = true
    · rw [List.rdropWhile_concat_pos (· == slash) _ _ drops,
        List.rdropWhile_concat_pos (· == slash) _ _ drops, ih]
    · rw [List.rdropWhile_concat_neg (· == slash) _ _ drops,
        List.rdropWhile_concat_neg (· == slash) _ _ drops, List.append_assoc]

/-- What follows the first two segments does not change them. -/
theorem split_trim {a b rest : Bytes} (plainA : slash ∉ a) (someA : a ≠ []) (plainB : slash ∉ b)
    (someB : b ≠ []) (tail : rest = [] ∨ ∃ more, rest = slash :: more) :
    ∃ more, (trim (slash :: (a ++ slash :: (b ++ rest)))).splitOn slash = a :: b :: more := by
  have trimmed : trim (slash :: (a ++ slash :: (b ++ rest))) =
      a ++ slash :: (b ++ rest.rdropWhile (· == slash)) := by
    have front := dropWhile_front (slash :: (b ++ rest)) plainA someA
    have back := rdropWhile_back (a ++ [slash]) rest plainB someB
    simp only [List.append_assoc, List.cons_append, List.nil_append] at back
    rw [trim, List.dropWhile_cons_of_pos (p := (· == slash)) (beq_self_eq_true slash), front, back]
  rw [trimmed, splitOn_slash _ plainA]
  have kept := List.rdropWhile_prefix (· == slash) rest
  cases shape : rest.rdropWhile (· == slash) with
  | nil => exact ⟨[], by rw [List.append_nil, List.splitOn_eq_singleton plainB]⟩
  | cons c more =>
    rw [shape] at kept
    obtain rfl : c = slash := by
      rcases tail with rfl | ⟨more, rfl⟩
      · exact absurd (List.prefix_nil.1 kept) (List.cons_ne_nil _ _)
      · exact (List.cons_prefix_cons.1 kept).1
    exact ⟨_, by rw [splitOn_slash _ plainB]⟩

end Taper.UrlPath
