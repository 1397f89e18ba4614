import Mathlib.Data.List.Basic

set_option autoImplicit false

/-!
# UTF-8 with replacement

A well-formed sequence is taken as it is, and a byte at which none starts is
replaced by U+FFFD.
-/
namespace Taper.Utf8

def Scalar (c : ℕ) : Prop := c < 0xD800 ∨ (0xDFFF < c ∧ c < 0x110000)

def encode (c : ℕ) : List UInt8 :=
  if c < 0x80 then [.ofNat c]
  else if c < 0x800 then [.ofNat (0xC0 + c / 64), .ofNat (0x80 + c % 64)]
  else if c < 0x10000 then
    [.ofNat (0xE0 + c / 4096), .ofNat (0x80 + c / 64 % 64), .ofNat (0x80 + c % 64)]
  else
    [.ofNat (0xF0 + c / 262144), .ofNat (0x80 + c / 4096 % 64), .ofNat (0x80 + c / 64 % 64),
      .ofNat (0x80 + c % 64)]

def ascii (s : String) : List UInt8 := s.toList.map fun c => .ofNat c.toNat

def Valid (s : List UInt8) : Prop :=
  ∃ cs : List ℕ, (∀ c ∈ cs, Scalar c) ∧ s = cs.flatMap encode

abbrev Continues (b : ℕ) : Prop := 0x80 ≤ b ∧ b ≤ 0xBF

/-- The first two bytes leave out what a shorter sequence encodes, surrogates
and what lies above the last code point. -/
abbrev Opens3 (a b : ℕ) : Prop :=
  (a = 0xE0 ∧ 0xA0 ≤ b ∧ b ≤ 0xBF) ∨ (a = 0xED ∧ 0x80 ≤ b ∧ b ≤ 0x9F) ∨
    (((0xE1 ≤ a ∧ a ≤ 0xEC) ∨ (0xEE ≤ a ∧ a ≤ 0xEF)) ∧ Continues b)

abbrev Opens4 (a b : ℕ) : Prop :=
  (a = 0xF0 ∧ 0x90 ≤ b ∧ b ≤ 0xBF) ∨ (a = 0xF4 ∧ 0x80 ≤ b ∧ b ≤ 0x8F) ∨
    ((0xF1 ≤ a ∧ a ≤ 0xF3) ∧ Continues b)

def byteAt (s : List UInt8) (i : ℕ) : ℕ := (s.getD i 0).toNat

def width (s : List UInt8) : ℕ :=
  if s = [] then 0
  else if byteAt s 0 < 0x80 then 1
  else if (0xC2 ≤ byteAt s 0 ∧ byteAt s 0 ≤ 0xDF) ∧ Continues (byteAt s 1) then 2
  else if Opens3 (byteAt s 0) (byteAt s 1) ∧ Continues (byteAt s 2) then 3
  else if Opens4 (byteAt s 0) (byteAt s 1) ∧ Continues (byteAt s 2) ∧ Continues (byteAt s 3) then 4
  else 0

/-- The first `n` bytes belong to a sequence that has been found well-formed. -/
def sanitizeFrom : ℕ → List UInt8 → List UInt8
  | _, [] => []
  | n + 1, b :: rest => b :: sanitizeFrom n rest
  | 0, b :: rest =>
    match width (b :: rest) with
    | 0 => 0xEF :: 0xBF :: 0xBD :: sanitizeFrom 0 rest
    | n + 1 => b :: sanitizeFrom n rest

def sanitize (s : List UInt8) : List UInt8 := sanitizeFrom 0 s

theorem toNat_ofNat {n : ℕ} (h : n < 256) : (UInt8.ofNat n).toNat = n := by
  rw [UInt8.toNat_ofNat']
  exact Nat.mod_eq_of_lt h

theorem ofNat_eq {b : UInt8} {n : ℕ} (h : n = b.toNat) : UInt8.ofNat n = b := by
  rw [h, UInt8.ofNat_toNat]

theorem width_encode {c : ℕ} (scalar : Scalar c) (rest : List UInt8) :
    width (encode c ++ rest) = (encode c).length := by
  unfold Scalar at scalar
  unfold encode
  split_ifs with one two three
  · have first : (UInt8.ofNat c).toNat = c := toNat_ofNat (by omega)
    simp [width, byteAt, first, one]
  · have first : (UInt8.ofNat (0xC0 + c / 64)).toNat = 0xC0 + c / 64 := toNat_ofNat (by omega)
    have second : (UInt8.ofNat (0x80 + c % 64)).toNat = 0x80 + c % 64 := toNat_ofNat (by omega)
    simp only [width, byteAt, List.cons_append, List.nil_append, List.getD_cons_zero,
      List.getD_cons_succ, first, second, List.length_cons, List.length_nil, reduceCtorEq, if_false]
    rw [if_neg (by omega), if_pos (by omega)]
  · have first : (UInt8.ofNat (0xE0 + c / 4096)).toNat = 0xE0 + c / 4096 := toNat_ofNat (by omega)
    have second : (UInt8.ofNat (0x80 + c / 64 % 64)).toNat = 0x80 + c / 64 % 64 :=
      toNat_ofNat (by omega)
    have third : (UInt8.ofNat (0x80 + c % 64)).toNat = 0x80 + c % 64 := toNat_ofNat (by omega)
    simp only [width, byteAt, List.cons_append, List.nil_append, List.getD_cons_zero,
      List.getD_cons_succ, first, second, third, List.length_cons, List.length_nil, reduceCtorEq,
      if_false]
    rw [if_neg (by omega), if_neg (by omega), if_pos (by omega)]
  · have first : (UInt8.ofNat (0xF0 + c / 262144)).toNat = 0xF0 + c / 262144 :=
      toNat_ofNat (by omega)
    have second : (UInt8.ofNat (0x80 + c / 4096 % 64)).toNat = 0x80 + c / 4096 % 64 :=
      toNat_ofNat (by omega)
    have third : (UInt8.ofNat (0x80 + c / 64 % 64)).toNat = 0x80 + c / 64 % 64 :=
      toNat_ofNat (by omega)
    have fourth : (UInt8.ofNat (0x80 + c % 64)).toNat = 0x80 + c % 64 := toNat_ofNat (by omega)
    simp only [width, byteAt, List.cons_append, List.nil_append, List.getD_cons_zero,
      List.getD_cons_succ, first, second, third, fourth, List.length_cons, List.length_nil,
      reduceCtorEq, if_false]
    rw [if_neg (by omega), if_neg (by omega), if_neg (by omega), if_pos (by omega)]

theorem encode_ne_nil (c : ℕ) : encode c ≠ [] := by
  unfold encode
  split_ifs <;> simp

section Decode

variable {a b c d : UInt8}

theorem encode_one (h : a.toNat < 0x80) : ∃ x, Scalar x ∧ encode x = [a] := by
  refine ⟨a.toNat, .inl (by omega), ?_⟩
  rw [encode, if_pos h, UInt8.ofNat_toNat]

theorem encode_two (ha : 0xC2 ≤ a.toNat ∧ a.toNat ≤ 0xDF) (hb : Continues b.toNat) :
    ∃ x, Scalar x ∧ encode x = [a, b] := by
  refine ⟨(a.toNat - 0xC0) * 64 + (b.toNat - 0x80), .inl (by omega), ?_⟩
  rw [encode, if_neg (by omega), if_pos (by omega), ofNat_eq (b := a) (by omega),
    ofNat_eq (b := b) (by omega)]

theorem encode_three (ha : Opens3 a.toNat b.toNat) (hc : Continues c.toNat) :
    ∃ x, Scalar x ∧ encode x = [a, b, c] := by
  refine ⟨(a.toNat - 0xE0) * 4096 + (b.toNat - 0x80) * 64 + (c.toNat - 0x80), ?_, ?_⟩
  · unfold Scalar
    omega
  · rw [encode, if_neg (by omega), if_neg (by omega), if_pos (by omega),
      ofNat_eq (b := a) (by omega), ofNat_eq (b := b) (by omega), ofNat_eq (b := c) (by omega)]

theorem encode_four (ha : Opens4 a.toNat b.toNat) (hc : Continues c.toNat)
    (hd : Continues d.toNat) : ∃ x, Scalar x ∧ encode x = [a, b, c, d] := by
  refine ⟨(a.toNat - 0xF0) * 262144 + (b.toNat - 0x80) * 4096 + (c.toNat - 0x80) * 64 +
    (d.toNat - 0x80), ?_, ?_⟩
  · unfold Scalar
    omega
  · rw [encode, if_neg (by omega), if_neg (by omega), if_neg (by omega),
      ofNat_eq (b := a) (by omega), ofNat_eq (b := b) (by omega), ofNat_eq (b := c) (by omega),
      ofNat_eq (b := d) (by omega)]

end Decode

theorem drop_of_byteAt {s : List UInt8} {i : ℕ} (h : byteAt s i ≠ 0) :
    ∃ b, s.drop i = b :: s.drop (i + 1) ∧ byteAt s i = b.toNat := by
  by_cases lt : i < s.length
  · refine ⟨s[i], List.drop_eq_getElem_cons lt, ?_⟩
    simp [byteAt, lt]
  · refine absurd ?_ h
    simp [byteAt, List.getElem?_eq_none (Nat.le_of_not_lt lt)]

theorem encode_of_width {s : List UInt8} {n : ℕ} (h : width s = n + 1) :
    ∃ c, Scalar c ∧ s = encode c ++ s.drop (n + 1) ∧ (encode c).length = n + 1 := by
  unfold width at h
  split_ifs at h with empty one two three four
  · obtain rfl : n = 0 := by omega
    obtain ⟨a, rest, rfl⟩ := List.exists_cons_of_ne_nil empty
    obtain ⟨c, scalar, bytes⟩ := encode_one one
    exact ⟨c, scalar, by simp [bytes], by simp [bytes]⟩
  · obtain rfl : n = 1 := by omega
    obtain ⟨a, first, ha⟩ := drop_of_byteAt (i := 0) (by omega : byteAt s 0 ≠ 0)
    obtain ⟨b, second, hb⟩ := drop_of_byteAt (i := 1) (by omega : byteAt s 1 ≠ 0)
    rw [ha, hb] at two
    obtain ⟨c, scalar, bytes⟩ := encode_two two.1 two.2
    refine ⟨c, scalar, ?_, by simp [bytes]⟩
    rw [List.drop_zero, second] at first
    rw [bytes, List.cons_append, List.cons_append, List.nil_append, ← first]
  · obtain rfl : n = 2 := by omega
    obtain ⟨a, first, ha⟩ := drop_of_byteAt (i := 0) (by omega : byteAt s 0 ≠ 0)
    obtain ⟨b, second, hb⟩ := drop_of_byteAt (i := 1) (by omega : byteAt s 1 ≠ 0)
    obtain ⟨e, third, he⟩ := drop_of_byteAt (i := 2) (by omega : byteAt s 2 ≠ 0)
    rw [ha, hb, he] at three
    obtain ⟨c, scalar, bytes⟩ := encode_three three.1 three.2
    refine ⟨c, scalar, ?_, by simp [bytes]⟩
    rw [List.drop_zero, second, third] at first
    rw [bytes, List.cons_append, List.cons_append, List.cons_append, List.nil_append, ← first]
  · obtain rfl : n = 3 := by omega
    obtain ⟨a, first, ha⟩ := drop_of_byteAt (i := 0) (by omega : byteAt s 0 ≠ 0)
    obtain ⟨b, second, hb⟩ := drop_of_byteAt (i := 1) (by omega : byteAt s 1 ≠ 0)
    obtain ⟨e, third, he⟩ := drop_of_byteAt (i := 2) (by omega : byteAt s 2 ≠ 0)
    obtain ⟨f, fourth, hf⟩ := drop_of_byteAt (i := 3) (by omega : byteAt s 3 ≠ 0)
    rw [ha, hb, he, hf] at four
    obtain ⟨c, scalar, bytes⟩ := encode_four four.1 four.2.1 four.2.2
    refine ⟨c, scalar, ?_, by simp [bytes]⟩
    rw [List.drop_zero, second, third, fourth] at first
    rw [bytes, List.cons_append, List.cons_append, List.cons_append, List.cons_append,
      List.nil_append, ← first]

theorem sanitizeFrom_take (n : ℕ) (s : List UInt8) :
    sanitizeFrom n s = s.take n ++ sanitize (s.drop n) := by
  induction n generalizing s with
  | zero => rfl
  | succ n ih =>
    cases s with
    | nil => rfl
    | cons b rest =>
      rw [sanitizeFrom, ih]
      rfl

theorem sanitize_encode {c : ℕ} (scalar : Scalar c) (rest : List UInt8) :
    sanitize (encode c ++ rest) = encode c ++ sanitize rest := by
  have width := width_encode scalar rest
  obtain ⟨b, more, bytes⟩ := List.exists_cons_of_ne_nil (encode_ne_nil c)
  rw [bytes, List.cons_append] at width ⊢
  rw [List.length_cons] at width
  rw [sanitize, sanitizeFrom, width]
  simp only
  rw [sanitizeFrom_take, List.take_left, List.drop_left, List.cons_append]

theorem sanitize_encoded {cs : List ℕ} (scalars : ∀ c ∈ cs, Scalar c) :
    sanitize (cs.flatMap encode) = cs.flatMap encode := by
  induction cs with
  | nil => rfl
  | cons c rest ih =>
    rw [List.flatMap_cons, sanitize_encode (scalars c List.mem_cons_self),
      ih fun x hx => scalars x (List.mem_cons_of_mem c hx)]

theorem length_le_sanitizeFrom (n : ℕ) (s : List UInt8) :
    s.length ≤ (sanitizeFrom n s).length := by
  induction s generalizing n with
  | nil => exact Nat.le_refl _
  | cons b rest ih =>
    cases n with
    | succ n =>
      have later := ih n
      simp only [sanitizeFrom, List.length_cons]
      omega
    | zero =>
      rw [sanitizeFrom]
      split
      · have later := ih 0
        simp only [List.length_cons]
        omega
      · rename_i n _
        have later := ih n
        simp only [List.length_cons]
        omega

theorem Valid.nil : Valid [] := ⟨[], nofun, rfl⟩

theorem Valid.cons {c : ℕ} {s : List UInt8} (scalar : Scalar c) (valid : Valid s) :
    Valid (encode c ++ s) := by
  obtain ⟨cs, scalars, rfl⟩ := valid
  refine ⟨c :: cs, fun x hx => ?_, rfl⟩
  rcases List.mem_cons.1 hx with rfl | mem
  · exact scalar
  · exact scalars x mem

/-- A byte string is written as it is exactly if it is well-formed. -/
theorem sanitize_eq_iff (s : List UInt8) : sanitize s = s ↔ Valid s := by
  constructor
  · intro same
    -- a replaced byte makes the whole string longer, so the width is never zero
    induction length : s.length using Nat.strongRecOn generalizing s with
    | ind len ih =>
      cases s with
      | nil => exact .nil
      | cons b rest =>
        rw [sanitize, sanitizeFrom] at same
        split at same
        · have longer := length_le_sanitizeFrom 0 rest
          have lengths := congrArg List.length same
          simp only [List.length_cons] at lengths
          omega
        · rename_i n found
          obtain ⟨c, scalar, split, size⟩ := encode_of_width found
          have tail : sanitize ((b :: rest).drop (n + 1)) = (b :: rest).drop (n + 1) := by
            rw [sanitizeFrom_take] at same
            have rejoin := (List.take_append_drop n rest).symm
            have eq := List.cons.inj same
            exact List.append_cancel_left (eq.2.trans rejoin)
          have shorter : ((b :: rest).drop (n + 1)).length < len := by
            rw [← length, List.length_drop, List.length_cons]
            omega
          rw [split]
          exact .cons scalar (ih _ shorter _ tail rfl)
  · rintro ⟨cs, scalars, rfl⟩
    exact sanitize_encoded scalars

theorem valid_sanitize (s : List UInt8) : Valid (sanitize s) := by
  induction length : s.length using Nat.strongRecOn generalizing s with
  | ind len ih =>
    cases s with
    | nil => exact .nil
    | cons b rest =>
      rw [List.length_cons] at length
      rw [sanitize, sanitizeFrom]
      split
      · have replacement : Scalar 0xFFFD := .inr (by omega)
        exact .cons replacement (ih rest.length (by omega) rest rfl)
      · rename_i n found
        obtain ⟨c, scalar, split, size⟩ := encode_of_width found
        have front : b :: rest.take n = encode c := by
          have parts := congrArg (List.take (n + 1)) split
          rwa [List.take_succ_cons, List.take_left' size] at parts
        rw [sanitizeFrom_take, ← List.cons_append, front]
        refine .cons scalar (ih _ ?_ _ rfl)
        rw [List.length_drop]
        omega

theorem ofNat_inj {m n : ℕ} (hm : m < 256) (hn : n < 256) (h : UInt8.ofNat m = .ofNat n) :
    m = n := by
  rw [← toNat_ofNat hm, h, toNat_ofNat hn]

theorem encode_injective {c d : ℕ} (hc : Scalar c) (hd : Scalar d) (h : encode c = encode d) :
    c = d := by
  unfold Scalar at hc hd
  unfold encode at h
  -- the lists of two branches have different lengths
  split_ifs at h <;> simp only [List.cons.injEq, and_true, reduceCtorEq, and_false] at h
  · exact ofNat_inj (by omega) (by omega) h
  · have first := ofNat_inj (by omega) (by omega) h.1
    have second := ofNat_inj (by omega) (by omega) h.2
    omega
  · have first := ofNat_inj (by omega) (by omega) h.1
    have second := ofNat_inj (by omega) (by omega) h.2.1
    have third := ofNat_inj (by omega) (by omega) h.2.2
    omega
  · have first := ofNat_inj (by omega) (by omega) h.1
    have second := ofNat_inj (by omega) (by omega) h.2.1
    have third := ofNat_inj (by omega) (by omega) h.2.2.1
    have fourth := ofNat_inj (by omega) (by omega) h.2.2.2
    omega

theorem flatMap_encode_injective {cs ds : List ℕ} (hc : ∀ c ∈ cs, Scalar c)
    (hd : ∀ d ∈ ds, Scalar d) (h : cs.flatMap encode = ds.flatMap encode) : cs = ds := by
  induction cs generalizing ds with
  | nil =>
    cases ds with
    | nil => rfl
    | cons d rest =>
      rw [List.flatMap_nil, List.flatMap_cons] at h
      exact absurd (List.append_eq_nil_iff.1 h.symm).1 (encode_ne_nil d)
  | cons c more ih =>
    cases ds with
    | nil =>
      rw [List.flatMap_nil, List.flatMap_cons] at h
      exact absurd (List.append_eq_nil_iff.1 h).1 (encode_ne_nil c)
    | cons d rest =>
      rw [List.flatMap_cons, List.flatMap_cons] at h
      have scalarC := hc c List.mem_cons_self
      have scalarD := hd d List.mem_cons_self
      have lengths : (encode c).length = (encode d).length := by
        rw [← width_encode scalarC (more.flatMap encode), h, width_encode scalarD]
      obtain ⟨first, tail⟩ := List.append_inj h lengths
      rw [encode_injective scalarC scalarD first,
        ih (fun x hx => hc x (List.mem_cons_of_mem c hx))
          (fun x hx => hd x (List.mem_cons_of_mem d hx)) tail]

end Taper.Utf8
