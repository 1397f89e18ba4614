import Mathlib.Data.List.TakeWhile
import Mathlib.Data.Nat.Digits.Lemmas

set_option autoImplicit false

/-!
# JSON texts

The reader takes what the grammar allows, with numbers kept as they are written;
an escape that stands for no character is refused. The writer escapes only what
has to be.
-/
namespace Taper.Json

section Numbers

def isNumeral (c : Char) : Bool :=
  c.isDigit || c = '-' || c = '+' || c = '.' || c = 'e' || c = 'E'

def digits (cs : List Char) : Bool := cs ≠ [] && cs.all Char.isDigit

def exponent : List Char → Bool
  | [] => true
  | e :: rest =>
    (e = 'e' || e = 'E') &&
      match rest with
      | '+' :: rest => digits rest
      | '-' :: rest => digits rest
      | rest => digits rest

def fraction : List Char → Bool
  | '.' :: d :: rest => d.isDigit && exponent (rest.dropWhile Char.isDigit)
  | rest => exponent rest

def magnitude : List Char → Bool
  | [] => false
  | '0' :: rest => fraction rest
  | c :: rest => c.isDigit && fraction (rest.dropWhile Char.isDigit)

def number : List Char → Bool
  | '-' :: rest => magnitude rest
  | cs => magnitude cs

@[ext] structure Numeral where
  text : List Char
  numerals : text.all isNumeral = true
  valid : number text = true

def digitChar (n : ℕ) : Char := .ofNat (48 + n)

def digitValue (c : Char) : ℕ := c.toNat - 48

theorem digitChar_spec : ∀ d < 10, (digitChar d).isDigit = true ∧ digitValue (digitChar d) = d ∧
    (digitChar d = '0' → d = 0) := by
  decide

def decimal (n : ℕ) : List Char :=
  if n = 0 then ['0'] else (Nat.digits 10 n).reverse.map digitChar

def signed : ℤ → List Char
  | .ofNat n => decimal n
  | .negSucc n => '-' :: decimal (n + 1)

def natural (cs : List Char) : Option ℕ :=
  if digits cs then some (Nat.ofDigits 10 (cs.reverse.map digitValue)) else none

def integer : List Char → Option ℤ
  | '-' :: cs => (natural cs).map fun n => -(n : ℤ)
  | cs => (natural cs).map fun n => (n : ℤ)

theorem decimal_digits (n : ℕ) : digits (decimal n) = true := by
  unfold decimal digits
  split
  · rfl
  · rename_i positive
    refine Bool.and_eq_true_iff.2 ⟨?_, ?_⟩
    · have some_ : Nat.digits 10 n ≠ [] := Nat.digits_ne_nil_iff_ne_zero.2 positive
      simpa using some_
    · simp only [List.all_map, List.all_reverse, List.all_eq_true, Function.comp]
      exact fun d member => (digitChar_spec d (Nat.digits_lt_base (by decide) member)).1

theorem natural_decimal (n : ℕ) : natural (decimal n) = some n := by
  rw [natural, if_pos (decimal_digits n)]
  unfold decimal
  split
  · rename_i zero
    rw [zero]
    rfl
  · have back : ((Nat.digits 10 n).map digitChar).map digitValue = Nat.digits 10 n := by
      rw [List.map_map]
      refine (List.map_congr_left fun d member => ?_).trans (List.map_id _)
      exact (digitChar_spec d (Nat.digits_lt_base (by decide) member)).2.1
    rw [← List.map_reverse, List.reverse_reverse, back, Nat.ofDigits_digits]

theorem decimal_head {n : ℕ} (positive : n ≠ 0) : ∃ c cs, decimal n = c :: cs ∧ c ≠ '0' := by
  have some_ : Nat.digits 10 n ≠ [] := Nat.digits_ne_nil_iff_ne_zero.2 positive
  have last := Nat.getLast_digit_ne_zero 10 positive
  have below := Nat.digits_lt_base (by decide : 1 < 10) (List.getLast_mem some_)
  refine ⟨digitChar ((Nat.digits 10 n).getLast some_),
    (Nat.digits 10 n).dropLast.reverse.map digitChar, ?_, fun zero => ?_⟩
  · rw [decimal, if_neg positive, ← List.map_cons, ← List.reverse_concat,
      List.dropLast_concat_getLast]
  · exact last ((digitChar_spec _ below).2.2 zero)

theorem magnitude_decimal (n : ℕ) : magnitude (decimal n) = true := by
  by_cases zero : n = 0
  · rw [zero]
    rfl
  · obtain ⟨c, cs, head, leading⟩ := decimal_head zero
    have all := decimal_digits n
    rw [head, digits, List.all_cons, Bool.and_eq_true_iff, Bool.and_eq_true_iff] at all
    have rest : cs.dropWhile Char.isDigit = [] :=
      List.dropWhile_eq_nil_iff.2 (List.all_eq_true.1 all.2.2)
    rw [head, magnitude]
    · rw [all.2.1, rest]
      rfl
    · exact fun eq => leading eq

theorem decimal_numerals (n : ℕ) : (decimal n).all isNumeral = true := by
  have all := (Bool.and_eq_true_iff.1 (decimal_digits n)).2
  refine List.all_eq_true.2 fun c member => ?_
  simp [isNumeral, List.all_eq_true.1 all c member]

theorem signless {n : ℕ} {cs : List Char} : decimal n ≠ '-' :: cs := by
  intro eq
  have all := decimal_digits n
  rw [eq] at all
  cases all

def Numeral.ofInt (n : ℤ) : Numeral where
  text := signed n
  numerals := by
    cases n with
    | ofNat n => exact decimal_numerals n
    | negSucc n => exact decimal_numerals (n + 1)
  valid := by
    cases n with
    | ofNat n =>
      rw [signed, number]
      · exact magnitude_decimal n
      · exact fun cs => signless
    | negSucc n => exact magnitude_decimal (n + 1)

theorem integer_ofInt (n : ℤ) : integer (Numeral.ofInt n).text = some n := by
  cases n with
  | ofNat n =>
    change integer (decimal n) = some (n : ℤ)
    rw [integer]
    · rw [natural_decimal]
      rfl
    · exact fun cs => signless
  | negSucc n =>
    change integer ('-' :: decimal (n + 1)) = some (Int.negSucc n)
    rw [integer, natural_decimal]
    rfl

end Numbers

inductive Value where
  | null
  | bool (b : Bool)
  | num (n : Numeral)
  | str (s : String)
  | arr (items : List Value)
  | obj (members : List (String × Value))

section Reader

def isSpace (c : Char) : Bool := c = ' ' || c = '\t' || c = '\n' || c = '\r'

def skip (cs : List Char) : List Char := cs.dropWhile isSpace

def hexValue (c : Char) : Option ℕ :=
  if '0' ≤ c ∧ c ≤ '9' then some (c.toNat - 48)
  else if 'a' ≤ c ∧ c ≤ 'f' then some (c.toNat - 87)
  else if 'A' ≤ c ∧ c ≤ 'F' then some (c.toNat - 55)
  else none

def hex4 : List Char → Option (ℕ × List Char)
  | a :: b :: c :: d :: rest => do
    let a ← hexValue a
    let b ← hexValue b
    let c ← hexValue c
    let d ← hexValue d
    some (a * 4096 + b * 256 + c * 16 + d, rest)
  | _ => none

def shortEscape (c : Char) : Option Char :=
  if c = '\x22' ∨ c = '\\' ∨ c = '/' then some c
  else if c = 'b' then some '\x08'
  else if c = 'f' then some '\x0c'
  else if c = 'n' then some '\n'
  else if c = 'r' then some '\r'
  else if c = 't' then some '\t'
  else none

def lowHalf (high : ℕ) (cs : List Char) : Option (Char × List Char) :=
  match cs with
  | '\\' :: 'u' :: rest => do
    let (low, rest) ← hex4 rest
    if 0xDC00 ≤ low ∧ low ≤ 0xDFFF then
      some (.ofNat (0x10000 + (high - 0xD800) * 1024 + (low - 0xDC00)), rest)
    else none
  | _ => none

def escape : List Char → Option (Char × List Char)
  | [] => none
  | c :: rest =>
    if c = 'u' then do
      let (n, rest) ← hex4 rest
      if n < 0xD800 ∨ 0xDFFF < n then some (.ofNat n, rest)
      else if n < 0xDC00 then lowHalf n rest
      else none
    else (shortEscape c).map fun d => (d, rest)

def string : ℕ → List Char → Option (List Char × List Char)
  | 0, _ => none
  | _ + 1, [] => none
  | n + 1, c :: rest =>
    if c = '\x22' then some ([], rest)
    else if c = '\\' then do
      let (d, rest) ← escape rest
      let (s, rest) ← string n rest
      some (d :: s, rest)
    else if 0x20 ≤ c.toNat then do
      let (s, rest) ← string n rest
      some (c :: s, rest)
    else none

def text (cs : List Char) : Option (String × List Char) :=
  (string (cs.length + 1) cs).map fun (s, rest) => (.ofList s, rest)

def scalar (cs : List Char) : Option (Value × List Char) :=
  if ['n', 'u', 'l', 'l'].isPrefixOf cs then some (.null, cs.drop 4)
  else if ['t', 'r', 'u', 'e'].isPrefixOf cs then some (.bool true, cs.drop 4)
  else if ['f', 'a', 'l', 's', 'e'].isPrefixOf cs then some (.bool false, cs.drop 5)
  else if valid : number (cs.takeWhile isNumeral) = true then
    some (.num ⟨cs.takeWhile isNumeral, List.all_takeWhile, valid⟩, cs.dropWhile isNumeral)
  else none

def name (cs : List Char) : Option (String × List Char) :=
  match skip cs with
  | '\x22' :: rest => do
    let (k, rest) ← text rest
    match skip rest with
    | ':' :: rest => some (k, rest)
    | _ => none
  | _ => none

mutual

def value : ℕ → List Char → Option (Value × List Char)
  | 0, _ => none
  | n + 1, cs =>
    match skip cs with
    | [] => none
    | c :: rest =>
      if c = '\x22' then (text rest).map fun (s, rest) => (.str s, rest)
      else if c = '[' then
        match skip rest with
        | ']' :: rest => some (.arr [], rest)
        | _ => (items n rest).map fun (vs, rest) => (.arr vs, rest)
      else if c = '\x7b' then
        match skip rest with
        | '\x7d' :: rest => some (.obj [], rest)
        | _ => (members n rest).map fun (ms, rest) => (.obj ms, rest)
      else scalar (c :: rest)

def items : ℕ → List Char → Option (List Value × List Char)
  | 0, _ => none
  | n + 1, cs => do
    let (v, rest) ← value n cs
    match skip rest with
    | ',' :: rest => (items n rest).map fun (vs, rest) => (v :: vs, rest)
    | ']' :: rest => some ([v], rest)
    | _ => none

def members : ℕ → List Char → Option (List (String × Value) × List Char)
  | 0, _ => none
  | n + 1, cs => do
    let (k, rest) ← name cs
    let (v, rest) ← value n rest
    match skip rest with
    | ',' :: rest => (members n rest).map fun (ms, rest) => ((k, v) :: ms, rest)
    | '\x7d' :: rest => some ([(k, v)], rest)
    | _ => none

end

def parse (s : String) : Option Value :=
  match value (s.toList.length + 1) s.toList with
  | some (v, rest) => if skip rest = [] then some v else none
  | none => none

end Reader

section Writer

def hexDigit (n : ℕ) : Char := if n < 10 then .ofNat (48 + n) else .ofNat (87 + n)

def escaped (c : Char) : List Char :=
  if c = '\x22' ∨ c = '\\' then ['\\', c]
  else if 0x20 ≤ c.toNat then [c]
  else ['\\', 'u', '0', '0', hexDigit (c.toNat / 16), hexDigit (c.toNat % 16)]

def quoted (s : String) : List Char := '\x22' :: s.toList.flatMap escaped ++ ['\x22']

mutual

def write : Value → List Char
  | .null => ['n', 'u', 'l', 'l']
  | .bool true => ['t', 'r', 'u', 'e']
  | .bool false => ['f', 'a', 'l', 's', 'e']
  | .num n => n.text
  | .str s => quoted s
  | .arr [] => ['[', ']']
  | .arr (v :: vs) => '[' :: (write v ++ writeItems vs)
  | .obj [] => ['\x7b', '\x7d']
  | .obj ((k, v) :: ms) => '\x7b' :: (quoted k ++ ':' :: (write v ++ writeMembers ms))

def writeItems : List Value → List Char
  | [] => [']']
  | v :: vs => ',' :: (write v ++ writeItems vs)

def writeMembers : List (String × Value) → List Char
  | [] => ['\x7d']
  | (k, v) :: ms => ',' :: (quoted k ++ ':' :: (write v ++ writeMembers ms))

end

end Writer

variable {c : Char} {k : String} {v : Value} {ms : List (String × Value)}

section Lengths

variable {n : ℕ} {cs rest : List Char}

theorem skip_length (cs : List Char) : (skip cs).length ≤ cs.length :=
  (List.dropWhile_suffix _).length_le

theorem skip_cons_length (h : skip cs = c :: rest) : rest.length < cs.length := by
  have le := skip_length cs
  rw [h] at le
  exact le

theorem hex4_length {m : ℕ} (h : hex4 cs = some (m, rest)) : rest.length < cs.length := by
  unfold hex4 at h
  split at h
  · simp only [Option.bind_eq_bind, Option.bind_eq_some_iff, Option.some.injEq, Prod.mk.injEq] at h
    obtain ⟨_, _, _, _, _, _, _, _, _, rfl⟩ := h
    simp only [List.length_cons]
    omega
  · cases h

theorem lowHalf_length {high : ℕ} {d : Char} (h : lowHalf high cs = some (d, rest)) :
    rest.length < cs.length := by
  unfold lowHalf at h
  split at h
  · obtain ⟨⟨low, after⟩, hex, h⟩ := Option.bind_eq_some_iff.1 h
    have shorter := hex4_length hex
    obtain ⟨-, eq⟩ := Option.ite_none_right_eq_some.1 h
    rw [Option.some.injEq, Prod.mk.injEq] at eq
    obtain ⟨-, rfl⟩ := eq
    simp only [List.length_cons]
    omega
  · cases h

theorem escape_length {d : Char} (h : escape cs = some (d, rest)) : rest.length < cs.length := by
  unfold escape at h
  split at h
  · cases h
  · rw [List.length_cons]
    split at h
    · obtain ⟨⟨m, after⟩, hex, h⟩ := Option.bind_eq_some_iff.1 h
      have shorter := hex4_length hex
      simp only at h
      split at h
      · cases h
        omega
      · split at h
        · have shorter' := lowHalf_length h
          omega
        · cases h
    · obtain ⟨e, -, eq⟩ := Option.map_eq_some_iff.1 h
      cases eq
      omega

def Plain (c : Char) : Prop := c ≠ '\x22' ∧ c ≠ '\\' ∧ 0x20 ≤ c.toNat

instance (c : Char) : Decidable (Plain c) := inferInstanceAs (Decidable (_ ∧ _ ∧ _))

/-- A string takes at least its own length, and exactly that where nothing in it
is escaped. -/
theorem string_length {s : List Char} (h : string n cs = some (s, rest)) :
    s.length + 1 + rest.length ≤ cs.length ∧ (cs.length ≤ s.length + 1 + rest.length →
      cs = s ++ '\x22' :: rest ∧ ∀ c ∈ s, Plain c) := by
  induction n generalizing cs s with
  | zero => cases h
  | succ n ih =>
    cases cs with
    | nil => cases h
    | cons c cs =>
      rw [string] at h
      rw [List.length_cons]
      split at h
      · rename_i quote
        cases h
        refine ⟨by rw [List.length_nil]; omega, fun _ => ⟨by rw [quote]; rfl, nofun⟩⟩
      · rename_i quote
        split at h
        · obtain ⟨⟨d, after⟩, esc, h⟩ := Option.bind_eq_some_iff.1 h
          obtain ⟨⟨s', after'⟩, tail, h⟩ := Option.bind_eq_some_iff.1 h
          cases h
          have shorter := escape_length esc
          have fits := (ih tail).1
          rw [List.length_cons]
          exact ⟨by omega, fun tight => by omega⟩
        · rename_i backslash
          split at h
          · rename_i printable
            obtain ⟨⟨s', after⟩, tail, h⟩ := Option.bind_eq_some_iff.1 h
            cases h
            obtain ⟨fits, exact_⟩ := ih tail
            rw [List.length_cons]
            refine ⟨by omega, fun tight => ?_⟩
            obtain ⟨eq, plain⟩ := exact_ (by omega)
            refine ⟨by rw [eq]; rfl, List.forall_mem_cons.2 ⟨⟨quote, backslash, printable⟩, plain⟩⟩
          · cases h

theorem text_length {s : String} (h : text cs = some (s, rest)) :
    s.toList.length + 1 + rest.length ≤ cs.length ∧
      (cs.length ≤ s.toList.length + 1 + rest.length →
        cs = s.toList ++ '\x22' :: rest ∧ ∀ c ∈ s.toList, Plain c) := by
  obtain ⟨⟨t, after⟩, run, eq⟩ := Option.map_eq_some_iff.1 h
  cases eq
  rw [String.toList_ofList]
  exact string_length run

theorem name_length (h : name cs = some (k, rest)) :
    k.toList.length + 3 + rest.length ≤ cs.length := by
  unfold name at h
  split at h
  · rename_i after skipped
    obtain ⟨⟨k', after'⟩, run, h⟩ := Option.bind_eq_some_iff.1 h
    have shorter := skip_cons_length skipped
    have fits := (text_length run).1
    simp only at h
    split at h
    · rename_i colon
      have shorter' := skip_cons_length colon
      cases h
      omega
    · cases h
  · cases h

def Value.size : Value → ℕ
  | .str s => s.toList.length + 2
  | _ => 1

def weight (ms : List (String × Value)) : ℕ :=
  (ms.map fun m => m.1.toList.length + 4 + m.2.size).sum

theorem number_shortens (valid : number (cs.takeWhile isNumeral) = true) :
    (cs.dropWhile isNumeral).length < cs.length := by
  have whole := congrArg List.length (List.takeWhile_append_dropWhile (p := isNumeral) (l := cs))
  rw [List.length_append] at whole
  have some_ : cs.takeWhile isNumeral ≠ [] := by
    intro empty
    rw [empty] at valid
    cases valid
  have positive := List.length_pos_iff.2 some_
  omega

theorem scalar_length (h : scalar cs = some (v, rest)) :
    v.size + rest.length ≤ cs.length := by
  have word {w : List Char} (starts : w.isPrefixOf cs = true) : w.length ≤ cs.length :=
    (List.isPrefixOf_iff_prefix.1 starts).length_le
  unfold scalar at h
  split_ifs at h with null true_ false_ valid
  · cases h
    have fits := word null
    simp only [Value.size, List.length_drop, List.length_cons, List.length_nil] at fits ⊢
    omega
  · cases h
    have fits := word true_
    simp only [Value.size, List.length_drop, List.length_cons, List.length_nil] at fits ⊢
    omega
  · cases h
    have fits := word false_
    simp only [Value.size, List.length_drop, List.length_cons, List.length_nil] at fits ⊢
    omega
  · cases h
    have shorter := number_shortens valid
    simp only [Value.size]
    omega

theorem weight_cons (k : String) (v : Value) (ms : List (String × Value)) :
    weight ((k, v) :: ms) = k.toList.length + 4 + v.size + weight ms := by
  simp only [weight, List.map_cons, List.sum_cons]

theorem lengths (n : ℕ) :
    (∀ cs v rest, value n cs = some (v, rest) → v.size + rest.length ≤ cs.length) ∧
    (∀ cs vs rest, items n cs = some (vs, rest) → rest.length < cs.length) ∧
    ∀ cs ms rest, members n cs = some (ms, rest) → weight ms + rest.length ≤ cs.length := by
  induction n with
  | zero => exact ⟨nofun, nofun, nofun⟩
  | succ n ih =>
    obtain ⟨ofValue, ofItems, ofMembers⟩ := ih
    refine ⟨fun cs v rest h => ?_, fun cs vs rest h => ?_, fun cs ms rest h => ?_⟩
    · rw [value] at h
      split at h
      · cases h
      · rename_i c after skipped
        have shorter := skip_cons_length skipped
        split_ifs at h with quote bracket brace
        · obtain ⟨⟨s, after'⟩, run, eq⟩ := Option.map_eq_some_iff.1 h
          cases eq
          have fits := (text_length run).1
          simp only [Value.size]
          omega
        · split at h
          · rename_i after' empty
            cases h
            have shorter' := skip_cons_length empty
            simp only [Value.size]
            omega
          · obtain ⟨⟨vs, after'⟩, run, eq⟩ := Option.map_eq_some_iff.1 h
            cases eq
            have fits := ofItems _ _ _ run
            simp only [Value.size]
            omega
        · split at h
          · rename_i after' empty
            cases h
            have shorter' := skip_cons_length empty
            simp only [Value.size]
            omega
          · obtain ⟨⟨ms, after'⟩, run, eq⟩ := Option.map_eq_some_iff.1 h
            cases eq
            have fits := ofMembers _ _ _ run
            simp only [Value.size]
            omega
        · have fits := scalar_length h
          rw [List.length_cons] at fits
          omega
    · rw [items] at h
      obtain ⟨⟨v, after⟩, run, h⟩ := Option.bind_eq_some_iff.1 h
      have fits := ofValue _ _ _ run
      simp only at h
      split at h
      · rename_i after' comma
        have shorter := skip_cons_length comma
        obtain ⟨⟨vs, after''⟩, more, eq⟩ := Option.map_eq_some_iff.1 h
        cases eq
        have fits' := ofItems _ _ _ more
        dsimp only
        omega
      · rename_i after' bracket
        have shorter := skip_cons_length bracket
        cases h
        omega
      · cases h
    · rw [members] at h
      obtain ⟨⟨k, after⟩, key, h⟩ := Option.bind_eq_some_iff.1 h
      have room := name_length key
      obtain ⟨⟨v, after'⟩, run, h⟩ := Option.bind_eq_some_iff.1 h
      have fits := ofValue _ _ _ run
      simp only at h
      split at h
      · rename_i after'' comma
        have shorter := skip_cons_length comma
        obtain ⟨⟨ms', rest'⟩, more, eq⟩ := Option.map_eq_some_iff.1 h
        cases eq
        have fits' := ofMembers _ _ _ more
        rw [weight_cons]
        dsimp only
        omega
      · rename_i after'' brace
        have shorter := skip_cons_length brace
        cases h
        rw [weight_cons]
        simp only [weight, List.map_nil, List.sum_nil]
        omega
      · cases h

theorem members_length (h : members n cs = some (ms, rest)) :
    weight ms + rest.length ≤ cs.length := (lengths n).2.2 cs ms rest h

theorem members_nil (n : ℕ) : members n [] = none := by
  cases n with
  | zero => rfl
  | succ n => rfl

end Lengths

section Fields

def field (ms : List (String × Value)) (k : String) : Option Value :=
  match ms with
  | [] => none
  | m :: rest => (field rest k).or (if m.1 = k then some m.2 else none)

theorem field_mem (h : field ms k = some v) : (k, v) ∈ ms := by
  induction ms with
  | nil => cases h
  | cons m rest ih =>
    rw [field, Option.or_eq_some_iff] at h
    rcases h with later | ⟨-, own⟩
    · exact List.mem_cons_of_mem m (ih later)
    · obtain ⟨rfl, eq⟩ := Option.ite_none_right_eq_some.1 own
      cases eq
      exact List.mem_cons_self

theorem weight_mem (member : (k, v) ∈ ms) :
    k.toList.length + 4 + v.size ≤ weight ms := by
  induction ms with
  | nil => cases member
  | cons m rest ih =>
    obtain ⟨l, w⟩ := m
    rw [weight_cons]
    rcases List.mem_cons.1 member with same | later
    · cases same
      omega
    · have room := ih later
      omega

theorem weight_pair {l : String} {w : Value} (other : k ≠ l) (first : (k, v) ∈ ms)
    (second : (l, w) ∈ ms) :
    k.toList.length + 4 + v.size + (l.toList.length + 4 + w.size) ≤ weight ms := by
  induction ms with
  | nil => cases first
  | cons m rest ih =>
    obtain ⟨x, y⟩ := m
    rw [weight_cons]
    rcases List.mem_cons.1 first with here | later
    · cases here
      rcases List.mem_cons.1 second with same | later
      · cases same
        exact absurd rfl other
      · have room := weight_mem later
        omega
    · rcases List.mem_cons.1 second with here | later'
      · cases here
        have room := weight_mem later
        omega
      · have room := ih later later'
        omega

end Fields

section RoundTrip

theorem skip_cons (token : isSpace c = false) (cs : List Char) :
    skip (c :: cs) = c :: cs := by
  rw [skip, List.dropWhile_cons_of_neg]
  rw [token]
  exact Bool.false_ne_true

theorem hexValue_hexDigit : ∀ n < 16, hexValue (hexDigit n) = some n := by
  decide

theorem escape_control (control : c.toNat < 0x20) (rest : List Char) :
    escape ('u' :: '0' :: '0' :: hexDigit (c.toNat / 16) :: hexDigit (c.toNat % 16) :: rest) =
      some (c, rest) := by
  have zero : hexValue '0' = some 0 := by decide
  have high := hexValue_hexDigit (c.toNat / 16) (by omega)
  have low := hexValue_hexDigit (c.toNat % 16) (by omega)
  have whole : c.toNat / 16 * 16 + c.toNat % 16 = c.toNat := by omega
  simp only [escape, if_true, hex4, zero, high, low, Option.bind_eq_bind, Option.bind_some,
    Nat.zero_mul, Nat.zero_add, whole]
  rw [if_pos (.inl (by omega)), Char.ofNat_toNat]

theorem string_escaped {s : List Char} {n : ℕ} (fuel : s.length < n) (rest : List Char) :
    string n (s.flatMap escaped ++ '\x22' :: rest) = some (s, rest) := by
  induction s generalizing n with
  | nil =>
    obtain ⟨n, rfl⟩ := Nat.exists_eq_add_of_lt fuel
    rfl
  | cons c s ih =>
    cases n with
    | zero => cases fuel
    | succ n =>
      have tail := ih (Nat.lt_of_succ_lt_succ fuel)
      rw [List.flatMap_cons, List.append_assoc]
      generalize s.flatMap escaped ++ '\x22' :: rest = cs at tail ⊢
      unfold escaped
      split_ifs with short printable
      · have back : escape (c :: cs) = some (c, cs) := by
          rcases short with rfl | rfl
          · rfl
          · rfl
        rw [List.cons_append, List.cons_append, List.nil_append, string, if_neg (by decide),
          if_pos rfl, back]
        simp only [Option.bind_eq_bind, Option.bind_some, tail]
      · rw [List.cons_append, List.nil_append, string, if_neg fun eq => short (.inl eq),
          if_neg fun eq => short (.inr eq), if_pos printable]
        simp only [Option.bind_eq_bind, Option.bind_some, tail]
      · simp only [List.cons_append, List.nil_append]
        rw [string, if_neg (by decide), if_pos rfl, escape_control (by omega)]
        simp only [Option.bind_eq_bind, Option.bind_some, tail]

theorem escaped_length (s : List Char) : s.length ≤ (s.flatMap escaped).length := by
  induction s with
  | nil => exact Nat.le_refl 0
  | cons c s ih =>
    have some_ : 0 < (escaped c).length := by
      unfold escaped
      split_ifs
      · exact Nat.zero_lt_succ _
      · exact Nat.zero_lt_succ _
      · exact Nat.zero_lt_succ _
    rw [List.flatMap_cons, List.length_append, List.length_cons]
    omega

theorem text_escaped (s : String) (rest : List Char) :
    text (s.toList.flatMap escaped ++ '\x22' :: rest) = some (s, rest) := by
  have fuel := escaped_length s.toList
  rw [text, string_escaped (by rw [List.length_append]; omega)]
  simp only [Option.map_some, String.ofList_toList]

theorem quoted_append (s : String) (rest : List Char) :
    quoted s ++ rest = '\x22' :: (s.toList.flatMap escaped ++ '\x22' :: rest) := by
  simp [quoted]

theorem name_quoted (k : String) (rest : List Char) :
    name (quoted k ++ ':' :: rest) = some (k, rest) := by
  have colon : isSpace ':' = false := by decide
  rw [name, quoted_append, skip_cons (by decide)]
  simp only [text_escaped, Option.bind_eq_bind, Option.bind_some, skip_cons colon]

def Stops (rest : List Char) : Prop := ∀ c ∈ rest.head?, isNumeral c = false

theorem numeral_head (m : Numeral) : ∃ c cs, m.text = c :: cs ∧ isNumeral c = true := by
  cases word : m.text with
  | nil =>
    have valid := m.valid
    rw [word] at valid
    cases valid
  | cons c cs =>
    have numerals := m.numerals
    rw [word, List.all_cons] at numerals
    exact ⟨c, cs, rfl, (Bool.and_eq_true_iff.1 numerals).1⟩

theorem scalar_numeral (m : Numeral) {rest : List Char} (stops : Stops rest) :
    scalar (m.text ++ rest) = some (.num m, rest) := by
  have all : ∀ c ∈ m.text, isNumeral c = true := List.all_eq_true.1 m.numerals
  have ends : rest.takeWhile isNumeral = [] ∧ rest.dropWhile isNumeral = rest := by
    cases rest with
    | nil => exact ⟨rfl, rfl⟩
    | cons c cs =>
      have stop := stops c rfl
      simp [stop]
  have word : (m.text ++ rest).takeWhile isNumeral = m.text := by
    rw [List.takeWhile_append_of_pos all, ends.1, List.append_nil]
  have left : (m.text ++ rest).dropWhile isNumeral = rest := by
    rw [List.dropWhile_append_of_pos all, ends.2]
  obtain ⟨c, cs, head, numeral⟩ := numeral_head m
  have other {d : Char} {ds : List Char} (no : isNumeral d = false) :
      (d :: ds).isPrefixOf (m.text ++ rest) = false := by
    have differs : d ≠ c := by
      rintro rfl
      rw [no] at numeral
      cases numeral
    rw [head, List.cons_append, List.isPrefixOf_cons_cons, beq_false_of_ne differs, Bool.false_and]
  rw [scalar, other (by decide), other (by decide), other (by decide)]
  simp only [Bool.false_eq_true, if_false]
  rw [dif_pos (by rw [word]; exact m.valid), left]
  exact congrArg (fun v => some (Value.num v, rest)) (Numeral.ext word)

theorem numeral_token (numeral : isNumeral c = true) :
    isSpace c = false ∧ c ≠ '\x22' ∧ c ≠ '[' ∧ c ≠ '\x7b' ∧ c ≠ ']' := by
  have other {d : Char} (no : isNumeral d = false) : c ≠ d := by
    rintro rfl
    rw [no] at numeral
    cases numeral
  refine ⟨?_, other (by decide), other (by decide), other (by decide), other (by decide)⟩
  have blank : c ≠ ' ' := other (by decide)
  have tab : c ≠ '\t' := other (by decide)
  have line : c ≠ '\n' := other (by decide)
  have feed : c ≠ '\r' := other (by decide)
  simp [isSpace, blank, tab, line, feed]

theorem write_head (v : Value) :
    ∃ c cs, write v = c :: cs ∧ isSpace c = false ∧ c ≠ ']' := by
  cases v with
  | null => exact ⟨_, _, rfl, by decide, by decide⟩
  | bool b =>
    cases b with
    | false => exact ⟨_, _, rfl, by decide, by decide⟩
    | true => exact ⟨_, _, rfl, by decide, by decide⟩
  | num m =>
    obtain ⟨c, cs, head, numeral⟩ := numeral_head m
    obtain ⟨space, -, -, -, bracket⟩ := numeral_token numeral
    exact ⟨c, cs, by rw [write, head], space, bracket⟩
  | str s => exact ⟨_, _, rfl, by decide, by decide⟩
  | arr vs =>
    cases vs with
    | nil => exact ⟨_, _, rfl, by decide, by decide⟩
    | cons v vs => exact ⟨_, _, rfl, by decide, by decide⟩
  | obj ms =>
    cases ms with
    | nil => exact ⟨_, _, rfl, by decide, by decide⟩
    | cons m ms => exact ⟨_, _, rfl, by decide, by decide⟩

theorem stops_cons (other : isNumeral c = false) (cs : List Char) :
    Stops (c :: cs) := by
  intro d head
  cases head
  exact other

theorem value_numeral (m : Numeral) (n : ℕ) {rest : List Char} (stops : Stops rest) :
    value (n + 1) (m.text ++ rest) = some (.num m, rest) := by
  obtain ⟨c, cs, head, numeral⟩ := numeral_head m
  obtain ⟨space, quote, bracket, brace, -⟩ := numeral_token numeral
  have read := scalar_numeral m stops
  rw [head, List.cons_append] at read ⊢
  rw [value, skip_cons space]
  simp only [quote, bracket, brace, if_false]
  exact read

/-- With so much fuel, what is written is read back, whatever follows. -/
structure Reads (n : ℕ) : Prop where
  value : ∀ v rest, (write v).length ≤ n → Stops rest → value n (write v ++ rest) = some (v, rest)
  items : ∀ v vs rest, (write v).length + (writeItems vs).length ≤ n →
    items n (write v ++ (writeItems vs ++ rest)) = some (v :: vs, rest)
  members : ∀ k v ms rest, (write v).length + (writeMembers ms).length ≤ n →
    members n (quoted k ++ ':' :: (write v ++ (writeMembers ms ++ rest))) =
      some ((k, v) :: ms, rest)

theorem write_length (v : Value) : 0 < (write v).length := by
  obtain ⟨c, cs, head, -⟩ := write_head v
  rw [head]
  exact Nat.zero_lt_succ _

section Step

variable {n : ℕ} (reads : Reads n)

include reads

theorem value_step (v : Value) (rest : List Char) (fuel : (write v).length ≤ n + 1)
    (stops : Stops rest) : value (n + 1) (write v ++ rest) = some (v, rest) := by
  cases v with
  | null => rfl
  | bool b =>
    cases b with
    | false => rfl
    | true => rfl
  | num m =>
    rw [write]
    exact value_numeral m n stops
  | str s =>
    rw [write, value, quoted_append, skip_cons (by decide)]
    simp only [if_true, text_escaped, Option.map_some]
  | arr vs =>
    cases vs with
    | nil => rfl
    | cons v vs =>
      rw [write, List.length_cons, List.length_append] at fuel
      have read := reads.items v vs rest (by omega)
      obtain ⟨c, cs, head, space, bracket⟩ := write_head v
      rw [write, List.cons_append, List.append_assoc, value, skip_cons (by decide)]
      rw [head, List.cons_append] at read ⊢
      simp only [skip_cons space, read, if_neg (by decide : ¬ '[' = '\x22'), if_true]
      split
      · rename_i eq
        exact absurd (List.cons.inj eq).1 bracket
      · rfl
  | obj ms =>
    cases ms with
    | nil => rfl
    | cons m ms =>
      obtain ⟨k, v⟩ := m
      rw [write, List.length_cons, List.length_append, List.length_cons,
        List.length_append] at fuel
      have read := reads.members k v ms rest (by omega)
      rw [write, List.cons_append, List.append_assoc, List.cons_append, List.append_assoc, value,
        skip_cons (by decide)]
      rw [quoted_append] at read ⊢
      simp only [skip_cons (by decide : isSpace '\x22' = false), read,
        if_neg (by decide : ¬ '\x7b' = '\x22'), if_neg (by decide : ¬ '\x7b' = '['), if_true]
      rfl

theorem items_step (v : Value) (vs : List Value) (rest : List Char)
    (fuel : (write v).length + (writeItems vs).length ≤ n + 1) :
    items (n + 1) (write v ++ (writeItems vs ++ rest)) = some (v :: vs, rest) := by
  have positive := write_length v
  cases vs with
  | nil =>
    rw [writeItems, List.length_singleton] at fuel
    have head := reads.value v (']' :: rest) (by omega) (stops_cons (by decide) rest)
    rw [writeItems, List.singleton_append, items, head]
    simp only [Option.bind_eq_bind, Option.bind_some, skip_cons (by decide : isSpace ']' = false)]
  | cons w vs =>
    rw [writeItems, List.length_cons, List.length_append] at fuel
    have head := reads.value v (',' :: (write w ++ (writeItems vs ++ rest))) (by omega)
      (stops_cons (by decide) _)
    have tail := reads.items w vs rest (by omega)
    rw [writeItems, List.cons_append, List.append_assoc, items, head]
    simp only [Option.bind_eq_bind, Option.bind_some, tail, Option.map_some,
      skip_cons (by decide : isSpace ',' = false)]

theorem members_step (k : String) (v : Value) (ms : List (String × Value)) (rest : List Char)
    (fuel : (write v).length + (writeMembers ms).length ≤ n + 1) :
    members (n + 1) (quoted k ++ ':' :: (write v ++ (writeMembers ms ++ rest))) =
      some ((k, v) :: ms, rest) := by
  have positive := write_length v
  cases ms with
  | nil =>
    rw [writeMembers, List.length_singleton] at fuel
    have head := reads.value v ('\x7d' :: rest) (by omega) (stops_cons (by decide) rest)
    rw [writeMembers, List.singleton_append, members, name_quoted]
    simp only [Option.bind_eq_bind, Option.bind_some, head,
      skip_cons (by decide : isSpace '\x7d' = false)]
  | cons m ms =>
    obtain ⟨l, w⟩ := m
    rw [writeMembers, List.length_cons, List.length_append, List.length_cons,
      List.length_append] at fuel
    have head := reads.value v (',' :: (quoted l ++ ':' :: (write w ++ (writeMembers ms ++ rest))))
      (by omega) (stops_cons (by decide) _)
    have tail := reads.members l w ms rest (by omega)
    rw [writeMembers, List.cons_append, List.append_assoc, List.cons_append, List.append_assoc,
      members, name_quoted]
    simp only [Option.bind_eq_bind, Option.bind_some, head, tail, Option.map_some,
      skip_cons (by decide : isSpace ',' = false)]

end Step

theorem reads (n : ℕ) : Reads n := by
  induction n with
  | zero =>
    have empty {v : Value} {m : ℕ} (fuel : (write v).length + m ≤ 0) : False := by
      have positive := write_length v
      omega
    exact ⟨fun _ _ fuel => (empty (m := 0) fuel).elim, fun _ _ _ fuel => (empty fuel).elim,
      fun _ _ _ _ fuel => (empty fuel).elim⟩
  | succ n ih => exact ⟨value_step ih, items_step ih, members_step ih⟩

theorem parse_write (v : Value) : parse (.ofList (write v)) = some v := by
  have read := (reads ((write v).length + 1)).value v [] (Nat.le_succ _) nofun
  rw [List.append_nil] at read
  simp only [parse, String.toList_ofList, read]
  rfl

theorem value_object {n : ℕ} {cs rest : List Char}
    (h : value n ('\x7b' :: (quoted k ++ cs)) = some (v, rest)) :
    ∃ m ms, v = .obj ms ∧ members m (quoted k ++ cs) = some (ms, rest) := by
  cases n with
  | zero => cases h
  | succ n =>
    rw [value, skip_cons (by decide)] at h
    have quote : isSpace '\x22' = false := by decide
    rw [quoted_append] at h ⊢
    simp only [skip_cons quote, if_neg (by decide : ¬ '\x7b' = '\x22'),
      if_neg (by decide : ¬ '\x7b' = '['), if_true] at h
    obtain ⟨⟨ms, after⟩, run, eq⟩ := Option.map_eq_some_iff.1 h
    cases eq
    exact ⟨n, ms, rfl, run⟩

theorem members_text {n : ℕ} {cs rest : List Char}
    (h : members n (quoted k ++ ':' :: '\x22' :: cs) = some (ms, rest)) :
    ∃ s after, text cs = some (s, after) ∧
      ((skip after = '\x7d' :: rest ∧ ms = [(k, .str s)]) ∨
        ∃ m after' ms', skip after = ',' :: after' ∧ members m after' = some (ms', rest) ∧
          ms = (k, .str s) :: ms') := by
  cases n with
  | zero => cases h
  | succ n =>
    rw [members, name_quoted, Option.bind_eq_bind, Option.bind_some] at h
    obtain ⟨⟨v, after⟩, run, h⟩ := Option.bind_eq_some_iff.1 h
    cases n with
    | zero => cases run
    | succ n =>
      rw [value, skip_cons (by decide)] at run
      simp only [if_true] at run
      obtain ⟨⟨s, after'⟩, read, eq⟩ := Option.map_eq_some_iff.1 run
      cases eq
      refine ⟨s, after', read, ?_⟩
      simp only at h
      split at h
      · rename_i after'' comma
        obtain ⟨⟨ms', rest'⟩, more, eq⟩ := Option.map_eq_some_iff.1 h
        cases eq
        exact .inr ⟨n + 1, after'', ms', comma, more, rfl⟩
      · rename_i after'' brace
        cases h
        exact .inl ⟨brace, rfl⟩
      · cases h

end RoundTrip

end Taper.Json
