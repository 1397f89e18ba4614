import Mathlib.Data.List.Basic

set_option autoImplicit false

/-!
# Base64

The standard alphabet with padding; for URLs two characters differ and nothing
is padded.
-/
namespace Taper.Base64

/-- The alphabet: upper case, lower case, digits, `+` and `/`. -/
def digit (n : ℕ) : UInt8 :=
  if n < 26 then .ofNat (65 + n)
  else if n < 52 then .ofNat (71 + n)
  else if n < 62 then .ofNat (n - 4)
  else if n = 62 then 43
  else 47

def value (c : UInt8) : Option ℕ :=
  if 65 ≤ c.toNat ∧ c.toNat ≤ 90 then some (c.toNat - 65)
  else if 97 ≤ c.toNat ∧ c.toNat ≤ 122 then some (c.toNat - 71)
  else if 48 ≤ c.toNat ∧ c.toNat ≤ 57 then some (c.toNat + 4)
  else if c = 43 then some 62
  else if c = 47 then some 63
  else none

def pad : UInt8 := 61

def encode : List UInt8 → List UInt8
  | [] => []
  | [a] => [digit (a.toNat / 4), digit (a.toNat % 4 * 16), pad, pad]
  | [a, b] =>
    [digit (a.toNat / 4), digit (a.toNat % 4 * 16 + b.toNat / 16), digit (b.toNat % 16 * 4), pad]
  | a :: b :: c :: rest =>
    digit (a.toNat / 4) :: digit (a.toNat % 4 * 16 + b.toNat / 16) ::
      digit (b.toNat % 16 * 4 + c.toNat / 64) :: digit (c.toNat % 64) :: encode rest

def decode : List UInt8 → Option (List UInt8)
  | [] => some []
  | w :: x :: y :: z :: rest => do
    let w ← value w
    let x ← value x
    if y = pad then
      if z = pad ∧ rest = [] then some [.ofNat (w * 4 + x / 16)] else none
    else do
      let y ← value y
      if z = pad then
        if rest = [] then some [.ofNat (w * 4 + x / 16), .ofNat (x % 16 * 16 + y / 4)] else none
      else do
        let z ← value z
        let later ← decode rest
        some (.ofNat (w * 4 + x / 16) :: .ofNat (x % 16 * 16 + y / 4) :: .ofNat (y % 4 * 64 + z) ::
          later)
  | _ => none

theorem digit_value : ∀ n < 64, value (digit n) = some n ∧ digit n ≠ pad := by
  decide

theorem value_digit {n : ℕ} (h : n < 64) : value (digit n) = some n := (digit_value n h).1

theorem digit_ne_pad {n : ℕ} (h : n < 64) : digit n ≠ pad := (digit_value n h).2

theorem ofNat_toNat {a : UInt8} {n : ℕ} (h : n = a.toNat) : UInt8.ofNat n = a := by
  rw [h, UInt8.ofNat_toNat]

theorem decode_encode (s : List UInt8) : decode (encode s) = some s := by
  induction s using encode.induct with
  | case1 => rfl
  | case2 a =>
    have bound := a.toNat_lt
    rw [encode, decode, value_digit (by omega), value_digit (by omega)]
    simp only [Option.bind_eq_bind, Option.bind_some, if_true, and_self]
    rw [ofNat_toNat (a := a) (by omega)]
  | case3 a b =>
    have boundA := a.toNat_lt
    have boundB := b.toNat_lt
    rw [encode, decode, value_digit (by omega), value_digit (by omega)]
    simp only [Option.bind_eq_bind, Option.bind_some]
    rw [if_neg (digit_ne_pad (by omega)), value_digit (by omega)]
    simp only [Option.bind_some, if_true]
    rw [ofNat_toNat (a := a) (by omega), ofNat_toNat (a := b) (by omega)]
  | case4 a b c rest ih =>
    have boundA := a.toNat_lt
    have boundB := b.toNat_lt
    have boundC := c.toNat_lt
    rw [encode, decode, value_digit (by omega), value_digit (by omega)]
    simp only [Option.bind_eq_bind, Option.bind_some]
    rw [if_neg (digit_ne_pad (by omega)), value_digit (by omega)]
    simp only [Option.bind_some]
    rw [if_neg (digit_ne_pad (by omega)), value_digit (by omega), ih]
    simp only [Option.bind_some]
    rw [ofNat_toNat (a := a) (by omega), ofNat_toNat (a := b) (by omega),
      ofNat_toNat (a := c) (by omega)]

def decodeText (s : List UInt8) : Option (List UInt8) := decode (s.filter fun c => c ≠ 10 ∧ c ≠ 13)

theorem digit_inline : ∀ n < 64, digit n ≠ 10 ∧ digit n ≠ 13 := by
  decide

theorem encode_inline (s : List UInt8) : ∀ c ∈ encode s, c ≠ 10 ∧ c ≠ 13 := by
  induction s using encode.induct with
  | case1 => exact nofun
  | case2 a =>
    have bound := a.toNat_lt
    simp only [encode, List.forall_mem_cons]
    exact ⟨digit_inline _ (by omega), digit_inline _ (by omega), by decide, by decide, nofun⟩
  | case3 a b =>
    have boundA := a.toNat_lt
    have boundB := b.toNat_lt
    simp only [encode, List.forall_mem_cons]
    exact ⟨digit_inline _ (by omega), digit_inline _ (by omega), digit_inline _ (by omega),
      by decide, nofun⟩
  | case4 a b c rest ih =>
    have boundA := a.toNat_lt
    have boundB := b.toNat_lt
    have boundC := c.toNat_lt
    simp only [encode, List.forall_mem_cons]
    exact ⟨digit_inline _ (by omega), digit_inline _ (by omega), digit_inline _ (by omega),
      digit_inline _ (by omega), ih⟩

theorem decodeText_encode (s : List UInt8) : decodeText (encode s) = some s := by
  have whole : (encode s).filter (fun c => c ≠ 10 ∧ c ≠ 13) = encode s :=
    List.filter_eq_self.2 fun c mem => decide_eq_true (encode_inline s c mem)
  rw [decodeText, whole, decode_encode]

section Url

def urlDigit (n : ℕ) : UInt8 := if n = 62 then 45 else if n = 63 then 95 else digit n

def urlValue (c : UInt8) : Option ℕ :=
  if c = 45 then some 62
  else if c = 95 then some 63
  else if c = 43 ∨ c = 47 then none
  else value c

def encodeUrl : List UInt8 → List UInt8
  | [] => []
  | [a] => [urlDigit (a.toNat / 4), urlDigit (a.toNat % 4 * 16)]
  | [a, b] =>
    [urlDigit (a.toNat / 4), urlDigit (a.toNat % 4 * 16 + b.toNat / 16),
      urlDigit (b.toNat % 16 * 4)]
  | a :: b :: c :: rest =>
    urlDigit (a.toNat / 4) :: urlDigit (a.toNat % 4 * 16 + b.toNat / 16) ::
      urlDigit (b.toNat % 16 * 4 + c.toNat / 64) :: urlDigit (c.toNat % 64) :: encodeUrl rest

def decodeUrl : List UInt8 → Option (List UInt8)
  | [] => some []
  | [_] => none
  | [w, x] => do
    let w ← urlValue w
    let x ← urlValue x
    some [.ofNat (w * 4 + x / 16)]
  | [w, x, y] => do
    let w ← urlValue w
    let x ← urlValue x
    let y ← urlValue y
    some [.ofNat (w * 4 + x / 16), .ofNat (x % 16 * 16 + y / 4)]
  | w :: x :: y :: z :: rest => do
    let w ← urlValue w
    let x ← urlValue x
    let y ← urlValue y
    let z ← urlValue z
    let later ← decodeUrl rest
    some (.ofNat (w * 4 + x / 16) :: .ofNat (x % 16 * 16 + y / 4) :: .ofNat (y % 4 * 64 + z) ::
      later)

theorem urlDigit_value : ∀ n < 64, urlValue (urlDigit n) = some n ∧
    urlDigit n ≠ 46 ∧ urlDigit n ≠ 10 ∧ urlDigit n ≠ 13 := by
  decide

theorem urlValue_digit {n : ℕ} (h : n < 64) : urlValue (urlDigit n) = some n :=
  (urlDigit_value n h).1

theorem decodeUrl_encodeUrl (s : List UInt8) : decodeUrl (encodeUrl s) = some s := by
  induction s using encodeUrl.induct with
  | case1 => rfl
  | case2 a =>
    have bound := a.toNat_lt
    rw [encodeUrl, decodeUrl, urlValue_digit (by omega), urlValue_digit (by omega)]
    simp only [Option.bind_eq_bind, Option.bind_some]
    rw [ofNat_toNat (a := a) (by omega)]
  | case3 a b =>
    have boundA := a.toNat_lt
    have boundB := b.toNat_lt
    rw [encodeUrl, decodeUrl, urlValue_digit (by omega), urlValue_digit (by omega),
      urlValue_digit (by omega)]
    simp only [Option.bind_eq_bind, Option.bind_some]
    rw [ofNat_toNat (a := a) (by omega), ofNat_toNat (a := b) (by omega)]
  | case4 a b c rest ih =>
    have boundA := a.toNat_lt
    have boundB := b.toNat_lt
    have boundC := c.toNat_lt
    rw [encodeUrl, decodeUrl, urlValue_digit (by omega), urlValue_digit (by omega),
      urlValue_digit (by omega), urlValue_digit (by omega), ih]
    simp only [Option.bind_eq_bind, Option.bind_some]
    rw [ofNat_toNat (a := a) (by omega), ofNat_toNat (a := b) (by omega),
      ofNat_toNat (a := c) (by omega)]

theorem encodeUrl_inline (s : List UInt8) : ∀ c ∈ encodeUrl s, c ≠ 46 ∧ c ≠ 10 ∧ c ≠ 13 := by
  have each {n : ℕ} (h : n < 64) := (urlDigit_value n h).2
  induction s using encodeUrl.induct with
  | case1 => exact nofun
  | case2 a =>
    have bound := a.toNat_lt
    simp only [encodeUrl, List.forall_mem_cons]
    exact ⟨each (by omega), each (by omega), nofun⟩
  | case3 a b =>
    have boundA := a.toNat_lt
    have boundB := b.toNat_lt
    simp only [encodeUrl, List.forall_mem_cons]
    exact ⟨each (by omega), each (by omega), each (by omega), nofun⟩
  | case4 a b c rest ih =>
    have boundA := a.toNat_lt
    have boundB := b.toNat_lt
    have boundC := c.toNat_lt
    simp only [encodeUrl, List.forall_mem_cons]
    exact ⟨each (by omega), each (by omega), each (by omega), each (by omega), ih⟩

def decodeUrlText (s : List UInt8) : Option (List UInt8) :=
  decodeUrl (s.filter fun c => c ≠ 10 ∧ c ≠ 13)

theorem decodeUrlText_encodeUrl (s : List UInt8) : decodeUrlText (encodeUrl s) = some s := by
  have whole : (encodeUrl s).filter (fun c => c ≠ 10 ∧ c ≠ 13) = encodeUrl s :=
    List.filter_eq_self.2 fun c mem => decide_eq_true (encodeUrl_inline s c mem).2
  rw [decodeUrlText, whole, decodeUrl_encodeUrl]

theorem encodeUrl_ne_nil {s : List UInt8} (some_ : s ≠ []) : encodeUrl s ≠ [] := by
  intro empty
  have back := decodeUrl_encodeUrl s
  rw [empty, decodeUrl] at back
  exact some_ (Option.some.inj back).symm

end Url

end Taper.Base64
