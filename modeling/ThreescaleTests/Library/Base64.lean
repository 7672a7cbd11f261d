import Mathlib.Data.List.Basic

/-!
# Base64

Three bytes are written as four characters; one or two bytes left at the end are
padded. Decoding is the inverse of encoding.
-/

namespace Library.Base64

/-- The character of a digit below 64. -/
def digitChar (n : Nat) : Char :=
  if n < 26 then Char.ofNat (65 + n)
  else if n < 52 then Char.ofNat (97 + (n - 26))
  else if n < 62 then Char.ofNat (48 + (n - 52))
  else if n = 62 then '+'
  else '/'

/-- The digit of a character of the alphabet. -/
def charDigit (c : Char) : Option Nat :=
  if 'A' ≤ c ∧ c ≤ 'Z' then some (c.toNat - 65)
  else if 'a' ≤ c ∧ c ≤ 'z' then some (c.toNat - 97 + 26)
  else if '0' ≤ c ∧ c ≤ '9' then some (c.toNat - 48 + 52)
  else if c = '+' then some 62
  else if c = '/' then some 63
  else none

theorem charDigit_digitChar {n : Nat} (h : n < 64) : charDigit (digitChar n) = some n := by
  have hall : ∀ m : Fin 64, charDigit (digitChar m) = some m.val := by decide
  exact hall ⟨n, h⟩

theorem digitChar_ne_pad {n : Nat} (h : n < 64) : digitChar n ≠ '=' := by
  intro he
  have hd := charDigit_digitChar h
  have hnone : charDigit '=' = none := by decide
  rw [he, hnone] at hd
  contradiction

def encode : List UInt8 → List Char
  | [] => []
  | [a] => [digitChar (a.toNat / 4), digitChar (a.toNat % 4 * 16), '=', '=']
  | [a, b] =>
      [digitChar (a.toNat / 4), digitChar (a.toNat % 4 * 16 + b.toNat / 16),
        digitChar (b.toNat % 16 * 4), '=']
  | a :: b :: c :: rest =>
      digitChar (a.toNat / 4) :: digitChar (a.toNat % 4 * 16 + b.toNat / 16) ::
        digitChar (b.toNat % 16 * 4 + c.toNat / 64) :: digitChar (c.toNat % 64) :: encode rest

def firstByte (p q : Nat) : UInt8 := UInt8.ofNat (p * 4 + q / 16)

def secondByte (q r : Nat) : UInt8 := UInt8.ofNat (q % 16 * 16 + r / 4)

def thirdByte (r s : Nat) : UInt8 := UInt8.ofNat (r % 4 * 64 + s)

def decode : List Char → Option (List UInt8)
  | [] => some []
  | [c, d, '=', '='] => do
      let p ← charDigit c
      let q ← charDigit d
      some [firstByte p q]
  | [c, d, e, '='] => do
      let p ← charDigit c
      let q ← charDigit d
      let r ← charDigit e
      some [firstByte p q, secondByte q r]
  | c :: d :: e :: f :: rest => do
      let p ← charDigit c
      let q ← charDigit d
      let r ← charDigit e
      let s ← charDigit f
      let bytes ← decode rest
      some (firstByte p q :: secondByte q r :: thirdByte r s :: bytes)
  | _ => none

/-! ## Round trip -/

theorem firstByte_split (a : UInt8) {m : Nat} (h : m < 16) :
    firstByte (a.toNat / 4) (a.toNat % 4 * 16 + m) = a := by
  have hn : a.toNat / 4 * 4 + (a.toNat % 4 * 16 + m) / 16 = a.toNat := by omega
  rw [firstByte, hn]
  exact UInt8.ofNat_toNat

theorem secondByte_split (b : UInt8) {l m : Nat} (h : m < 4) :
    secondByte (l * 16 + b.toNat / 16) (b.toNat % 16 * 4 + m) = b := by
  have hb : b.toNat < 256 := b.toNat_lt
  have hn : (l * 16 + b.toNat / 16) % 16 * 16 + (b.toNat % 16 * 4 + m) / 4 = b.toNat := by omega
  rw [secondByte, hn]
  exact UInt8.ofNat_toNat

theorem thirdByte_split (c : UInt8) {l : Nat} :
    thirdByte (l * 4 + c.toNat / 64) (c.toNat % 64) = c := by
  have hc : c.toNat < 256 := c.toNat_lt
  have hn : (l * 4 + c.toNat / 64) % 4 * 64 + c.toNat % 64 = c.toNat := by omega
  rw [thirdByte, hn]
  exact UInt8.ofNat_toNat

theorem decode_encode (bytes : List UInt8) : decode (encode bytes) = some bytes := by
  induction bytes using encode.induct with
  | case1 => rfl
  | case2 a =>
      have ha : a.toNat < 256 := a.toNat_lt
      have hp := charDigit_digitChar (n := a.toNat / 4) (by omega)
      have hq := charDigit_digitChar (n := a.toNat % 4 * 16) (by omega)
      have hfirst := firstByte_split a (m := 0) (by omega)
      simpa [encode, decode, hp, hq] using hfirst
  | case3 a b =>
      have ha : a.toNat < 256 := a.toNat_lt
      have hb : b.toNat < 256 := b.toNat_lt
      have hp := charDigit_digitChar (n := a.toNat / 4) (by omega)
      have hq := charDigit_digitChar (n := a.toNat % 4 * 16 + b.toNat / 16) (by omega)
      have hr := charDigit_digitChar (n := b.toNat % 16 * 4) (by omega)
      have hpad := digitChar_ne_pad (n := b.toNat % 16 * 4) (by omega)
      have hfirst := firstByte_split a (m := b.toNat / 16) (by omega)
      have hsecond := secondByte_split b (l := a.toNat % 4) (m := 0) (by omega)
      simp only [Nat.add_zero] at hsecond
      simp [encode, decode, hp, hq, hr, hfirst, hsecond]
  | case4 a b c rest ih =>
      have ha : a.toNat < 256 := a.toNat_lt
      have hb : b.toNat < 256 := b.toNat_lt
      have hc : c.toNat < 256 := c.toNat_lt
      have hp := charDigit_digitChar (n := a.toNat / 4) (by omega)
      have hq := charDigit_digitChar (n := a.toNat % 4 * 16 + b.toNat / 16) (by omega)
      have hr := charDigit_digitChar (n := b.toNat % 16 * 4 + c.toNat / 64) (by omega)
      have hs := charDigit_digitChar (n := c.toNat % 64) (by omega)
      have hpad := digitChar_ne_pad (n := c.toNat % 64) (by omega)
      have hfirst := firstByte_split a (m := b.toNat / 16) (by omega)
      have hsecond := secondByte_split b (l := a.toNat % 4) (m := c.toNat / 64) (by omega)
      have hthird := thirdByte_split c (l := b.toNat % 16)
      simp [encode, decode, hpad, hp, hq, hr, hs, ih, hfirst, hsecond, hthird]

end Library.Base64
