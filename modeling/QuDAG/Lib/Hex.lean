import Mathlib.Data.List.Basic

/-!
# Hexadecimal text

The text of a byte string with two lower-case digits for each byte. The decoder accepts digits of
either case.

## Main definitions

* `Hex.encode`, `Hex.decode` — between bytes and text.

## Main results

* `Hex.decode_encode` — decoding gives the bytes back.
-/

namespace Hex

/-- The value of a digit. -/
def value (c : Char) : Option ℕ :=
  if '0' ≤ c ∧ c ≤ '9' then some (c.toNat - 48)
  else if 'a' ≤ c ∧ c ≤ 'f' then some (c.toNat - 87)
  else if 'A' ≤ c ∧ c ≤ 'F' then some (c.toNat - 55)
  else none

/-- A lower-case digit has its value. -/
lemma value_digitChar {n : ℕ} (h : n < 16) : value n.digitChar = some n := by
  have hall : ∀ n < 16, value (Nat.digitChar n) = some n := by decide
  exact hall n h

/-- The digits of a byte string. -/
def digits (bytes : List UInt8) : List Char :=
  bytes.flatMap fun b => [Nat.digitChar (b.toNat / 16), Nat.digitChar (b.toNat % 16)]

/-- The bytes of a sequence of digits, two for each byte. -/
def ofDigits : List Char → Option (List UInt8)
  | c :: c' :: rest => do
    let high ← value c
    let low ← value c'
    let bytes ← ofDigits rest
    some (UInt8.ofNat (high * 16 + low) :: bytes)
  | [] => some []
  | [_] => none

/-- The text of a byte string. -/
def encode (bytes : List UInt8) : String := String.ofList (digits bytes)

/-- The bytes of a text. -/
def decode (text : String) : Option (List UInt8) := ofDigits text.toList

/-- There are two digits for each byte. -/
lemma length_digits (bytes : List UInt8) : (digits bytes).length = 2 * bytes.length := by
  induction bytes with
  | nil => rfl
  | cons b bytes ih =>
    have hcons : digits (b :: bytes) =
        Nat.digitChar (b.toNat / 16) :: Nat.digitChar (b.toNat % 16) :: digits bytes := rfl
    rw [hcons, List.length_cons, List.length_cons, ih, List.length_cons]
    omega

/-- The bytes of its digits are the byte string. -/
lemma ofDigits_digits (bytes : List UInt8) : ofDigits (digits bytes) = some bytes := by
  induction bytes with
  | nil => rfl
  | cons b bytes ih =>
    have hb := b.toNat_lt
    have hhigh : value (Nat.digitChar (b.toNat / 16)) = some (b.toNat / 16) :=
      value_digitChar (by omega)
    have hlow : value (Nat.digitChar (b.toNat % 16)) = some (b.toNat % 16) :=
      value_digitChar (by omega)
    have hbyte : UInt8.ofNat (b.toNat / 16 * 16 + b.toNat % 16) = b := by
      rw [Nat.div_add_mod', UInt8.ofNat_toNat]
    show ofDigits (_ :: _ :: digits bytes) = _
    simp only [ofDigits, hhigh, hlow, ih, hbyte, Option.bind_eq_bind, Option.bind_some]

/-- **Decoding gives the bytes back.** -/
@[simp] theorem decode_encode (bytes : List UInt8) : decode (encode bytes) = some bytes := by
  rw [decode, encode, String.toList_ofList, ofDigits_digits]

end Hex
