import Mathlib.Data.List.Basic

/-!
# Base64

The standard base64 text of a byte string: four symbols for every three bytes, padded with `=`.
The decoder accepts padded text only and no stray bits before the padding.

## Main definitions

* `Base64.encode`, `Base64.decode` — between bytes and text.

## Main results

* `Base64.decode_encode` — decoding gives the bytes back.
-/

namespace Base64

/-- The 64 symbols. -/
def alphabet : List Char :=
  "ABCDEFGHIJKLMNOPQRSTUVWXYZabcdefghijklmnopqrstuvwxyz0123456789+/".toList

/-- The symbol of a six-bit value. -/
def symbol (n : ℕ) : Char := alphabet.getD n '='

/-- The value of a symbol. -/
def value (c : Char) : Option ℕ := alphabet.idxOf? c

/-- A symbol has its value. -/
lemma value_symbol {n : ℕ} (h : n < 64) : value (symbol n) = some n := by
  have hall : ∀ n < 64, value (symbol n) = some n := by decide +kernel
  exact hall n h

/-- The padding is not a symbol. -/
lemma symbol_ne_padding {n : ℕ} (h : n < 64) : symbol n ≠ '=' := by
  have hall : ∀ n < 64, symbol n ≠ '=' := by decide +kernel
  exact hall n h

/-- The symbols of a byte string. -/
def encodeChars : List UInt8 → List Char
  | [] => []
  | [a] => [symbol (a.toNat / 4), symbol (a.toNat % 4 * 16), '=', '=']
  | [a, b] =>
    [symbol (a.toNat / 4), symbol (a.toNat % 4 * 16 + b.toNat / 16),
      symbol (b.toNat % 16 * 4), '=']
  | a :: b :: c :: rest =>
    symbol (a.toNat / 4) :: symbol (a.toNat % 4 * 16 + b.toNat / 16) ::
      symbol (b.toNat % 16 * 4 + c.toNat / 64) :: symbol (c.toNat % 64) :: encodeChars rest

/-- One byte from two symbols, whose last four bits are unused. -/
def decodeOne (c₀ c₁ : Char) : Option (List UInt8) := do
  let v₀ ← value c₀
  let v₁ ← value c₁
  if v₁ % 16 = 0 then some [UInt8.ofNat (v₀ * 4 + v₁ / 16)] else none

/-- Two bytes from three symbols, whose last two bits are unused. -/
def decodeTwo (c₀ c₁ c₂ : Char) : Option (List UInt8) := do
  let v₀ ← value c₀
  let v₁ ← value c₁
  let v₂ ← value c₂
  if v₂ % 4 = 0 then
    some [UInt8.ofNat (v₀ * 4 + v₁ / 16), UInt8.ofNat (v₁ % 16 * 16 + v₂ / 4)]
  else none

/-- Three bytes from four symbols. -/
def decodeThree (c₀ c₁ c₂ c₃ : Char) : Option (List UInt8) := do
  let v₀ ← value c₀
  let v₁ ← value c₁
  let v₂ ← value c₂
  let v₃ ← value c₃
  some [UInt8.ofNat (v₀ * 4 + v₁ / 16), UInt8.ofNat (v₁ % 16 * 16 + v₂ / 4),
    UInt8.ofNat (v₂ % 4 * 64 + v₃)]

/-- The bytes of a sequence of symbols. -/
def decodeChars : List Char → Option (List UInt8)
  | [] => some []
  | c₀ :: c₁ :: c₂ :: c₃ :: rest =>
    if c₃ = '=' then
      if rest = [] then
        if c₂ = '=' then decodeOne c₀ c₁ else decodeTwo c₀ c₁ c₂
      else none
    else do
      let bytes ← decodeThree c₀ c₁ c₂ c₃
      let bytes' ← decodeChars rest
      some (bytes ++ bytes')
  | _ => none

/-- The base64 text of a byte string. -/
def encode (bytes : List UInt8) : String := String.ofList (encodeChars bytes)

/-- The bytes of a base64 text, or nothing if it is not well-formed. -/
def decode (text : String) : Option (List UInt8) := decodeChars text.toList

/-- A byte is rebuilt from its number. -/
lemma ofNat_eq {a : UInt8} {n : ℕ} (h : n = a.toNat) : UInt8.ofNat n = a := by
  rw [h, UInt8.ofNat_toNat]

/-- One byte is rebuilt from its symbols. -/
lemma decodeOne_symbols (a : UInt8) :
    decodeOne (symbol (a.toNat / 4)) (symbol (a.toNat % 4 * 16)) = some [a] := by
  have ha := a.toNat_lt
  simp only [decodeOne, value_symbol (show a.toNat / 4 < 64 by omega),
    value_symbol (show a.toNat % 4 * 16 < 64 by omega), Option.bind_eq_bind, Option.bind_some]
  rw [if_pos (by omega), ofNat_eq (show _ = a.toNat by omega)]

/-- Two bytes are rebuilt from their symbols. -/
lemma decodeTwo_symbols (a b : UInt8) :
    decodeTwo (symbol (a.toNat / 4)) (symbol (a.toNat % 4 * 16 + b.toNat / 16))
      (symbol (b.toNat % 16 * 4)) = some [a, b] := by
  have ha := a.toNat_lt
  have hb := b.toNat_lt
  simp only [decodeTwo, value_symbol (show a.toNat / 4 < 64 by omega),
    value_symbol (show a.toNat % 4 * 16 + b.toNat / 16 < 64 by omega),
    value_symbol (show b.toNat % 16 * 4 < 64 by omega), Option.bind_eq_bind, Option.bind_some]
  rw [if_pos (by omega), ofNat_eq (show _ = a.toNat by omega),
    ofNat_eq (show _ = b.toNat by omega)]

/-- Three bytes are rebuilt from their symbols. -/
lemma decodeThree_symbols (a b c : UInt8) :
    decodeThree (symbol (a.toNat / 4)) (symbol (a.toNat % 4 * 16 + b.toNat / 16))
      (symbol (b.toNat % 16 * 4 + c.toNat / 64)) (symbol (c.toNat % 64)) = some [a, b, c] := by
  have ha := a.toNat_lt
  have hb := b.toNat_lt
  have hc := c.toNat_lt
  simp only [decodeThree, value_symbol (show a.toNat / 4 < 64 by omega),
    value_symbol (show a.toNat % 4 * 16 + b.toNat / 16 < 64 by omega),
    value_symbol (show b.toNat % 16 * 4 + c.toNat / 64 < 64 by omega),
    value_symbol (show c.toNat % 64 < 64 by omega), Option.bind_eq_bind, Option.bind_some]
  rw [ofNat_eq (show _ = a.toNat by omega), ofNat_eq (show _ = b.toNat by omega),
    ofNat_eq (show _ = c.toNat by omega)]

/-- Decoding symbols gives the bytes back. -/
lemma decodeChars_encodeChars (bytes : List UInt8) :
    decodeChars (encodeChars bytes) = some bytes := by
  induction bytes using encodeChars.induct with
  | case1 => rfl
  | case2 a =>
    rw [encodeChars, decodeChars, if_pos rfl, if_pos rfl, if_pos rfl]
    exact decodeOne_symbols a
  | case3 a b =>
    have hb := b.toNat_lt
    rw [encodeChars, decodeChars, if_pos rfl, if_pos rfl,
      if_neg (symbol_ne_padding (by omega))]
    exact decodeTwo_symbols a b
  | case4 a b c rest ih =>
    have hc := c.toNat_lt
    rw [encodeChars, decodeChars, if_neg (symbol_ne_padding (by omega)), decodeThree_symbols, ih]
    rfl

/-- There are at least as many symbols as bytes. -/
lemma length_le_encodeChars (bytes : List UInt8) :
    bytes.length ≤ (encodeChars bytes).length := by
  induction bytes using encodeChars.induct with
  | case1 => exact Nat.le_refl _
  | case2 a =>
    rw [encodeChars]
    simp
  | case3 a b =>
    rw [encodeChars]
    simp
  | case4 a b c rest ih =>
    rw [encodeChars]
    simp only [List.length_cons]
    omega

/-- **Round trip**: decoding the text of a byte string gives it back. -/
theorem decode_encode (bytes : List UInt8) : decode (encode bytes) = some bytes := by
  rw [decode, encode, String.toList_ofList]
  exact decodeChars_encodeChars bytes

example : encode [0x66, 0x6F, 0x6F, 0x62] = "Zm9vYg==" := by decide +kernel

end Base64
