import Mathlib.Data.List.Lex

/-!
# Byte strings

Byte strings are lists of `UInt8`, compared lexicographically. `fromUtf8` and `fromUtf8Lossy` are
the strict and the replacing UTF-8 decoder.

## Main definitions

* `Bytes.fromUtf8` — decode, or nothing if the bytes are not valid UTF-8.
* `Bytes.fromUtf8Lossy` — decode, with the replacement character for every maximal invalid sequence.
* `Bytes.ofString` — the bytes of a string.

## Main results

* `Bytes.fromUtf8_of_isUtf8` — strict decoding keeps the bytes, so it loses nothing.
* `Bytes.ofString_injective` — a string is determined by its bytes.
-/

/-- Bytes are ordered as numbers. -/
instance instLinearOrderUInt8 : LinearOrder UInt8 where
  le_refl := UInt8.le_refl
  le_trans _ _ _ := UInt8.le_trans
  le_antisymm _ _ := UInt8.le_antisymm
  le_total := UInt8.le_total
  lt_iff_le_not_ge a b := by
    rw [UInt8.not_le, iff_and_self]
    exact fun h => UInt8.le_of_lt h
  toDecidableLE := inferInstance
  toDecidableEq := inferInstance
  toDecidableLT := inferInstance

namespace Bytes

/-- The bytes of a string. -/
def ofString (s : String) : List UInt8 := s.toByteArray.data.toList

/-- Decode a byte string, or nothing if it is not valid UTF-8. -/
def fromUtf8 (bytes : List UInt8) : Option String := String.fromUTF8? ⟨bytes.toArray⟩

/-- The byte string is valid UTF-8. -/
def IsUtf8 (bytes : List UInt8) : Prop := ByteArray.IsValidUTF8 ⟨bytes.toArray⟩

instance (bytes : List UInt8) : Decidable (IsUtf8 bytes) :=
  inferInstanceAs (Decidable (ByteArray.IsValidUTF8 _))

/-- Valid UTF-8 decodes to a string with the same bytes. -/
lemma fromUtf8_of_isUtf8 {bytes : List UInt8} (h : IsUtf8 bytes) :
    ∃ s, fromUtf8 bytes = some s ∧ ofString s = bytes := by
  refine ⟨String.fromUTF8 ⟨bytes.toArray⟩ h, dif_pos h, ?_⟩
  simp [ofString, String.fromUTF8]

/-- Anything else does not decode. -/
lemma fromUtf8_of_not_isUtf8 {bytes : List UInt8} (h : ¬ IsUtf8 bytes) :
    fromUtf8 bytes = none := dif_neg h

/-- The bytes of a string are valid UTF-8. -/
lemma isUtf8_ofString (s : String) : IsUtf8 (ofString s) := s.isValidUTF8

/-- A string is determined by its bytes. -/
lemma ofString_injective : Function.Injective ofString := by
  intro s t h
  rw [← String.toByteArray_inj]
  exact ByteArray.ext (Array.toList_inj.mp h)

/-- The bytes of a concatenation. -/
@[simp] lemma ofString_append (s t : String) : ofString (s ++ t) = ofString s ++ ofString t := by
  simp [ofString, String.toByteArray_append]

/-- The bytes of a string are those of its characters. -/
lemma ofString_ofList (chars : List Char) :
    ofString (String.ofList chars) = chars.flatMap String.utf8EncodeChar := by
  simp [ofString, List.utf8Encode]

/-- A character takes at least one byte. -/
lemma length_le_ofString (chars : List Char) :
    chars.length ≤ (ofString (String.ofList chars)).length := by
  rw [ofString_ofList]
  induction chars with
  | nil => exact le_refl _
  | cons c chars ih =>
    have hpos := Char.utf8Size_pos c
    rw [List.flatMap_cons, List.length_append, String.length_utf8EncodeChar, List.length_cons]
    omega

/-- A repeated one-byte character takes as many bytes as it has copies. -/
lemma length_ofString_replicate (n : ℕ) {c : Char} (hsize : c.utf8Size = 1) :
    (ofString (String.ofList (List.replicate n c))).length = n := by
  rw [ofString_ofList, List.length_flatMap, List.map_replicate, String.length_utf8EncodeChar, hsize,
    List.sum_replicate_nat, Nat.mul_one]

/-! ## Replacing invalid sequences -/

/-- A continuation byte `10xxxxxx`. -/
def isContinuation (b : UInt8) : Bool := 0x80 ≤ b && b ≤ 0xBF

/-- A second byte that may follow the first byte of a three-byte sequence. -/
def secondOfThree (b₀ b₁ : UInt8) : Bool :=
  if b₀ = 0xE0 then 0xA0 ≤ b₁ && b₁ ≤ 0xBF
  else if b₀ = 0xED then 0x80 ≤ b₁ && b₁ ≤ 0x9F
  else isContinuation b₁

/-- A second byte that may follow the first byte of a four-byte sequence. -/
def secondOfFour (b₀ b₁ : UInt8) : Bool :=
  if b₀ = 0xF0 then 0x90 ≤ b₁ && b₁ ≤ 0xBF
  else if b₀ = 0xF4 then 0x80 ≤ b₁ && b₁ ≤ 0x8F
  else isContinuation b₁

/-- The payload bits of a continuation byte. -/
def low6 (b : UInt8) : ℕ := b.toNat % 64

/-- Decode, writing the replacement character `U+FFFD` once for every maximal sequence of bytes
that starts like a character but does not end like one. -/
def lossyChars : List UInt8 → List Char
  | [] => []
  | b₀ :: rest =>
    if b₀ < 0x80 then Char.ofNat b₀.toNat :: lossyChars rest
    else if 0xC2 ≤ b₀ && b₀ ≤ 0xDF then
      match rest with
      | [] => ['\uFFFD']
      | b₁ :: rest₁ =>
        if isContinuation b₁ then
          Char.ofNat (b₀.toNat % 32 * 64 + low6 b₁) :: lossyChars rest₁
        else '\uFFFD' :: lossyChars (b₁ :: rest₁)
    else if 0xE0 ≤ b₀ && b₀ ≤ 0xEF then
      match rest with
      | [] => ['\uFFFD']
      | [b₁] =>
        if secondOfThree b₀ b₁ then ['\uFFFD'] else '\uFFFD' :: lossyChars [b₁]
      | b₁ :: b₂ :: rest₂ =>
        if secondOfThree b₀ b₁ then
          if isContinuation b₂ then
            Char.ofNat ((b₀.toNat % 16 * 64 + low6 b₁) * 64 + low6 b₂) :: lossyChars rest₂
          else '\uFFFD' :: lossyChars (b₂ :: rest₂)
        else '\uFFFD' :: lossyChars (b₁ :: b₂ :: rest₂)
    else if 0xF0 ≤ b₀ && b₀ ≤ 0xF4 then
      match rest with
      | [] => ['\uFFFD']
      | [b₁] =>
        if secondOfFour b₀ b₁ then ['\uFFFD'] else '\uFFFD' :: lossyChars [b₁]
      | [b₁, b₂] =>
        if secondOfFour b₀ b₁ then
          if isContinuation b₂ then ['\uFFFD'] else '\uFFFD' :: lossyChars [b₂]
        else '\uFFFD' :: lossyChars [b₁, b₂]
      | b₁ :: b₂ :: b₃ :: rest₃ =>
        if secondOfFour b₀ b₁ then
          if isContinuation b₂ then
            if isContinuation b₃ then
              Char.ofNat (((b₀.toNat % 8 * 64 + low6 b₁) * 64 + low6 b₂) * 64 + low6 b₃) ::
                lossyChars rest₃
            else '\uFFFD' :: lossyChars (b₃ :: rest₃)
          else '\uFFFD' :: lossyChars (b₂ :: b₃ :: rest₃)
        else '\uFFFD' :: lossyChars (b₁ :: b₂ :: b₃ :: rest₃)
    else '\uFFFD' :: lossyChars rest

/-- Decode a byte string, replacing what is not valid UTF-8. -/
def fromUtf8Lossy (bytes : List UInt8) : String := String.ofList (lossyChars bytes)

example : fromUtf8Lossy [0x41, 0xE2, 0x82, 0x41, 0xC3, 0xA9] = "A\uFFFDAé" := by decide

end Bytes
