import QuDAG.Lib.Bytes

/-!
# Decoding UTF-8 byte by byte

The decoder of the Encoding Standard, which stops at the first byte that no text can have there, and
a stream decoder on top of it, which takes a byte order mark off the beginning of its text.

## Main definitions

* `Utf8.State`, `Utf8.State.step` — what is known between two bytes, and what a byte adds.
* `Utf8.State.decode` — the characters that some bytes complete.
* `TextDecoder`, `TextDecoder.decode` — a stream decoder, and the text of a chunk.

## Main results

* `Utf8.decode_ofString` — the bytes of a text are decoded to the text.
* `TextDecoder.decode_append` — the text of two chunks.
-/

namespace Utf8

/-- Between two bytes: the bits so far, how many bytes are missing, and the bounds of the next
one. -/
structure State where
  codePoint : ℕ
  needed : ℕ
  lower : ℕ
  upper : ℕ
  deriving DecidableEq, Repr

namespace State

/-- Between two characters. -/
def start : State := ⟨0, 0, 0x80, 0xbf⟩

/-- The first byte of a character. -/
def lead (byte : ℕ) : Option (State × List Char) :=
  if byte ≤ 0x7f then some (start, [Char.ofNat byte])
  else if 0xc2 ≤ byte ∧ byte ≤ 0xdf then some (⟨byte % 0x20, 1, 0x80, 0xbf⟩, [])
  else if 0xe0 ≤ byte ∧ byte ≤ 0xef then
    -- no overlong encodings, and no surrogates
    some (⟨byte % 0x10, 2, if byte = 0xe0 then 0xa0 else 0x80, if byte = 0xed then 0x9f else 0xbf⟩,
      [])
  else if 0xf0 ≤ byte ∧ byte ≤ 0xf4 then
    -- no overlong encodings, and nothing above the last code point
    some (⟨byte % 0x8, 3, if byte = 0xf0 then 0x90 else 0x80, if byte = 0xf4 then 0x8f else 0xbf⟩,
      [])
  else none

/-- A byte: the state after it and the character that it completes, or nothing if it cannot be
there. -/
def step (s : State) (byte : UInt8) : Option (State × List Char) :=
  if s.needed = 0 then lead byte.toNat
  else if byte.toNat < s.lower ∨ s.upper < byte.toNat then none
  else
    let codePoint := s.codePoint * 0x40 + byte.toNat % 0x40
    if s.needed = 1 then some (start, [Char.ofNat codePoint])
    else some (⟨codePoint, s.needed - 1, 0x80, 0xbf⟩, [])

/-- The characters that some bytes complete, and the state after them. -/
def decode (s : State) : List UInt8 → Option (List Char × State)
  | [] => some ([], s)
  | byte :: bytes =>
    (s.step byte).bind fun r => (r.1.decode bytes).map fun t => (r.2 ++ t.1, t.2)

/-- The characters of two chunks. -/
lemma decode_append (s : State) (bytes bytes' : List UInt8) :
    s.decode (bytes ++ bytes') =
      (s.decode bytes).bind fun r => (r.2.decode bytes').map fun t => (r.1 ++ t.1, t.2) := by
  induction bytes generalizing s with
  | nil => simp [decode]
  | cons byte bytes ih =>
    rw [List.cons_append, decode, decode]
    cases s.step byte with
    | none => rfl
    | some r =>
      rw [Option.bind_some, Option.bind_some, ih]
      cases r.1.decode bytes with
      | none => rfl
      | some t =>
        rw [Option.bind_some, Option.map_some, Option.bind_some]
        cases t.2.decode bytes' with
        | none => rfl
        | some u => simp only [Option.map_some, List.append_assoc]

/-- The first byte of a character that has more. -/
lemma decode_cons_of_needed {s s' : State} {byte : UInt8} {bytes : List UInt8}
    (h : s.step byte = some (s', [])) : s.decode (byte :: bytes) = s'.decode bytes := by
  rw [decode, h, Option.bind_some]
  cases s'.decode bytes <;> rfl

/-- The last byte of a character. -/
lemma decode_cons_of_char {s s' : State} {byte : UInt8} {bytes : List UInt8} {c : Char}
    (h : s.step byte = some (s', [c])) :
    s.decode (byte :: bytes) = (s'.decode bytes).map fun t => (c :: t.1, t.2) := by
  rw [decode, h, Option.bind_some]
  rfl

/-- A byte that carries six more bits, in the middle of a character. -/
lemma step_more {cp needed lower upper bits : ℕ} (hbits : bits < 0x40)
    (hlower : lower ≤ bits + 0x80) (hupper : bits + 0x80 ≤ upper) :
    step ⟨cp, needed + 2, lower, upper⟩ (UInt8.ofNat (bits + 0x80)) =
      some (⟨cp * 0x40 + bits, needed + 1, 0x80, 0xbf⟩, []) := by
  have hbyte : (UInt8.ofNat (bits + 0x80)).toNat = bits + 0x80 :=
    UInt8.toNat_ofNat_of_lt' (by show bits + 0x80 < 256; omega)
  have hmod : (bits + 0x80) % 0x40 = bits := by omega
  simp only [step, hbyte, hmod]
  rw [if_neg (Nat.succ_ne_zero _), if_neg (by omega), if_neg (by omega)]
  rfl

/-- A byte that carries the last six bits of a character. -/
lemma step_last {cp lower upper bits : ℕ} (hbits : bits < 0x40) (hlower : lower ≤ bits + 0x80)
    (hupper : bits + 0x80 ≤ upper) :
    step ⟨cp, 1, lower, upper⟩ (UInt8.ofNat (bits + 0x80)) =
      some (start, [Char.ofNat (cp * 0x40 + bits)]) := by
  have hbyte : (UInt8.ofNat (bits + 0x80)).toNat = bits + 0x80 :=
    UInt8.toNat_ofNat_of_lt' (by show bits + 0x80 < 256; omega)
  have hmod : (bits + 0x80) % 0x40 = bits := by omega
  simp only [step, hbyte, hmod]
  rw [if_neg Nat.one_ne_zero, if_neg (by omega), if_pos trivial]

/-- The first byte of a character. -/
lemma step_start {byte : ℕ} (h : byte < 256) : start.step (UInt8.ofNat byte) = lead byte := by
  rw [step, if_pos (show start.needed = 0 from rfl), UInt8.toNat_ofNat_of_lt' h]

/-! ## The first byte of a code point -/

section Lead

variable {v : ℕ}

/-- The first byte of two. -/
lemma lead_two (h : 0x7f < v) (hle : v ≤ 0x7ff) :
    lead (v / 64 % 0x20 + 0xc0) = some (⟨v / 64 % 0x20, 1, 0x80, 0xbf⟩, []) := by
  rw [lead, if_neg (by omega), if_pos (by omega),
    show (v / 64 % 0x20 + 0xc0) % 0x20 = v / 64 % 0x20 by omega]

/-- The first byte of three, and the bounds of the second one. -/
lemma exists_lead_three (h : 0x7ff < v) (hle : v ≤ 0xffff) (hvalid : v < 0xd800 ∨ 0xdfff < v) :
    ∃ lower upper,
      lead (v / 4096 % 0x10 + 0xe0) = some (⟨v / 4096 % 0x10, 2, lower, upper⟩, []) ∧
        lower ≤ v / 64 % 0x40 + 0x80 ∧ v / 64 % 0x40 + 0x80 ≤ upper := by
  refine ⟨if v / 4096 % 0x10 + 0xe0 = 0xe0 then 0xa0 else 0x80,
    if v / 4096 % 0x10 + 0xe0 = 0xed then 0x9f else 0xbf, ?_, ?_, ?_⟩
  · rw [lead, if_neg (by omega), if_neg (by omega), if_pos (by omega),
      show (v / 4096 % 0x10 + 0xe0) % 0x10 = v / 4096 % 0x10 by omega]
  · -- otherwise two bytes would do
    split_ifs <;> omega
  · -- no character is a surrogate
    split_ifs <;> omega

/-- The first byte of four, and the bounds of the second one. -/
lemma exists_lead_four (h : 0xffff < v) (hlt : v < 0x110000) :
    ∃ lower upper,
      lead (v / 262144 % 0x08 + 0xf0) = some (⟨v / 262144 % 0x08, 3, lower, upper⟩, []) ∧
        lower ≤ v / 4096 % 0x40 + 0x80 ∧ v / 4096 % 0x40 + 0x80 ≤ upper := by
  refine ⟨if v / 262144 % 0x08 + 0xf0 = 0xf0 then 0x90 else 0x80,
    if v / 262144 % 0x08 + 0xf0 = 0xf4 then 0x8f else 0xbf, ?_, ?_, ?_⟩
  · rw [lead, if_neg (by omega), if_neg (by omega), if_neg (by omega), if_pos (by omega),
      show (v / 262144 % 0x08 + 0xf0) % 0x08 = v / 262144 % 0x08 by omega]
  · -- otherwise three bytes would do
    split_ifs <;> omega
  · -- no character is above the last code point
    split_ifs <;> omega

end Lead

end State

open State

/-- The bytes of a character are decoded to it. -/
lemma decode_utf8EncodeChar (c : Char) (bytes : List UInt8) :
    start.decode (String.utf8EncodeChar c ++ bytes) =
      (start.decode bytes).map fun t => (c :: t.1, t.2) := by
  have hvalid : c.val.toNat < 0xd800 ∨ 0xdfff < c.val.toNat ∧ c.val.toNat < 0x110000 := c.valid
  have hchar : Char.ofNat c.val.toNat = c := Char.ofNat_toNat c
  rw [String.utf8EncodeChar]
  generalize c.val.toNat = v at hvalid hchar ⊢
  split_ifs with hone htwo hthree
  · refine decode_cons_of_char ?_
    rw [step_start (by omega), lead, if_pos hone, hchar]
  · have hv : v / 64 % 0x20 * 0x40 + v % 0x40 = v := by omega
    have hlead := lead_two (v := v) (by omega) (by omega)
    refine (decode_cons_of_needed ((step_start (by omega)).trans hlead)).trans
      (decode_cons_of_char ?_)
    rw [step_last (by omega) (by omega) (by omega), hv, hchar]
  · have hv : (v / 4096 % 0x10 * 0x40 + v / 64 % 0x40) * 0x40 + v % 0x40 = v := by omega
    obtain ⟨lower, upper, hlead, hlower, hupper⟩ :=
      exists_lead_three (v := v) (by omega) (by omega) (by omega)
    refine (decode_cons_of_needed ((step_start (by omega)).trans hlead)).trans
      ((decode_cons_of_needed (step_more (by omega) hlower hupper)).trans
        (decode_cons_of_char ?_))
    rw [step_last (by omega) (by omega) (by omega), hv, hchar]
  · have hv : ((v / 262144 % 0x08 * 0x40 + v / 4096 % 0x40) * 0x40 + v / 64 % 0x40) * 0x40 +
        v % 0x40 = v := by omega
    obtain ⟨lower, upper, hlead, hlower, hupper⟩ := exists_lead_four (v := v) (by omega) (by omega)
    refine (decode_cons_of_needed ((step_start (by omega)).trans hlead)).trans
      ((decode_cons_of_needed (step_more (by omega) hlower hupper)).trans
        ((decode_cons_of_needed (step_more (by omega) (by omega) (by omega))).trans
          (decode_cons_of_char ?_)))
    rw [step_last (by omega) (by omega) (by omega), hv, hchar]

/-- **The bytes of a text are decoded to the text.** -/
theorem decode_ofString (text : String) :
    start.decode (Bytes.ofString text) = some (text.toList, start) := by
  rw [← String.ofList_toList (s := text), Bytes.ofString_ofList, String.toList_ofList]
  induction text.toList with
  | nil => rfl
  | cons c chars ih => rw [List.flatMap_cons, decode_utf8EncodeChar, ih, Option.map_some]

end Utf8

/-! ## A stream decoder -/

/-- A stream decoder: what it knows between two bytes, and whether its text has begun. -/
structure TextDecoder where
  state : Utf8.State
  bomSeen : Bool

namespace TextDecoder

/-- A new decoder. -/
def new : TextDecoder := ⟨.start, false⟩

/-- The text without a byte order mark, which only its beginning can have. -/
def serialize (bomSeen : Bool) : List Char → List Char
  | [] => []
  | c :: chars => if bomSeen = false ∧ c.toNat = 0xfeff then chars else c :: chars

/-- The text of a chunk, or nothing if its bytes cannot be there. -/
def decode (decoder : TextDecoder) (chunk : List UInt8) : Option (List Char × TextDecoder) :=
  (decoder.state.decode chunk).map fun r =>
    (serialize decoder.bomSeen r.1, ⟨r.2, decoder.bomSeen || !r.1.isEmpty⟩)

/-- No bytes are no text. -/
@[simp] lemma decode_nil (decoder : TextDecoder) : decoder.decode [] = some ([], decoder) := by
  show some (([] : List Char), (⟨decoder.state, decoder.bomSeen || false⟩ : TextDecoder)) = _
  rw [Bool.or_false]

/-- Only the beginning of a text is looked at. -/
lemma serialize_append (bomSeen : Bool) (chars chars' : List Char) :
    serialize bomSeen (chars ++ chars') =
      serialize bomSeen chars ++ serialize (bomSeen || !chars.isEmpty) chars' := by
  cases chars with
  | nil => simp [serialize]
  | cons c chars =>
    have hbegun : ∀ chars', serialize true chars' = chars' := fun chars' => by
      cases chars' <;> simp [serialize]
    rw [List.cons_append, List.isEmpty_cons, Bool.not_false, Bool.or_true, hbegun, serialize,
      serialize]
    split_ifs <;> rfl

/-- The text of two chunks. -/
lemma decode_append (decoder : TextDecoder) (chunk chunk' : List UInt8) :
    decoder.decode (chunk ++ chunk') =
      (decoder.decode chunk).bind fun r =>
        (r.2.decode chunk').map fun t => (r.1 ++ t.1, t.2) := by
  have hempty : ∀ l l' : List Char, (!(l ++ l').isEmpty) = (!l.isEmpty || !l'.isEmpty) := by
    intro l l'
    cases l <;> rfl
  rw [decode, decode, Utf8.State.decode_append]
  cases decoder.state.decode chunk with
  | none => rfl
  | some r =>
    rw [Option.bind_some, Option.map_some, Option.bind_some, decode]
    cases r.2.decode chunk' with
    | none => rfl
    | some t =>
      simp only [Option.map_some, serialize_append, hempty, Bool.or_assoc]

/-- The bytes of a text are decoded to the text without its byte order mark. -/
lemma decode_ofString (text : String) :
    ∃ decoder, new.decode (Bytes.ofString text) = some (serialize false text.toList, decoder) := by
  rw [decode, show new.state = .start from rfl, Utf8.decode_ofString, Option.map_some]
  exact ⟨_, rfl⟩

end TextDecoder
