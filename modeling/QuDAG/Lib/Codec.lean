import Mathlib.Algebra.Ring.Nat
import QuDAG.Lib.Bytes

/-!
# Binary codecs without tags

A codec writes a value and reads it back from the front of the remaining input. The format has
fixed-width little-endian integers, length-prefixed sequences, one byte before an optional value,
and nothing between the fields of a record; so a value is read back only where the reader expects
exactly what was written.

## Main definitions

* `Codec` — a writer and a reader, with the values that are read back.
* `Codec.refine`, `Codec.pair`, `Codec.case`, `Codec.variant` — the combinators for records and
  enumerations.
* `Codec.word`, `Codec.u64`, `Codec.u32`, `Codec.u16`, `Codec.bool`, `Codec.option`, `Codec.list`,
  `Codec.array`, `Codec.string` — the primitive formats.

## Main results

* `Codec.encode_append_inj` — what is read back is determined by its bytes.

## Implementation notes

The validity of a value is a property and not part of its type: it says that its lengths fit the
length prefixes, which holds for every value in memory.
-/

/-- A format: how to write a value and how to read one. -/
structure Codec (α : Type) where
  /-- The bytes of a value. -/
  encode : α → List UInt8
  /-- Read a value from the front of the input. -/
  decode : List UInt8 → Option (α × List UInt8)
  /-- The values that are read back. -/
  Valid : α → Prop
  /-- A valid value is read back, whatever follows it. -/
  decode_encode : ∀ a rest, Valid a → decode (encode a ++ rest) = some (a, rest)

namespace Codec

variable {α β τ : Type}

/-- Valid values with the same bytes in front are the same, and so is what follows them. -/
theorem encode_append_inj (c : Codec α) {a b : α} {rest rest' : List UInt8} (ha : c.Valid a)
    (hb : c.Valid b) (h : c.encode a ++ rest = c.encode b ++ rest') : a = b ∧ rest = rest' := by
  have hread := c.decode_encode a rest ha
  rw [h, c.decode_encode b rest' hb] at hread
  exact Prod.mk.inj (Option.some.inj hread.symm)

/-! ## Combinators -/

/-- Values written as values of another type; reading may reject some of these. -/
def refine (c : Codec α) (f : α → Option β) (g : β → α) : Codec β where
  encode b := c.encode (g b)
  decode bytes := (c.decode bytes).bind fun r => (f r.1).map fun b => (b, r.2)
  Valid b := c.Valid (g b) ∧ f (g b) = some b
  decode_encode b rest h := by
    rw [c.decode_encode _ rest h.1, Option.bind_some, h.2, Option.map_some]

@[simp] lemma valid_refine (c : Codec α) (f : α → Option β) (g : β → α) (b : β) :
    (c.refine f g).Valid b ↔ c.Valid (g b) ∧ f (g b) = some b := Iff.rfl

/-- One value after the other. -/
def pair (c : Codec α) (d : Codec β) : Codec (α × β) where
  encode p := c.encode p.1 ++ d.encode p.2
  decode bytes := (c.decode bytes).bind fun r =>
    (d.decode r.2).map fun r' => ((r.1, r'.1), r'.2)
  Valid p := c.Valid p.1 ∧ d.Valid p.2
  decode_encode p rest h := by
    rw [List.append_assoc, c.decode_encode _ _ h.1, Option.bind_some, d.decode_encode _ _ h.2,
      Option.map_some]

@[simp] lemma valid_pair (c : Codec α) (d : Codec β) (p : α × β) :
    (c.pair d).Valid p ↔ c.Valid p.1 ∧ d.Valid p.2 := Iff.rfl

/-- A tag that says how the rest is written. -/
def depend (c : Codec τ) (tag : β → τ) (d : τ → Codec β) : Codec β where
  encode b := c.encode (tag b) ++ (d (tag b)).encode b
  decode bytes := (c.decode bytes).bind fun r => (d r.1).decode r.2
  Valid b := c.Valid (tag b) ∧ (d (tag b)).Valid b
  decode_encode b rest h := by
    rw [List.append_assoc, c.decode_encode _ _ h.1, Option.bind_some, (d (tag b)).decode_encode
      _ _ h.2]

/-- The values of one case of a type, written as what that case holds. -/
def case (c : Codec α) (make : α → β) (get : β → Option α) : Codec β where
  encode b := ((get b).map c.encode).getD []
  decode bytes := (c.decode bytes).map fun r => (make r.1, r.2)
  Valid b := ∃ a, get b = some a ∧ c.Valid a ∧ make a = b
  decode_encode := by
    rintro b rest ⟨a, hget, h, rfl⟩
    rw [hget, Option.map_some, Option.getD_some, c.decode_encode a rest h, Option.map_some]

/-- A value of the case is valid iff what it holds is. -/
lemma valid_case {c : Codec α} {make : α → β} {get : β → Option α} {a : α} {b : β}
    (hget : get b = some a) (hmake : make a = b) : (c.case make get).Valid b ↔ c.Valid a := by
  constructor
  · rintro ⟨a', hget', h, -⟩
    rw [hget] at hget'
    rwa [Option.some.inj hget']
  · exact fun h => ⟨a, hget, h, hmake⟩

/-- Nothing is written, and nothing is read: no value has this format. -/
def reject : Codec α where
  encode _ := []
  decode _ := none
  Valid _ := False
  decode_encode _ _ h := h.elim

/-- Nothing is written for a value that is known. -/
def const (a : α) : Codec α where
  encode _ := []
  decode bytes := some (a, bytes)
  Valid b := b = a
  decode_encode b rest h := by
    rw [h, List.nil_append]

/-! ## Integers -/

/-- The `width` low bytes of a number, the lowest first. -/
def wordBytes : ℕ → ℕ → List UInt8
  | 0, _ => []
  | width + 1, n => UInt8.ofNat (n % 256) :: wordBytes width (n / 256)

/-- Read a number of `width` bytes. -/
def readWord : ℕ → List UInt8 → Option (ℕ × List UInt8)
  | 0, bytes => some (0, bytes)
  | _ + 1, [] => none
  | width + 1, b :: bytes =>
    (readWord width bytes).map fun r => (b.toNat + 256 * r.1, r.2)

/-- A number that fits is read back. -/
lemma readWord_wordBytes {width : ℕ} : ∀ {n : ℕ} (rest : List UInt8), n < 256 ^ width →
    readWord width (wordBytes width n ++ rest) = some (n, rest) := by
  induction width with
  | zero =>
    intro n rest h
    rw [Nat.pow_zero, Nat.lt_one_iff] at h
    rw [h]
    rfl
  | succ width ih =>
    intro n rest h
    have hhigh : n / 256 < 256 ^ width := by
      rw [Nat.pow_succ] at h
      exact Nat.div_lt_of_lt_mul (by omega)
    have hlow : (UInt8.ofNat (n % 256)).toNat = n % 256 :=
      UInt8.toNat_ofNat_of_lt' (Nat.mod_lt n (by decide))
    show (readWord width (wordBytes width (n / 256) ++ rest)).map _ = _
    rw [ih rest hhigh, Option.map_some, hlow, Nat.mod_add_div]

/-- Numbers of a fixed width. -/
def word (width : ℕ) : Codec ℕ where
  encode n := wordBytes width n
  decode bytes := readWord width bytes
  Valid n := n < 256 ^ width
  decode_encode _ rest h := readWord_wordBytes rest h

/-- 64-bit numbers. -/
def u64 : Codec UInt64 := (word 8).refine (fun n => some (UInt64.ofNat n)) UInt64.toNat

/-- 32-bit numbers. -/
def u32 : Codec UInt32 := (word 4).refine (fun n => some (UInt32.ofNat n)) UInt32.toNat

/-- 16-bit numbers. -/
def u16 : Codec UInt16 := (word 2).refine (fun n => some (UInt16.ofNat n)) UInt16.toNat

/-- Bytes. -/
def u8 : Codec UInt8 := (word 1).refine (fun n => some (UInt8.ofNat n)) UInt8.toNat

@[simp] lemma valid_u64 (n : UInt64) : u64.Valid n :=
  ⟨n.toNat_lt, congrArg some UInt64.ofNat_toNat⟩

@[simp] lemma valid_u32 (n : UInt32) : u32.Valid n :=
  ⟨n.toNat_lt, congrArg some UInt32.ofNat_toNat⟩

@[simp] lemma valid_u16 (n : UInt16) : u16.Valid n :=
  ⟨n.toNat_lt, congrArg some UInt16.ofNat_toNat⟩

@[simp] lemma valid_u8 (n : UInt8) : u8.Valid n :=
  ⟨n.toNat_lt, congrArg some UInt8.ofNat_toNat⟩

/-- Truth values are the bytes 0 and 1. -/
def bool : Codec Bool :=
  u8.refine (fun n => if n = 0 then some false else if n = 1 then some true else none)
    fun b => if b then 1 else 0

@[simp] lemma valid_bool (b : Bool) : bool.Valid b := by
  cases b with
  | false => exact ⟨valid_u8 0, rfl⟩
  | true => exact ⟨valid_u8 1, rfl⟩

/-! ## Optional values and sequences -/

/-- An optional value: the byte 0, or the byte 1 and the value. -/
def option (c : Codec α) : Codec (Option α) :=
  depend u8 (fun o => if o.isSome then 1 else 0) fun n =>
    if n = 0 then const none else if n = 1 then c.case some id else reject

@[simp] lemma valid_option_none (c : Codec α) : c.option.Valid none := ⟨valid_u8 0, rfl⟩

@[simp] lemma valid_option_some (c : Codec α) (a : α) : c.option.Valid (some a) ↔ c.Valid a := by
  have hcase : (c.case some id).Valid (some a) ↔ c.Valid a := valid_case rfl rfl
  constructor
  · exact fun h => hcase.mp h.2
  · exact fun h => ⟨valid_u8 1, a, rfl, h, rfl⟩

/-- An optional value is valid iff the value is. -/
lemma valid_option_iff (c : Codec α) (o : Option α) :
    c.option.Valid o ↔ ∀ a, o = some a → c.Valid a := by
  cases o with
  | none => simp
  | some a => simp

/-- Read a number of values. -/
def readList (c : Codec α) : ℕ → List UInt8 → Option (List α × List UInt8)
  | 0, bytes => some ([], bytes)
  | n + 1, bytes => (c.decode bytes).bind fun r =>
    (readList c n r.2).map fun r' => (r.1 :: r'.1, r'.2)

/-- A sequence is read back. -/
lemma readList_flatMap (c : Codec α) {l : List α} (rest : List UInt8)
    (h : ∀ a ∈ l, c.Valid a) :
    readList c l.length (l.flatMap c.encode ++ rest) = some (l, rest) := by
  induction l with
  | nil => rfl
  | cons a l ih =>
    rw [List.forall_mem_cons] at h
    show (c.decode (c.encode a ++ l.flatMap c.encode ++ rest)).bind _ = _
    rw [List.append_assoc, c.decode_encode a _ h.1, Option.bind_some, ih h.2, Option.map_some]

/-- **Valid values tell their bytes apart**: where the bytes of some values go on after those of
others, the first values are these others. -/
theorem flatMap_encode_eq_append (c : Codec α) (hne : ∀ a, c.encode a ≠ []) {l l' : List α}
    {rest : List UInt8} (hl : ∀ a ∈ l, c.Valid a) (hl' : ∀ a ∈ l', c.Valid a)
    (h : l'.flatMap c.encode = l.flatMap c.encode ++ rest) :
    ∃ more, l' = l ++ more ∧ more.flatMap c.encode = rest := by
  induction l generalizing l' with
  | nil => exact ⟨l', rfl, h⟩
  | cons a l ih =>
    rw [List.forall_mem_cons] at hl
    cases l' with
    | nil =>
      rw [List.flatMap_nil, List.flatMap_cons, List.append_assoc] at h
      exact absurd (List.append_eq_nil_iff.mp h.symm).1 (hne a)
    | cons b l' =>
      rw [List.forall_mem_cons] at hl'
      rw [List.flatMap_cons, List.flatMap_cons, List.append_assoc] at h
      obtain ⟨rfl, htail⟩ := c.encode_append_inj hl'.1 hl.1 h
      obtain ⟨more, rfl, hmore⟩ := ih hl.2 hl'.2 htail
      exact ⟨more, rfl, hmore⟩

/-- Reading fails or yields as many values as asked for. -/
lemma length_of_readList (c : Codec α) : ∀ {n : ℕ} {bytes rest : List UInt8} {l : List α},
    readList c n bytes = some (l, rest) → l.length = n := by
  intro n
  induction n with
  | zero =>
    intro bytes rest l h
    obtain ⟨rfl, -⟩ := Prod.mk.inj (Option.some.inj h)
    rfl
  | succ n ih =>
    intro bytes rest l h
    obtain ⟨r, -, h⟩ := Option.bind_eq_some_iff.mp h
    obtain ⟨r', hr', h⟩ := Option.map_eq_some_iff.mp h
    obtain ⟨rfl, -⟩ := Prod.mk.inj h
    rw [List.length_cons, ih hr']

/-- A sequence: its length and its values. -/
def list (c : Codec α) : Codec (List α) where
  encode l := (word 8).encode l.length ++ l.flatMap c.encode
  decode bytes := ((word 8).decode bytes).bind fun r => readList c r.1 r.2
  Valid l := l.length < 2 ^ 64 ∧ ∀ a ∈ l, c.Valid a
  decode_encode l rest h := by
    have hlen : (word 8).Valid l.length := h.1
    rw [List.append_assoc, (word 8).decode_encode _ _ hlen, Option.bind_some,
      readList_flatMap c rest h.2]

/-- Reading a sequence is reading its length and then its values. -/
lemma decode_list (c : Codec α) (bytes : List UInt8) :
    c.list.decode bytes = ((word 8).decode bytes).bind fun r => readList c r.1 r.2 := rfl

/-- A sequence that is read has the length that its prefix says. -/
lemma length_of_decode_list (c : Codec α) {n : ℕ} {rest rest' : List UInt8} {l : List α}
    (hn : n < 2 ^ 64) (h : c.list.decode ((word 8).encode n ++ rest) = some (l, rest')) :
    l.length = n := by
  have hlen : (word 8).Valid n := hn
  rw [decode_list, (word 8).decode_encode _ _ hlen, Option.bind_some] at h
  exact length_of_readList c h

lemma valid_list (c : Codec α) (l : List α) :
    c.list.Valid l ↔ l.length < 2 ^ 64 ∧ ∀ a ∈ l, c.Valid a := Iff.rfl

/-- A sequence of known length: its values alone. -/
def array (c : Codec α) (n : ℕ) : Codec (List α) where
  encode l := l.flatMap c.encode
  decode bytes := readList c n bytes
  Valid l := l.length = n ∧ ∀ a ∈ l, c.Valid a
  decode_encode l rest h := by
    rw [← h.1, readList_flatMap c rest h.2]

/-- A byte sequence. -/
def byteVec : Codec (List UInt8) := u8.list

@[simp] lemma valid_byteVec (bytes : List UInt8) :
    byteVec.Valid bytes ↔ bytes.length < 2 ^ 64 := by
  simp [byteVec, valid_list]

/-- Reading the bytes of a string gives it back. -/
lemma fromUtf8_ofString (s : String) : Bytes.fromUtf8 (Bytes.ofString s) = some s := by
  obtain ⟨t, ht, hbytes⟩ := Bytes.fromUtf8_of_isUtf8 (Bytes.isUtf8_ofString s)
  rw [ht, Bytes.ofString_injective hbytes]

/-- A string: its bytes, which have to be valid UTF-8. -/
def string : Codec String := byteVec.refine Bytes.fromUtf8 Bytes.ofString

@[simp] lemma valid_string (s : String) :
    string.Valid s ↔ (Bytes.ofString s).length < 2 ^ 64 := by
  show byteVec.Valid (Bytes.ofString s) ∧ _ ↔ _
  rw [valid_byteVec]
  exact and_iff_left (fromUtf8_ofString s)

/-! ## Checking validity -/

/-- A format whose valid values can be told from the others. -/
class Checkable (c : Codec α) where
  /-- Whether a value is valid. -/
  check : DecidablePred c.Valid

section Checkable

variable (c : Codec α) (d : Codec β)

instance instDecidableValid [Checkable c] (a : α) : Decidable (c.Valid a) := Checkable.check a

instance instCheckableU32 : Checkable u32 := ⟨fun n => isTrue (valid_u32 n)⟩

instance instCheckableU64 : Checkable u64 := ⟨fun n => isTrue (valid_u64 n)⟩

instance instCheckableByteVec : Checkable byteVec :=
  ⟨fun bytes => decidable_of_iff _ (valid_byteVec bytes).symm⟩

instance instCheckableString : Checkable string :=
  ⟨fun s => decidable_of_iff _ (valid_string s).symm⟩

instance instCheckablePair [Checkable c] [Checkable d] : Checkable (c.pair d) :=
  ⟨fun p => inferInstanceAs (Decidable (c.Valid p.1 ∧ d.Valid p.2))⟩

instance instCheckableOption [Checkable c] : Checkable c.option :=
  ⟨fun
    | none => isTrue (valid_option_none c)
    | some a => decidable_of_iff _ (valid_option_some c a).symm⟩

instance instCheckableList [Checkable c] : Checkable c.list :=
  ⟨fun l => decidable_of_iff _ (valid_list c l).symm⟩

instance instCheckableRefine [Checkable c] [DecidableEq β] (f : α → Option β) (g : β → α) :
    Checkable (c.refine f g) :=
  ⟨fun b => inferInstanceAs (Decidable (c.Valid (g b) ∧ f (g b) = some b))⟩

end Checkable

/-- The tag of an enumeration. -/
def variant (tag : β → ℕ) (d : ℕ → Codec β) : Codec β := depend (word 4) tag d

/-- An enumeration without fields: its tag. -/
def enumeration (tag : β → ℕ) (ofTag : ℕ → Option β) : Codec β := (word 4).refine ofTag tag

end Codec
