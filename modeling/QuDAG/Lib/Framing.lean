import Mathlib.Data.List.Induction
import Mathlib.Order.Monotone.Basic
import QuDAG.Lib.Codec

/-!
# Frames

A frame is a header and a payload, where the header may hold the length of the payload. If longer
payloads do not have shorter headers, the length of a frame tells the length of its payload, so
frames of different data are different, whether the header can be read or not.

## Main definitions

* `Framing.frame` — a header for the length of the payload, and the payload.
* `Framing.beBytes`, `Framing.beValue` — numbers of fixed width, the highest byte first.
* `Framing.leValue` — the number of a byte string, the lowest byte first.
* `Framing.decimal`, `Framing.decimalValue` — decimal numbers.
* `Framing.mask` — exclusive or with a repeated key.

## Main results

* `Framing.frame_injective` — frames of different data are different.
* `Framing.append_flatMap_eq_iff` — when a text followed by blocks is ambiguous.
* `Framing.flatMap_append_eq_iff` — when blocks followed by a text are.
* `Framing.beValue_beBytes`, `Framing.decimalValue_decimal` — numbers are read back.
-/

namespace Framing

/-! ## Frames -/

section Frame

variable {α β : Type} (header : ℕ → List β) (payload : α → List β)

/-- A header for the length of the payload, and the payload. -/
def frame (a : α) : List β := header (payload a).length ++ payload a

variable {header payload}

/-- **Frames of different data are different**, if longer payloads do not have shorter headers. -/
theorem frame_injective (hheader : Monotone fun n => (header n).length)
    (hpayload : Function.Injective payload) : Function.Injective (frame header payload) := by
  intro a b h
  have hlength : (header (payload a).length).length + (payload a).length =
      (header (payload b).length).length + (payload b).length := by
    simpa [frame] using congrArg List.length h
  have hsame : (payload a).length = (payload b).length := by
    rcases lt_trichotomy (payload a).length (payload b).length with hlt | heq | hlt
    · have := hheader hlt.le
      dsimp only at this
      omega
    · exact heq
    · have := hheader hlt.le
      dsimp only at this
      omega
  exact hpayload (List.append_inj_right' h hsame)

end Frame

/-! ## Blocks -/

section Block

variable {α β : Type} {block : α → List β} {n : ℕ}

/-- As many blocks of one length are told apart. -/
lemma flatMap_block_injective (hlength : ∀ a, (block a).length = n)
    (hinjective : Function.Injective block) : ∀ {ps qs : List α}, ps.length = qs.length →
    ps.flatMap block = qs.flatMap block → ps = qs
  | [], [], _, _ => rfl
  | p :: ps, q :: qs, hsame, h => by
    rw [List.flatMap_cons, List.flatMap_cons] at h
    obtain ⟨hpq, htail⟩ := List.append_inj h ((hlength p).trans (hlength q).symm)
    rw [hinjective hpq, flatMap_block_injective hlength hinjective (Nat.succ.inj hsame) htail]

/-- **Blocks after a text of any length**: with at least as many blocks on the left, the two sides
are the same iff the text on the right goes on with the first blocks on the left, and the other
blocks are the same. -/
theorem append_flatMap_eq_iff (hlength : ∀ a, (block a).length = n)
    (hinjective : Function.Injective block) {x y : List β} {ps qs : List α}
    (hle : qs.length ≤ ps.length) :
    x ++ ps.flatMap block = y ++ qs.flatMap block ↔
      ∃ first, ps = first ++ qs ∧ y = x ++ first.flatMap block := by
  constructor
  · intro h
    have hsplit : ps = ps.take (ps.length - qs.length) ++ ps.drop (ps.length - qs.length) :=
      (List.take_append_drop _ ps).symm
    have hsame : (ps.drop (ps.length - qs.length)).length = qs.length := by
      rw [List.length_drop]
      omega
    have hbytes : ((ps.drop (ps.length - qs.length)).flatMap block).length =
        (qs.flatMap block).length := by
      simp only [List.length_flatMap, hlength, List.map_const', hsame]
    rw [hsplit, List.flatMap_append, ← List.append_assoc] at h
    obtain ⟨htext, hblocks⟩ := List.append_inj' h hbytes
    have hrest := flatMap_block_injective hlength hinjective hsame hblocks
    exact ⟨_, hsplit.trans (congrArg (List.take _ ps ++ ·) hrest), htext.symm⟩
  · rintro ⟨first, rfl, rfl⟩
    rw [List.flatMap_append, List.append_assoc]

/-- No block is the beginning of another one, and what follows a block is determined. -/
def PrefixFree (block : α → List β) : Prop :=
  ∀ a b rest rest', block a ++ rest = block b ++ rest' → a = b ∧ rest = rest'

/-- **Blocks in front of a text**: if no block is the beginning of another one, the two sides are
the same iff one of them has more blocks, and the text of the other one starts with these. -/
theorem flatMap_append_eq_iff (hfree : PrefixFree block) {ps qs : List α} {x y : List β} :
    ps.flatMap block ++ x = qs.flatMap block ++ y ↔
      (∃ more, ps = qs ++ more ∧ y = more.flatMap block ++ x) ∨
        ∃ more, qs = ps ++ more ∧ x = more.flatMap block ++ y := by
  constructor
  · intro h
    induction ps generalizing qs with
    | nil => exact .inr ⟨qs, rfl, h⟩
    | cons p ps ih =>
      cases qs with
      | nil => exact .inl ⟨p :: ps, rfl, h.symm⟩
      | cons q qs =>
        rw [List.flatMap_cons, List.flatMap_cons, List.append_assoc, List.append_assoc] at h
        obtain ⟨rfl, hrest⟩ := hfree _ _ _ _ h
        rcases ih hrest with ⟨more, rfl, hy⟩ | ⟨more, rfl, hx⟩
        · exact .inl ⟨more, rfl, hy⟩
        · exact .inr ⟨more, rfl, hx⟩
  · rintro (⟨more, rfl, rfl⟩ | ⟨more, rfl, rfl⟩)
    · rw [List.flatMap_append, List.append_assoc]
    · rw [List.flatMap_append, List.append_assoc]

end Block

/-! ## Big-endian numbers -/

/-- The `width` low bytes of a number, the highest first. -/
def beBytes (width n : ℕ) : List UInt8 := (Codec.wordBytes width n).reverse

/-- The number of a byte string, whose first byte is the highest. -/
def beValue (bytes : List UInt8) : ℕ := bytes.foldl (fun n b => 256 * n + b.toNat) 0

lemma length_wordBytes : ∀ width n : ℕ, (Codec.wordBytes width n).length = width
  | 0, _ => rfl
  | width + 1, n => congrArg (· + 1) (length_wordBytes width (n / 256))

@[simp] lemma length_beBytes (width n : ℕ) : (beBytes width n).length = width := by
  rw [beBytes, List.length_reverse, length_wordBytes]

/-- The lowest byte comes last. -/
lemma beBytes_succ (width n : ℕ) :
    beBytes (width + 1) n = beBytes width (n / 256) ++ [UInt8.ofNat (n % 256)] := by
  rw [beBytes, Codec.wordBytes, List.reverse_cons, beBytes]

/-- The last byte is the lowest. -/
lemma beValue_append (bytes : List UInt8) (b : UInt8) :
    beValue (bytes ++ [b]) = 256 * beValue bytes + b.toNat := by
  rw [beValue, List.foldl_append, beValue, List.foldl_cons, List.foldl_nil]

/-- A number that fits is read back. -/
lemma beValue_beBytes {width : ℕ} : ∀ {n : ℕ}, n < 256 ^ width →
    beValue (beBytes width n) = n := by
  induction width with
  | zero =>
    intro n h
    rw [Nat.pow_zero, Nat.lt_one_iff] at h
    rw [h]
    rfl
  | succ width ih =>
    intro n h
    have hhigh : n / 256 < 256 ^ width := by
      rw [Nat.pow_succ] at h
      exact Nat.div_lt_of_lt_mul (by omega)
    have hlow : (UInt8.ofNat (n % 256)).toNat = n % 256 :=
      UInt8.toNat_ofNat_of_lt' (Nat.mod_lt n (by decide))
    rw [beBytes_succ, beValue_append, ih hhigh, hlow]
    exact Nat.div_add_mod n 256

/-- A number of so many bytes is below their number of values. -/
lemma beValue_lt (bytes : List UInt8) : beValue bytes < 256 ^ bytes.length := by
  induction bytes using List.reverseRecOn with
  | nil => exact Nat.one_pos
  | append_singleton bytes b ih =>
    rw [beValue_append, List.length_append, List.length_singleton, Nat.pow_succ]
    have hb := b.toNat_lt
    omega

/-- The bytes of the number of a byte string are that string. -/
lemma beBytes_beValue (bytes : List UInt8) : beBytes bytes.length (beValue bytes) = bytes := by
  induction bytes using List.reverseRecOn with
  | nil => rfl
  | append_singleton bytes b ih =>
    have hb : b.toNat < 256 := b.toNat_lt
    have hhigh : (256 * beValue bytes + b.toNat) / 256 = beValue bytes := by omega
    have hlow : (256 * beValue bytes + b.toNat) % 256 = b.toNat := by omega
    rw [List.length_append, List.length_singleton, beBytes_succ, beValue_append, hhigh, hlow, ih,
      UInt8.ofNat_toNat]

/-! ## Little-endian numbers -/

/-- The number of a byte string, whose first byte is the lowest. -/
def leValue (bytes : List UInt8) : ℕ := beValue bytes.reverse

/-- A number that fits is read back. -/
lemma leValue_wordBytes {width n : ℕ} (h : n < 256 ^ width) :
    leValue (Codec.wordBytes width n) = n := beValue_beBytes h

lemma leValue_lt (bytes : List UInt8) : leValue bytes < 256 ^ bytes.length := by
  rw [leValue, ← List.length_reverse]
  exact beValue_lt bytes.reverse

/-- The bytes of the number of a byte string are that string. -/
lemma wordBytes_leValue (bytes : List UInt8) :
    Codec.wordBytes bytes.length (leValue bytes) = bytes := by
  have h := congrArg List.reverse (beBytes_beValue bytes.reverse)
  rwa [beBytes, List.reverse_reverse, List.reverse_reverse, List.length_reverse] at h

/-! ## Decimal numbers -/

/-- The decimal digits of a number. -/
def decimal (n : ℕ) : List Char := Nat.toDigits 10 n

/-- The number whose digits are at the start of a text. -/
def decimalValue (text : List Char) : ℕ := Nat.ofDigitChars 10 (text.takeWhile Char.isDigit) 0

/-- A number is read back, if no digit follows it. -/
lemma decimalValue_decimal (n : ℕ) {c : Char} (hc : c.isDigit = false) (rest : List Char) :
    decimalValue (decimal n ++ c :: rest) = n := by
  have hdigits : ∀ d ∈ decimal n, d.isDigit = true := fun d hd =>
    Nat.isDigit_of_mem_toDigits (by decide) (by decide) hd
  rw [decimalValue, List.takeWhile_append_of_pos hdigits, List.takeWhile_cons_of_neg (by simp [hc]),
    List.append_nil]
  exact Nat.ofDigitChars_ten_toDigits

/-- The digits tell the number. -/
lemma decimal_injective : Function.Injective decimal := by
  intro m n h
  rw [← Nat.ofDigitChars_ten_toDigits (n := m), ← Nat.ofDigitChars_ten_toDigits (n := n)]
  exact congrArg (fun digits => Nat.ofDigitChars 10 digits 0) h

/-- Larger numbers do not have fewer digits. -/
lemma length_decimal_monotone : Monotone fun n => (decimal n).length := by
  intro m n h
  have hpos : 0 < (decimal n).length := Nat.length_toDigits_pos
  have hn : n < 10 ^ (decimal n).length :=
    (Nat.length_toDigits_le_iff (by decide) hpos).mp (le_refl _)
  exact (Nat.length_toDigits_le_iff (by decide) hpos).mpr (lt_of_le_of_lt h hn)

/-! ## Masks -/

/-- Exclusive or with a key, which is repeated. -/
def mask (key : ℕ → UInt8) (bytes : List UInt8) : List UInt8 :=
  bytes.mapIdx fun i b => b ^^^ key i

@[simp] lemma length_mask (key : ℕ → UInt8) (bytes : List UInt8) :
    (mask key bytes).length = bytes.length := List.length_mapIdx

/-- Masking twice gives the bytes back. -/
lemma mask_mask (key : ℕ → UInt8) (bytes : List UInt8) : mask key (mask key bytes) = bytes := by
  refine List.ext_getElem (by simp) fun i h _ => ?_
  simp only [mask, List.getElem_mapIdx, UInt8.xor_assoc, UInt8.xor_self, UInt8.xor_zero]

/-- A mask loses nothing. -/
lemma mask_injective (key : ℕ → UInt8) : Function.Injective (mask key) :=
  Function.LeftInverse.injective (mask_mask key)

end Framing
