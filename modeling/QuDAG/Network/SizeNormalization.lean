import Mathlib.Order.Closure
import QuDAG.Network.Router

/-!
# Normalization of message sizes (`traffic_obfuscation.rs`)

A payload is padded with random bytes, up to the configured size when it fits, otherwise up to the
next standard size, and from the largest standard size on up to its next multiple. The sizes that
result are the closed elements of a closure operator, so padding is monotone and idempotent.

## Main definitions

* `TrafficObfuscator.normalizeMessageSize` — the padding of a message.
* `TrafficObfuscator.AllowedSize` — the sizes that a length may get.
* `TrafficObfuscator.sizeClosure` — the padded size as a closure operator.

## Main results

* `TrafficObfuscator.isLeast_paddedSize` — the padded size is the least allowed one.
* `TrafficObfuscator.normalizeMessageSize_spec` — what a padded message is.

## Implementation notes

Random bytes are an argument. Lengths are natural numbers, and memory for the padding is available;
the counters have 64 bits.
-/

namespace QuDAG.Network

/-! ## The code -/

/-- Standard message sizes for normalization (in bytes). -/
def standardMessageSizes : List ℕ := [512, 1024, 2048, 4096, 8192, 16384, 32768, 65536]

/-- The part of the traffic obfuscation configuration that normalization reads. -/
structure NormalizationConfig where
  /-- Standard message size (default: 4KB). -/
  standardMessageSize : ℕ := 4096

/-- The obfuscation statistics that normalization updates. -/
structure NormalizationStats where
  /-- Messages normalized. -/
  normalizedMessages : UInt64 := 0
  /-- Total bytes padded. -/
  totalPaddingBytes : UInt64 := 0
  deriving DecidableEq, Repr

namespace TrafficObfuscator

/-- The next standard size, or the next multiple of the largest one. -/
def nextSize (currentSize : ℕ) : ℕ :=
  (standardMessageSizes.find? fun size => currentSize ≤ size).getD
    (let largest := standardMessageSizes.getLast (List.cons_ne_nil _ _)
     (currentSize + largest - 1) / largest * largest)

/-- Add padding, and update statistics. -/
def addPadding (random : ℕ → UInt8) (paddingSize : ℕ) (message : NetworkMessage)
    (stats : NormalizationStats) : NetworkMessage × NormalizationStats :=
  let padding := (List.range paddingSize).map random
  ({ message with payload := message.payload ++ padding },
    { stats with
      normalizedMessages := stats.normalizedMessages + 1
      totalPaddingBytes := stats.totalPaddingBytes + UInt64.ofNat paddingSize })

/-- Normalize message size to standard size. -/
def normalizeMessageSize (config : NormalizationConfig) (random : ℕ → UInt8)
    (message : NetworkMessage) (stats : NormalizationStats) : NetworkMessage × NormalizationStats :=
  let targetSize := config.standardMessageSize
  let currentSize := message.payload.length
  if currentSize < targetSize then
    addPadding random (targetSize - currentSize) message stats
  else if targetSize < currentSize then
    -- for messages larger than standard size, round up to next standard size
    if currentSize < nextSize currentSize then
      addPadding random (nextSize currentSize - currentSize) message stats
    else (message, stats)
  else (message, stats)

/-! ## Padded sizes -/

/-- A standard size, or a multiple of the largest one. -/
def StandardSize (size : ℕ) : Prop := size ∈ standardMessageSizes ∨ 65536 ∣ size

/-- The sizes that a payload of length `n` may get: the configured size when the payload fits it,
otherwise the standard sizes and the multiples of the largest one. -/
def AllowedSize (config : NormalizationConfig) (n size : ℕ) : Prop :=
  if n ≤ config.standardMessageSize then size = config.standardMessageSize else StandardSize size

/-- The length of a payload of length `n` after normalization. -/
def paddedSize (config : NormalizationConfig) (n : ℕ) : ℕ :=
  if n ≤ config.standardMessageSize then config.standardMessageSize else nextSize n

/-- Rounding up to a multiple of the largest size. -/
lemma isLeast_nextMultiple (n : ℕ) :
    IsLeast {size | n ≤ size ∧ 65536 ∣ size} ((n + 65536 - 1) / 65536 * 65536) := by
  refine ⟨⟨by omega, Nat.dvd_mul_left _ _⟩, ?_⟩
  rintro _ ⟨hle, k, rfl⟩
  omega

/-- The first element of an ascending list that is not below a bound is the least such one. -/
lemma isLeast_of_find?_eq_some {l : List ℕ} (hsorted : l.Pairwise (· < ·)) {n size : ℕ}
    (hfind : (l.find? fun size => n ≤ size) = some size) :
    IsLeast {size | n ≤ size ∧ size ∈ l} size := by
  refine ⟨⟨by simpa using List.find?_some hfind, List.mem_of_find?_eq_some hfind⟩, ?_⟩
  induction hsorted with
  | nil => cases hfind
  | @cons first l hfirst _ ih =>
    rintro size' ⟨hle, hmem⟩
    rw [List.find?_cons] at hfind
    by_cases hn : n ≤ first
    · rw [decide_eq_true hn] at hfind
      rcases List.mem_cons.mp hmem with rfl | htail
      · exact (Option.some.inj hfind).ge
      · exact (Option.some.inj hfind).ge.trans (hfirst size' htail).le
    · rw [decide_eq_false hn] at hfind
      rcases List.mem_cons.mp hmem with rfl | htail
      · exact absurd hle hn
      · exact ih hfind ⟨hle, htail⟩

/-- Standard sizes are at most the largest one. -/
lemma le_of_mem_standardMessageSizes : ∀ size ∈ standardMessageSizes, size ≤ 65536 := by decide

/-- The next size is the least standard one that is not below. -/
lemma isLeast_nextSize {n : ℕ} (hn : 0 < n) :
    IsLeast {size | n ≤ size ∧ StandardSize size} (nextSize n) := by
  rw [nextSize]
  cases hfind : standardMessageSizes.find? fun size => n ≤ size with
  | some size =>
    rw [Option.getD_some]
    obtain ⟨⟨hle, hmem⟩, hleast⟩ := isLeast_of_find?_eq_some (by decide) hfind
    refine ⟨⟨hle, .inl hmem⟩, ?_⟩
    rintro size' ⟨hle', hmem' | hdvd⟩
    · exact hleast ⟨hle', hmem'⟩
    · -- a positive multiple of the largest size is at least every standard size
      exact (le_of_mem_standardMessageSizes size hmem).trans
        (Nat.le_of_dvd (hn.trans_le hle') hdvd)
  | none =>
    rw [Option.getD_none]
    obtain ⟨⟨hle, hdvd⟩, hleast⟩ := isLeast_nextMultiple n
    refine ⟨⟨hle, .inr hdvd⟩, ?_⟩
    rintro size' ⟨hle', hmem' | hdvd'⟩
    · have hnot := List.find?_eq_none.mp hfind size' hmem'
      exact absurd (decide_eq_true hle') hnot
    · exact hleast ⟨hle', hdvd'⟩

/-- The padded size is the least allowed size that is not below the length. -/
theorem isLeast_paddedSize (config : NormalizationConfig) (n : ℕ) :
    IsLeast {size | n ≤ size ∧ AllowedSize config n size} (paddedSize config n) := by
  rw [paddedSize]
  unfold AllowedSize
  split_ifs with hn
  · exact ⟨⟨hn, rfl⟩, fun size h => h.2.ge⟩
  · exact isLeast_nextSize (by omega)

/-- Padding as a closure operator. Its closed elements are the configured size and the standard
sizes above it. -/
def sizeClosure (config : NormalizationConfig) : ClosureOperator ℕ :=
  .ofPred (paddedSize config)
    (fun size => config.standardMessageSize ≤ size ∧ AllowedSize config size size)
    (fun n => (isLeast_paddedSize config n).1.1)
    (fun n => by
      obtain ⟨⟨hle, hallowed⟩, -⟩ := isLeast_paddedSize config n
      rw [AllowedSize] at hallowed
      split_ifs at hallowed with hn
      · rw [hallowed, AllowedSize, if_pos le_rfl]
        exact ⟨le_rfl, rfl⟩
      · rw [AllowedSize, if_neg (by omega)]
        exact ⟨by omega, hallowed⟩)
    (fun n size hle hclosed => by
      obtain ⟨htarget, hallowed⟩ := hclosed
      by_cases hn : n ≤ config.standardMessageSize
      · rw [paddedSize, if_pos hn]
        exact htarget
      · apply (isLeast_paddedSize config n).2
        rw [AllowedSize, if_neg (by omega)] at hallowed
        exact ⟨hle, by rwa [AllowedSize, if_neg hn]⟩)

/-! ## Padded messages -/

/-- The bytes that normalization adds to a message. -/
def growth (config : NormalizationConfig) (message : NetworkMessage) : ℕ :=
  sizeClosure config message.payload.length - message.payload.length

/-- Only messages below their padded size are padded. -/
lemma normalizeMessageSize_eq (config : NormalizationConfig) (random : ℕ → UInt8)
    (message : NetworkMessage) (stats : NormalizationStats) :
    normalizeMessageSize config random message stats =
      if 0 < growth config message then addPadding random (growth config message) message stats
      else (message, stats) := by
  have hclosure : sizeClosure config message.payload.length =
    paddedSize config message.payload.length := rfl
  rw [normalizeMessageSize, growth, hclosure, paddedSize]
  generalize message.payload.length = n
  rcases lt_trichotomy n config.standardMessageSize with hlt | heq | hgt
  · simp only [hlt, hlt.le, if_true, Nat.sub_pos_iff_lt]
  · simp only [heq, lt_irrefl, le_refl, if_true, if_false, Nat.sub_pos_iff_lt]
  · simp only [hgt, hgt.not_gt, hgt.not_ge, if_true, if_false, Nat.sub_pos_iff_lt]

/-- Random bytes are appended to the payload, and nothing else of the message changes. -/
lemma normalizeMessageSize_fst (config : NormalizationConfig) (random : ℕ → UInt8)
    (message : NetworkMessage) (stats : NormalizationStats) :
    (normalizeMessageSize config random message stats).1 =
      { message with
        payload := message.payload ++ (List.range (growth config message)).map random } := by
  rw [normalizeMessageSize_eq]
  by_cases h : 0 < growth config message
  · rw [if_pos h, addPadding]
  · rw [if_neg h, Nat.eq_zero_of_not_pos h, List.range_zero, List.map_nil,
      List.append_nil]

/-- The recorded padding is the growth. -/
lemma totalPaddingBytes_normalizeMessageSize (config : NormalizationConfig)
    (random : ℕ → UInt8) (message : NetworkMessage) (stats : NormalizationStats) :
    (normalizeMessageSize config random message stats).2.totalPaddingBytes =
      stats.totalPaddingBytes + UInt64.ofNat (growth config message) := by
  rw [normalizeMessageSize_eq]
  by_cases h : 0 < growth config message
  · rw [if_pos h, addPadding]
  · rw [if_neg h, Nat.eq_zero_of_not_pos h]
    exact (UInt64.add_zero _).symm

lemma length_payload_normalizeMessageSize (config : NormalizationConfig) (random : ℕ → UInt8)
    (message : NetworkMessage) (stats : NormalizationStats) :
    (normalizeMessageSize config random message stats).1.payload.length =
      sizeClosure config message.payload.length := by
  have hle := (sizeClosure config).le_closure message.payload.length
  rw [normalizeMessageSize_fst, List.length_append, List.length_map, List.length_range, growth]
  omega

/-- The payload of a normalized message starts with the original one and has the least allowed
length, normalizing it again changes neither message nor statistics, longer payloads do not get
shorter results, and the recorded padding is the growth. -/
theorem normalizeMessageSize_spec (config : NormalizationConfig) (random : ℕ → UInt8)
    (message : NetworkMessage) (stats : NormalizationStats) :
    let normalized := normalizeMessageSize config random message stats
    message.payload <+: normalized.1.payload ∧
      IsLeast {size | message.payload.length ≤ size ∧
        AllowedSize config message.payload.length size} normalized.1.payload.length ∧
      (∀ random', normalizeMessageSize config random' normalized.1 normalized.2 = normalized) ∧
      (∀ random' message' stats', message.payload.length ≤ message'.payload.length →
        normalized.1.payload.length ≤
          (normalizeMessageSize config random' message' stats').1.payload.length) ∧
      normalized.2.totalPaddingBytes = stats.totalPaddingBytes +
        UInt64.ofNat (normalized.1.payload.length - message.payload.length) := by
  have hlength := length_payload_normalizeMessageSize config random message stats
  refine ⟨?_, ?_, fun random' => ?_, fun random' message' stats' hle => ?_, ?_⟩
  · rw [normalizeMessageSize_fst]
    exact List.prefix_append _ _
  · rw [hlength]
    exact isLeast_paddedSize config message.payload.length
  · -- the new length is closed
    rw [normalizeMessageSize_eq, growth, hlength, (sizeClosure config).idempotent, Nat.sub_self]
    exact if_neg (lt_irrefl _)
  · rw [hlength, length_payload_normalizeMessageSize]
    exact (sizeClosure config).monotone hle
  · rw [hlength, totalPaddingBytes_normalizeMessageSize, growth]

end TrafficObfuscator

end QuDAG.Network
