import Mathlib.Data.List.Basic

/-!
# Bucket indices of peers (`kademlia.rs`)

The bucket of a peer is 159 minus the number of leading bits that its identifier shares with the
local one. Identifiers are longer than 160 bits, so the subtraction underflows for identifiers that
are close, and for the local one itself. The detector of partitions keeps a time for each of the 160
buckets.

## Main definitions

* `calculateXorDistance`, `getBucketIndex`.
* `PartitionDetector` — the times of the last successful queries, by bucket index.
* `bits`, `commonPrefix` — the bits of an identifier, and how many of them two identifiers share.

## Main results

* `calculateXorDistance_eq` — the loop counts the shared bits.
* `indexed_iff` — the identifiers that have proper indices.
* `PartitionDetector.isSome_checkNetworkPartition_iff` — a check for partitions ends with an
  underflow iff one of its peers has no index.
-/

namespace QuDAG.Network.KademliaDHT

/-! ## The code -/

/-- The number of leading zeros of a byte. -/
def leadingZeros (x : UInt8) : ℕ := x.toBitVec.clz.toNat

/-- Calculate XOR distance between two peer IDs (returns leading zeros count). -/
def calculateXorDistance : List UInt8 → List UInt8 → ℕ
  | a :: bytes1, b :: bytes2 =>
    if a ^^^ b = 0 then 8 + calculateXorDistance bytes1 bytes2 else leadingZeros (a ^^^ b)
  | _, _ => 0

/-- Get bucket index for a peer, or nothing if the subtraction underflows. -/
def getBucketIndex (localPeerId peer : List UInt8) : Option UInt8 :=
  let distance := calculateXorDistance localPeerId peer
  if distance ≤ 159 then some (UInt8.ofNat (159 - distance)) else none

/-- The detector of partitions: the last successful query of every bucket, and the time after which
one is missing. -/
structure PartitionDetector where
  /-- Last successful queries to different parts of the network, by bucket index. -/
  lastSuccessfulQueries : UInt8 → Option ℕ
  /-- Partition detection threshold. -/
  detectionThreshold : ℕ
  /-- The affected buckets of the detected partitions, with the times of detection. -/
  detectedPartitions : List (ℕ × List UInt8)

namespace PartitionDetector

/-- Update successful query times for buckets. -/
def record (localPeerId : List UInt8) (now : ℕ) :
    PartitionDetector → List (List UInt8) → Option PartitionDetector
  | detector, [] => some detector
  | detector, peer :: peers =>
    (getBucketIndex localPeerId peer).bind fun index =>
      record localPeerId now
        { detector with
          lastSuccessfulQueries :=
            Function.update detector.lastSuccessfulQueries index (some now) } peers

/-- The buckets of 160-bit keys whose last successful query is too old. -/
def potentiallyPartitionedBuckets (detector : PartitionDetector) (now : ℕ) : List UInt8 :=
  ((List.range 160).map UInt8.ofNat).filter fun index =>
    (detector.lastSuccessfulQueries index).any
      fun lastSuccess => now - lastSuccess > detector.detectionThreshold

/-- Check for network partitions. -/
def checkNetworkPartition (detector : PartitionDetector) (localPeerId : List UInt8)
    (peers : List (List UInt8)) (now : ℕ) : Option PartitionDetector :=
  (detector.record localPeerId now peers).map fun detector =>
    let buckets := detector.potentiallyPartitionedBuckets now
    if buckets = [] then detector
    else { detector with detectedPartitions := detector.detectedPartitions ++ [(now, buckets)] }

end PartitionDetector

/-! ## Shared bits -/

/-- The bits of a byte, the highest first. -/
def byteBits (x : UInt8) : List Bool := (List.range 8).map fun i => x.toBitVec.getMsbD i

/-- The bits of an identifier. -/
def bits (bytes : List UInt8) : List Bool := bytes.flatMap byteBits

/-- The length of the longest common first part of two lists. -/
def commonPrefix {α : Type} [DecidableEq α] : List α → List α → ℕ
  | a :: l, b :: l' => if a = b then commonPrefix l l' + 1 else 0
  | _, _ => 0

/-- Common first parts are skipped. -/
lemma commonPrefix_append {α : Type} [DecidableEq α] (l k k' : List α) :
    commonPrefix (l ++ k) (l ++ k') = l.length + commonPrefix k k' := by
  induction l with
  | nil => simp
  | cons a l ih =>
    rw [List.cons_append, List.cons_append, commonPrefix, if_pos rfl, ih, List.length_cons]
    omega

/-- The first difference ends the common part. -/
lemma commonPrefix_append_of_lt {α : Type} [DecidableEq α] {l l' : List α}
    (hlength : l.length = l'.length) (h : l ≠ l') (k k' : List α) :
    commonPrefix (l ++ k) (l' ++ k') = commonPrefix l l' := by
  induction l generalizing l' with
  | nil =>
    cases l' with
    | nil => exact absurd rfl h
    | cons b l' => cases hlength
  | cons a l ih =>
    cases l' with
    | nil => cases hlength
    | cons b l' =>
      rw [List.cons_append, List.cons_append, commonPrefix, commonPrefix]
      by_cases hab : a = b
      · rw [if_pos hab, if_pos hab, ih (Nat.succ.inj hlength) fun hl => h (by rw [hab, hl])]
      · rw [if_neg hab, if_neg hab]

/-- Two lists of values share as many as their comparison has leading zeros. -/
lemma commonPrefix_map {ι : Type} (f g : ι → Bool) (l : List ι) :
    commonPrefix (l.map f) (l.map g) =
      ((l.map fun i => f i ^^ g i).takeWhile fun bit => !bit).length := by
  induction l with
  | nil => rfl
  | cons i l ih =>
    rw [List.map_cons, List.map_cons, List.map_cons, commonPrefix, ih]
    cases f i <;> cases g i <;> simp

/-- Leading zeros are the bits in front of the first one that is set. -/
lemma length_takeWhile_byteBits (x : UInt8) :
    ((byteBits x).takeWhile fun bit => !bit).length = leadingZeros x := by
  have hall : ∀ n : Fin 256,
      ((byteBits ⟨⟨n⟩⟩).takeWhile fun bit => !bit).length = leadingZeros ⟨⟨n⟩⟩ := by decide +kernel
  exact hall x.toFin

lemma commonPrefix_byteBits (a b : UInt8) :
    commonPrefix (byteBits a) (byteBits b) = leadingZeros (a ^^^ b) := by
  rw [← length_takeWhile_byteBits, byteBits, byteBits, byteBits, commonPrefix_map]
  simp only [UInt8.toBitVec_xor, BitVec.getMsbD_xor]

/-- Bytes are determined by their bits. -/
lemma byteBits_injective : Function.Injective byteBits := by
  intro a b h
  apply UInt8.toBitVec_inj.mp
  apply BitVec.eq_of_getMsbD_eq
  intro i hi
  exact List.map_inj_left.mp h i (List.mem_range.mpr hi)

@[simp] lemma length_byteBits (x : UInt8) : (byteBits x).length = 8 := rfl

/-- The loop counts the bits that two identifiers share. -/
theorem calculateXorDistance_eq (bytes1 bytes2 : List UInt8) :
    calculateXorDistance bytes1 bytes2 = commonPrefix (bits bytes1) (bits bytes2) := by
  induction bytes1 generalizing bytes2 with
  | nil => cases bytes2 <;> rfl
  | cons a bytes1 ih =>
    cases bytes2 with
    | nil => cases hbits : bits (a :: bytes1) <;> rfl
    | cons b bytes2 =>
      rw [calculateXorDistance, bits, bits, List.flatMap_cons, List.flatMap_cons]
      by_cases hab : a = b
      · rw [if_pos (by rw [hab, UInt8.xor_self]), hab, commonPrefix_append, ih]
        rfl
      · have hxor : ¬a ^^^ b = 0 := by rwa [UInt8.xor_eq_zero_iff]
        rw [if_neg hxor,
          commonPrefix_append_of_lt (by simp) fun h => hab (byteBits_injective h),
          commonPrefix_byteBits]

/-- Sharing bits is symmetric. -/
lemma commonPrefix_comm {α : Type} [DecidableEq α] (l l' : List α) :
    commonPrefix l l' = commonPrefix l' l := by
  induction l generalizing l' with
  | nil => cases l' <;> rfl
  | cons a l ih =>
    cases l' with
    | nil => rfl
    | cons b l' => rw [commonPrefix, commonPrefix, ih, if_congr eq_comm rfl rfl]

/-! ## Indices -/

/-- The number of bits that the identifiers of two peers share. -/
def sharedBits (localPeerId peer : List UInt8) : ℕ := commonPrefix (bits localPeerId) (bits peer)

lemma sharedBits_comm (localPeerId peer : List UInt8) :
    sharedBits localPeerId peer = sharedBits peer localPeerId := commonPrefix_comm _ _

lemma toNat_ofNat_sub (n : ℕ) : (UInt8.ofNat (159 - n)).toNat = 159 - n := by
  have hsize : 159 - n < UInt8.size := by rw [UInt8.size]; omega
  exact UInt8.toNat_ofNat_of_lt' hsize

/-- The index exists while fewer than 160 bits are shared, and counts down from 159. -/
lemma getBucketIndex_eq_some_iff (localPeerId peer : List UInt8) (index : UInt8) :
    getBucketIndex localPeerId peer = some index ↔
      sharedBits localPeerId peer + index.toNat = 159 := by
  rw [getBucketIndex, calculateXorDistance_eq, ← sharedBits]
  constructor
  · intro h
    split_ifs at h with hle
    rw [← Option.some.inj h, toNat_ofNat_sub]
    omega
  · intro h
    rw [if_pos (by omega), ← h, Nat.add_sub_cancel_left, UInt8.ofNat_toNat]

/-- The index is proper: the subtraction does not underflow, the index is below 160, and it is the
same from both sides. -/
def Indexed (localPeerId peer : List UInt8) (index : UInt8) : Prop :=
  getBucketIndex localPeerId peer = some index ∧ getBucketIndex peer localPeerId = some index ∧
    index.toNat < 160

lemma indexed_iff_add_eq (localPeerId peer : List UInt8) (index : UInt8) :
    Indexed localPeerId peer index ↔ sharedBits localPeerId peer + index.toNat = 159 := by
  rw [Indexed, getBucketIndex_eq_some_iff, getBucketIndex_eq_some_iff,
    sharedBits_comm peer localPeerId]
  constructor
  · exact fun h => h.1
  · exact fun h => ⟨h, h, by omega⟩

/-- Two pairs of peers have proper indices, which strictly decrease with the number of shared bits,
iff both pairs share fewer than the 160 bits that the subtraction assumes. -/
theorem indexed_iff (localPeerId peer localPeerId' peer' : List UInt8) :
    (∃ index index', Indexed localPeerId peer index ∧ Indexed localPeerId' peer' index' ∧
        (sharedBits localPeerId peer < sharedBits localPeerId' peer' → index' < index) ∧
        (sharedBits localPeerId' peer' < sharedBits localPeerId peer → index < index')) ↔
      sharedBits localPeerId peer < 160 ∧ sharedBits localPeerId' peer' < 160 := by
  simp only [indexed_iff_add_eq, UInt8.lt_iff_toNat_lt]
  constructor
  · rintro ⟨index, index', h, h', -, -⟩
    omega
  · rintro ⟨h, h'⟩
    refine ⟨UInt8.ofNat (159 - sharedBits localPeerId peer),
      UInt8.ofNat (159 - sharedBits localPeerId' peer'), ?_⟩
    rw [toNat_ofNat_sub, toNat_ofNat_sub]
    omega

/-- The identifier of a peer with an all-zero digest: a SHA2-256 multihash. -/
def samplePeerId : List UInt8 := [0x12, 0x20] ++ List.replicate 32 0

/-- A peer shares all of its 272 bits with itself. -/
theorem not_indexed_self : ¬∃ index, Indexed samplePeerId samplePeerId index := by
  have hnone : getBucketIndex samplePeerId samplePeerId = none := by decide +kernel
  rintro ⟨index, h, -⟩
  rw [hnone] at h
  cases h

/-! ## Partitions -/

namespace PartitionDetector

/-- **A check for partitions** goes through iff every peer of the answer has an index. -/
theorem isSome_checkNetworkPartition_iff (detector : PartitionDetector) (localPeerId : List UInt8)
    (peers : List (List UInt8)) (now : ℕ) :
    (detector.checkNetworkPartition localPeerId peers now).isSome ↔
      ∀ peer ∈ peers, sharedBits localPeerId peer < 160 := by
  rw [checkNetworkPartition, Option.isSome_map]
  induction peers generalizing detector with
  | nil => simp [record]
  | cons peer peers ih =>
    rw [record, List.forall_mem_cons]
    cases hindex : getBucketIndex localPeerId peer with
    | none =>
      have hle : ¬sharedBits localPeerId peer < 160 := by
        intro hlt
        have hsome := (getBucketIndex_eq_some_iff localPeerId peer
          (UInt8.ofNat (159 - sharedBits localPeerId peer))).mpr (by rw [toNat_ofNat_sub]; omega)
        rw [hsome] at hindex
        cases hindex
      simp [hle]
    | some index =>
      have hlt := (getBucketIndex_eq_some_iff localPeerId peer index).mp hindex
      rw [Option.bind_some, ih, and_iff_right (by omega)]

end PartitionDetector

end QuDAG.Network.KademliaDHT
