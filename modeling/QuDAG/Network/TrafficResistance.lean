import QuDAG.Network.MixNode
import QuDAG.Network.Obfuscation
import QuDAG.Network.Router

/-!
# Resistance against traffic analysis (`onion.rs`, `traffic_obfuscation.rs`)

The messages of a batch are given the packet sizes of a traffic pattern: what is too short is filled
up with random bytes, and what is too long is cut. Then they are reordered, serialized, and each is
disguised with a pattern drawn at random.

## Main definitions

* `TrafficAnalysisResistance.applyResistance`.
* `TrafficObfuscator.processBatch` — from the messages of a batch to their wire bytes.
* `TrafficAnalysisResistance.KeepsReal` — real messages keep their content.
* `TrafficObfuscator.Reversible` — messages can be recovered from the wire.

## Main results

* `TrafficAnalysisResistance.keepsReal_iff` — it does if real messages fit.
* `TrafficObfuscator.reversible_iff` — when messages can be recovered.
* `TrafficObfuscator.processBatch_recovers` — what this means for a batch.

## Implementation notes

Delays are left out, and the weights of patterns are rational numbers.
-/

namespace QuDAG.Network

open ProtocolObfuscator (obfuscateAs Recoverable Suits recoverable_iff)

namespace Shuffle

variable {α β : Type}

/-- Shuffling does not look at the elements. -/
lemma shuffle_map (σ : Shuffle) (f : α → β) (l : List α) :
    σ.shuffle (l.map f) = (σ.shuffle l).map f := by
  simp only [shuffle, List.length_map, List.getElem?_map, List.map_filterMap]

/-- Two lists of the same length are shuffled alike. -/
lemma forall₂_shuffle_iff (σ : Shuffle) {R : α → β → Prop} {l : List α} {l' : List β}
    (h : l.length = l'.length) :
    List.Forall₂ R (σ.shuffle l) (σ.shuffle l') ↔ List.Forall₂ R l l' := by
  have hl : l = (l.zip l').map Prod.fst := (List.map_fst_zip h.le).symm
  have hl' : l' = (l.zip l').map Prod.snd := (List.map_snd_zip h.ge).symm
  generalize l.zip l' = pairs at hl hl'
  subst hl hl'
  rw [shuffle_map, shuffle_map]
  simp only [List.forall₂_map_left_iff, List.forall₂_map_right_iff, List.forall₂_same]
  exact forall_congr' fun pair => imp_congr_left (σ.shuffle_perm pairs).mem_iff

end Shuffle

namespace TrafficAnalysisResistance

/-! ## Traffic patterns -/

/-- A traffic pattern for mimicking normal traffic. -/
structure TrafficPattern where
  /-- Packet sizes in the pattern. -/
  packetSizes : List ℕ
  /-- Pattern frequency weight. -/
  weight : ℚ

/-- The first of the common traffic patterns. -/
def firstPattern : TrafficPattern := ⟨[1024, 1024, 512, 2048, 1024], 1⟩

/-- Some common traffic patterns. -/
def patterns : List TrafficPattern :=
  [firstPattern, ⟨[512, 512, 1024, 512, 4096], 8 / 10⟩, ⟨[2048, 1024, 1024, 1024, 2048], 6 / 10⟩]

/-- The first pattern at which the weights add up to the target. -/
def selectByWeight : ℚ → List TrafficPattern → Option TrafficPattern
  | _, [] => none
  | target, pattern :: patterns =>
    if target - pattern.weight ≤ 0 then some pattern
    else selectByWeight (target - pattern.weight) patterns

/-- Weight-based selection, with the first pattern as a fallback. -/
def selectRandomPattern (choice : ℚ) : TrafficPattern :=
  (selectByWeight (choice * (patterns.map TrafficPattern.weight).sum) patterns).getD firstPattern

/-! ## Resistance -/

/-- Configuration for traffic analysis resistance. -/
structure TrafficAnalysisConfig where
  /-- Enable pattern mimicking. -/
  enablePatternMimicking : Bool
  /-- Enable flow correlation resistance. -/
  enableFlowCorrelationResistance : Bool

/-- The default configuration. -/
def TrafficAnalysisConfig.default : TrafficAnalysisConfig := ⟨true, true⟩

/-- What the resistance reads from outside. -/
structure ResistanceDraws where
  /-- The number that decides about the pattern. -/
  choice : ℚ
  /-- The padding of each message. -/
  padding : ℕ → ℕ → UInt8
  shuffle : Shuffle

/-- The packet size for the message at a position. -/
def targetSize (choice : ℚ) (i : ℕ) : Option ℕ :=
  let sizes := (selectRandomPattern choice).packetSizes
  sizes[i % sizes.length]?

/-- Pad or truncate content to match target size. -/
def mimic (target : ℕ) (padding : ℕ → UInt8) (message : MixMessage) : MixMessage :=
  let length := message.content.length
  if length < target then
    { message with
      content := message.content ++ (List.range (target - length)).map padding
      normalizedSize := target }
  else if target < length then
    { message with
      content := message.content.take target
      normalizedSize := target }
  else { message with normalizedSize := target }

/-- Apply pattern mimicking to make traffic look normal. -/
def applyPatternMimicking (draws : ResistanceDraws) (messages : List MixMessage) :
    List MixMessage :=
  messages.mapIdx fun i message =>
    match targetSize draws.choice i with
    | some target => mimic target (draws.padding i) message
    | none => message

/-- Apply flow correlation resistance. -/
def applyFlowCorrelationResistance (config : TrafficAnalysisConfig) (draws : ResistanceDraws)
    (messages : List MixMessage) : List MixMessage :=
  if config.enableFlowCorrelationResistance then draws.shuffle.shuffle messages else messages

/-- Apply traffic analysis resistance to a message stream. -/
def applyResistance (config : TrafficAnalysisConfig) (draws : ResistanceDraws)
    (messages : List MixMessage) : List MixMessage :=
  applyFlowCorrelationResistance config draws
    (if config.enablePatternMimicking then applyPatternMimicking draws messages else messages)

/-- **Real messages keep their content** as a prefix; the messages are compared in their new
order. -/
def KeepsReal (config : TrafficAnalysisConfig) (draws : ResistanceDraws)
    (messages : List MixMessage) : Prop :=
  List.Forall₂ (fun message message' => message.messageType = .real →
      message.content <+: message'.content)
    (applyFlowCorrelationResistance config draws messages) (applyResistance config draws messages)

/-- The content of a real message is not longer than the packet at its position. -/
def Fits (choice : ℚ) (messages : List MixMessage) : Prop :=
  ∀ i message target, messages[i]? = some message → message.messageType = .real →
    targetSize choice i = some target → message.content.length ≤ target

/-- Reordering does not matter for what is compared in the new order. -/
lemma forall₂_applyFlowCorrelationResistance_iff (config : TrafficAnalysisConfig)
    (draws : ResistanceDraws) {R : MixMessage → MixMessage → Prop}
    {messages messages' : List MixMessage}
    (h : messages.length = messages'.length) :
    List.Forall₂ R (applyFlowCorrelationResistance config draws messages)
      (applyFlowCorrelationResistance config draws messages') ↔
        List.Forall₂ R messages messages' := by
  rw [applyFlowCorrelationResistance, applyFlowCorrelationResistance]
  split_ifs
  · exact draws.shuffle.forall₂_shuffle_iff h
  · rfl

/-- No message is added or removed. -/
lemma length_applyFlowCorrelationResistance (config : TrafficAnalysisConfig)
    (draws : ResistanceDraws) (messages : List MixMessage) :
    (applyFlowCorrelationResistance config draws messages).length = messages.length := by
  rw [applyFlowCorrelationResistance]
  split_ifs
  · exact (draws.shuffle.shuffle_perm messages).length_eq
  · rfl

/-- A message keeps its content if it fits. -/
lemma content_prefix_mimic_iff (target : ℕ) (padding : ℕ → UInt8) (message : MixMessage) :
    message.content <+: (mimic target padding message).content ↔
      message.content.length ≤ target := by
  rw [mimic]
  split_ifs with hshort hlong
  · exact iff_of_true (List.prefix_append _ _) hshort.le
  · refine iff_of_false (fun h => ?_) (not_le.mpr hlong)
    have hlength := h.length_le
    rw [List.length_take] at hlength
    omega
  · exact iff_of_true (List.prefix_refl _) (not_lt.mp hlong)

/-- **Real messages keep their content exactly if they fit**, or if no pattern is mimicked. -/
lemma keepsReal_iff (config : TrafficAnalysisConfig) (draws : ResistanceDraws)
    (messages : List MixMessage) :
    KeepsReal config draws messages ↔
      (config.enablePatternMimicking = true → Fits draws.choice messages) := by
  rw [KeepsReal, applyResistance]
  split_ifs with hmimic
  · have hlength : messages.length = (applyPatternMimicking draws messages).length :=
      List.length_mapIdx.symm
    rw [forall₂_applyFlowCorrelationResistance_iff _ _ hlength, forall_prop_of_true hmimic,
      applyPatternMimicking, List.forall₂_iff_get]
    simp only [List.length_mapIdx, List.get_eq_getElem, List.getElem_mapIdx, true_and]
    constructor
    · intro h i message target hmessage hreal htarget
      obtain ⟨hi, rfl⟩ := List.getElem?_eq_some_iff.mp hmessage
      have hprefix := h i hi hi hreal
      rw [htarget] at hprefix
      exact (content_prefix_mimic_iff _ _ _).mp hprefix
    · intro h i hi _ hreal
      split
      · rename_i target htarget
        exact (content_prefix_mimic_iff _ _ _).mpr
          (h i _ target (List.getElem?_eq_getElem hi) hreal htarget)
      · exact List.prefix_refl _
  · rw [forall₂_applyFlowCorrelationResistance_iff _ _ rfl, List.forall₂_same]
    exact iff_of_true (fun message _ _ => List.prefix_refl _) fun h => absurd h hmimic

end TrafficAnalysisResistance

/-! ## Batches on the wire -/

/-- Message types are written as their numbers. -/
def MixMessageType.codec : Codec MixMessageType :=
  Codec.enumeration
    (fun
      | .real => 0
      | .dummy => 1
      | .heartbeat => 2)
    (fun
      | 0 => some .real
      | 1 => some .dummy
      | 2 => some .heartbeat
      | _ => none)

/-- The fields of a message. -/
def MixMessage.codec : Codec MixMessage :=
  (Codec.byteVec.pair (Codec.u8.pair (Codec.u64.pair (MixMessageType.codec.pair
    (Codec.word 8))))).refine
    (fun p => some ⟨p.1, p.2.1, p.2.2.1, p.2.2.2.1, p.2.2.2.2⟩)
    fun m => (m.content, m.priority, m.timestamp, m.messageType, m.normalizedSize)

/-- What disguising a message reads from outside. -/
structure PatternDraws where
  /-- Which pattern. -/
  choice : ℕ
  draws : ObfuscationDraws

/-- Disguise data with a random pattern; without patterns the code panics. -/
def ProtocolObfuscator.obfuscate (patterns : List ObfuscationPattern) (draws : PatternDraws)
    (data : List UInt8) : Except (Abort NetworkError) (List UInt8) :=
  match patterns[draws.choice % patterns.length]? with
  | none => .error .panic
  | some pattern => .ok (obfuscateAs pattern draws.draws data)

/-- Obfuscation statistics. -/
structure ObfuscationStats where
  /-- Batches processed. -/
  batchesProcessed : ℕ
  /-- Average batch size. -/
  avgBatchSize : ℚ

/-- Count a batch. -/
def ObfuscationStats.count (stats : ObfuscationStats) (size : ℕ) : ObfuscationStats :=
  ⟨stats.batchesProcessed + 1,
    (stats.avgBatchSize * stats.batchesProcessed + size) / (stats.batchesProcessed + 1)⟩

/-- Traffic obfuscation configuration. -/
structure TrafficObfuscationConfig where
  /-- Dummy traffic ratio (0.0 to 1.0). -/
  dummyTrafficRatio : ℚ
  /-- Mix batch size. -/
  mixBatchSize : ℕ
  /-- Mix batch timeout. -/
  mixBatchTimeout : Duration
  /-- Enable protocol obfuscation. -/
  enableProtocolObfuscation : Bool
  /-- Protocol obfuscation patterns. -/
  obfuscationPatterns : List ObfuscationPattern

/-- Traffic obfuscation manager. -/
structure TrafficObfuscator where
  /-- Configuration. -/
  config : TrafficObfuscationConfig
  /-- Mix node for batching. -/
  mixNode : MixNode
  /-- Traffic analysis resistance. -/
  trafficResistance : TrafficAnalysisResistance.TrafficAnalysisConfig
  /-- The patterns of the protocol obfuscator. -/
  protocolObfuscator : List ObfuscationPattern
  /-- Message statistics. -/
  stats : ObfuscationStats

/-- What processing a batch reads from outside. -/
structure BatchDraws where
  flush : FlushDraws
  resistance : TrafficAnalysisResistance.ResistanceDraws
  /-- For each message of the batch. -/
  patterns : ℕ → PatternDraws

namespace TrafficObfuscator

open TrafficAnalysisResistance

/-- Create a new traffic obfuscator. -/
def new (config : TrafficObfuscationConfig) (now : Instant) : TrafficObfuscator :=
  ⟨config, .withConfig (List.replicate 32 0)
    ⟨config.mixBatchSize, config.mixBatchTimeout, config.dummyTrafficRatio⟩ now, .default,
    config.obfuscationPatterns, ⟨0, 0⟩⟩

/-- The wire bytes of a serialized message: disguised, if that is enabled. -/
def emit (self : TrafficObfuscator) (draws : PatternDraws) (serialized : List UInt8) :
    Except (Abort NetworkError) (List UInt8) :=
  if self.config.enableProtocolObfuscation then
    ProtocolObfuscator.obfuscate self.protocolObfuscator draws serialized
  else .ok serialized

/-- The wire bytes of the messages from the `i`-th on. -/
def emitFrom (self : TrafficObfuscator) (draws : ℕ → PatternDraws) :
    ℕ → List MixMessage → Except (Abort NetworkError) (List (List UInt8))
  | _, [] => .ok []
  | i, message :: messages => do
    let wire ← self.emit (draws i) (MixMessage.codec.encode message)
    let wires ← emitFrom self draws (i + 1) messages
    pure (wire :: wires)

/-- Process a batch of messages. -/
def processBatch (self : TrafficObfuscator) (draws : BatchDraws) :
    Except (Abort NetworkError) (List (List UInt8)) × TrafficObfuscator :=
  match self.mixNode.flushBatch draws.flush with
  | (.error e, node) =>
    (.error (.error (.internal "Batch flush failed" e)), { self with mixNode := node })
  | (.ok batch, node) =>
    if batch = [] then (.ok [], { self with mixNode := node })
    else
      let messages := applyResistance self.trafficResistance draws.resistance batch
      (self.emitFrom draws.patterns 0 messages,
        { self with
          mixNode := node
          stats := self.stats.count batch.length })

/-! ## What can be recovered -/

/-- Each message is on the wire, in the same order. -/
lemma emitFrom_eq_ok {self : TrafficObfuscator} {draws : ℕ → PatternDraws}
    {messages : List MixMessage} : ∀ {k : ℕ} {wires : List (List UInt8)},
    self.emitFrom draws k messages = .ok wires →
      List.Forall₂ (fun message wire => ∃ i,
        self.emit (draws i) (MixMessage.codec.encode message) = .ok wire) messages wires := by
  induction messages with
  | nil =>
    intro k wires h
    obtain rfl := Except.ok.inj h
    exact .nil
  | cons message messages ih =>
    intro k wires h
    rw [emitFrom] at h
    cases hwire : self.emit (draws k) (MixMessage.codec.encode message) with
    | error e =>
      rw [hwire] at h
      cases h
    | ok wire =>
      cases hwires : self.emitFrom draws (k + 1) messages with
      | error e =>
        rw [hwire, hwires] at h
        cases h
      | ok wires' =>
        rw [hwire, hwires] at h
        obtain rfl := Except.ok.inj h
        exact .cons ⟨k, hwire⟩ (ih hwires)

/-- Two comparisons of lists make one. -/
lemma forall₂_comp {α β γ : Type} {R : α → β → Prop} {S : β → γ → Prop} {V : α → γ → Prop}
    (hV : ∀ a b c, R a b → S b c → V a c) {l : List α} {l' : List β} {l'' : List γ}
    (h : List.Forall₂ R l l') : List.Forall₂ S l' l'' → List.Forall₂ V l l'' := by
  induction h generalizing l'' with
  | nil =>
    rintro ⟨⟩
    exact .nil
  | cons hR _ ih =>
    rintro (_ | ⟨hS, h'⟩)
    exact .cons (hV _ _ _ hR hS) (ih h')

/-- Without DNS, the wire bytes determine the serialized message. -/
lemma emit_inj {self : TrafficObfuscator} (hdns : .dns ∉ self.protocolObfuscator)
    {draws : PatternDraws} {data data' wire : List UInt8} (h : self.emit draws data = .ok wire)
    (h' : self.emit draws data' = .ok wire) : data' = data := by
  rw [emit] at h h'
  split_ifs at h h'
  · rw [ProtocolObfuscator.obfuscate] at h h'
    split at h
    · cases h
    · rename_i pattern hpattern
      rw [hpattern] at h'
      have hmem : pattern ∈ self.protocolObfuscator := List.mem_of_getElem? hpattern
      have hne : pattern ≠ .dns := fun heq => hdns (heq ▸ hmem)
      exact ProtocolObfuscator.obfuscateAs_injective hne draws.draws
        (Except.ok.inj (h'.trans h.symm))
  · exact Except.ok.inj (h'.trans h.symm)

/-- **Messages can be recovered from the wire**: the resistance keeps the content of the real ones
in a batch, and the disguise of data can be undone. -/
structure Reversible (config : TrafficAnalysisConfig) (resistance : ResistanceDraws)
    (batch : List MixMessage) (pattern : ObfuscationPattern) (draws : ObfuscationDraws)
    (data : List UInt8) : Prop where
  keeps : KeepsReal config resistance batch
  recoverable : Recoverable pattern draws data

/-- **Messages can be recovered exactly if the real ones fit their packets, the pattern is not DNS,
and the length of the data fits its field.** -/
theorem reversible_iff (config : TrafficAnalysisConfig) (resistance : ResistanceDraws)
    (batch : List MixMessage) (pattern : ObfuscationPattern) (draws : ObfuscationDraws)
    (data : List UInt8) :
    Reversible config resistance batch pattern draws data ↔
      (config.enablePatternMimicking = true → Fits resistance.choice batch) ∧
        Suits pattern data := by
  rw [← keepsReal_iff config resistance batch, ← recoverable_iff pattern draws data]
  exact ⟨fun h => ⟨h.keeps, h.recoverable⟩, fun h => ⟨h.1, h.2⟩⟩

/-- A batch of one real message of 1025 bytes is cut to 1024 by the first pattern; a DNS query is
the same for three more bytes; a TLS record of 65536 bytes says that it is empty. -/
theorem not_reversible_samples :
    (¬ Reversible .default ⟨0, fun _ _ => 0, .keep⟩
      [⟨List.replicate 1025 7, 1, 0, .real, 2048⟩] .http ⟨"", fun _ => 0, 0⟩ []) ∧
    (¬ Reversible .default ⟨0, fun _ _ => 0, .keep⟩ [] .dns ⟨"", fun _ => 0, 0⟩ []) ∧
    ¬ Reversible .default ⟨0, fun _ _ => 0, .keep⟩ [] .https ⟨"", fun _ => 0, 0⟩
      (List.replicate 65536 7) := by
  refine ⟨fun h => ?_, fun h => ?_, fun h => ?_⟩
  · have hfits := (keepsReal_iff _ _ _).mp h.keeps rfl
    have hle := hfits 0 _ 1024 rfl rfl (by decide +kernel)
    rw [List.length_replicate] at hle
    exact absurd hle (by decide)
  · exact ((recoverable_iff _ _ _).mp h.recoverable).not_dns rfl
  · have hlt := ((recoverable_iff _ _ _).mp h.recoverable).https_length rfl
    rw [List.length_replicate] at hlt
    exact absurd hlt (by decide)

/-- **What is on the wire for a batch.** If the real messages fit and DNS is not among the patterns,
the wire bytes of a real message determine the serialized form of a message with the same content,
possibly followed by padding. -/
theorem processBatch_recovers {self : TrafficObfuscator} {draws : BatchDraws}
    {batch : List MixMessage} {node : MixNode} {wires : List (List UInt8)}
    (hflush : self.mixNode.flushBatch draws.flush = (.ok batch, node))
    (hwires : (self.processBatch draws).1 = .ok wires)
    (hfits : self.trafficResistance.enablePatternMimicking = true →
      Fits draws.resistance.choice batch)
    (hdns : .dns ∉ self.protocolObfuscator) :
    List.Forall₂ (fun message wire => message.messageType = .real →
        ∃ i message', message.content <+: message'.content ∧
          ∀ data, self.emit (draws.patterns i) data = .ok wire ↔
            data = MixMessage.codec.encode message')
      (applyFlowCorrelationResistance self.trafficResistance draws.resistance batch) wires := by
  have hkeeps : KeepsReal self.trafficResistance draws.resistance batch :=
    (keepsReal_iff _ _ _).mpr hfits
  have hemit : self.emitFrom draws.patterns 0
      (applyResistance self.trafficResistance draws.resistance batch) = .ok wires := by
    rw [processBatch, hflush] at hwires
    dsimp only at hwires
    split_ifs at hwires with hempty
    · obtain rfl := Except.ok.inj hwires
      have hlength :
          (applyResistance self.trafficResistance draws.resistance batch).length = 0 := by
        rw [← hkeeps.length_eq, length_applyFlowCorrelationResistance, hempty, List.length_nil]
      rw [List.length_eq_zero_iff.mp hlength]
      rfl
    · exact hwires
  refine forall₂_comp ?_ hkeeps (emitFrom_eq_ok hemit)
  rintro message message' wire hprefix ⟨i, hwire⟩ hreal
  refine ⟨i, message', hprefix hreal, fun data => ⟨fun h => emit_inj hdns hwire h, ?_⟩⟩
  rintro rfl
  exact hwire

/-- A real message of three bytes. -/
def sampleReal : MixMessage := ⟨[1, 2, 3], 5, 0, .real, 3⟩

/-- The message waits, and what is sent looks like TLS records. -/
def sampleObfuscator : TrafficObfuscator :=
  { new ⟨0, 100, 0, true, [.https]⟩ 0 with mixNode := ⟨[1], .default, [sampleReal], 0, .new 0⟩ }

/-- No dummies and no padding but zeros, in the given order. -/
def sampleBatch : BatchDraws :=
  ⟨Mixing.plainFlush 0, ⟨0, fun _ _ => 0, .keep⟩, fun _ => ⟨0, ⟨"", fun _ => 0, 0⟩⟩⟩

/-- The message can be recovered from the only record that is sent. -/
theorem processBatch_recovers_sample :
    ∃ wire, (sampleObfuscator.processBatch sampleBatch).1 = .ok [wire] ∧
      ∃ i message', sampleReal.content <+: message'.content ∧
        ∀ data, sampleObfuscator.emit (sampleBatch.patterns i) data = .ok wire ↔
          data = MixMessage.codec.encode message' := by
  have hbatch : (sampleObfuscator.mixNode.flushBatch sampleBatch.flush).1 = .ok [sampleReal] := by
    decide +kernel
  have hfits : sampleObfuscator.trafficResistance.enablePatternMimicking = true →
      Fits sampleBatch.resistance.choice [sampleReal] := by
    rintro - (_ | i) message target hmessage - htarget
    · cases hmessage
      have htarget' : targetSize sampleBatch.resistance.choice 0 = some 1024 := by decide +kernel
      rw [htarget'] at htarget
      cases htarget
      decide
    · cases hmessage
  cases hwires : (sampleObfuscator.processBatch sampleBatch).1 with
  | error e =>
    have hok : (sampleObfuscator.processBatch sampleBatch).1.isOk = true := by decide +kernel
    rw [hwires] at hok
    cases hok
  | ok wires =>
    have hall := processBatch_recovers (Prod.ext hbatch rfl) hwires hfits (by decide)
    have hkeep : applyFlowCorrelationResistance sampleObfuscator.trafficResistance
        sampleBatch.resistance [sampleReal] = [sampleReal] := rfl
    rw [hkeep] at hall
    obtain ⟨wire, rest, hwire, hrest, rfl⟩ := List.forall₂_cons_left_iff.mp hall
    rw [List.forall₂_nil_left_iff.mp hrest]
    exact ⟨wire, rfl, hwire rfl⟩

end TrafficObfuscator

end QuDAG.Network
