import QuDAG.Network.Onion

/-!
# Onions are never built

The innermost layer of an onion is marked by an empty next hop, and both building and opening check
that the next hop of a layer is not empty. So no message is ever encrypted, whatever the route, and
no final layer would be opened. Every other layer is opened to the layer that it was built around.

## Main definitions

* `RoundTrips` — a message is encrypted, and each hop peels off its layer.

## Main results

* `MLKEMOnionRouter.decryptLayer_buildLayer` — a layer that is not the innermost one is peeled off
  by its hop.
* `MLKEMOnionRouter.encryptLayers_eq_error` — how encryption ends when everything else succeeds.
* `never_roundTrips` — no message makes it through.
-/

namespace QuDAG.Network

open RustStd
open QuDAG.Vault (Nonce)

namespace OnionLayer

/-- A layer that passes its check has a next hop, a payload and a ciphertext, and is not too old. -/
lemma validate_eq_ok {now : UInt64} {layer : OnionLayer} :
    layer.validate now = .ok () ↔ layer.nextHop ≠ [] ∧ layer.payload ≠ [] ∧
      layer.kemCiphertext ≠ [] ∧ now.toNat - layer.timestamp.toNat ≤ 300000 := by
  unfold validate
  split_ifs with hnext hpayload hciphertext hold
  · simp [hnext]
  · simp [hpayload]
  · simp [hciphertext]
  · simp [Nat.not_le.mpr hold]
  · simp [hnext, hpayload, hciphertext, Nat.not_lt.mp hold]

/-- A layer without a next hop is refused. -/
lemma validate_final {now : UInt64} {layer : OnionLayer} (h : layer.nextHop = []) :
    layer.validate now = .error (.invalidFormat "empty next hop key") := by
  rw [validate, if_pos h]

variable (random : ℕ → List UInt8) (targetSize : ℕ) (layer : OnionLayer)

@[simp] lemma nextHop_normalizeSize :
    (layer.normalizeSize random targetSize).nextHop = layer.nextHop := by
  unfold normalizeSize
  split_ifs <;> rfl

@[simp] lemma payload_normalizeSize :
    (layer.normalizeSize random targetSize).payload = layer.payload := by
  unfold normalizeSize
  split_ifs <;> rfl

@[simp] lemma kemCiphertext_normalizeSize :
    (layer.normalizeSize random targetSize).kemCiphertext = layer.kemCiphertext := by
  unfold normalizeSize
  split_ifs <;> rfl

@[simp] lemma nonce_normalizeSize :
    (layer.normalizeSize random targetSize).nonce = layer.nonce := by
  unfold normalizeSize
  split_ifs <;> rfl

end OnionLayer

namespace MLKEMOnionRouter

variable {K : OnionCrates} {router : MLKEMOnionRouter} {route : List (List UInt8)}

/-! ## Single layers -/

/-- What it takes for a layer to be built, and what the layer holds. -/
lemma buildLayer_ok {draws : LayerDraws} {i : ℕ} {currentPayload : List UInt8} {layer : OnionLayer}
    (h : router.buildLayer K draws route i currentPayload = .ok layer) :
    ∃ nonce publicKey ciphertext secret key,
      router.directoryClient.getPublicKey (route.getD (route.length - i - 1) []) = .ok publicKey ∧
      K.encapsulate draws.kem publicKey = .ok (ciphertext, secret) ∧ K.hkdf secret = some key ∧
      K.sealInPlace key nonce currentPayload = .ok layer.payload ∧
      layer.nextHop = (if i = 0 then [] else route.getD (route.length - i) []) ∧
      layer.kemCiphertext = ciphertext ∧ layer.nonce = nonce ∧
      layer.validate draws.validateTime = .ok () := by
  unfold buildLayer at h
  obtain ⟨nonce, -, h⟩ := bind_eq_ok.mp h
  obtain ⟨publicKey, hpublic, h⟩ := bind_eq_ok.mp h
  obtain ⟨⟨ciphertext, secret⟩, hencapsulate, h⟩ := bind_eq_ok.mp h
  obtain ⟨key, hkey, h⟩ := bind_eq_ok.mp h
  obtain ⟨sealed, hsealed, h⟩ := bind_eq_ok.mp h
  obtain ⟨_, hvalidate, h⟩ := bind_eq_ok.mp h
  obtain rfl := Except.ok.inj h
  have hhkdf : K.hkdf secret = some key := by
    unfold deriveSymmetricKey at hkey
    cases hsecret : K.hkdf secret with
    | none =>
      rw [hsecret] at hkey
      cases hkey
    | some key' =>
      rw [hsecret] at hkey
      rw [Except.ok.inj hkey]
  exact ⟨nonce, publicKey, ciphertext, secret, key, mapError_eq_ok.mp hpublic,
    mapError_eq_ok.mp hencapsulate, hhkdf, by simpa using mapError_eq_ok.mp hsealed, by simp,
    by simp, by simp, hvalidate⟩

/-- **The innermost layer is never built.** -/
lemma buildLayer_zero_ne_ok (draws : LayerDraws) (currentPayload : List UInt8)
    (layer : OnionLayer) : router.buildLayer K draws route 0 currentPayload ≠ .ok layer := by
  intro h
  obtain ⟨_, _, _, _, _, -, -, -, -, hnext, -, -, hvalidate⟩ := buildLayer_ok h
  exact (OnionLayer.validate_eq_ok.mp hvalidate).1 hnext

/-- **A layer that is not the innermost one is peeled off by its hop**, in time: the hop finds the
layer that it was built around. -/
theorem decryptLayer_buildLayer {draws : LayerDraws} {i : ℕ} {inner layer : OnionLayer}
    (hi : i ≠ 0) (hbuild : router.buildLayer K draws route i inner.serialize = .ok layer)
    (hfits : inner.Fits) {hop : MLKEMOnionRouter} {publicKey : List UInt8}
    (hpublic : router.directoryClient.getPublicKey (route.getD (route.length - i - 1) []) =
      .ok publicKey) (hK : K.Correct publicKey hop.mlKemSecretKey) {now : UInt64}
    (hnow : now.toNat - layer.timestamp.toNat ≤ 300000) :
    hop.decryptLayer K now layer = .ok (inner.serialize, some inner) ∧
      layer.nextHop = route.getD (route.length - i) [] := by
  obtain ⟨nonce, publicKey', ciphertext, secret, key, hpublic', hencapsulate, hhkdf, hseal, hnext,
    hciphertext, hnonce, hvalidate⟩ := buildLayer_ok hbuild
  obtain rfl := Except.ok.inj (hpublic.symm.trans hpublic')
  obtain ⟨-, c, hc, hdecapsulate⟩ := hK.decapsulate _ _ _ hencapsulate
  obtain ⟨-, hopen⟩ := hK.openInPlace _ _ _ _ hseal
  obtain ⟨hhop, hpayload, hkem, -⟩ := OnionLayer.validate_eq_ok.mp hvalidate
  have hvalid : layer.validate now = .ok () :=
    OnionLayer.validate_eq_ok.mpr ⟨hhop, hpayload, hkem, hnow⟩
  have hkey : deriveSymmetricKey K secret = .ok key := by rw [deriveSymmetricKey, hhkdf]
  refine ⟨?_, by rw [hnext, if_neg hi]⟩
  unfold decryptLayer
  refine bind_eq_ok.mpr ⟨(), hvalid, ?_⟩
  refine bind_eq_ok.mpr ⟨c, mapError_eq_ok.mpr (hciphertext ▸ hc), ?_⟩
  refine bind_eq_ok.mpr ⟨secret, mapError_eq_ok.mpr hdecapsulate, ?_⟩
  refine bind_eq_ok.mpr ⟨key, hkey, ?_⟩
  refine bind_eq_ok.mpr ⟨inner.serialize, mapError_eq_ok.mpr (hnonce ▸ hopen), ?_⟩
  rw [if_pos hhop, OnionLayer.deserialize_serialize hfits]
  rfl

/-! ## Whole onions -/

/-- **Nothing is encrypted**, whatever the route. -/
lemma encryptLayers_ne_ok (draws : ℕ → LayerDraws) (message : List UInt8)
    (route : List (List UInt8)) (layers : List OnionLayer) :
    router.encryptLayers K draws message route ≠ .ok layers := by
  intro h
  unfold encryptLayers at h
  split_ifs at h with hroute
  obtain ⟨all, hloop, -⟩ := bind_eq_ok.mp h
  obtain ⟨n, hn⟩ := Nat.exists_eq_succ_of_ne_zero (mt List.length_eq_zero_iff.mp hroute)
  rw [hn, Nat.succ_eq_add_one, encryptLoop] at hloop
  obtain ⟨layer, hlayer, -⟩ := bind_eq_ok.mp hloop
  exact buildLayer_zero_ne_ok _ _ layer hlayer

/-- **How encryption ends** when the last hop is known and everything before the check of the
innermost layer succeeds. -/
theorem encryptLayers_eq_error {draws : ℕ → LayerDraws} {message : List UInt8} (hroute : route ≠ [])
    {nonce : Nonce} {publicKey ciphertext secret key sealed : List UInt8}
    (hnonce : (draws 0).nonce = .ok nonce)
    (hpublic : router.directoryClient.getPublicKey (route.getD (route.length - 1) []) =
      .ok publicKey)
    (hencapsulate : K.encapsulate (draws 0).kem publicKey = .ok (ciphertext, secret))
    (hhkdf : K.hkdf secret = some key) (hseal : K.sealInPlace key nonce message = .ok sealed) :
    router.encryptLayers K draws message route =
      .error (.invalidFormat "empty next hop key") := by
  obtain ⟨n, hn⟩ := Nat.exists_eq_succ_of_ne_zero (mt List.length_eq_zero_iff.mp hroute)
  have hbuild : router.buildLayer K (draws 0) route 0 message =
      .error (.invalidFormat "empty next hop key") := by
    simp only [buildLayer, deriveSymmetricKey, hnonce, Nat.sub_zero, hpublic, hencapsulate, hhkdf,
      hseal, Except.mapError, bind, Except.bind, if_true]
    rw [OnionLayer.validate_final (OnionLayer.nextHop_normalizeSize _ _ _)]
  rw [encryptLayers, if_neg hroute, hn, Nat.succ_eq_add_one, encryptLoop, hbuild]
  rfl

end MLKEMOnionRouter

/-- The message is encrypted for the route, in as many layers as there are hops; each hop peels the
next layer off the one it gets, which names the next hop, and the last one finds the message. -/
def RoundTrips (K : OnionCrates) (router : MLKEMOnionRouter) (draws : ℕ → LayerDraws)
    (message : List UInt8) (route : List (List UInt8)) (hops : ℕ → MLKEMOnionRouter)
    (now : ℕ → UInt64) : Prop :=
  ∃ layers, router.encryptLayers K draws message route = .ok layers ∧
    layers.length = route.length ∧ ∀ i layer, layers[i]? = some layer →
      match layers[i + 1]? with
      | some next => (hops i).decryptLayer K (now i) layer = .ok (next.serialize, some next) ∧
        layer.nextHop = route.getD (i + 1) []
      | none => (hops i).decryptLayer K (now i) layer = .ok (message, none)

/-- **No message makes it through**, whatever the cryptography, the directory, the route and the
times. -/
theorem never_roundTrips (K : OnionCrates) (router : MLKEMOnionRouter) (draws : ℕ → LayerDraws)
    (message : List UInt8) (route : List (List UInt8)) (hops : ℕ → MLKEMOnionRouter)
    (now : ℕ → UInt64) : ¬RoundTrips K router draws message route hops now := by
  rintro ⟨layers, hlayers, -⟩
  exact MLKEMOnionRouter.encryptLayers_ne_ok draws message route layers hlayers

/-! ## One hop -/

/-- Cryptography without secrecy: a public key is its secret key and its ciphertext, and what is
sealed is the data after one more byte. -/
def sampleCrates : OnionCrates where
  encapsulate _ publicKey := .ok (publicKey, publicKey)
  ciphertextFromBytes bytes := .ok bytes
  decapsulate secretKey ciphertext :=
    if secretKey = ciphertext then .ok ciphertext else .error "InvalidKey"
  hkdf secret := some secret
  sealInPlace _ _ data := .ok (0 :: data)
  openInPlace _ _
    | _ :: data => .ok data
    | [] => .error "Unspecified"

/-- It opens what it sealed. -/
lemma sampleCrates_correct {key : List UInt8} (h : key ≠ []) : sampleCrates.Correct key key where
  decapsulate _ _ _ hencapsulate := by
    cases hencapsulate
    exact ⟨h, key, rfl, if_pos rfl⟩
  openInPlace _ _ _ _ hsealed := by
    cases hsealed
    exact ⟨by simp, rfl⟩

/-- Layers that are built at once. -/
def sampleLayerDraws : LayerDraws :=
  ⟨.ok ⟨List.replicate 12 5, rfl⟩, [], 0, 0, [], 0, [], fun n => List.replicate n 0, 0⟩

/-- A router with the key `[7]` that knows one node, itself. -/
def sampleOnionRouter : MLKEMOnionRouter :=
  ⟨[7], 4096, ⟨Finmap.singleton [1] ⟨[1], [7], 0, false, true, true, 0⟩, 0, 3600 * 10 ^ 9⟩⟩

/-- What the second of three hops gets. -/
def sampleInner : OnionLayer :=
  ⟨[3], [9], [], [7], ⟨List.replicate 12 5, rfl⟩, [], 0, []⟩

/-- The first of three hops peels off its layer, and finds the one for the second hop. -/
theorem decryptLayer_buildLayer_threeHops :
    ∃ layer, sampleOnionRouter.buildLayer sampleCrates sampleLayerDraws [[1], [2], [3]] 2
        sampleInner.serialize = .ok layer ∧
      sampleOnionRouter.decryptLayer sampleCrates 0 layer =
        .ok (sampleInner.serialize, some sampleInner) ∧ layer.nextHop = [2] := by
  cases hbuild : sampleOnionRouter.buildLayer sampleCrates sampleLayerDraws [[1], [2], [3]] 2
    sampleInner.serialize with
  | ok layer =>
    refine ⟨layer, rfl, MLKEMOnionRouter.decryptLayer_buildLayer (by decide) hbuild ?_ rfl
      (sampleCrates_correct (by simp)) ?_⟩
    · have hnonce : (Codec.u8.array 12).Valid (List.replicate 12 5) :=
        ⟨rfl, fun byte _ => Codec.valid_u8 byte⟩
      simpa [OnionLayer.Fits, OnionLayer.codec, nonceCodec, sampleInner] using hnonce
    · exact Nat.zero_sub _ ▸ Nat.zero_le _
  | error e =>
    have hok : (sampleOnionRouter.buildLayer sampleCrates sampleLayerDraws [[1], [2], [3]] 2
        sampleInner.serialize).isOk = true := by
      decide +kernel
    rw [hbuild] at hok
    cases hok

/-- The empty message for one known hop is not encrypted: its only layer has no next hop. -/
theorem not_roundTrips_oneHop :
    sampleCrates.Correct [7] sampleOnionRouter.mlKemSecretKey ∧
      sampleOnionRouter.directoryClient.getPublicKey [1] = .ok [7] ∧
      sampleOnionRouter.encryptLayers sampleCrates (fun _ => sampleLayerDraws) [] [[1]] =
        .error (.invalidFormat "empty next hop key") ∧
      ¬RoundTrips sampleCrates sampleOnionRouter (fun _ => sampleLayerDraws) [] [[1]]
        (fun _ => sampleOnionRouter) (fun _ => 0) := by
  have herror : sampleOnionRouter.encryptLayers sampleCrates (fun _ => sampleLayerDraws) [] [[1]] =
      .error (.invalidFormat "empty next hop key") :=
    MLKEMOnionRouter.encryptLayers_eq_error (by simp) rfl rfl rfl rfl rfl
  refine ⟨sampleCrates_correct (by simp), rfl, herror, ?_⟩
  rintro ⟨layers, hlayers, -⟩
  rw [herror] at hlayers
  cases hlayers

end QuDAG.Network
