import CeresMpc.Toy

/-!
# How operations read a share

Each operation dispatches on the share and decodes it on the path it chose. The
FROST path is common to all; on the DKLs23 path only signing unwraps an envelope.
-/

set_option autoImplicit false

namespace CeresMpc.Api

open Encoding

variable (lib : Libraries)

/-- What a share is read as: a curve and the key material on it. -/
inductive KeyMaterial where
  | frost (keyPackage : lib.frost.KeyPackage) (publicKeyPackage : lib.frost.PublicKeyPackage)
  | dkls (keyshare : lib.dkls.Keyshare)

namespace KeyMaterial

variable {lib}

/-- The public key in the form the exported-key registry holds it. -/
def publicKeyHex : KeyMaterial lib → Except String String
  | .frost _ publicKeyPackage => do
      let vkBytes ← EngineEd25519.verifyingKeyBytes lib publicKeyPackage
      return lib.text.encodeHex vkBytes
  | .dkls keyshare => return MpcEngine.compressedHex lib keyshare

end KeyMaterial

def frostMaterial (share : String) : Except String (KeyMaterial lib) := do
  let (keyPackage, publicKeyPackage) ← EngineEd25519.extractShareMaterial lib share
  return .frost keyPackage publicKeyPackage

/-- `sign` round 1. -/
def signReads (share : String) : Except String (KeyMaterial lib) :=
  if MpcEngine.isEd25519Share lib (some share) then frostMaterial lib share
  else do
    let keyshare ← MpcEngine.signKeyshare lib share
    return .dkls keyshare

/-- `recover` round 1. -/
def recoverReads (backupShare : String) : Except String (KeyMaterial lib) :=
  if MpcEngine.isEd25519Share lib (some backupShare) then frostMaterial lib backupShare
  else do
    let keyshare ← MpcEngine.backupKeyshare lib backupShare
    return .dkls keyshare

/-- `export_private_key`, for the local share. -/
def exportReads (localShare : String) : Except String (KeyMaterial lib) :=
  match ShareEnvelope.decode lib.text localShare with
  | .ok (.ed25519, _) => frostMaterial lib localShare
  | _ => do
      let localBytes ← mapErr "base64 decode local_share: " (lib.text.decodeBase64 localShare)
      let keyshare ← okOr "invalid local keyshare bytes" (lib.dkls.fromBytes localBytes)
      return .dkls keyshare

/-- Serialised keyshares are not share envelopes. -/
def KeysharesNotEnvelopes : Prop :=
  ∀ raw keyshare envelope, lib.dkls.fromBytes raw = some keyshare →
    lib.text.fromSlice ShareEnvelope.fromJson raw ≠ .ok envelope

/-- A v2 envelope tagged secp256k1 around bytes that are a keyshare. -/
def WrapsKeyshare (share : String) : Prop :=
  ∃ raw envelope bytes keyshare, lib.text.decodeBase64 share = .ok raw ∧
    lib.text.fromSlice ShareEnvelope.fromJson raw = .ok envelope ∧
    Curve.parse envelope.curve = .ok .secp256k1 ∧ lib.text.decodeBase64 envelope.share = .ok bytes ∧
    lib.dkls.fromBytes bytes = some keyshare

variable {lib}

theorem isEd25519Share_iff {share : String} :
    MpcEngine.isEd25519Share lib (some share) = true ↔
      ∃ bytes, ShareEnvelope.decode lib.text share = .ok (.ed25519, bytes) := by
  unfold MpcEngine.isEd25519Share
  split
  · next decoded =>
    cases decoded
    split
    · next curve bytes read => cases curve <;> simp [read]
    · next failure read => simp [read]
  · next absent => cases absent

section

variable {share : String}

/-- A share of the FROST path is read by the same function everywhere. -/
theorem reads_frost {bytes : Bytes} (decoded : ShareEnvelope.decode lib.text share = .ok (.ed25519, bytes)) :
    signReads lib share = frostMaterial lib share ∧ recoverReads lib share = frostMaterial lib share ∧
      exportReads lib share = frostMaterial lib share := by
  have dispatched := isEd25519Share_iff.mpr ⟨bytes, decoded⟩
  exact ⟨if_pos dispatched, if_pos dispatched, by simp only [exportReads, decoded]⟩

variable {material : KeyMaterial lib}
  (other : ∀ bytes, ShareEnvelope.decode lib.text share ≠ .ok (.ed25519, bytes))

include other

private theorem not_dispatched : ¬MpcEngine.isEd25519Share lib (some share) = true := by
  intro dispatched
  obtain ⟨bytes, decoded⟩ := isEd25519Share_iff.mp dispatched
  exact other bytes decoded

theorem signReads_dkls : signReads lib share = .ok material ↔
    ∃ bytes keyshare, ShareEnvelope.decode lib.text share = .ok (.secp256k1, bytes) ∧
      lib.dkls.fromBytes bytes = some keyshare ∧ material = .dkls keyshare := by
  rw [signReads, if_neg (not_dispatched other), bind_eq_ok]
  simp only [MpcEngine.signKeyshare, bind_eq_ok]
  constructor
  · rintro ⟨keyshare, ⟨⟨curve, bytes⟩, decoded, read⟩, made⟩
    cases curve with
    | secp256k1 =>
        cases made
        exact ⟨bytes, keyshare, decoded, okOr_eq_ok.mp read, rfl⟩
    | ed25519 => exact absurd decoded (other bytes)
  · rintro ⟨bytes, keyshare, decoded, read, rfl⟩
    exact ⟨keyshare, ⟨(.secp256k1, bytes), decoded, okOr_eq_ok.mpr read⟩, rfl⟩

theorem recoverReads_dkls : recoverReads lib share = .ok material ↔
    ∃ raw keyshare, lib.text.decodeBase64 share = .ok raw ∧
      lib.dkls.fromBytes raw = some keyshare ∧ material = .dkls keyshare := by
  rw [recoverReads, if_neg (not_dispatched other), bind_eq_ok]
  simp only [MpcEngine.backupKeyshare, bind_eq_ok, mapErr_eq_ok, okOr_eq_ok]
  constructor
  · rintro ⟨keyshare, ⟨raw, decoded, read⟩, made⟩
    cases made
    exact ⟨raw, keyshare, decoded, read, rfl⟩
  · rintro ⟨raw, keyshare, decoded, read, rfl⟩
    exact ⟨keyshare, ⟨raw, decoded, read⟩, rfl⟩

theorem exportReads_dkls : exportReads lib share = .ok material ↔
    ∃ raw keyshare, lib.text.decodeBase64 share = .ok raw ∧
      lib.dkls.fromBytes raw = some keyshare ∧ material = .dkls keyshare := by
  unfold exportReads
  split
  · next decoded => exact absurd decoded (other _)
  · simp only [bind_eq_ok, mapErr_eq_ok, okOr_eq_ok]
    constructor
    · rintro ⟨raw, decoded, keyshare, read, made⟩
      cases made
      exact ⟨raw, keyshare, decoded, read, rfl⟩
    · rintro ⟨raw, keyshare, decoded, read, rfl⟩
      exact ⟨raw, decoded, keyshare, read, rfl⟩

end

/-- Recovery and export read every share alike. -/
theorem recoverReads_eq_exportReads {share : String} {material : KeyMaterial lib} :
    recoverReads lib share = .ok material ↔ exportReads lib share = .ok material := by
  by_cases dispatched : ∃ bytes, ShareEnvelope.decode lib.text share = .ok (.ed25519, bytes)
  · obtain ⟨bytes, decoded⟩ := dispatched
    rw [(reads_frost decoded).2.1, (reads_frost decoded).2.2]
  · have other := not_exists.mp dispatched
    rw [recoverReads_dkls other, exportReads_dkls other]

/-- Key material of the FROST engine comes from a share tagged ed25519. -/
theorem reads_of_material {share : String} {keyPackage : lib.frost.KeyPackage}
    {publicKeyPackage : lib.frost.PublicKeyPackage}
    (material : EngineEd25519.extractShareMaterial lib share = .ok (keyPackage, publicKeyPackage)) :
    signReads lib share = .ok (.frost keyPackage publicKeyPackage) ∧
      recoverReads lib share = .ok (.frost keyPackage publicKeyPackage) ∧
      exportReads lib share = .ok (.frost keyPackage publicKeyPackage) := by
  have frost : frostMaterial lib share = .ok (.frost keyPackage publicKeyPackage) := by
    rw [frostMaterial, material]
    rfl
  obtain ⟨⟨curve, bytes⟩, decoded, rest⟩ := bind_eq_ok.mp material
  cases curve with
  | secp256k1 => cases rest
  | ed25519 =>
      obtain ⟨signs, recovers, exports⟩ := reads_frost decoded
      exact ⟨signs.trans frost, recovers.trans frost, exports.trans frost⟩

theorem signReads_of_signKeyshare {share : String} {keyshare : lib.dkls.Keyshare}
    (read : MpcEngine.signKeyshare lib share = .ok keyshare) :
    signReads lib share = .ok (.dkls keyshare) := by
  obtain ⟨⟨curve, bytes⟩, decoded, rest⟩ := bind_eq_ok.mp read
  cases curve with
  | ed25519 => cases rest
  | secp256k1 =>
      have other : ∀ otherBytes, ShareEnvelope.decode lib.text share ≠ .ok (.ed25519, otherBytes) := by
        simp [decoded]
      exact (signReads_dkls other).mpr ⟨bytes, keyshare, decoded, okOr_eq_ok.mp rest, rfl⟩

/-- The key material inside an envelope is read by signing and by nothing else. -/
theorem reads_of_wraps (distinct : KeysharesNotEnvelopes lib) {share : String} (wraps : WrapsKeyshare lib share) :
    (∃ material, signReads lib share = .ok material) ∧ ∀ material, recoverReads lib share ≠ .ok material := by
  obtain ⟨raw, envelope, bytes, keyshare, decoded, parsed, tagged, shareDecoded, read⟩ := wraps
  have signDecodes := ShareEnvelope.decode_eq_ok.mpr ⟨raw, decoded, .inr ⟨envelope, parsed, tagged, shareDecoded⟩⟩
  have other : ∀ otherBytes, ShareEnvelope.decode lib.text share ≠ .ok (.ed25519, otherBytes) := by
    simp [signDecodes]
  refine ⟨⟨.dkls keyshare, (signReads_dkls other).mpr ⟨bytes, keyshare, signDecodes, read, rfl⟩⟩, ?_⟩
  intro material recovers
  obtain ⟨sameRaw, sameKeyshare, sameDecoded, rawRead, _⟩ := (recoverReads_dkls other).mp recovers
  obtain rfl : raw = sameRaw := Except.ok.inj (decoded.symm.trans sameDecoded)
  exact distinct raw sameKeyshare envelope rawRead parsed

theorem signReads_iff_recoverReads (distinct : KeysharesNotEnvelopes lib) {share : String}
    (unwrapped : ¬WrapsKeyshare lib share) {material : KeyMaterial lib} :
    signReads lib share = .ok material ↔ recoverReads lib share = .ok material := by
  by_cases dispatched : ∃ bytes, ShareEnvelope.decode lib.text share = .ok (.ed25519, bytes)
  · obtain ⟨bytes, decoded⟩ := dispatched
    rw [(reads_frost decoded).1, (reads_frost decoded).2.1]
  · have other := not_exists.mp dispatched
    rw [signReads_dkls other, recoverReads_dkls other]
    constructor
    · rintro ⟨bytes, keyshare, decodes, read, rfl⟩
      obtain ⟨raw, decoded, ⟨_, rfl, _⟩ | ⟨envelope, parsed, tagged, shareDecoded⟩⟩ :=
        ShareEnvelope.decode_eq_ok.mp decodes
      · exact ⟨bytes, keyshare, decoded, read, rfl⟩
      · exact absurd ⟨raw, envelope, bytes, keyshare, decoded, parsed, tagged, shareDecoded, read⟩
          unwrapped
    · rintro ⟨raw, keyshare, decoded, read, rfl⟩
      have legacy := ShareEnvelope.decode_eq_ok.mpr
        ⟨raw, decoded, .inl ⟨rfl, rfl, fun envelope => distinct raw keyshare envelope read⟩⟩
      exact ⟨raw, keyshare, legacy, read, rfl⟩

/-- Signing reads a share as recovery and export do, except for envelopes around
a DKLs23 keyshare, which signing alone unwraps. -/
theorem shares_read_alike (distinct : KeysharesNotEnvelopes lib) (share : String) :
    (∀ material, (signReads lib share = .ok material ↔ recoverReads lib share = .ok material) ∧
        (signReads lib share = .ok material ↔ exportReads lib share = .ok material)) ↔
      ¬WrapsKeyshare lib share := by
  constructor
  · intro agree wraps
    obtain ⟨⟨material, signs⟩, refuses⟩ := reads_of_wraps distinct wraps
    exact refuses material ((agree material).1.mp signs)
  · intro unwrapped material
    rw [← recoverReads_eq_exportReads, and_self]
    exact signReads_iff_recoverReads distinct unwrapped

/-! ## Envelopes and legacy shares -/

/-- How a share's text is read: what is written is read back, bytes that are no envelope pass
through, and only an envelope can say that a share is of ed25519. -/
structure EnvelopesExact (text : Encodings) : Prop where
  roundTrip : ∀ curve shareBytes,
    ShareEnvelope.decode text (ShareEnvelope.encode text (ShareEnvelope.new text curve shareBytes)) =
      .ok (curve, shareBytes)
  legacy : ∀ raw, (∀ envelope, text.fromSlice ShareEnvelope.fromJson raw ≠ .ok envelope) →
    ShareEnvelope.decode text (text.encodeBase64 raw) = .ok (.secp256k1, raw)
  tagged : ∀ share shareBytes, ShareEnvelope.decode text share = .ok (.ed25519, shareBytes) →
    ∃ raw envelope, share = text.encodeBase64 raw ∧ text.fromSlice ShareEnvelope.fromJson raw = .ok envelope ∧
      envelope.curve = "ed25519"
  rejected : ∀ share raw envelope, text.decodeBase64 share = .ok raw →
    text.fromSlice ShareEnvelope.fromJson raw = .ok envelope →
    envelope.curve ∉ ["secp256k1", "", "ed25519"] ∨ (∀ shareBytes, text.decodeBase64 envelope.share ≠ .ok shareBytes) →
      ∃ failure, ShareEnvelope.decode text share = .error failure

/-- A curve's name is one of the three that are supported. -/
theorem Curve.parse_eq_ok {name : String} {curve : Curve} (parsed : Curve.parse name = .ok curve) :
    name ∈ ["secp256k1", "", "ed25519"] ∧ (curve = .ed25519 → name = "ed25519") := by
  unfold Curve.parse at parsed
  split at parsed
  · next known =>
    cases parsed
    refine ⟨?_, by rintro ⟨⟩⟩
    rcases known with rfl | rfl <;> simp
  split at parsed
  · next known => exact ⟨by simp [known], fun _ => known⟩
  · cases parsed

theorem envelopes_exact {text : Encodings} (lawful : text.Lawful) (canonical : text.CanonicalBase64) :
    EnvelopesExact text := by
  constructor
  · intro curve shareBytes
    exact ShareEnvelope.decode_encode lawful curve shareBytes
  · intro raw noEnvelope
    exact ShareEnvelope.decode_raw lawful noEnvelope
  · intro share shareBytes read
    obtain ⟨raw, decoded, ⟨impossible, _⟩ | ⟨envelope, parsed, tagged, _⟩⟩ := ShareEnvelope.decode_eq_ok.mp read
    · cases impossible
    · exact ⟨raw, envelope, (canonical share raw decoded).symm, parsed, (Curve.parse_eq_ok tagged).2 rfl⟩
  · intro share raw envelope decoded parsed broken
    cases read : ShareEnvelope.decode text share with
    | error failure => exact ⟨failure, rfl⟩
    | ok found =>
        obtain ⟨sameRaw, sameDecoded, inside⟩ := ShareEnvelope.decode_eq_ok.mp read
        obtain rfl : raw = sameRaw := Except.ok.inj (decoded.symm.trans sameDecoded)
        rcases inside with ⟨_, _, noEnvelope⟩ | ⟨sameEnvelope, sameParsed, tagged, shareDecoded⟩
        · exact absurd parsed (noEnvelope envelope)
        · obtain rfl : envelope = sameEnvelope := Except.ok.inj (parsed.symm.trans sameParsed)
          rcases broken with unsupported | undecodable
          · exact absurd (Curve.parse_eq_ok tagged).1 unsupported
          · exact absurd shareDecoded (undecodable _)

theorem envelopes_exact_standard : EnvelopesExact standard :=
  envelopes_exact standard_lawful standard_canonicalBase64

/-! ## Shares on the small libraries -/

open Toy (Keyshare fromBytes_toBytes)

private theorem toy_keysharesNotEnvelopes : KeysharesNotEnvelopes Toy.libraries := by
  intro raw keyshare envelope read parsed
  obtain ⟨rest, rfl⟩ := Toy.fromBytes_mark read
  have noJson : ∀ value, Toy.libraries.text.parseJsonBytes (0xff :: rest) ≠ .ok value :=
    parseBytes_mark rest
  unfold Encodings.fromSlice at parsed
  split at parsed
  · cases parsed
  · next value isJson => exact noJson value isJson

/-- A keyshare as it is stored, and in the envelope made for its curve. -/
private def legacyShare : String :=
  encodeBase64 Toy.keyshare.toBytes

private def wrappedShare : String :=
  ShareEnvelope.encode standard (ShareEnvelope.new standard .secp256k1 Toy.keyshare.toBytes)

private theorem wrappedShare_wraps : WrapsKeyshare Toy.libraries wrappedShare := by
  have parsed := Encodings.fromSlice_renderJson standard_lawful
    (ShareEnvelope.toJson_flat _)
    (ShareEnvelope.fromJson_toJson (ShareEnvelope.new standard .secp256k1 Toy.keyshare.toBytes))
  have tagged : Curve.parse Curve.secp256k1.asStr = .ok .secp256k1 := Curve.parse_asStr _
  have read : Keyshare.fromBytes Toy.keyshare.toBytes = some Toy.keyshare :=
    fromBytes_toBytes _ rfl
  exact ⟨_, _, _, Toy.keyshare, standard_lawful.base64 _, parsed, tagged,
    standard_lawful.base64 _, read⟩

/-- Stored as it is, the share is read alike. -/
theorem shares_read_alike_legacy :
    (∀ material, (signReads Toy.libraries legacyShare = .ok material ↔
          recoverReads Toy.libraries legacyShare = .ok material) ∧
        (signReads Toy.libraries legacyShare = .ok material ↔
          exportReads Toy.libraries legacyShare = .ok material)) ↔
      ¬WrapsKeyshare Toy.libraries legacyShare :=
  shares_read_alike toy_keysharesNotEnvelopes legacyShare

/-- In its envelope, the share signs and cannot be recovered. -/
theorem wrapped_share_misread :
    ¬∀ (share : String) (material : KeyMaterial Toy.libraries),
      (signReads Toy.libraries share = .ok material ↔ recoverReads Toy.libraries share = .ok material) ∧
        (signReads Toy.libraries share = .ok material ↔
          exportReads Toy.libraries share = .ok material) := by
  intro alike
  obtain ⟨⟨material, signs⟩, refuses⟩ := reads_of_wraps toy_keysharesNotEnvelopes wrappedShare_wraps
  exact refuses material ((alike wrappedShare material).1.mp signs)

end CeresMpc.Api
