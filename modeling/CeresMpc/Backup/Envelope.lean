import CeresMpc.Api.Types
import CeresMpc.Encoding.Utf8

/-!
# Backup envelopes

A share is sealed under a key derived from the user's secret, and opened with the same secret.
-/

set_option autoImplicit false

namespace CeresMpc

open Encoding

namespace Api

/-! ## Records -/

structure BackupEnvelope where
  version : String
  algorithm : String
  createdAt : String
  payload : String
  deriving DecidableEq

namespace BackupEnvelope

def toJson (envelope : BackupEnvelope) : Json :=
  .obj [("version", .str envelope.version), ("algorithm", .str envelope.algorithm),
    ("created_at", .str envelope.createdAt), ("payload", .str envelope.payload)]

def fromJson (value : Json) : Option BackupEnvelope := do
  let members ← value.record ["version", "algorithm", "created_at", "payload"]
  let version ← Json.required Json.asStr members "version"
  let algorithm ← Json.required Json.asStr members "algorithm"
  let createdAt ← Json.required Json.asStr members "created_at"
  let payload ← Json.required Json.asStr members "payload"
  return { version, algorithm, createdAt, payload }

theorem toJson_flat (envelope : BackupEnvelope) : envelope.toJson.Flat := by
  simp [toJson, Json.Flat, Json.Plain]

theorem fromJson_toJson (envelope : BackupEnvelope) : fromJson envelope.toJson = some envelope := by
  simp [fromJson, toJson, Json.record, Json.required, Json.member, Json.asStr]

end BackupEnvelope

structure DecryptBackupResult where
  deviceBackupShare : String
  deriving DecidableEq

def DecryptBackupResult.toJson (result : DecryptBackupResult) : Json :=
  .obj [("device_backup_share", .str result.deviceBackupShare)]

end Api

namespace Backup

/-! ## Libraries -/

/-- What AES-GCM takes as a nonce: exactly 12 bytes. -/
structure Nonce where
  bytes : Bytes
  length_eq : bytes.length = 12

/-- `hkdf` with SHA-256 and no salt, `aes-gcm`, and the text of a `FromUtf8Error`. A ciphertext
ends with its tag. -/
structure Ciphers where
  hkdfExpand : (secret info : Bytes) → (length : Nat) → Bytes
  encrypt : (key : Bytes) → Nonce → (plaintext : Bytes) → Except String Bytes
  decrypt : (key : Bytes) → Nonce → (ciphertext : Bytes) → Except String Bytes
  utf8Error : Bytes → String

/-- Decryption inverts encryption and accepts nothing else. A ciphertext need not belong to one key
only: the tag of AES-GCM does not commit to the key. -/
structure Ciphers.Authentic (ciphers : Ciphers) : Prop where
  inverts : ∀ key nonce plaintext ciphertext, ciphers.encrypt key nonce plaintext = .ok ciphertext →
    ciphers.decrypt key nonce ciphertext = .ok plaintext
  encrypted : ∀ key nonce plaintext ciphertext, ciphers.decrypt key nonce ciphertext = .ok plaintext →
    ciphers.encrypt key nonce plaintext = .ok ciphertext

variable (text : Encodings) (ciphers : Ciphers)

/-! ## Sealing and opening -/

def deriveAesKey (userBackupSecret : String) : Bytes :=
  ciphers.hkdfExpand (utf8 userBackupSecret) (utf8 "ceres-mpc-backup-v1") 32

/-- `nonce` is what the operating system's generator has drawn. -/
def encryptShare (nonce : Nonce) (plaintext key : Bytes) : Except String String := do
  let ciphertext ← mapErr "aes-gcm encrypt failed: " (ciphers.encrypt key nonce plaintext)
  return text.encodeHex (nonce.bytes ++ ciphertext)

def decryptShareBytes (payloadHex : String) (key : Bytes) : Except String Bytes := do
  let combined ← mapErr "hex decode failed: " (text.decodeHex payloadHex)
  if long : 12 ≤ combined.length then
    let nonce : Nonce := { bytes := combined.take 12, length_eq := by rw [List.length_take, Nat.min_eq_left long] }
    match ciphers.decrypt key nonce (combined.drop 12) with
    | .ok plaintext => return plaintext
    | .error _ => .error "aes-gcm decrypt failed: wrong key or corrupted payload"
  else .error "payload too short: must be at least 12 bytes (nonce)"

/-- `String::from_utf8`. -/
def fromUtf8 (bytes : Bytes) : Except String String :=
  match decodeUtf8 bytes with
  | some chars => .ok (String.ofList chars)
  | none => .error (ciphers.utf8Error bytes)

def deriveBackupEnvelope (nonce : Nonce) (localEncryptedShare userBackupSecret createdAt : String) :
    Except String String := do
  let key := deriveAesKey ciphers userBackupSecret
  let payload ← encryptShare text ciphers nonce (utf8 localEncryptedShare) key
  let envelope : Api.BackupEnvelope := { version := "1", algorithm := "aes-256-gcm-hkdf-sha256", createdAt, payload }
  return text.renderJson envelope.toJson

def decryptBackupShare (encryptedEnvelope userBackupSecret : String) : Except String String := do
  let envelope ← mapErr "invalid BackupEnvelope JSON: " (text.fromStr Api.BackupEnvelope.fromJson encryptedEnvelope)
  let key := deriveAesKey ciphers userBackupSecret
  let plaintextBytes ← decryptShareBytes text ciphers envelope.payload key
  let deviceBackupShare ← mapErr "decrypted bytes are not valid UTF-8: " (fromUtf8 ciphers plaintextBytes)
  return text.renderJson (Api.DecryptBackupResult.toJson { deviceBackupShare })

/-! ## What opens -/

/-- A nonce and the encryption of the plaintext under it. -/
def IsSealing (key combined plaintext : Bytes) : Prop :=
  ∃ nonce : Nonce, ∃ ciphertext, combined = nonce.bytes ++ ciphertext ∧ ciphers.encrypt key nonce plaintext = .ok ciphertext

variable {text ciphers}

theorem Nonce.ext_bytes {first second : Nonce} (same : first.bytes = second.bytes) : first = second := by
  cases first
  cases second
  cases same
  rfl

/-- Under one key, bytes are a sealing of one plaintext. -/
theorem IsSealing.unique (authentic : ciphers.Authentic) {key combined plaintext another : Bytes}
    (first : IsSealing ciphers key combined plaintext) (second : IsSealing ciphers key combined another) :
    another = plaintext := by
  obtain ⟨nonce, ciphertext, rfl, sealed⟩ := first
  obtain ⟨sameNonce, sameText, split, resealed⟩ := second
  obtain ⟨nonces, rfl⟩ := List.append_inj split (nonce.length_eq.trans sameNonce.length_eq.symm)
  obtain rfl := Nonce.ext_bytes nonces
  have opened := authentic.inverts key nonce plaintext ciphertext sealed
  rw [authentic.inverts key nonce another ciphertext resealed] at opened
  cases opened
  rfl

theorem encryptShare_eq_ok {nonce : Nonce} {plaintext key : Bytes} {payload : String} :
    encryptShare text ciphers nonce plaintext key = .ok payload ↔
      ∃ ciphertext, ciphers.encrypt key nonce plaintext = .ok ciphertext ∧
        payload = text.encodeHex (nonce.bytes ++ ciphertext) := by
  rw [encryptShare, bind_eq_ok]
  simp only [mapErr_eq_ok]
  constructor
  · intro found
    obtain ⟨ciphertext, sealed, made⟩ := found
    cases made
    exact ⟨ciphertext, sealed, rfl⟩
  · intro found
    obtain ⟨ciphertext, sealed, made⟩ := found
    exact ⟨ciphertext, sealed, by rw [made]; rfl⟩

/-- Nothing but a sealing under the key opens. -/
theorem decryptShareBytes_eq_ok (authentic : ciphers.Authentic) {payloadHex : String} {key plaintext : Bytes} :
    decryptShareBytes text ciphers payloadHex key = .ok plaintext ↔
      ∃ combined, text.decodeHex payloadHex = .ok combined ∧ IsSealing ciphers key combined plaintext := by
  rw [decryptShareBytes, bind_eq_ok]
  simp only [mapErr_eq_ok]
  constructor
  · intro found
    obtain ⟨combined, decoded, opened⟩ := found
    refine ⟨combined, decoded, ?_⟩
    split at opened
    · next long =>
      split at opened
      · next found decrypted =>
        cases opened
        exact ⟨_, combined.drop 12, (List.take_append_drop 12 combined).symm, authentic.encrypted _ _ _ _ decrypted⟩
      · cases opened
    · cases opened
  · intro found
    obtain ⟨combined, decoded, nonce, ciphertext, split, sealed⟩ := found
    subst split
    refine ⟨_, decoded, ?_⟩
    have long : 12 ≤ (nonce.bytes ++ ciphertext).length := by
      rw [List.length_append, nonce.length_eq]
      omega
    have front : (nonce.bytes ++ ciphertext).take 12 = nonce.bytes := List.take_left' nonce.length_eq
    have back : (nonce.bytes ++ ciphertext).drop 12 = ciphertext := List.drop_left' nonce.length_eq
    have same : (⟨(nonce.bytes ++ ciphertext).take 12, by rw [List.length_take, Nat.min_eq_left long]⟩ : Nonce) = nonce :=
      Nonce.ext_bytes front
    rw [dif_pos long]
    simp only [same, back, authentic.inverts _ _ _ _ sealed]
    rfl

theorem fromUtf8_eq_ok {bytes : Bytes} {value : String} :
    fromUtf8 ciphers bytes = .ok value ↔ ∃ chars, decodeUtf8 bytes = some chars ∧ value = String.ofList chars := by
  unfold fromUtf8
  split
  · next chars decoded => simp [decoded, eq_comm]
  · next undecoded => simp [undecoded]

theorem fromUtf8_utf8 (value : String) : fromUtf8 ciphers (utf8 value) = .ok value :=
  fromUtf8_eq_ok.mpr ⟨value.toList, decodeUtf8_utf8 value, String.ofList_toList.symm⟩

variable (text ciphers) in
/-- The payload holds a sealing of this share's bytes. -/
def Holds (key : Bytes) (payload share : String) : Prop :=
  ∃ combined plaintext, text.decodeHex payload = .ok combined ∧ IsSealing ciphers key combined plaintext ∧
    fromUtf8 ciphers plaintext = .ok share

/-- An envelope opens to the share its payload holds under the key of the secret, and otherwise not at all. -/
theorem decryptBackupShare_eq_ok (authentic : ciphers.Authentic) {encryptedEnvelope userBackupSecret opened : String} :
    decryptBackupShare text ciphers encryptedEnvelope userBackupSecret = .ok opened ↔
      ∃ envelope share, text.fromStr Api.BackupEnvelope.fromJson encryptedEnvelope = .ok envelope ∧
        Holds text ciphers (deriveAesKey ciphers userBackupSecret) envelope.payload share ∧
        opened = text.renderJson (Api.DecryptBackupResult.toJson { deviceBackupShare := share }) := by
  simp only [decryptBackupShare, bind_eq_ok, mapErr_eq_ok, decryptShareBytes_eq_ok authentic]
  constructor
  · intro found
    obtain ⟨envelope, read, plaintext, ⟨combined, decoded, sealing⟩, share, named, made⟩ := found
    cases made
    exact ⟨envelope, share, read, ⟨combined, plaintext, decoded, sealing, named⟩, rfl⟩
  · intro found
    obtain ⟨envelope, share, read, ⟨combined, plaintext, decoded, sealing, named⟩, made⟩ := found
    exact ⟨envelope, read, plaintext, ⟨combined, decoded, sealing⟩, share, named, by rw [made]; rfl⟩

/-- Under one key, a payload holds one share. -/
theorem Holds.unique (authentic : ciphers.Authentic) {key : Bytes} {payload share another : String}
    (first : Holds text ciphers key payload share) (second : Holds text ciphers key payload another) : another = share := by
  obtain ⟨combined, plaintext, decoded, sealing, named⟩ := first
  obtain ⟨sameBytes, sameText, decodedToo, sealingToo, namedToo⟩ := second
  rw [decoded] at decodedToo
  cases decodedToo
  obtain rfl := sealing.unique authentic sealingToo
  rw [named] at namedToo
  cases namedToo
  rfl

theorem Holds.length_le {key combined : Bytes} {payload share : String} (holds : Holds text ciphers key payload share)
    (decoded : text.decodeHex payload = .ok combined) : 12 ≤ combined.length := by
  obtain ⟨found, plaintext, decodedToo, ⟨nonce, ciphertext, rfl, _⟩, _⟩ := holds
  rw [decoded] at decodedToo
  cases decodedToo
  rw [List.length_append, nonce.length_eq]
  omega

/-- What sealing makes is an envelope that holds the share. -/
theorem deriveBackupEnvelope_eq_ok (hex : ∀ bytes, text.decodeHex (text.encodeHex bytes) = .ok bytes)
    {nonce : Nonce} {share secret createdAt made : String}
    (sealed : deriveBackupEnvelope text ciphers nonce share secret createdAt = .ok made) :
    ∃ payload, made = text.renderJson (Api.BackupEnvelope.toJson
        { version := "1", algorithm := "aes-256-gcm-hkdf-sha256", createdAt, payload }) ∧
      Holds text ciphers (deriveAesKey ciphers secret) payload share := by
  simp only [deriveBackupEnvelope, bind_eq_ok, encryptShare_eq_ok] at sealed
  obtain ⟨payload, ⟨ciphertext, encrypted, rfl⟩, rendered⟩ := sealed
  cases rendered
  exact ⟨_, rfl, _, _, hex _, ⟨nonce, ciphertext, rfl, encrypted⟩, fromUtf8_utf8 share⟩

theorem deriveBackupEnvelope_seals {nonce : Nonce} {share secret : String} {ciphertext : Bytes}
    (encrypted : ciphers.encrypt (deriveAesKey ciphers secret) nonce (utf8 share) = .ok ciphertext) (createdAt : String) :
    ∃ made, deriveBackupEnvelope text ciphers nonce share secret createdAt = .ok made := by
  simp only [deriveBackupEnvelope, encryptShare, encrypted]
  exact ⟨_, rfl⟩

end Backup

end CeresMpc
