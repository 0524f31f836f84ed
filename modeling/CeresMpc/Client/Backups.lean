import CeresMpc.Backup.Envelope
import CeresMpc.Client.LockStep

/-!
# Backups across the bridge

An envelope sealed by the engine is decoded by the client, written again by the client with its own
key names, and opened by the engine.
-/

set_option autoImplicit false

namespace CeresMpc.Client

open Encoding Json Interleaving Program Backup

/-! ## Records across the bridge -/

/-- `serde_json` reads the flat records the client writes. -/
def Convert.ReadBy (convert : Convert) (text : Encodings) : Prop :=
  ∀ members : List (String × Json), (Json.obj members).Flat → (members.map Prod.fst).Nodup →
    text.parseJson (convert.jsonEncode (.obj members)) = .ok (.obj members)

def BackupEnvelope.ofRust (envelope : Api.BackupEnvelope) : BackupEnvelope :=
  { version := envelope.version, algorithm := envelope.algorithm, createdAt := envelope.createdAt
    payload := envelope.payload }

section Records

variable {convert : Convert} {text : Encodings}

theorem backupEnvelope_toJson (reads : convert.Reads text) (envelope : Api.BackupEnvelope) :
    backupEnvelope convert (.ok (text.renderJson envelope.toJson)) = .ok (.ofRust envelope) := by
  have read := decodeMap_written reads envelope.toJson_flat (by simp)
  change (decodeMap convert (text.renderJson envelope.toJson) >>= BackupEnvelope.fromJson) = _
  rw [Api.BackupEnvelope.toJson, read]
  simp [BackupEnvelope.fromJson, BackupEnvelope.ofRust, Json.get, Json.lookup, asString]

/-- The client's key names are the ones the engine reads. -/
theorem fromStr_encodeBackup (readBy : convert.ReadBy text) (envelope : BackupEnvelope) :
    text.fromStr Api.BackupEnvelope.fromJson (encodeBackup convert envelope) =
      .ok ⟨envelope.version, envelope.algorithm, envelope.createdAt, envelope.payload⟩ := by
  have flat := Api.BackupEnvelope.toJson_flat ⟨envelope.version, envelope.algorithm, envelope.createdAt, envelope.payload⟩
  have parsed : text.parseJson (encodeBackup convert envelope) = .ok (Api.BackupEnvelope.toJson
      ⟨envelope.version, envelope.algorithm, envelope.createdAt, envelope.payload⟩) := readBy _ flat (by simp)
  rw [Encodings.fromStr, parsed]
  simp only [Api.BackupEnvelope.fromJson_toJson]

theorem deviceBackupShare_toJson (reads : convert.Reads text) (share : String) :
    deviceBackupShare convert (.ok (text.renderJson (Api.DecryptBackupResult.toJson { deviceBackupShare := share }))) =
      .ok share := by
  have flat : (Json.obj [("device_backup_share", .str share)]).Flat := by simp [Json.Flat, Json.Plain]
  have read := decodeMap_written reads flat (by simp)
  change (decodeMap convert (text.renderJson (.obj [("device_backup_share", .str share)])) >>= _) = _
  rw [read]
  simp [Json.get, Json.lookup, asString]

end Records

/-! ## What a stored backup opens to -/

variable (text : Encodings) (ciphers : Ciphers) (convert : Convert)

/-- The engine opens the backup, and the client reads this share from the result. -/
def OpensTo (encrypted secret share : String) : Prop :=
  ∃ opened, decryptBackupShare text ciphers encrypted secret = .ok opened ∧
    deviceBackupShare convert (.ok opened) = .ok share

/-- What the client keeps of an envelope the engine has sealed. -/
def Stored (sealed : Except String String) (encrypted : String) : Prop :=
  ∃ envelope, backupEnvelope convert sealed = .ok envelope ∧ encrypted = encodeBackup convert envelope

/-- Envelopes come from the engine's sealing, under some nonce. -/
def SealedByEngine (past : Past) : Prop :=
  ∀ share secret createdAt answer, ⟨.deriveBackupEnvelope share secret createdAt, answer⟩ ∈ past →
    ∃ nonce, answer = deriveBackupEnvelope text ciphers nonce share secret createdAt

/-- What a backup is for. `Replaced key payload share` is what another key, or another payload, may
still open to. -/
structure BackupsSurvive (Replaced : Bytes → String → String → Prop) : Prop where
  seals : ∀ nonce share secret createdAt ciphertext,
    ciphers.encrypt (deriveAesKey ciphers secret) nonce (utf8 share) = .ok ciphertext →
      ∃ sealed encrypted, deriveBackupEnvelope text ciphers nonce share secret createdAt = .ok sealed ∧
        Stored convert (.ok sealed) encrypted
  opens : ∀ nonce share secret createdAt encrypted,
    Stored convert (deriveBackupEnvelope text ciphers nonce share secret createdAt) encrypted →
      OpensTo text ciphers convert encrypted secret share
  recovered : ∀ turns requestId mpcKeyId backup secret version newSecret past result,
    (recover convert turns requestId mpcKeyId backup secret version (some newSecret)).Replays past (.done (.ok result)) →
      SealedByEngine text ciphers past → ∃ encrypted, result.encryptedBackupShare = some encrypted ∧
        OpensTo text ciphers convert encrypted newSecret result.localEncryptedShare
  otherSecret : ∀ nonce share secret createdAt envelope other opened,
    backupEnvelope convert (deriveBackupEnvelope text ciphers nonce share secret createdAt) = .ok envelope →
      deriveAesKey ciphers other ≠ deriveAesKey ciphers secret →
        decryptBackupShare text ciphers (encodeBackup convert envelope) other = .ok opened →
          ∃ another, deviceBackupShare convert (.ok opened) = .ok another ∧
            Replaced (deriveAesKey ciphers other) envelope.payload another
  changed : ∀ nonce share secret createdAt envelope payload opened,
    backupEnvelope convert (deriveBackupEnvelope text ciphers nonce share secret createdAt) = .ok envelope →
      text.decodeHex payload ≠ text.decodeHex envelope.payload →
        decryptBackupShare text ciphers (encodeBackup convert { envelope with payload }) secret = .ok opened →
          ∃ another, deviceBackupShare convert (.ok opened) = .ok another ∧
            Replaced (deriveAesKey ciphers secret) payload another
  truncated : ∀ envelope combined secret, text.decodeHex envelope.payload = .ok combined → combined.length < 12 →
    ∃ failure, decryptBackupShare text ciphers (encodeBackup convert envelope) secret = .error failure

variable {text ciphers convert}

section Survive

variable (hex : ∀ bytes, text.decodeHex (text.encodeHex bytes) = .ok bytes)
  (reads : convert.Reads text) (readBy : convert.ReadBy text) (authentic : ciphers.Authentic)

include reads readBy authentic in
theorem opensTo_iff {envelope : BackupEnvelope} {secret share : String} :
    OpensTo text ciphers convert (encodeBackup convert envelope) secret share ↔
      Holds text ciphers (deriveAesKey ciphers secret) envelope.payload share := by
  simp only [OpensTo, decryptBackupShare_eq_ok authentic, fromStr_encodeBackup readBy]
  constructor
  · intro ⟨opened, ⟨found, held, same, holds, made⟩, read⟩
    cases same
    subst made
    rw [deviceBackupShare_toJson reads] at read
    cases read
    exact holds
  · intro holds
    exact ⟨_, ⟨_, share, rfl, holds, rfl⟩, deviceBackupShare_toJson reads share⟩

include reads readBy authentic in
/-- Whatever the engine opens, the client reads the share that the payload holds. -/
theorem holds_of_opened {envelope : BackupEnvelope} {secret opened : String}
    (decrypted : decryptBackupShare text ciphers (encodeBackup convert envelope) secret = .ok opened) :
    ∃ share, deviceBackupShare convert (.ok opened) = .ok share ∧
      Holds text ciphers (deriveAesKey ciphers secret) envelope.payload share := by
  obtain ⟨found, share, read, holds, rfl⟩ := (decryptBackupShare_eq_ok authentic).mp decrypted
  rw [fromStr_encodeBackup readBy] at read
  cases read
  exact ⟨share, deviceBackupShare_toJson reads share, holds⟩

include hex reads in
theorem holds_of_sealed {nonce : Nonce} {share secret createdAt : String} {envelope : BackupEnvelope}
    (decoded : backupEnvelope convert (deriveBackupEnvelope text ciphers nonce share secret createdAt) = .ok envelope) :
    Holds text ciphers (deriveAesKey ciphers secret) envelope.payload share := by
  cases derived : deriveBackupEnvelope text ciphers nonce share secret createdAt with
  | error failure =>
      rw [derived] at decoded
      cases decoded
  | ok made =>
      obtain ⟨payload, rfl, holds⟩ := deriveBackupEnvelope_eq_ok hex derived
      rw [derived, backupEnvelope_toJson reads] at decoded
      cases decoded
      exact holds

include hex reads in
/-- A share that is encrypted gets an envelope that the client can read. -/
theorem envelope_of_encrypted {nonce : Nonce} {share secret : String} {ciphertext : Bytes}
    (encrypted : ciphers.encrypt (deriveAesKey ciphers secret) nonce (utf8 share) = .ok ciphertext) (createdAt : String) :
    ∃ envelope, backupEnvelope convert (deriveBackupEnvelope text ciphers nonce share secret createdAt) = .ok envelope ∧
      Holds text ciphers (deriveAesKey ciphers secret) envelope.payload share := by
  obtain ⟨sealed, made⟩ := deriveBackupEnvelope_seals encrypted createdAt
  obtain ⟨payload, rfl, holds⟩ := deriveBackupEnvelope_eq_ok hex made
  exact ⟨_, by rw [made, backupEnvelope_toJson reads], holds⟩

end Survive

/-! ## Runs of recovery -/

private theorem ends_bind {Value Result : Type} {finished : Past → Except Halt Result → Prop} {past : Past}
    (program : ClientM Value) {continuation : Value → ClientM Result} (fails : ∀ past halt, finished past (.error halt))
    (continues : ∀ past value, (continuation value).Follows (fun _ _ => True) finished past) :
    (program.bind continuation).Follows (fun _ _ => True) finished past := by
  induction program generalizing past with
  | done outcome =>
      cases outcome with
      | ok value => exact continues past value
      | error halt => exact fails past halt
  | perform ask next ih => exact ⟨trivial, fun answer => ih answer⟩

/-- The backup a recovery returns is the engine's envelope around the share it returns. -/
theorem recover_seals (turns requestId : Nat) (mpcKeyId backup secret : String) (version : Int) (newSecret : String) :
    (recover convert turns requestId mpcKeyId backup secret version (some newSecret)).Follows (fun _ _ => True)
      (fun past outcome => ∀ result, outcome = .ok result → ∃ createdAt answer encrypted,
        ⟨.deriveBackupEnvelope result.localEncryptedShare newSecret createdAt, answer⟩ ∈ past ∧
          Stored convert answer encrypted ∧ result.encryptedBackupShare = some encrypted) [] := by
  have fails (past : Past) (halt : Halt) : ∀ result : RecoveryResult, (.error halt : Except Halt RecoveryResult) = .ok result →
      ∃ createdAt answer encrypted, ⟨.deriveBackupEnvelope result.localEncryptedShare newSecret createdAt, answer⟩ ∈ past ∧
        Stored convert answer encrypted ∧ result.encryptedBackupShare = some encrypted := by
    intro result impossible
    cases impossible
  simp only [recover, bind_eq]
  refine ends_bind _ fails fun _ _ => ends_bind _ fails fun _ _ => ends_bind _ fails fun _ _ => ?_
  refine ends_bind _ fails fun _ _ => ends_bind _ fails fun _ _ => ends_bind _ fails fun _ last => ?_
  cases last with
  | inl impossible => exact impossible.elim
  | inr currentResult =>
      refine ends_bind _ fails fun _ result => ?_
      simp only [request_bind]
      refine ⟨trivial, fun createdAt => ⟨trivial, fun answer => ?_⟩⟩
      refine attempt_bind (fun envelope decoded => ?_) (fails _)
      intro returned made
      cases made
      exact ⟨createdAt, answer, _, List.mem_cons_self, ⟨envelope, decoded, rfl⟩, rfl⟩

/-- Every backup opens to the share it was made of under the secret it was made with. Under another
key, or with another payload, only a sealing under that key opens, to what has been sealed. -/
theorem backups_survive (hex : ∀ bytes, text.decodeHex (text.encodeHex bytes) = .ok bytes)
    (reads : convert.Reads text) (readBy : convert.ReadBy text) (authentic : ciphers.Authentic) :
    BackupsSurvive text ciphers convert (Holds text ciphers) := by
  have opens (nonce : Nonce) (share secret createdAt encrypted : String)
      (stored : Stored convert (deriveBackupEnvelope text ciphers nonce share secret createdAt) encrypted) :
      OpensTo text ciphers convert encrypted secret share := by
    obtain ⟨envelope, decoded, rfl⟩ := stored
    exact (opensTo_iff reads readBy authentic).mpr (holds_of_sealed hex reads decoded)
  constructor
  · intro nonce share secret createdAt ciphertext encrypted
    obtain ⟨sealed, made⟩ := deriveBackupEnvelope_seals encrypted createdAt
    obtain ⟨payload, rfl, _⟩ := deriveBackupEnvelope_eq_ok hex made
    exact ⟨_, _, made, _, backupEnvelope_toJson reads _, rfl⟩
  · exact opens
  · intro turns requestId mpcKeyId backup secret version newSecret past result replays honest
    have follows := (recover_seals turns requestId mpcKeyId backup secret version newSecret).along replays
    obtain ⟨createdAt, answer, encrypted, asked, stored, kept⟩ := follows result rfl
    obtain ⟨nonce, rfl⟩ := honest _ _ _ _ asked
    exact ⟨encrypted, kept, opens nonce _ _ _ _ stored⟩
  · intro nonce share secret createdAt envelope other opened _ _ decrypted
    exact holds_of_opened reads readBy authentic decrypted
  · intro nonce share secret createdAt envelope payload opened _ _ decrypted
    exact holds_of_opened reads readBy authentic decrypted
  · intro envelope combined secret decoded short
    cases opened : decryptBackupShare text ciphers (encodeBackup convert envelope) secret with
    | error failure => exact ⟨failure, rfl⟩
    | ok result =>
        obtain ⟨share, _, holds⟩ := holds_of_opened reads readBy authentic opened
        have long := holds.length_le decoded
        omega

/-! ## What else opens -/

/-- Encryption puts the key in front, and takes keys of 32 bytes only. -/
def Toy.keyedCiphers : Ciphers :=
  { hkdfExpand := fun secret _ length => CeresMpc.Toy.fit length secret
    encrypt := fun key _ plaintext => if key.length = 32 then .ok (key ++ plaintext) else .error "aead::Error"
    decrypt := fun key _ ciphertext =>
      if key.length = 32 ∧ ciphertext.take 32 = key then .ok (ciphertext.drop 32) else .error "aead::Error"
    utf8Error := fun _ => "invalid utf-8 sequence" }

theorem Toy.keyedCiphers_authentic : Toy.keyedCiphers.Authentic := by
  have sealed {key plaintext ciphertext : Bytes} {nonce : Nonce}
      (encrypted : Toy.keyedCiphers.encrypt key nonce plaintext = .ok ciphertext) :
      key.length = 32 ∧ ciphertext = key ++ plaintext := by
    simp only [Toy.keyedCiphers] at encrypted
    split at encrypted
    · next length =>
      cases encrypted
      exact ⟨length, rfl⟩
    · cases encrypted
  constructor
  · intro key nonce plaintext ciphertext encrypted
    obtain ⟨length, rfl⟩ := sealed encrypted
    have front : (key ++ plaintext).take 32 = key := List.take_left' length
    have back : (key ++ plaintext).drop 32 = plaintext := List.drop_left' length
    simp only [Toy.keyedCiphers, length, front, back, and_self, if_true]
  · intro key nonce plaintext ciphertext decrypted
    simp only [Toy.keyedCiphers] at decrypted ⊢
    split at decrypted
    · next marked =>
      cases decrypted
      rw [if_pos marked.1]
      have whole := List.take_append_drop 32 ciphertext
      rw [marked.2] at whole
      rw [whole]
    · cases decrypted

theorem Toy.codec_readBy : Toy.codec.ReadBy standard :=
  fun members flat _ => standard_lawful.json (.obj members) flat

theorem backups_survive_on_toy : BackupsSurvive standard Toy.keyedCiphers Toy.codec (Holds standard Toy.keyedCiphers) :=
  backups_survive standard_lawful.hex Toy.codec_reads Toy.codec_readBy Toy.keyedCiphers_authentic

def Toy.zeroNonce : Nonce :=
  { bytes := List.replicate 12 0, length_eq := by decide }

private theorem payload_replaced : ¬BackupsSurvive standard Toy.keyedCiphers Toy.codec fun _ _ _ => False := by
  intro survive
  have stored (share : String) : ∃ envelope,
      backupEnvelope Toy.codec (deriveBackupEnvelope standard Toy.keyedCiphers Toy.zeroNonce share "secret" "now") =
          .ok envelope ∧
        Holds standard Toy.keyedCiphers (deriveAesKey Toy.keyedCiphers "secret") envelope.payload share := by
    have length : (deriveAesKey Toy.keyedCiphers "secret").length = 32 := CeresMpc.Toy.fit_length _ _
    have encrypted : Toy.keyedCiphers.encrypt (deriveAesKey Toy.keyedCiphers "secret") Toy.zeroNonce (utf8 share) =
        .ok (deriveAesKey Toy.keyedCiphers "secret" ++ utf8 share) := by
      simp only [Toy.keyedCiphers] at length ⊢
      rw [if_pos length]
    exact envelope_of_encrypted standard_lawful.hex Toy.codec_reads encrypted "now"
  obtain ⟨envelope, decoded, held⟩ := stored "a"
  obtain ⟨other, _, heldToo⟩ := stored "b"
  obtain ⟨opened, decrypted, _⟩ := (@opensTo_iff standard Toy.keyedCiphers Toy.codec Toy.codec_reads Toy.codec_readBy
    Toy.keyedCiphers_authentic { envelope with payload := other.payload } "secret" "b").mpr heldToo
  have different : standard.decodeHex other.payload ≠ standard.decodeHex envelope.payload := by
    intro same
    obtain ⟨combined, plaintext, decodedHex, sealing⟩ := heldToo
    have moved : Holds standard Toy.keyedCiphers (deriveAesKey Toy.keyedCiphers "secret") envelope.payload "b" :=
      ⟨combined, plaintext, same ▸ decodedHex, sealing⟩
    exact absurd (held.unique Toy.keyedCiphers_authentic moved) (by decide)
  obtain ⟨_, _, impossible⟩ := survive.changed Toy.zeroNonce "a" "secret" "now" envelope other.payload opened decoded different
    decrypted
  exact impossible

/-- A tag that does not commit to the key. -/
def Toy.tag (key : Bytes) : UInt8 :=
  key.foldr (· ^^^ ·) 0

/-- Encryption appends the tag. -/
def Toy.taggedCiphers : Ciphers :=
  { hkdfExpand := fun secret _ length => CeresMpc.Toy.fit length secret
    encrypt := fun key _ plaintext => .ok (plaintext ++ [Toy.tag key])
    decrypt := fun key _ ciphertext =>
      if ciphertext.getLast? = some (Toy.tag key) then .ok ciphertext.dropLast else .error "aead::Error"
    utf8Error := fun _ => "invalid utf-8 sequence" }

theorem Toy.taggedCiphers_authentic : Toy.taggedCiphers.Authentic := by
  constructor
  · intro key nonce plaintext ciphertext encrypted
    cases encrypted
    simp [Toy.taggedCiphers]
  · intro key nonce plaintext ciphertext decrypted
    simp only [Toy.taggedCiphers] at decrypted ⊢
    split at decrypted
    · next tagged =>
      cases decrypted
      rw [List.dropLast_append_getLast? _ tagged]
    · cases decrypted

private theorem opens_under_other : ∃ encrypted,
    Stored Toy.codec (deriveBackupEnvelope standard Toy.taggedCiphers Toy.zeroNonce "a" "ab" "now") encrypted ∧
      deriveAesKey Toy.taggedCiphers "ba" ≠ deriveAesKey Toy.taggedCiphers "ab" ∧
      OpensTo standard Toy.taggedCiphers Toy.codec encrypted "ba" "a" := by
  have tags : Toy.tag (deriveAesKey Toy.taggedCiphers "ba") = Toy.tag (deriveAesKey Toy.taggedCiphers "ab") := by decide
  have encrypted : Toy.taggedCiphers.encrypt (deriveAesKey Toy.taggedCiphers "ab") Toy.zeroNonce (utf8 "a") =
      .ok (utf8 "a" ++ [Toy.tag (deriveAesKey Toy.taggedCiphers "ab")]) := rfl
  obtain ⟨envelope, sealed, combined, plaintext, decoded, ⟨nonce, ciphertext, split, tagged⟩, named⟩ :=
    envelope_of_encrypted standard_lawful.hex Toy.codec_reads encrypted "now"
  refine ⟨_, ⟨envelope, sealed, rfl⟩, by decide, ?_⟩
  apply (opensTo_iff Toy.codec_reads Toy.codec_readBy Toy.taggedCiphers_authentic).mpr
  refine ⟨combined, plaintext, decoded, ⟨nonce, ciphertext, split, ?_⟩, named⟩
  simp only [Toy.taggedCiphers] at tagged tags ⊢
  rw [tags]
  exact tagged

/-- The payload of another backup opens in the place of the first one, and the first one may open
under another key. -/
theorem backup_replaced : (¬BackupsSurvive standard Toy.keyedCiphers Toy.codec fun _ _ _ => False) ∧
    Toy.taggedCiphers.Authentic ∧ ∃ encrypted,
      Stored Toy.codec (deriveBackupEnvelope standard Toy.taggedCiphers Toy.zeroNonce "a" "ab" "now") encrypted ∧
        deriveAesKey Toy.taggedCiphers "ba" ≠ deriveAesKey Toy.taggedCiphers "ab" ∧
        OpensTo standard Toy.taggedCiphers Toy.codec encrypted "ba" "a" :=
  ⟨payload_replaced, Toy.taggedCiphers_authentic, opens_under_other⟩

end CeresMpc.Client
