import CeresMpc.Session
import CeresMpc.Api.Address

/-!
# FROST-Ed25519 engine

Each round is one pure library call between table operations. Results are
records here; the FFI boundary writes them as JSON.
-/

set_option autoImplicit false

namespace CeresMpc.Api.EngineEd25519

open Encoding Interleaving

variable (lib : Libraries)

/-! ## Payloads -/

structure SignR1Payload where
  commitments : String

def SignR1Payload.toJson (payload : SignR1Payload) : Json :=
  .obj [("commitments", .str payload.commitments)]

def SignR1Payload.fromJson (value : Json) : Option SignR1Payload := do
  let members ← value.record ["commitments"]
  let commitments ← Json.required Json.asStr members "commitments"
  return { commitments }

structure SignR2Payload where
  signingPkg : String
  sigShare : String

def SignR2Payload.fromJson (value : Json) : Option SignR2Payload := do
  let members ← value.record ["signing_pkg", "sig_share"]
  let signingPkg ← Json.required Json.asStr members "signing_pkg"
  let sigShare ← Json.required Json.asStr members "sig_share"
  return { signingPkg, sigShare }

structure Ed25519KeyMaterial where
  kp : String
  pkp : String

def Ed25519KeyMaterial.toJson (material : Ed25519KeyMaterial) : Json :=
  .obj [("kp", .str material.kp), ("pkp", .str material.pkp)]

def Ed25519KeyMaterial.fromJson (value : Json) : Option Ed25519KeyMaterial := do
  let members ← value.record ["kp", "pkp"]
  let kp ← Json.required Json.asStr members "kp"
  let pkp ← Json.required Json.asStr members "pkp"
  return { kp, pkp }

/-! ## Helpers -/

def parseWire (serverPayload : String) : Except String WireEnvelope :=
  mapErr "invalid server envelope JSON: " (lib.text.fromStr WireEnvelope.fromJson serverPayload)

def decodePayload {Payload : Type} (read : Json → Option Payload) (env : WireEnvelope) :
    Except String Payload := do
  let bytes ← mapErr "base64 decode payload: " (lib.text.decodeBase64 env.payload)
  mapErr "invalid round payload JSON: " (lib.text.fromSlice read bytes)

/-- Wrap an inner payload that is already base64 of JSON. -/
def encodeWirePayloadFromInner (sessionId : String) (protocol : ProtocolType) (round : UInt8)
    (innerEncoded : String) : String :=
  lib.text.renderJson
    { WireEnvelope.new sessionId protocol round 0 (some 1) innerEncoded none with
      curve := some "ed25519" }.toJson

def makeInProgress (round : UInt8) (innerPayload : String) : MpcRoundResult :=
  { status := "continue", round := Int32.ofNat round.toNat, clientPayload := some innerPayload
    errorMessage := none }

def makeCompleted (round : UInt8) (completed : Json) : MpcRoundResult :=
  { status := "completed", round := Int32.ofNat round.toNat
    clientPayload := some (lib.text.renderJson completed), errorMessage := none }

def serPkg {Package : Type} (serialize : Package → Except String Bytes) (package : Package) :
    Except String String := do
  let bytes ← mapErr "frost serialize: " (serialize package)
  return lib.text.encodeHex bytes

def deserPkg {Package : Type} (deserialize : Bytes → Except String Package) (hex : String) :
    Except String Package := do
  let bytes ← mapErr "hex decode: " (lib.text.decodeHex hex)
  mapErr "frost deserialize: " (deserialize bytes)

def extractShareMaterial (localShare : String) :
    Except String (lib.frost.KeyPackage × lib.frost.PublicKeyPackage) := do
  let (curve, raw) ← ShareEnvelope.decode lib.text localShare
  if curve ≠ .ed25519 then
    throw "share is not an ed25519 keyshare"
  let material ← mapErr "invalid ed25519 key material: "
    (lib.text.fromSlice Ed25519KeyMaterial.fromJson raw)
  let kpBytes ← mapErr "base64 kp: " (lib.text.decodeBase64 material.kp)
  let pkpBytes ← mapErr "base64 pkp: " (lib.text.decodeBase64 material.pkp)
  let kp ← mapErr "frost deserialize: " (lib.frost.deserializeKeyPackage kpBytes)
  let pkp ← mapErr "frost deserialize: " (lib.frost.deserializePublicKeyPackage pkpBytes)
  return (kp, pkp)

def verifyingKeyBytes (pkp : lib.frost.PublicKeyPackage) : Except String Bytes :=
  mapErr "verifying_key serialize: " (lib.frost.verifyingKey pkp)

/-! ## DKG -/

def keygenRound1 (sessionId serverPayload : String) : EngineM lib MpcRoundResult := do
  let env ← parseWire lib serverPayload
  let draw ← EngineM.random
  let (libState, clientInner) ← mapErr "keygen_part1: " (lib.frost.keygenPart1 1 draw)
  let createdAt ← EngineM.now
  EngineM.insert .ed25519 .dkg sessionId
    { createdAt, libState, pendingServerInner := env.payload }
  return makeInProgress 1 (encodeWirePayloadFromInner lib sessionId .dkg 1 clientInner)

def keygenRound2 (sessionId serverPayload : String) : EngineM lib MpcRoundResult := do
  let env ← parseWire lib serverPayload
  let removed ← EngineM.remove .ed25519 .dkg sessionId
  let session ← okOr ("ed25519 keygen session not found: " ++ sessionId) removed
  let (libState, clientInner) ← mapErr "keygen_part2: "
    (lib.frost.keygenPart2 session.libState session.pendingServerInner)
  EngineM.insert .ed25519 .dkg sessionId
    { createdAt := session.createdAt, libState, pendingServerInner := env.payload }
  return makeInProgress 2 (encodeWirePayloadFromInner lib sessionId .dkg 2 clientInner)

def keygenFinalize (sessionId : String) : EngineM lib MpcRoundResult := do
  let removed ← EngineM.remove .ed25519 .dkg sessionId
  let session ← okOr ("ed25519 keygen session not found: " ++ sessionId) removed
  let (keyPackage, publicKeyPackage) ← mapErr "keygen_part3: "
    (lib.frost.keygenPart3 session.libState session.pendingServerInner)
  let vkBytes ← verifyingKeyBytes lib publicKeyPackage
  let address ← deriveSolanaAddress lib vkBytes
  let localEncryptedShare ← lib.frost.buildShareEnvelope keyPackage publicKeyPackage
  let completed : KeygenCompletedPayload :=
    { mpcKeyId := sessionId, address, publicKey := lib.text.encodeHex vkBytes, curve := "ed25519"
      threshold := 2, keyRef := sessionId, backupState := "none", rotationVersion := 1
      localEncryptedShare }
  return makeCompleted lib 0 completed.toJson

def keygen (sessionId : String) (round : Int32) (serverPayload : String) :
    EngineM lib MpcRoundResult :=
  if round = 1 then keygenRound1 lib sessionId serverPayload
  else if round = 2 then keygenRound2 lib sessionId serverPayload
  else if round = 0 then keygenFinalize lib sessionId
  else .fail ("unsupported ed25519 keygen round: " ++ toString round)

/-! ## Sign -/

def signRound1 (sessionId serverPayload : String) (share messageHex : Option String) :
    EngineM lib MpcRoundResult := do
  let env ← parseWire lib serverPayload
  let r1 ← decodePayload lib SignR1Payload.fromJson env
  let serverCommitments ← deserPkg lib lib.frost.deserializeCommitments r1.commitments
  let shareStr ← okOr "share required for ed25519 sign round 1" share
  let msgHex ← okOr "message_hex required for ed25519 sign round 1" messageHex
  let message ← mapErr "message_hex decode failed: " (lib.text.decodeHex msgHex)
  let (keyPackage, publicKeyPackage) ← extractShareMaterial lib shareStr
  let vkBytes ← verifyingKeyBytes lib publicKeyPackage
  let vkHex := lib.text.encodeHex vkBytes
  let exported ← EngineM.exportedContains vkHex
  .ensure (exported = false) "signing rejected: keyshare has been exported"
  let draw ← EngineM.random
  let (nonces, ownCommitments) := lib.frost.commit keyPackage draw
  let createdAt ← EngineM.now
  EngineM.insert .ed25519 .dsg sessionId
    { createdAt, keyPackage, publicKeyPackage, message, nonces := some { value := nonces, draw }
      commitments := [(1, ownCommitments), (2, serverCommitments)], consumed := false
      verifyingKeyHex := vkHex }
  let commitments ← serPkg lib lib.frost.serializeCommitments ownCommitments
  let innerEncoded := lib.text.encodeBase64
    (utf8 (lib.text.renderJson { commitments : SignR1Payload }.toJson))
  return makeInProgress 1 (encodeWirePayloadFromInner lib sessionId .dsg 1 innerEncoded)

/-- What round 2 decodes before it takes the session. -/
def decodeSignRound2 (serverPayload : String) :
    Except String (lib.frost.SigningPackage × lib.frost.SignatureShare) := do
  let env ← parseWire lib serverPayload
  let r2 ← decodePayload lib SignR2Payload.fromJson env
  let signingPackage ← deserPkg lib lib.frost.deserializeSigningPackage r2.signingPkg
  let serverSigShare ← deserPkg lib lib.frost.deserializeSignatureShare r2.sigShare
  return (signingPackage, serverSigShare)

def signRound2 (sessionId serverPayload : String) : EngineM lib MpcRoundResult := do
  let (signingPackage, serverSigShare) ← decodeSignRound2 lib serverPayload
  let removed ← EngineM.remove .ed25519 .dsg sessionId
  let session ← okOr ("ed25519 sign session not found: " ++ sessionId) removed
  .ensure (session.consumed = false)
    ("ed25519 sign session " ++ sessionId ++ " already consumed (SEC-01)")
  .ensure (lib.frost.packageMessage signingPackage = session.message)
    "signing_package message does not match session message"
  let nonces ← okOr "ed25519 sign session missing nonces" session.nonces
  let signed ← EngineM.roundSign signingPackage nonces session.keyPackage
  let ownSigShare ← mapErr "frost round2 sign: " signed
  let signature ← mapErr "frost aggregate: "
    (lib.frost.aggregate signingPackage [(1, ownSigShare), (2, serverSigShare)]
      session.publicKeyPackage)
  let sigBytes ← mapErr "signature serialize: " (lib.frost.serializeSignature signature)
  .ensure (sigBytes.length = 64)
    ("unexpected ed25519 signature length: " ++ toString sigBytes.length)
  let completed : SignCompletedPayload :=
    { r := lib.text.encodeHex (sigBytes.take 32), s := lib.text.encodeHex (sigBytes.drop 32)
      recid := none, curve := "ed25519" }
  return makeCompleted lib 2 completed.toJson

def sign (sessionId : String) (round : Int32) (serverPayload : String)
    (share messageHex : Option String) : EngineM lib MpcRoundResult :=
  if round = 1 then signRound1 lib sessionId serverPayload share messageHex
  else if round = 2 then signRound2 lib sessionId serverPayload
  else .fail ("unsupported ed25519 sign round: " ++ toString round)

/-! ## Recover -/

def recoverRound1 (sessionId serverPayload : String) (backupShare : Option String)
    (currentRotationVersion : Option Int32) : EngineM lib MpcRoundResult := do
  let env ← parseWire lib serverPayload
  let bs ← okOr "backup_share required for round 1" backupShare
  let rv ← okOr "current_rotation_version required for round 1" currentRotationVersion
  let (oldKp, oldPkp) ← extractShareMaterial lib bs
  let draw ← EngineM.random
  let (libState, clientInner) ← mapErr "recovery_part1: " (lib.frost.recoveryPart1 oldKp oldPkp draw)
  let createdAt ← EngineM.now
  EngineM.insert .ed25519 .rotation sessionId
    { createdAt, currentRotationVersion := rv, libState, pendingServerInner := env.payload }
  return makeInProgress 1 (encodeWirePayloadFromInner lib sessionId .rotation 1 clientInner)

def recoverRound2 (sessionId serverPayload : String) : EngineM lib MpcRoundResult := do
  match ← EngineM.checkout .ed25519 .rotation sessionId with
  | .expired => .fail ("ed25519 recovery session expired (TTL): " ++ sessionId)
  | .missing => .fail ("ed25519 recovery session not found: " ++ sessionId)
  | .found _ =>
      let env ← parseWire lib serverPayload
      let removed ← EngineM.remove .ed25519 .rotation sessionId
      let session ← okOr ("ed25519 recovery session not found: " ++ sessionId) removed
      let (libState, clientInner) ← mapErr "recovery_part2: "
        (lib.frost.recoveryPart2 session.libState session.pendingServerInner)
      EngineM.insert .ed25519 .rotation sessionId
        { createdAt := session.createdAt, currentRotationVersion := session.currentRotationVersion
          libState, pendingServerInner := env.payload }
      return makeInProgress 2 (encodeWirePayloadFromInner lib sessionId .rotation 2 clientInner)

def recoverFinalize (sessionId : String) : EngineM lib MpcRoundResult := do
  let removed ← EngineM.remove .ed25519 .rotation sessionId
  let session ← okOr ("ed25519 recovery session not found: " ++ sessionId) removed
  let oldVkBytes ← verifyingKeyBytes lib (lib.frost.oldPubKeyPkg session.libState)
  let (newKp, newPkp) ← mapErr "recovery_part3: "
    (lib.frost.recoveryPart3 session.libState session.pendingServerInner)
  let newVkBytes ← verifyingKeyBytes lib newPkp
  .ensure (newVkBytes = oldVkBytes)
    "ed25519 refresh produced a different verifying_key (refresh_dkg_shares contract violated)"
  let address ← deriveSolanaAddress lib newVkBytes
  let localEncryptedShare ← lib.frost.buildShareEnvelope newKp newPkp
  let completed : RecoveryCompletedPayload :=
    { mpcKeyId := sessionId, address, publicKey := lib.text.encodeHex newVkBytes
      rotationVersion := session.currentRotationVersion + 1, localEncryptedShare }
  return makeCompleted lib 0 completed.toJson

def recover (sessionId : String) (round : Int32) (serverPayload : String)
    (backupShare : Option String) (currentRotationVersion : Option Int32) :
    EngineM lib MpcRoundResult :=
  if round = 1 then recoverRound1 lib sessionId serverPayload backupShare currentRotationVersion
  else if round = 2 then recoverRound2 lib sessionId serverPayload
  else if round = 0 then recoverFinalize lib sessionId
  else .fail ("unsupported ed25519 recover round: " ++ toString round)

/-! ## Export -/

/-- Little-endian value of a byte string. -/
def leValue (bytes : Bytes) : Nat :=
  bytes.foldr (fun byte value => byte.toNat + 256 * value) 0

/-- The first `length` little-endian bytes of a number. -/
def leBytes : (length value : Nat) → Bytes
  | 0, _ => []
  | length + 1, value => UInt8.ofNat value :: leBytes length (value / 256)

def toScalar (bytes : Bytes) (label : String) : Except String Scalar :=
  if bytes.length ≠ 32 then
    .error (label ++ ": expected 32 bytes, got " ++ toString bytes.length)
  else if leValue bytes < ed25519Order then .ok (leValue bytes : Nat)
  else .error (label ++ ": not a canonical mod-q scalar")

/-- The power `base ^ exponent` by repeated squaring, for exponents below `2 ^ bits`. -/
def squareMultiply (base : Scalar) : (bits exponent : Nat) → Scalar
  | 0, _ => 1
  | bits + 1, exponent =>
      let half := squareMultiply (base * base) bits (exponent / 2)
      if exponent % 2 = 1 then base * half else half

/-- `Scalar::invert`, the power `q - 2`; zero goes to zero. -/
def invert (x : Scalar) : Scalar := squareMultiply x 253 (ed25519Order - 2)

/-- The secret at zero of the line through the two shares. -/
def reconstruct (x1 x2 s1 s2 : Scalar) : Scalar :=
  let l1 := -x2 * invert (x1 - x2)
  let l2 := -x1 * invert (x2 - x1)
  l1 * s1 + l2 * s2

def exportPrivateKey (localShare serverShare : String) : EngineM lib ExportResult := do
  let (localKp, localPkp) ← extractShareMaterial lib localShare
  let (serverKp, serverPkp) ← extractShareMaterial lib serverShare
  let localVk ← verifyingKeyBytes lib localPkp
  let serverVk ← verifyingKeyBytes lib serverPkp
  .ensure (localVk = serverVk)
    "ed25519 export failed: verifying_key mismatch between local and server share"
  let x1 ← toScalar (lib.frost.identifier localKp) "local identifier"
  let x2 ← toScalar (lib.frost.identifier serverKp) "server identifier"
  let s1 ← toScalar (lib.frost.signingShare localKp) "local signing_share"
  let s2 ← toScalar (lib.frost.signingShare serverKp) "server signing_share"
  .ensure (x1 - x2 ≠ 0) "ed25519 export failed: identical identifiers in 2-of-2 setup"
  let secret := reconstruct x1 x2 s1 s2
  .ensure (lib.frost.mulBase secret = localVk)
    "ed25519 export failed: reconstructed scalar does not match verifying_key (sanity check failed)"
  let address ← deriveSolanaAddress lib localVk
  EngineM.exportedInsert (lib.text.encodeHex localVk)
  return { privateKey := lib.text.encodeHex (leBytes 32 secret.val), address, exported := true }

end CeresMpc.Api.EngineEd25519
