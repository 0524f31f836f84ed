import CeresMpc.Api.EngineEd25519

/-!
# Unified engine

Curve dispatch and the DKLs23 path. The rounds of keygen, recovery and signing
share their handling of the protocol task; each operation keeps its own
preparation, texts and completed payload.
-/

set_option autoImplicit false

namespace CeresMpc.Api.MpcEngine

open Encoding Interleaving

variable (lib : Libraries)

/-! ## Helpers -/

def instanceIdFromSession (sessionId : String) : Except String InstanceId := do
  let bytes ← mapErr "session_id hex decode failed: " (lib.text.decodeHex sessionId)
  if exact : bytes.length = 32 then return ⟨bytes, exact⟩
  else .error "session_id must be exactly 32 bytes (64 hex chars)"

def makeCompleted (round : UInt8) (completed : Json) : MpcRoundResult :=
  { status := "completed", round := Int32.ofNat round.toNat
    clientPayload := some (lib.text.renderJson completed), errorMessage := none }

def extractPubkeyAndAddress (keyshareBytes : Bytes) : Except String (String × String × Bytes) := do
  let keyshare ← okOr "invalid keyshare bytes from protocol" (lib.dkls.fromBytes keyshareBytes)
  let pubkeyBytes := lib.dkls.encodePoint false (lib.dkls.publicKey keyshare)
  let evmAddress ← deriveEvmAddress lib pubkeyBytes
  return (evmAddress, lib.text.encodeHex pubkeyBytes, pubkeyBytes)

/-- The compressed public key, as the exported-key registry holds it. -/
def compressedHex (keyshare : lib.dkls.Keyshare) : String :=
  lib.text.encodeHex (lib.dkls.encodePoint true (lib.dkls.publicKey keyshare))

/-! ## Batches -/

def injectAll (protocol : ProtocolType) (task : Nat) : List Bytes → EngineM lib Unit
  | [] => pure ()
  | message :: rest => do
      let sent ← EngineM.send protocol task message
      .ensure (sent = true) "failed to inject message: channel closed"
      injectAll protocol task rest

def makeInProgressBatch (sessionId : String) (protocol : ProtocolType) (round : UInt8)
    (clientMessages : List Bytes) : MpcRoundResult :=
  let payloads := clientMessages.map lib.text.encodeBase64
  let env := WireEnvelope.newBatch sessionId protocol round 0 (some 1) payloads none
  { status := "continue", round := Int32.ofNat round.toNat
    clientPayload := some (lib.text.renderJson env.toJson), errorMessage := none }

def parseServerEnvelopeBatch (serverPayload : String) : Except String (WireEnvelope × List Bytes) := do
  let serverEnv ← mapErr "invalid server envelope JSON: "
    (lib.text.fromStr WireEnvelope.fromJson serverPayload)
  if serverEnv.fromId ≠ 1 then
    throw ("expected from_id=1 (server), got from_id=" ++ toString serverEnv.fromId)
  let messages ← serverEnv.decodeAllPayloads lib.text
  return (serverEnv, messages)

/-! ## Curve dispatch -/

/-- An envelope that does not parse is left to the secp256k1 path. -/
def detectCurveFromEnvelope (serverPayload : String) : Curve :=
  match lib.text.fromStr WireEnvelope.fromJson serverPayload with
  | .ok env => env.curveOrDefault
  | .error _ => .secp256k1

/-- A share that does not decode is left to the secp256k1 path. -/
def isEd25519Share (share : Option String) : Bool :=
  match share with
  | some share =>
      match ShareEnvelope.decode lib.text share with
      | .ok (curve, _) => curve = .ed25519
      | .error _ => false
  | none => false

/-- Round 1 goes by its input, every other round by the FROST table. -/
def routeToEd25519 (protocol : ProtocolType) (sessionId : String) (round : Int32) (detected : Bool) :
    EngineM lib Bool :=
  if round = 1 then pure detected else EngineM.contains .ed25519 protocol sessionId

/-! ## Rounds of a DKLs23 session -/

def sessionNoun : ProtocolType → String
  | .dkg => "keygen"
  | .dsg => "sign"
  | .rotation => "recovery"

def taskNoun : ProtocolType → String
  | .dkg => "keygen"
  | .dsg => "sign"
  | .rotation => "key_refresh"

def notFound (protocol : ProtocolType) (sessionId : String) : String :=
  sessionNoun protocol ++ " session not found: " ++ sessionId

def joinTask (protocol : ProtocolType) (task : Nat) : EngineM lib (Dkls.Output protocol) := do
  let joined ← EngineM.join protocol task
  let outcome ← mapErr (taskNoun protocol ++ " task join error: ") joined
  mapErr (taskNoun protocol ++ " protocol error: ") outcome

/-- Feed the server's first messages to a new task and wait for its answer.
`closed` is what happens when the task ends without a message. -/
def firstBatch (protocol : ProtocolType) (task : Nat) (serverMsgs : List Bytes)
    (closed : Nat → EngineM lib (List Bytes)) : EngineM lib (List Bytes) :=
  Program.onFailure (do
      Program.onFailure (injectAll lib protocol task serverMsgs) (EngineM.abort protocol task)
      match ← EngineM.collect protocol task task with
      | some (clientMsgs, _) => return clientMsgs
      | none => closed task) (do
    EngineM.dropSender protocol task
    EngineM.dropReceiver protocol task)

/-- The rest of round 1 once the protocol run is set up. -/
def openSession (protocol : ProtocolType) (sessionId : String) (serverEnv : WireEnvelope)
    (serverMsgs : List Bytes) (protocolRun : lib.dkls.Protocol protocol)
    (closed : Nat → EngineM lib (List Bytes))
    (session : Nat → EngineM lib (Session lib .secp256k1 protocol)) : EngineM lib MpcRoundResult := do
  let task ← EngineM.spawn protocol protocolRun
  let clientMsgs ← firstBatch lib protocol task serverMsgs closed
  let opened ← session task
  EngineM.insert .secp256k1 protocol sessionId opened
  return makeInProgressBatch lib sessionId protocol serverEnv.round clientMsgs

/-- `collect_batch` on the session in the table, with the table locked. `signal`
names the task whose `round_complete` was cloned at the start of the round. -/
def collectLocked (protocol : ProtocolType) (sessionId : String) (signal : Nat) :
    EngineM lib (Option (List Bytes × Bool)) := do
  match ← EngineM.acquire protocol sessionId with
  | none => do
      EngineM.release protocol
      .fail (notFound protocol sessionId)
  | some session => do
      let nextMsgs ← EngineM.collect protocol (dklsTask lib protocol session) signal
      EngineM.release protocol
      return nextMsgs

/-- The rest of a later round once `tx_in` and `round_complete` are cloned. -/
def runRound (protocol : ProtocolType) (sessionId serverPayload : String)
    (session : Session lib .secp256k1 protocol)
    (finish : Session lib .secp256k1 protocol → UInt8 → Dkls.Output protocol →
      Except String MpcRoundResult) : EngineM lib MpcRoundResult := do
  let (serverEnv, serverMsgs) ← parseServerEnvelopeBatch lib serverPayload
  injectAll lib protocol (dklsTask lib protocol session) serverMsgs
  match ← collectLocked lib protocol sessionId (dklsTask lib protocol session) with
  | some (clientMsgs, _) => do
      if protocol = .dsg then EngineM.resetConsumed sessionId
      return makeInProgressBatch lib sessionId protocol serverEnv.round clientMsgs
  | none => do
      let removed ← EngineM.remove .secp256k1 protocol sessionId
      let last ← okOr (notFound protocol sessionId) removed
      EngineM.dropSender protocol (dklsTask lib protocol last)
      EngineM.dropReceiver protocol (dklsTask lib protocol last)
      let taskHandle ← okOr "no task handle" (dklsTaskHandle lib protocol last)
      let output ← joinTask lib protocol taskHandle
      finish session serverEnv.round output

def advance (protocol : ProtocolType) (sessionId serverPayload : String)
    (finish : Session lib .secp256k1 protocol → UInt8 → Dkls.Output protocol →
      Except String MpcRoundResult) : EngineM lib MpcRoundResult := do
  match ← EngineM.checkout .secp256k1 protocol sessionId with
  | .missing => .fail (notFound protocol sessionId)
  | .expired => .fail (sessionNoun protocol ++ " session expired (TTL): " ++ sessionId)
  | .found session => do
      .ensure (consumed lib protocol session = false)
        (sessionNoun protocol ++ " session " ++ sessionId ++ " already consumed (SEC-01)")
      Program.always (runRound lib protocol sessionId serverPayload session finish)
        (EngineM.dropSender protocol (dklsTask lib protocol session))

/-- Round 0: close the input channel and join the task. -/
def collectKeyshare (protocol : ProtocolType) (sessionId : String)
    (finish : Session lib .secp256k1 protocol → UInt8 → Dkls.Output protocol →
      Except String MpcRoundResult) : EngineM lib MpcRoundResult := do
  let removed ← EngineM.remove .secp256k1 protocol sessionId
  let session ← okOr (notFound protocol sessionId) removed
  EngineM.dropSender protocol (dklsTask lib protocol session)
  Program.always (do
      let taskHandle ← okOr "no task handle" (dklsTaskHandle lib protocol session)
      let output ← joinTask lib protocol taskHandle
      finish session 0 output)
    (EngineM.dropReceiver protocol (dklsTask lib protocol session))

/-! ## Keygen -/

def keygenCompleted (sessionId : String) (_ : KeygenSession) (round : UInt8) (ksBytes : Bytes) :
    Except String MpcRoundResult := do
  let (address, pubkeyHex, _) ← extractPubkeyAndAddress lib ksBytes
  let completed : KeygenCompletedPayload :=
    { mpcKeyId := sessionId, address, publicKey := pubkeyHex, curve := "secp256k1", threshold := 2
      keyRef := sessionId, backupState := "none", rotationVersion := 1
      localEncryptedShare := lib.text.encodeBase64 ksBytes }
  return makeCompleted lib round completed.toJson

/-- The `Debug` form of a character inside a string. Characters beyond ASCII are
taken to be printable. -/
def debugChar (c : Char) : List Char :=
  match c with
  | '\x00' => "\\0".toList
  | '\t' => "\\t".toList
  | '\n' => "\\n".toList
  | '\r' => "\\r".toList
  | '"' => "\\\"".toList
  | '\\' => "\\\\".toList
  | c =>
      if c.toNat < 0x20 ∨ c.toNat = 0x7f then
        "\\u\x7b".toList ++ Nat.toDigits 16 c.toNat ++ "\x7d".toList
      else [c]

/-- The `Debug` form of what the keygen task ended with. -/
def debugOutcome : Except String Bytes → String
  | .ok bytes => "Ok(" ++ toString (bytes.map (·.toNat)) ++ ")"
  | .error message => "Err(\"" ++ String.ofList (message.toList.flatMap debugChar) ++ "\")"

def keygenClosed (task : Nat) : EngineM lib (List Bytes) := do
  let joined ← EngineM.join .dkg task
  let err := (mapErr "keygen task panicked: " joined).bind id
  .fail ("keygen protocol failed on round 1: " ++ debugOutcome err)

def keygenRound1 (sessionId serverPayload : String) : EngineM lib MpcRoundResult := do
  let (serverEnv, serverMsgs) ← parseServerEnvelopeBatch lib serverPayload
  let inst ← instanceIdFromSession lib sessionId
  let seed ← EngineM.random
  openSession lib .dkg sessionId serverEnv serverMsgs (lib.dkls.keygen inst seed)
    (keygenClosed lib) fun task => return { task, taskHandle := some task }

def keygen (sessionId : String) (round : Int32) (serverPayload : String) :
    EngineM lib MpcRoundResult := do
  let toEd25519 ← routeToEd25519 lib .dkg sessionId round
    (detectCurveFromEnvelope lib serverPayload = .ed25519)
  if toEd25519 then EngineEd25519.keygen lib sessionId round serverPayload
  else if round = 0 then collectKeyshare lib .dkg sessionId (keygenCompleted lib sessionId)
  else if round = 1 then keygenRound1 lib sessionId serverPayload
  else advance lib .dkg sessionId serverPayload (keygenCompleted lib sessionId)

/-! ## Recovery -/

def recoveryCompleted (sessionId : String) (session : RecoverySession) (round : UInt8)
    (ksBytes : Bytes) : Except String MpcRoundResult := do
  let (address, pubkeyHex, _) ← extractPubkeyAndAddress lib ksBytes
  let completed : RecoveryCompletedPayload :=
    { mpcKeyId := sessionId, address, publicKey := pubkeyHex
      rotationVersion := session.currentRotationVersion + 1
      localEncryptedShare := lib.text.encodeBase64 ksBytes }
  return makeCompleted lib round completed.toJson

/-- The keyshare of a backup share: raw bytes only. -/
def backupKeyshare (backupShare : String) : Except String lib.dkls.Keyshare := do
  let oldKsBytes ← mapErr "base64 decode backup_share: " (lib.text.decodeBase64 backupShare)
  okOr "invalid backup keyshare bytes" (lib.dkls.fromBytes oldKsBytes)

def recoverRound1 (sessionId serverPayload : String) (backupShare : Option String)
    (currentRotationVersion : Option Int32) : EngineM lib MpcRoundResult := do
  let (serverEnv, serverMsgs) ← parseServerEnvelopeBatch lib serverPayload
  let bs ← okOr "backup_share required for round 1" backupShare
  let rv ← okOr "current_rotation_version required for round 1" currentRotationVersion
  let oldKs ← backupKeyshare lib bs
  let inst ← instanceIdFromSession lib sessionId
  let seed ← EngineM.random
  openSession lib .rotation sessionId serverEnv serverMsgs (lib.dkls.keyRefresh inst seed oldKs)
    (fun _ => .fail "key_refresh task closed before producing first message") fun task => do
      let createdAt ← EngineM.now
      return { task, taskHandle := some task, createdAt, currentRotationVersion := rv }

def recover (sessionId : String) (round : Int32) (serverPayload : String)
    (backupShare : Option String) (currentRotationVersion : Option Int32) :
    EngineM lib MpcRoundResult := do
  let toEd25519 ← routeToEd25519 lib .rotation sessionId round (isEd25519Share lib backupShare)
  if toEd25519 then
    EngineEd25519.recover lib sessionId round serverPayload backupShare currentRotationVersion
  else if round = 0 then collectKeyshare lib .rotation sessionId (recoveryCompleted lib sessionId)
  else if round = 1 then
    recoverRound1 lib sessionId serverPayload backupShare currentRotationVersion
  else advance lib .rotation sessionId serverPayload (recoveryCompleted lib sessionId)

/-! ## Signing -/

def signCompleted (_ : SignSession) (round : UInt8) (output : Bytes × UInt8) :
    Except String MpcRoundResult := do
  let (sigBytes, recid) := output
  if sigBytes.length ≠ 64 then
    throw ("unexpected signature length: " ++ toString sigBytes.length)
  let completed : SignCompletedPayload :=
    { r := lib.text.encodeHex (sigBytes.take 32), s := lib.text.encodeHex (sigBytes.drop 32)
      recid := some recid, curve := "secp256k1" }
  return makeCompleted lib round completed.toJson

/-- The keyshare of a share to sign with: a v2 envelope or raw bytes. -/
def signKeyshare (share : String) : Except String lib.dkls.Keyshare := do
  let (curve, ksBytes) ← ShareEnvelope.decode lib.text share
  if curve ≠ .secp256k1 then
    throw "expected secp256k1 keyshare on this dispatch path"
  okOr "invalid keyshare bytes" (lib.dkls.fromBytes ksBytes)

def signRound1 (sessionId serverPayload : String) (share messageHashHex : Option String) :
    EngineM lib MpcRoundResult := do
  let (serverEnv, serverMsgs) ← parseServerEnvelopeBatch lib serverPayload
  let shareB64 ← okOr "share required for round 1" share
  let hashHex ← okOr "message_hash_hex required for round 1" messageHashHex
  let digest ← MessageDigest.fromHex lib.text hashHex
  let keyshare ← signKeyshare lib shareB64
  let pkHex := compressedHex lib keyshare
  let exported ← EngineM.exportedContains pkHex
  .ensure (exported = false) "signing rejected: keyshare has been exported"
  let inst ← instanceIdFromSession lib sessionId
  let seed ← EngineM.random
  openSession lib .dsg sessionId serverEnv serverMsgs (lib.dkls.sign inst seed keyshare digest)
    (fun _ => .fail "sign task closed before producing first message") fun task =>
      return { task, taskHandle := some task, digest, consumed := false, publicKeyHex := pkHex }

def sign (sessionId : String) (round : Int32) (serverPayload : String)
    (share messageHashHex : Option String) : EngineM lib MpcRoundResult := do
  let toEd25519 ← routeToEd25519 lib .dsg sessionId round (isEd25519Share lib share)
  if toEd25519 then
    EngineEd25519.sign lib sessionId round serverPayload share messageHashHex
  else if round = 1 then signRound1 lib sessionId serverPayload share messageHashHex
  else advance lib .dsg sessionId serverPayload (signCompleted lib)

/-! ## Export -/

/-- The entries a party holds for itself in its own lists. -/
def ownEntries (ks : lib.dkls.Keyshare) (side : String) :
    Except String (lib.dkls.NonZeroScalar × Nat) := do
  let partyId := (lib.dkls.partyId ks).toNat
  let xI ← okOr ("x_i_list index out of range for " ++ side) (lib.dkls.xIList ks)[partyId]?
  let rank ← okOr ("rank_list index out of range for " ++ side) (lib.dkls.rankList ks)[partyId]?
  return (xI, rank.toNat)

/-- Both keyshares, which must belong to one public key. -/
def exportKeyshares (localShare serverSharePrivate : String) :
    Except String (lib.dkls.Keyshare × lib.dkls.Keyshare) := do
  let localBytes ← mapErr "base64 decode local_share: " (lib.text.decodeBase64 localShare)
  let serverBytes ← mapErr "base64 decode server_share_private: "
    (lib.text.decodeBase64 serverSharePrivate)
  let ks0 ← okOr "invalid local keyshare bytes" (lib.dkls.fromBytes localBytes)
  let ks1 ← okOr "invalid server keyshare bytes" (lib.dkls.fromBytes serverBytes)
  if lib.dkls.publicKey ks0 ≠ lib.dkls.publicKey ks1 then
    throw "private key reconstruction failed: public key mismatch"
  return (ks0, ks1)

def exportSecp256k1 (localShare serverSharePrivate : String) : EngineM lib ExportResult := do
  let (ks0, ks1) ← exportKeyshares lib localShare serverSharePrivate
  let pk0 := lib.dkls.publicKey ks0
  let own0 ← ownEntries lib ks0 "local"
  let own1 ← ownEntries lib ks1 "server"
  let privateKey ← okOr "private key reconstruction failed: public key mismatch after combining"
    (lib.dkls.combineShares [own0, own1] [lib.dkls.sI ks0, lib.dkls.sI ks1] pk0)
  let address ← deriveEvmAddress lib (lib.dkls.encodePoint false pk0)
  EngineM.exportedInsert (compressedHex lib ks0)
  return { privateKey := lib.text.encodeHex (lib.dkls.scalarBytes privateKey), address
           exported := true }

def exportPrivateKey (localShare serverSharePrivate : String) : EngineM lib ExportResult :=
  match ShareEnvelope.decode lib.text localShare with
  | .ok (.ed25519, _) => EngineEd25519.exportPrivateKey lib localShare serverSharePrivate
  | _ => exportSecp256k1 lib localShare serverSharePrivate

end CeresMpc.Api.MpcEngine
