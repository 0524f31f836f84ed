import CeresMpc.Api.Types
import CeresMpc.Client.Dart

/-!
# Data objects of the client

Each has the fields of the Rust record it mirrors. `fromJson` reads a decoded map.
-/

set_option autoImplicit false

namespace CeresMpc.Client

open Encoding Json

/-- `Curve.fromWireName`. -/
def curveFromWireName (name : String) : Except Thrown Api.Curve :=
  if name = Api.Curve.secp256k1.asStr then .ok .secp256k1
  else if name = Api.Curve.ed25519.asStr then .ok .ed25519
  else .error (.argumentError ("unsupported curve: " ++ name))

@[simp] theorem curveFromWireName_asStr (curve : Api.Curve) : curveFromWireName curve.asStr = .ok curve := by
  cases curve <;> rfl

structure MpcRoundResult where
  status : String
  round : Int
  clientPayload : Option String
  errorMessage : Option String
  deriving DecidableEq

namespace MpcRoundResult

def fromJson (json : List (String × Json)) : Except Thrown MpcRoundResult := do
  let status ← asString (get json "status")
  let round ← asInt (get json "round")
  let clientPayload ← orNull asString (get json "client_payload")
  let errorMessage ← orNull asString (get json "error_message")
  return { status, round, clientPayload, errorMessage }

def isContinue (result : MpcRoundResult) : Bool := result.status = "continue"

def isCompleted (result : MpcRoundResult) : Bool := result.status = "completed"

def isError (result : MpcRoundResult) : Bool := result.status = "error"

end MpcRoundResult

structure KeygenResult where
  mpcKeyId : String
  address : String
  publicKey : String
  curve : String
  threshold : Int
  keyRef : String
  backupState : String
  rotationVersion : Int
  localEncryptedShare : String
  encryptedBackupShare : Option String
  deriving DecidableEq

def KeygenResult.fromJson (json : List (String × Json)) : Except Thrown KeygenResult := do
  let mpcKeyId ← asString (get json "mpcKeyId")
  let address ← asString (get json "address")
  let publicKey ← asString (get json "publicKey")
  let curve ← asString (get json "curve")
  let threshold ← asInt (get json "threshold")
  let keyRef ← asString (get json "keyRef")
  let backupState ← asString (get json "backupState")
  let rotationVersion ← asInt (get json "rotationVersion")
  let localEncryptedShare ← asString (get json "localEncryptedShare")
  let encryptedBackupShare ← orNull asString (get json "encryptedBackupShare")
  return { mpcKeyId, address, publicKey, curve, threshold, keyRef, backupState, rotationVersion
           localEncryptedShare, encryptedBackupShare }

structure RecoveryResult where
  mpcKeyId : String
  address : String
  publicKey : String
  rotationVersion : Int
  localEncryptedShare : String
  encryptedBackupShare : Option String
  deriving DecidableEq

def RecoveryResult.fromJson (json : List (String × Json)) : Except Thrown RecoveryResult := do
  let mpcKeyId ← asString (get json "mpcKeyId")
  let address ← asString (get json "address")
  let publicKey ← asString (get json "publicKey")
  let rotationVersion ← asInt (get json "rotationVersion")
  let localEncryptedShare ← asString (get json "localEncryptedShare")
  let encryptedBackupShare ← orNull asString (get json "encryptedBackupShare")
  return { mpcKeyId, address, publicKey, rotationVersion, localEncryptedShare, encryptedBackupShare }

structure SignResult where
  r : String
  s : String
  recid : Option Int
  curve : Api.Curve
  deriving DecidableEq

def SignResult.fromJson (json : List (String × Json)) : Except Thrown SignResult := do
  let curveName ← orNull asString (get json "curve")
  let r ← asString (get json "r")
  let s ← asString (get json "s")
  let recid ← orNull asInt (get json "recid")
  let curve ← curveFromWireName (curveName.getD "secp256k1")
  return { r, s, recid, curve }

structure ExportResult where
  privateKey : String
  address : String
  exported : Bool
  deriving DecidableEq

/-- `json['privateKey'] ?? json['private_key'] as String`: the cast is part of the second operand,
and the first is cast when it is passed on. -/
def ExportResult.fromJson (json : List (String × Json)) : Except Thrown ExportResult := do
  let privateKey ← match get json "privateKey" with
    | .null => asString (get json "private_key")
    | value => asString value
  let address ← asString (get json "address")
  let exported ← asBool (get json "exported")
  return { privateKey, address, exported }

structure BackupEnvelope where
  version : String
  algorithm : String
  createdAt : String
  payload : String
  deriving DecidableEq

def BackupEnvelope.fromJson (json : List (String × Json)) : Except Thrown BackupEnvelope := do
  let version ← asString (get json "version")
  let algorithm ← asString (get json "algorithm")
  let createdAt ← asString (get json "created_at")
  let payload ← asString (get json "payload")
  return { version, algorithm, createdAt, payload }

end CeresMpc.Client
