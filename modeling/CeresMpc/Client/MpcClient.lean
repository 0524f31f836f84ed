import CeresMpc.Client.Dtos
import CeresMpc.Interleaving.Program

/-!
# The orchestrating client

Each operation is a program over requests to the server and calls into the
engine. A loop stops when the engine is done or the server has no further
payload; with no such end it stays unfinished after any number of turns.
-/

set_option autoImplicit false

namespace CeresMpc.Client

open Encoding Json Interleaving

inductive MpcMethod where
  | keygen
  | recovery
  | sign
  | exportKey
  deriving DecidableEq

def MpcMethod.method : MpcMethod → String
  | .keygen => "keygen"
  | .recovery => "recovery"
  | .sign => "sign"
  | .exportKey => "export_key"

/-- The rounds of the engine. -/
inductive EngineCall where
  | keygen (sessionId : String) (round : Int) (serverPayload : String)
  | recover (sessionId : String) (round : Int) (serverPayload : String) (backupShare : Option String)
      (currentRotationVersion : Option Int)
  | sign (sessionId : String) (round : Int) (serverPayload : String) (share messageHashHex : Option String)
  deriving DecidableEq

/-- What the client asks of the world. The transport gets the encoding of a request. -/
inductive Ask where
  | send (request : Json)
  | engine (call : EngineCall)
  | deriveBackupEnvelope (localEncryptedShare userBackupSecret createdAt : String)
  | decryptBackupShare (encryptedEnvelope userBackupSecret : String)
  | exportPrivateKey (localShare serverSharePrivate : String)
  /-- `DateTime.now().toUtc().toIso8601String()`. -/
  | utcNow

/-- The text of what the transport threw, or its response; an engine's `Err`, or its result. -/
abbrev Ask.Answer : Ask → Type
  | .utcNow => String
  | _ => Except String String

/-- Why an operation has no result. -/
inductive Halt where
  | threw (error : Thrown)
  | unfinished

abbrev ClientM : Type → Type := Program Ask Ask.Answer Halt

variable (convert : Convert)

def attempt {Value : Type} : Except Thrown Value → ClientM Value
  | .ok value => .done (.ok value)
  | .error error => .done (.error (.threw error))

/-! ## JSON-RPC -/

def rpcRequest (id : Nat) (method : MpcMethod) (params : List (String × Json)) : Json :=
  .obj [("jsonrpc", .str "2.0"), ("method", .str method.method), ("params", .obj params), ("id", .int id)]

/-- What the client makes of the transport's outcome. -/
def rpcResult (method : MpcMethod) : Except String String → Except Thrown (List (String × Json))
  | .error error => .error (.transport ("Transport failed: " ++ error) method.method)
  | .ok rawResponse =>
      match decodeMap convert rawResponse with
      | .error error => .error (.protocol ("Invalid JSON-RPC response: " ++ convert.describe error) none)
      | .ok response =>
          match get response "error" with
          | .null =>
              match get response "result" with
              | .null => .error (.protocol "JSON-RPC response missing \"result\" field" none)
              | result => asMap result
          | error => do
              let members ← asMap error
              let code ← asInt (get members "code")
              let message ← asString (get members "message")
              throw (.rpc code message (get members "data"))

def rpcCall (id : Nat) (method : MpcMethod) (params : List (String × Json)) : ClientM (List (String × Json)) := do
  let outcome ← Program.request (Ask.send (rpcRequest id method params))
  attempt (rpcResult convert method outcome)

/-! ## The engine behind the bridge -/

/-- The text a Rust function returned. -/
def fromRust : Except String String → Except Thrown String
  | .ok text => .ok text
  | .error message => .error (.rust message)

def roundResult (outcome : Except String String) : Except Thrown MpcRoundResult := do
  let text ← fromRust outcome
  let json ← decodeMap convert text
  MpcRoundResult.fromJson json

/-- `_checkProtocolError`. -/
def checkProtocolError (result : MpcRoundResult) : Except Thrown MpcRoundResult :=
  if result.isError then
    .error (.protocol (result.errorMessage.getD "Unknown protocol error") (some result.round))
  else .ok result

/-- What the client makes of an engine round. -/
def checkedRound (outcome : Except String String) : Except Thrown MpcRoundResult := do
  let result ← roundResult convert outcome
  checkProtocolError result

def engineRound (call : EngineCall) : ClientM MpcRoundResult := do
  let outcome ← Program.request (Ask.engine call)
  attempt (checkedRound convert outcome)

/-! ## Rounds -/

section Rounds

variable {Final : Type} (method : MpcMethod) (sessionId : String) (call : Int → String → EngineCall)
  (serverDone : List (String × Json) → MpcRoundResult → ClientM (Final ⊕ MpcRoundResult))

/-- `while (currentResult.isContinue)`. `serverDone` is what happens when a response has no
payload for the engine. -/
def rounds : (turns id : Nat) → Int → MpcRoundResult → ClientM (Final ⊕ MpcRoundResult)
  | turns, id, round, currentResult =>
      if currentResult.isContinue then
        match turns with
        | 0 => .done (.error .unfinished)
        | turns + 1 => do
            let serverData ← rpcCall convert id method
              [("sessionId", .str sessionId), ("round", .int round),
                ("clientPayload", nullable .str currentResult.clientPayload)]
            match get serverData "serverPayload" with
            | .null => serverDone serverData currentResult
            | serverPayload => do
                let nextResult ← engineRound convert (call round (convert.jsonEncode serverPayload))
                rounds turns (id + 1) (round + 1) nextResult
      else .done (.ok (.inr currentResult))

end Rounds

/-! ## Operations -/

section Keygen

def keygenPayload (clientPayload : String) : Except Thrown KeygenResult := do
  let payload ← decodeMap convert clientPayload
  KeygenResult.fromJson (snakeToCamelKeys payload)

/-- What keygen makes of its last result. -/
def keygenEnd (currentResult : MpcRoundResult) : Except Thrown KeygenResult :=
  match currentResult.isCompleted, currentResult.clientPayload with
  | true, some clientPayload => keygenPayload convert clientPayload
  | _, _ => .error (.protocol ("Unexpected keygen state: " ++ currentResult.status) none)

def keygen (turns requestId : Nat) (curve : Api.Curve) : ClientM KeygenResult := do
  let initData ← rpcCall convert (requestId + 1) .keygen [("round", .int 1), ("curve", .str curve.asStr)]
  let sessionId ← attempt (asString (get initData "sessionId"))
  let firstResult ← engineRound convert (.keygen sessionId 1 (convert.jsonEncode (get initData "serverPayload")))
  let last ← rounds convert .keygen sessionId (EngineCall.keygen sessionId)
    (fun _ _ => Sum.inr <$> engineRound convert (.keygen sessionId 0 "")) turns (requestId + 2) 2 firstResult
  match (last : Empty ⊕ MpcRoundResult) with
  | .inr currentResult => attempt (keygenEnd convert currentResult)

end Keygen

section Recover

def recoveryPayload (clientPayload : String) : Except Thrown RecoveryResult := do
  let payload ← decodeMap convert clientPayload
  RecoveryResult.fromJson (snakeToCamelKeys payload)

/-- What recovery makes of its last result: the id is always the caller's. -/
def recoveryEnd (mpcKeyId : String) (currentResult : MpcRoundResult) : Except Thrown RecoveryResult :=
  match currentResult.isCompleted, currentResult.clientPayload with
  | true, some clientPayload => do
      let result ← recoveryPayload convert clientPayload
      if result.mpcKeyId ≠ mpcKeyId then return { result with mpcKeyId } else return result
  | _, _ => .error (.protocol ("Unexpected recovery state: " ++ currentResult.status) none)

/-- `jsonEncode` of the four members of an envelope. -/
def encodeBackup (envelope : BackupEnvelope) : String :=
  convert.jsonEncode (.obj [("version", .str envelope.version), ("algorithm", .str envelope.algorithm),
    ("created_at", .str envelope.createdAt), ("payload", .str envelope.payload)])

def backupEnvelope (outcome : Except String String) : Except Thrown BackupEnvelope := do
  let text ← fromRust outcome
  let json ← decodeMap convert text
  BackupEnvelope.fromJson json

def deviceBackupShare (outcome : Except String String) : Except Thrown String := do
  let text ← fromRust outcome
  let json ← decodeMap convert text
  asString (get json "device_backup_share")

def recover (turns requestId : Nat) (mpcKeyId encryptedBackupShare userBackupSecret : String)
    (currentRotationVersion : Int) (newUserBackupSecret : Option String) : ClientM RecoveryResult := do
  let decrypted ← Program.request (Ask.decryptBackupShare encryptedBackupShare userBackupSecret)
  let backupShare ← attempt (deviceBackupShare convert decrypted)
  let initData ← rpcCall convert (requestId + 1) .recovery
    [("mpcKeyId", .str mpcKeyId), ("round", .int 1), ("currentRotationVersion", .int currentRotationVersion)]
  let sessionId ← attempt (asString (get initData "sessionId"))
  let firstResult ← engineRound convert (.recover sessionId 1 (convert.jsonEncode (get initData "serverPayload"))
    (some backupShare) (some currentRotationVersion))
  let last ← rounds convert .recovery sessionId (fun round serverPayload => .recover sessionId round serverPayload none none)
    (fun _ _ => Sum.inr <$> engineRound convert (.recover sessionId 0 "" none none)) turns (requestId + 2) 2 firstResult
  match (last : Empty ⊕ MpcRoundResult) with
  | .inr currentResult => do
      let result ← attempt (recoveryEnd convert mpcKeyId currentResult)
      match newUserBackupSecret with
      | none => return result
      | some newSecret => do
          let createdAt ← Program.request Ask.utcNow
          let derived ← Program.request (Ask.deriveBackupEnvelope result.localEncryptedShare newSecret createdAt)
          let envelope ← attempt (backupEnvelope convert derived)
          return { result with encryptedBackupShare := some (encodeBackup convert envelope) }

end Recover

section Sign

def signPayload (clientPayload : String) : Except Thrown SignResult := do
  let payload ← decodeMap convert clientPayload
  SignResult.fromJson payload

/-- `serverData['status'] == 'completed' && serverData['r'] != null`. -/
def serverSigned (serverData : List (String × Json)) : Bool :=
  match get serverData "status", get serverData "r" with
  | _, .null => false
  | .str status, _ => status = "completed"
  | _, _ => false

def signEnd (currentResult : MpcRoundResult) : Except Thrown SignResult :=
  match currentResult.isCompleted, currentResult.clientPayload with
  | true, some clientPayload => signPayload convert clientPayload
  | _, _ => .error (.protocol ("Unexpected sign state: " ++ currentResult.status) none)

def sign (turns requestId : Nat) (mpcKeyId messageHash localEncryptedShare : String) : ClientM SignResult := do
  let initData ← rpcCall convert (requestId + 1) .sign
    [("mpcKeyId", .str mpcKeyId), ("messageHash", .str messageHash), ("round", .int 1)]
  let sessionId ← attempt (asString (get initData "sessionId"))
  let firstResult ← engineRound convert (.sign sessionId 1 (convert.jsonEncode (get initData "serverPayload"))
    (some localEncryptedShare) (some messageHash))
  let last ← rounds convert .sign sessionId (fun round serverPayload => .sign sessionId round serverPayload none none)
    (fun serverData currentResult =>
      if serverSigned serverData then Sum.inl <$> attempt (SignResult.fromJson serverData)
      else .done (.ok (.inr currentResult))) turns (requestId + 2) 2 firstResult
  match last with
  | .inl result => return result
  | .inr currentResult => attempt (signEnd convert currentResult)

end Sign

section Export

def exportPayload (outcome : Except String String) : Except Thrown ExportResult := do
  let text ← fromRust outcome
  let payload ← decodeMap convert text
  ExportResult.fromJson (snakeToCamelKeys payload)

def exportPrivateKey (requestId : Nat) (mpcKeyId localEncryptedShare : String) : ClientM ExportResult := do
  let serverData ← rpcCall convert (requestId + 1) .exportKey [("mpcKeyId", .str mpcKeyId)]
  let serverSharePrivate ← attempt (asString (get serverData "serverSharePrivate"))
  let outcome ← Program.request (Ask.exportPrivateKey localEncryptedShare serverSharePrivate)
  attempt (exportPayload convert outcome)

end Export

end CeresMpc.Client
