import CeresMpc.Client.LockStep

/-!
# How an operation fails

A failure is declared when it is one of the three exceptions of the client, thrown for its own
reason. That depends on nothing but the types of what server and engine have answered.
-/

set_option autoImplicit false

namespace CeresMpc.Client

open Encoding Json Interleaving Program

section Declared

variable (convert : Convert)

/-- The declared exceptions, each after what it reports. -/
inductive Declared : Past → Thrown → Prop where
  | transport {request error past method} :
      Declared (⟨.send request, .error error⟩ :: past) (.transport ("Transport failed: " ++ error) method)
  | rpc {request raw past response members code message} : convert.jsonDecode raw = .ok (.obj response) →
      get response "error" = .obj members → get members "code" = .int code → get members "message" = .str message →
      Declared (⟨.send request, .ok raw⟩ :: past) (.rpc code message (get members "data"))
  | malformed {request raw past message} :
      (∀ response, convert.jsonDecode raw = .ok (.obj response) →
        get response "error" = .null ∧ get response "result" = .null) →
      Declared (⟨.send request, .ok raw⟩ :: past) (.protocol message none)
  | engine {call text past members message round} : convert.jsonDecode text = .ok (.obj members) →
      get members "status" = .str "error" → get members "round" = .int round →
      (get members "error_message" = .str message ∨
        get members "error_message" = .null ∧ message = "Unknown protocol error") →
      Declared (⟨.engine call, .ok text⟩ :: past) (.protocol message (some round))
  /-- The operation stopped with a result of the engine that is not a final one. -/
  | state {past call text members status operation} : ⟨.engine call, .ok text⟩ ∈ past →
      convert.jsonDecode text = .ok (.obj members) → get members "status" = .str status →
      Declared past (.protocol ("Unexpected " ++ operation ++ " state: " ++ status) none)

/-- Whatever an operation throws is declared. -/
def Declares {Result : Type} (past : Past) (outcome : Except Halt Result) : Prop :=
  ∀ error, outcome = .error (.threw error) → Declared convert past error

end Declared

/-- What a failing cast, a decoder or the bridge throws. -/
def Thrown.Undeclared : Thrown → Prop
  | .transport .. | .rpc .. | .protocol .. => False
  | .typeError | .argumentError _ | .formatException _ | .rust _ => True

theorem Thrown.Undeclared.not_declared {convert : Convert} {past : Past} {error : Thrown} (undeclared : error.Undeclared) :
    ¬Declared convert past error := by
  intro declared
  cases declared <;> exact undeclared

/-! ## Types of decoded values -/

inductive Kind where
  | text
  | int
  | bool
  | textOrNull
  | intOrNull
  | curveOrNull

def Kind.Holds : Kind → Json → Prop
  | .text, json => ∃ value, json = .str value
  | .int, json => ∃ value, json = .int value
  | .bool, json => ∃ value, json = .bool value
  | .textOrNull, json => json = .null ∨ ∃ value, json = .str value
  | .intOrNull, json => json = .null ∨ ∃ value, json = .int value
  | .curveOrNull, json => json = .null ∨ json = .str "secp256k1" ∨ json = .str "ed25519"

def HasFields (fields : List (String × Kind)) (json : List (String × Json)) : Prop :=
  ∀ field ∈ fields, field.2.Holds (get json field.1)

def rpcErrorFields : List (String × Kind) := [("code", .int), ("message", .text)]

def roundFields : List (String × Kind) :=
  [("status", .text), ("round", .int), ("client_payload", .textOrNull), ("error_message", .textOrNull)]

def keygenFields : List (String × Kind) :=
  [("mpcKeyId", .text), ("address", .text), ("publicKey", .text), ("curve", .text), ("threshold", .int),
    ("keyRef", .text), ("backupState", .text), ("rotationVersion", .int), ("localEncryptedShare", .text),
    ("encryptedBackupShare", .textOrNull)]

def recoveryFields : List (String × Kind) :=
  [("mpcKeyId", .text), ("address", .text), ("publicKey", .text), ("rotationVersion", .int),
    ("localEncryptedShare", .text), ("encryptedBackupShare", .textOrNull)]

def signFields : List (String × Kind) :=
  [("r", .text), ("s", .text), ("recid", .intOrNull), ("curve", .curveOrNull)]

def envelopeFields : List (String × Kind) :=
  [("version", .text), ("algorithm", .text), ("created_at", .text), ("payload", .text)]

/-- The private key may stand under either of its names. -/
def ExportTyped (json : List (String × Json)) : Prop :=
  (Kind.text.Holds (get json "privateKey") ∨ get json "privateKey" = .null ∧ Kind.text.Holds (get json "private_key")) ∧
    HasFields [("address", .text), ("exported", .bool)] json

/-! ## Readers

A reader returns a value when what it reads has the types it casts to, and throws something
undeclared when it has not. -/

section Readers

variable {Value Final : Type}

def Parses (outcome : Except Thrown Value) (fits : Prop) : Prop :=
  (∀ value, outcome = .ok value → fits) ∧ ∀ error, outcome = .error error → error.Undeclared ∧ ¬fits

variable {outcome : Except Thrown Value} {next : Value → Except Thrown Final} {fits more : Prop}

theorem Parses.ok {value : Value} (holds : fits) : Parses (.ok value) fits := by
  constructor
  · intro _ _
    exact holds
  · intro error failed
    cases failed

theorem Parses.error {error : Thrown} (undeclared : error.Undeclared) (misfits : ¬fits) :
    Parses (.error error : Except Thrown Value) fits := by
  constructor
  · intro value returned
    cases returned
  · intro _ failed
    cases failed
    exact ⟨undeclared, misfits⟩

theorem Parses.iff (parses : Parses outcome fits) (same : fits ↔ more) : Parses outcome more := by
  rwa [propext same] at parses

theorem Parses.bind (parses : Parses outcome fits) (rest : ∀ value, outcome = .ok value → Parses (next value) more) :
    Parses (outcome >>= next) (fits ∧ more) := by
  cases outcome with
  | ok value =>
      have fit := parses.1 value rfl
      exact (rest value rfl).iff (by simp [fit])
  | error error =>
      obtain ⟨undeclared, misfits⟩ := parses.2 error rfl
      exact .error undeclared fun both => misfits both.1

theorem parses_text (json : Json) : Parses (asString json) (Kind.text.Holds json) := by
  cases json with
  | str value => exact .ok ⟨value, rfl⟩
  | _ => exact .error trivial (by simp [Kind.Holds])

theorem parses_int (json : Json) : Parses (asInt json) (Kind.int.Holds json) := by
  cases json with
  | int value => exact .ok ⟨value, rfl⟩
  | _ => exact .error trivial (by simp [Kind.Holds])

theorem parses_bool (json : Json) : Parses (asBool json) (Kind.bool.Holds json) := by
  cases json with
  | bool value => exact .ok ⟨value, rfl⟩
  | _ => exact .error trivial (by simp [Kind.Holds])

theorem parses_textOrNull (json : Json) : Parses (orNull asString json) (Kind.textOrNull.Holds json) := by
  cases json with
  | null => exact .ok (.inl rfl)
  | str value => exact .ok (.inr ⟨value, rfl⟩)
  | _ => exact .error trivial (by simp [Kind.Holds])

theorem parses_intOrNull (json : Json) : Parses (orNull asInt json) (Kind.intOrNull.Holds json) := by
  cases json with
  | null => exact .ok (.inl rfl)
  | int value => exact .ok (.inr ⟨value, rfl⟩)
  | _ => exact .error trivial (by simp [Kind.Holds])

/-! ## Records -/

theorem parses_keygen (json : List (String × Json)) : Parses (KeygenResult.fromJson json) (HasFields keygenFields json) := by
  refine Parses.iff ((parses_text _).bind fun _ _ => (parses_text _).bind fun _ _ => (parses_text _).bind fun _ _ =>
    (parses_text _).bind fun _ _ => (parses_int _).bind fun _ _ => (parses_text _).bind fun _ _ =>
    (parses_text _).bind fun _ _ => (parses_int _).bind fun _ _ => (parses_text _).bind fun _ _ =>
    (parses_textOrNull _).bind fun _ _ => .ok trivial) ?_
  simp [HasFields, keygenFields]

theorem parses_recovery (json : List (String × Json)) :
    Parses (RecoveryResult.fromJson json) (HasFields recoveryFields json) := by
  refine Parses.iff ((parses_text _).bind fun _ _ => (parses_text _).bind fun _ _ => (parses_text _).bind fun _ _ =>
    (parses_int _).bind fun _ _ => (parses_text _).bind fun _ _ => (parses_textOrNull _).bind fun _ _ => .ok trivial) ?_
  simp [HasFields, recoveryFields]

theorem parses_envelope (json : List (String × Json)) :
    Parses (BackupEnvelope.fromJson json) (HasFields envelopeFields json) := by
  refine Parses.iff ((parses_text _).bind fun _ _ => (parses_text _).bind fun _ _ => (parses_text _).bind fun _ _ =>
    (parses_text _).bind fun _ _ => .ok trivial) ?_
  simp [HasFields, envelopeFields]

theorem parses_round (json : List (String × Json)) : Parses (MpcRoundResult.fromJson json) (HasFields roundFields json) := by
  refine Parses.iff ((parses_text _).bind fun _ _ => (parses_int _).bind fun _ _ => (parses_textOrNull _).bind fun _ _ =>
    (parses_textOrNull _).bind fun _ _ => .ok trivial) ?_
  simp [HasFields, roundFields]

theorem parses_export (json : List (String × Json)) : Parses (ExportResult.fromJson json) (ExportTyped json) := by
  unfold ExportResult.fromJson
  have rest (privateKey : String) : Parses (do
      let address ← asString (get json "address")
      let exported ← asBool (get json "exported")
      return ({ privateKey, address, exported } : ExportResult)) (HasFields [("address", .text), ("exported", .bool)] json) :=
    Parses.iff ((parses_text _).bind fun _ _ => (parses_bool _).bind fun _ _ => .ok trivial) (by simp [HasFields])
  split
  · next missing =>
    exact ((parses_text _).bind fun privateKey _ => rest privateKey).iff (by simp [ExportTyped, missing, Kind.Holds])
  · next other =>
    have present : get json "privateKey" ≠ .null := other
    exact ((parses_text _).bind fun privateKey _ => rest privateKey).iff (by simp [ExportTyped, present])

theorem parses_curve (name : String) :
    Parses (curveFromWireName name) (name = "secp256k1" ∨ name = "ed25519") := by
  unfold curveFromWireName
  split
  · next named => exact .ok (.inl named)
  · split
    · next named => exact .ok (.inr named)
    · next other another => exact .error trivial (by rintro (rfl | rfl) <;> contradiction)

/-- The curve is cast first and looked up last. -/
theorem parses_sign (json : List (String × Json)) : Parses (SignResult.fromJson json) (HasFields signFields json) := by
  have rest (curveName : Option String) (fits : Prop) (curve : Parses (curveFromWireName (curveName.getD "secp256k1")) fits) :
      Parses (do
          let r ← asString (get json "r")
          let s ← asString (get json "s")
          let recid ← orNull asInt (get json "recid")
          let curve ← curveFromWireName (curveName.getD "secp256k1")
          return ({ r, s, recid, curve } : SignResult))
        (Kind.text.Holds (get json "r") ∧ Kind.text.Holds (get json "s") ∧ Kind.intOrNull.Holds (get json "recid") ∧ fits) :=
    Parses.iff ((parses_text _).bind fun _ _ => (parses_text _).bind fun _ _ => (parses_intOrNull _).bind fun _ _ =>
      curve.bind fun _ _ => .ok trivial) (by simp)
  unfold SignResult.fromJson
  cases named : get json "curve" with
  | null => exact (rest none _ (parses_curve _)).iff (by simp [HasFields, signFields, Kind.Holds, named])
  | str name => exact (rest (some name) _ (parses_curve name)).iff (by simp [HasFields, signFields, Kind.Holds, named])
  | _ => exact .error trivial (by simp [HasFields, signFields, Kind.Holds, named])

/-! ## Texts -/

variable (convert : Convert)

/-- A text of an object that fits. -/
def TextTyped (fits : List (String × Json) → Prop) (text : String) : Prop :=
  ∃ members, convert.jsonDecode text = .ok (.obj members) ∧ fits members

/-- A Rust function has returned, and its text fits. -/
def Returned (fits : String → Prop) (outcome : Except String String) : Prop :=
  ∃ text, outcome = .ok text ∧ fits text

theorem parses_record {read : List (String × Json) → Except Thrown Value} {fits : List (String × Json) → Prop}
    (parses : ∀ members, Parses (read members) (fits members)) (text : String) :
    Parses (decodeMap convert text >>= read) (TextTyped convert fits text) := by
  unfold decodeMap TextTyped
  cases decoded : convert.jsonDecode text with
  | error message => exact .error trivial (by simp)
  | ok json =>
      cases json with
      | obj members => exact (parses members).iff (by simp)
      | _ => exact .error trivial (by simp)

theorem parses_returned {read : String → Except Thrown Value} {fits : String → Prop}
    (parses : ∀ text, Parses (read text) (fits text)) (outcome : Except String String) :
    Parses (fromRust outcome >>= read) (Returned fits outcome) := by
  cases outcome with
  | ok text => exact (parses text).iff (by simp [Returned])
  | error message => exact .error trivial (by simp [Returned])

end Readers

/-! ## Well-typed answers -/

/-- What an operation reads of the result of its first response, of that of a later one, and of its
completed payload. -/
structure Reads where
  opening : List (String × Json) → Prop
  later : List (String × Json) → Prop
  payload : List (String × Json) → Prop

def Ask.isSend : Ask → Bool
  | .send _ => true
  | _ => false

/-- What is read of the result of the next response. -/
def Reads.next (reads : Reads) (past : Past) : List (String × Json) → Prop :=
  if past.any (·.1.isSend) then reads.later else reads.opening

section WellTyped

variable (convert : Convert) (reads : Reads)

/-- A response is no object, reports an error as JSON-RPC does, has no result, or has one that fits. -/
def ResponseTyped (fits : List (String × Json) → Prop) (raw : String) : Prop :=
  ∀ response, convert.jsonDecode raw = .ok (.obj response) →
    (get response "error" ≠ .null → ∃ members, get response "error" = .obj members ∧ HasFields rpcErrorFields members) ∧
    (get response "error" = .null → get response "result" ≠ .null →
      ∃ data, get response "result" = .obj data ∧ fits data)

/-- A round of the engine, with its payload if it is completed. -/
def RoundTyped (members : List (String × Json)) : Prop :=
  HasFields roundFields members ∧ (get members "status" = .str "completed" →
    ∀ payload, get members "client_payload" = .str payload → TextTyped convert reads.payload payload)

def AnswerTyped (past : Past) : (ask : Ask) → ask.Answer → Prop
  | .send _, answer => ∀ raw, answer = .ok raw → ResponseTyped convert (reads.next past) raw
  | .engine _, answer => Returned (TextTyped convert (RoundTyped convert reads)) answer
  | .deriveBackupEnvelope _ _ _, answer => Returned (TextTyped convert (HasFields envelopeFields)) answer
  | .decryptBackupShare _ _, answer => Returned (TextTyped convert (HasFields [("device_backup_share", .text)])) answer
  | .exportPrivateKey _ _, answer =>
      Returned (TextTyped convert fun payload => ExportTyped (snakeToCamelKeys payload)) answer
  | .utcNow, _ => True

/-- Every call into Rust has returned, and everything the operation has read has its type. -/
def WellTyped : Past → Prop
  | [] => True
  | entry :: past => AnswerTyped convert reads past entry.1 entry.2 ∧ WellTyped past

/-- The operation throws what is declared exactly when its answers are well typed. -/
def Exact {Result : Type} (past : Past) (outcome : Except Halt Result) : Prop :=
  Declares convert past outcome ↔ WellTyped convert reads past

/-- A step that throws is exact. One that goes on leaves the answers as well typed as what is still
to be read of its value. -/
def Judged {Value : Type} (past : Past) (outcome : Except Thrown Value) (unread : Value → Prop) : Prop :=
  (∀ value, outcome = .ok value → (WellTyped convert reads past ↔ unread value)) ∧
    ∀ error, outcome = .error error → (Declared convert past error ↔ WellTyped convert reads past)

end WellTyped

section Steps

variable {convert : Convert} {reads : Reads} {past : Past} {Value Result : Type}

theorem Exact.value {result : Result} (typed : WellTyped convert reads past) :
    Exact convert reads past (.ok result : Except Halt Result) := by
  constructor
  · intro _
    exact typed
  · intro _ error threw
    cases threw

theorem Exact.unfinished (typed : WellTyped convert reads past) :
    Exact convert reads past (.error .unfinished : Except Halt Result) := by
  constructor
  · intro _
    exact typed
  · intro _ error threw
    cases threw

theorem Exact.threw {error : Thrown} (exact : Declared convert past error ↔ WellTyped convert reads past) :
    Exact convert reads past (.error (.threw error) : Except Halt Result) := by
  constructor
  · intro declares
    exact exact.mp (declares error rfl)
  · intro typed _ threw
    cases threw
    exact exact.mpr typed

theorem Parses.judged {outcome : Except Thrown Value} {fits : Prop} (parses : Parses outcome fits)
    (typed : WellTyped convert reads past ↔ fits) : Judged convert reads past outcome fun _ => True := by
  constructor
  · intro value returned
    exact iff_of_true (typed.mpr (parses.1 value returned)) trivial
  · intro error failed
    obtain ⟨undeclared, misfits⟩ := parses.2 error failed
    exact iff_of_false undeclared.not_declared fun holds => misfits (typed.mp holds)

theorem Judged.bind {outcome : Except Thrown Value} {unread : Value → Prop} {next : Value → ClientM Result}
    (judged : Judged convert reads past outcome unread)
    (continues : ∀ value, outcome = .ok value → (WellTyped convert reads past ↔ unread value) →
      (next value).Follows (fun _ _ => True) (Exact convert reads) past) :
    ((attempt outcome).bind next).Follows (fun _ _ => True) (Exact convert reads) past := by
  cases outcome with
  | ok value => exact continues value rfl (judged.1 value rfl)
  | error error => exact Exact.threw (judged.2 error rfl)

theorem Judged.follows {outcome : Except Thrown Result} (judged : Judged convert reads past outcome fun _ => True) :
    (attempt outcome).Follows (fun _ _ => True) (Exact convert reads) past := by
  cases outcome with
  | ok value => exact Exact.value ((judged.1 value rfl).mpr trivial)
  | error error => exact Exact.threw (judged.2 error rfl)

/-! ## Requests -/

/-- What the client makes of an answer, by what the answer is. -/
inductive Received (convert : Convert) (method : MpcMethod) :
    Except String String → Except Thrown (List (String × Json)) → Prop where
  | failed {error} :
      Received convert method (.error error) (.error (.transport ("Transport failed: " ++ error) method.method))
  | malformed {raw message} : (∀ response, convert.jsonDecode raw = .ok (.obj response) →
        get response "error" = .null ∧ get response "result" = .null) →
      Received convert method (.ok raw) (.error (.protocol message none))
  | reported {raw response members code message} : convert.jsonDecode raw = .ok (.obj response) →
      get response "error" = .obj members → get members "code" = .int code → get members "message" = .str message →
      Received convert method (.ok raw) (.error (.rpc code message (get members "data")))
  | garbled {raw response} : convert.jsonDecode raw = .ok (.obj response) → get response "error" ≠ .null →
      (∀ members, get response "error" = .obj members → ¬HasFields rpcErrorFields members) →
      Received convert method (.ok raw) (.error .typeError)
  | result {raw response data} : convert.jsonDecode raw = .ok (.obj response) → get response "error" = .null →
      get response "result" = .obj data → Received convert method (.ok raw) (.ok data)
  | misfit {raw response} : convert.jsonDecode raw = .ok (.obj response) → get response "error" = .null →
      get response "result" ≠ .null → (∀ data, get response "result" ≠ .obj data) →
      Received convert method (.ok raw) (.error .typeError)

theorem decodeMap_eq_ok {text : String} {members : List (String × Json)} :
    decodeMap convert text = .ok members ↔ convert.jsonDecode text = .ok (.obj members) := by
  unfold decodeMap
  cases convert.jsonDecode text with
  | error message => simp
  | ok json => cases json <;> simp [asMap]

theorem received (convert : Convert) (method : MpcMethod) (answer : Except String String) :
    Received convert method answer (rpcResult convert method answer) := by
  cases answer with
  | error error => exact .failed
  | ok raw =>
      cases read : decodeMap convert raw with
      | error error =>
          simp only [rpcResult, read]
          refine .malformed fun response decoded => ?_
          rw [decodeMap_eq_ok.mpr decoded] at read
          cases read
      | ok response =>
          have decoded := decodeMap_eq_ok.mp read
          simp only [rpcResult, read]
          cases fault : get response "error" with
          | null =>
              cases found : get response "result" with
              | null =>
                  refine .malformed fun other same => ?_
                  rw [decoded] at same
                  cases same
                  exact ⟨fault, found⟩
              | obj data => exact .result decoded fault found
              | _ => exact .misfit decoded fault (by simp [found]) (by simp [found])
          | obj members =>
              have garbled (misfits : ¬HasFields rpcErrorFields members) :
                  Received convert method (.ok raw) (.error .typeError) := by
                refine .garbled decoded (by simp [fault]) fun others same => ?_
                rw [fault] at same
                cases same
                exact misfits
              cases code : get members "code" with
              | int value =>
                  cases message : get members "message" with
                  | str text => simpa [asMap, asInt, asString, code, message] using .reported decoded fault code message
                  | _ => simpa [asMap, asInt, asString, code, message] using
                      garbled (by simp [HasFields, rpcErrorFields, Kind.Holds, message])
              | _ => simpa [asMap, asInt, code] using
                  garbled (by simp [HasFields, rpcErrorFields, Kind.Holds, code])
          | _ => exact .garbled decoded (by simp [fault]) (by simp [fault])

theorem responseTyped_of {fits : List (String × Json) → Prop} {raw : String} {response : List (String × Json)}
    (decoded : convert.jsonDecode raw = .ok (.obj response)) :
    ResponseTyped convert fits raw ↔
      (get response "error" ≠ .null → ∃ members, get response "error" = .obj members ∧ HasFields rpcErrorFields members) ∧
      (get response "error" = .null → get response "result" ≠ .null →
        ∃ data, get response "result" = .obj data ∧ fits data) := by
  simp [ResponseTyped, decoded]

theorem rpcResult_judged {request : Json} (method : MpcMethod) (answer : Except String String)
    (typed : WellTyped convert reads past) :
    Judged convert reads (⟨.send request, answer⟩ :: past) (rpcResult convert method answer) (reads.next past) := by
  have outcome := received convert method answer
  generalize rpcResult convert method answer = result at outcome
  have whole : WellTyped convert reads (⟨.send request, answer⟩ :: past) ↔
      ∀ raw, answer = .ok raw → ResponseTyped convert (reads.next past) raw := by
    simp [WellTyped, AnswerTyped, typed]
  rw [Judged, whole]
  cases outcome with
  | failed =>
      refine ⟨by simp, fun error thrown => ?_⟩
      cases thrown
      exact iff_of_true .transport (by simp)
  | @malformed raw message empty =>
      refine ⟨by simp, fun error thrown => ?_⟩
      cases thrown
      refine iff_of_true (.malformed empty) fun text same => ?_
      cases same
      intro response decoded
      obtain ⟨sound, nothing⟩ := empty response decoded
      simp [sound, nothing]
  | reported decoded fault code message =>
      refine ⟨by simp, fun error thrown => ?_⟩
      cases thrown
      refine iff_of_true (.rpc decoded fault code message) fun text same => ?_
      cases same
      simp [responseTyped_of decoded, fault, HasFields, rpcErrorFields, Kind.Holds, code, message]
  | @garbled raw response decoded faulty misfits =>
      refine ⟨by simp, fun error thrown => ?_⟩
      cases thrown
      refine iff_of_false (Thrown.Undeclared.not_declared trivial) fun holds => ?_
      obtain ⟨members, found, fields⟩ := ((responseTyped_of decoded).mp (holds raw rfl)).1 faulty
      exact misfits members found fields
  | @result raw response data decoded sound found =>
      refine ⟨fun value same => ?_, by simp⟩
      cases same
      simp [responseTyped_of decoded, sound, found]
  | @misfit raw response decoded sound something found =>
      refine ⟨by simp, fun error thrown => ?_⟩
      cases thrown
      refine iff_of_false (Thrown.Undeclared.not_declared trivial) fun holds => ?_
      obtain ⟨data, same, _⟩ := ((responseTyped_of decoded).mp (holds raw rfl)).2 sound something
      exact found data same

theorem rpcCall_exact {id : Nat} {method : MpcMethod} {params : List (String × Json)}
    {next : List (String × Json) → ClientM Result} (typed : WellTyped convert reads past)
    (continues : ∀ response data, (WellTyped convert reads (⟨.send (rpcRequest id method params), response⟩ :: past) ↔
        reads.next past data) →
      (next data).Follows (fun _ _ => True) (Exact convert reads)
        (⟨.send (rpcRequest id method params), response⟩ :: past)) :
    ((rpcCall convert id method params).bind next).Follows (fun _ _ => True) (Exact convert reads) past := by
  simp only [rpcCall, bind_eq, request_bind, perform_bind]
  exact ⟨trivial, fun answer => (rpcResult_judged method answer typed).bind fun data _ => continues answer data⟩

/-! ## Rounds of the engine -/

/-- The payload of a completed result. -/
def PayloadTyped (convert : Convert) (reads : Reads) (result : MpcRoundResult) : Prop :=
  result.isCompleted → ∀ payload, result.clientPayload = some payload → TextTyped convert reads.payload payload

theorem payloadTyped_of_continue {result : MpcRoundResult} (continues : result.isContinue) :
    PayloadTyped convert reads result := by
  have status : result.status = "continue" := by simpa [MpcRoundResult.isContinue] using continues
  simp [PayloadTyped, MpcRoundResult.isCompleted, status]

/-- The engine has returned this result. -/
def Reported (convert : Convert) (past : Past) (result : MpcRoundResult) : Prop :=
  ∃ call text members, (⟨.engine call, .ok text⟩ : Entry Ask Ask.Answer) ∈ past ∧
    convert.jsonDecode text = .ok (.obj members) ∧ get members "status" = .str result.status

theorem Reported.later {result : MpcRoundResult} (reported : Reported convert past result)
    (entry : Entry Ask Ask.Answer) : Reported convert (entry :: past) result := by
  obtain ⟨call, text, members, member, decoded, status⟩ := reported
  exact ⟨call, text, members, .tail _ member, decoded, status⟩

theorem nullable_of_cast {json : Json} {value : Option String} (read : orNull asString json = .ok value) :
    json = nullable .str value := by
  cases json with
  | null =>
      cases read
      rfl
  | str text =>
      cases read
      rfl
  | _ => cases read

theorem fromJson_ok {members : List (String × Json)} {result : MpcRoundResult}
    (read : MpcRoundResult.fromJson members = .ok result) :
    get members "status" = .str result.status ∧ get members "round" = .int result.round ∧
      get members "client_payload" = nullable .str result.clientPayload ∧
      get members "error_message" = nullable .str result.errorMessage := by
  simp only [MpcRoundResult.fromJson, bind_eq_ok] at read
  obtain ⟨status, text, round, number, payload, sent, message, said, made⟩ := read
  cases made
  refine ⟨?_, ?_, nullable_of_cast sent, nullable_of_cast said⟩
  · cases found : get members "status" <;> simp_all [asString]
  · cases found : get members "round" <;> simp_all [asInt]

theorem roundResult_ok {answer : Except String String} {result : MpcRoundResult}
    (read : roundResult convert answer = .ok result) :
    ∃ text members, answer = .ok text ∧ convert.jsonDecode text = .ok (.obj members) ∧
      MpcRoundResult.fromJson members = .ok result := by
  simp only [roundResult, bind_eq_ok] at read
  obtain ⟨text, returned, members, decoded, made⟩ := read
  refine ⟨text, members, ?_, decodeMap_eq_ok.mp decoded, made⟩
  cases answer <;> cases returned
  rfl

/-- A round that has been read is as well typed as its payload. -/
theorem roundTyped_of {members : List (String × Json)} {result : MpcRoundResult}
    (read : MpcRoundResult.fromJson members = .ok result) :
    RoundTyped convert reads members ↔ PayloadTyped convert reads result := by
  obtain ⟨status, _, payload, _⟩ := fromJson_ok read
  have fields := (parses_round members).1 result read
  have same (sent : String) : get members "client_payload" = .str sent ↔ result.clientPayload = some sent := by
    rw [payload]
    cases result.clientPayload <;> simp [nullable]
  simp [RoundTyped, PayloadTyped, fields, status, same, MpcRoundResult.isCompleted]

theorem checkedRound_judged (call : EngineCall) (answer : Except String String) (typed : WellTyped convert reads past) :
    Judged convert reads (⟨.engine call, answer⟩ :: past) (checkedRound convert answer) (PayloadTyped convert reads) ∧
      ∀ result, checkedRound convert answer = .ok result → Reported convert (⟨.engine call, answer⟩ :: past) result := by
  have whole : WellTyped convert reads (⟨.engine call, answer⟩ :: past) ↔
      Returned (TextTyped convert (RoundTyped convert reads)) answer := by
    simp [WellTyped, AnswerTyped, typed]
  rw [Judged, whole]
  have parses := parses_returned (fun text => parses_record convert parses_round text) answer
  cases read : roundResult convert answer with
  | error error =>
      obtain ⟨undeclared, misfits⟩ := parses.2 error read
      simp only [checkedRound, read, error_bind]
      refine ⟨⟨by simp, fun thrown same => ?_⟩, by simp⟩
      cases same
      refine iff_of_false undeclared.not_declared ?_
      intro ⟨text, returned, members, decoded, fits⟩
      exact misfits ⟨text, returned, members, decoded, fits.1⟩
  | ok result =>
      obtain ⟨text, members, rfl, decoded, made⟩ := roundResult_ok read
      have typed : Returned (TextTyped convert (RoundTyped convert reads)) (.ok text) ↔ PayloadTyped convert reads result := by
        simp [Returned, TextTyped, decoded, roundTyped_of made]
      obtain ⟨status, round, payload, message⟩ := fromJson_ok made
      simp only [checkedRound, read, ok_bind, checkProtocolError]
      split
      · next failed =>
        have named : result.status = "error" := by simpa [MpcRoundResult.isError] using failed
        refine ⟨⟨by simp, fun error same => ?_⟩, by simp⟩
        cases same
        rw [named] at status
        refine iff_of_true (.engine decoded status round ?_) (typed.mpr ?_)
        · rw [message]
          cases result.errorMessage <;> simp [nullable]
        · simp [PayloadTyped, MpcRoundResult.isCompleted, named]
      · refine ⟨⟨fun value same => ?_, by simp⟩, fun value same => ?_⟩
        · cases same
          exact typed
        · cases same
          exact ⟨call, text, members, by simp, decoded, status⟩

theorem engineRound_exact {call : EngineCall} {next : MpcRoundResult → ClientM Result}
    (typed : WellTyped convert reads past)
    (continues : ∀ answer result, (WellTyped convert reads (⟨.engine call, answer⟩ :: past) ↔
        PayloadTyped convert reads result) → Reported convert (⟨.engine call, answer⟩ :: past) result →
      (next result).Follows (fun _ _ => True) (Exact convert reads) (⟨.engine call, answer⟩ :: past)) :
    ((engineRound convert call).bind next).Follows (fun _ _ => True) (Exact convert reads) past := by
  simp only [engineRound, bind_eq, request_bind, perform_bind]
  refine ⟨trivial, fun answer => ?_⟩
  obtain ⟨judged, reported⟩ := checkedRound_judged call answer typed
  exact judged.bind fun result checked payload => continues answer result payload (reported result checked)

/-! ## Loops -/

section Loops

variable {method : MpcMethod} {Final : Type} {next : Final ⊕ MpcRoundResult → ClientM Result}

/-- A response with a payload for the engine has nothing else to be read. -/
theorem rounds_exact {sessionId : String} {call : Int → String → EngineCall}
    {serverDone : List (String × Json) → MpcRoundResult → ClientM (Final ⊕ MpcRoundResult)}
    (paid : ∀ data, get data "serverPayload" ≠ .null → reads.later data)
    (done : ∀ past data result, (WellTyped convert reads past ↔ reads.later data) →
      get data "serverPayload" = .null → result.isContinue → Reported convert past result →
      ((serverDone data result).bind next).Follows (fun _ _ => True) (Exact convert reads) past)
    (ends : ∀ past result, (WellTyped convert reads past ↔ PayloadTyped convert reads result) →
      Reported convert past result → (next (.inr result)).Follows (fun _ _ => True) (Exact convert reads) past)
    (turns id : Nat) (round : Int) {result : MpcRoundResult} {past : Past}
    (typed : WellTyped convert reads past ↔ PayloadTyped convert reads result) (reported : Reported convert past result)
    (sent : past.any (·.1.isSend)) :
    ((rounds convert method sessionId call serverDone turns id round result).bind next).Follows (fun _ _ => True)
      (Exact convert reads) past := by
  induction turns generalizing id round result past with
  | zero =>
      unfold rounds
      split
      · next continues => exact Exact.unfinished (typed.mpr (payloadTyped_of_continue continues))
      · exact ends past result typed reported
  | succ turns ih =>
      unfold rounds
      split
      · next continues =>
        simp only [bind_eq, bind_assoc]
        refine rpcCall_exact (typed.mpr (payloadTyped_of_continue continues)) fun response data read => ?_
        rw [Reads.next, if_pos sent] at read
        split
        · next nothing => exact done _ data result read nothing continues (reported.later _)
        · next something =>
          simp only [bind_assoc]
          refine engineRound_exact (read.mpr (paid data something)) fun answer further typed reported => ?_
          exact ih _ _ typed reported (by simp [sent])
      · exact ends past result typed reported

/-- Round 0 of an operation that collects its result once a response has no payload. -/
theorem collect_exact {collect : EngineCall} (unread : ∀ data, reads.later data)
    (ends : ∀ past result, (WellTyped convert reads past ↔ PayloadTyped convert reads result) →
      Reported convert past result → (next (.inr result)).Follows (fun _ _ => True) (Exact convert reads) past)
    {past : Past} {data : List (String × Json)} (typed : WellTyped convert reads past ↔ reads.later data) :
    ((Sum.inr <$> engineRound convert collect).bind next).Follows (fun _ _ => True) (Exact convert reads) past := by
  simp only [map_eq, Program.bind_assoc]
  exact engineRound_exact (typed.mpr (unread data)) fun answer further typed reported => ends _ further typed reported

/-- The first turn and the loop after it. Only the session is read of the first response. -/
theorem drive_exact {opening : List (String × Json)} {first : String → List (String × Json) → EngineCall}
    {call : String → Int → String → EngineCall}
    {serverDone : String → List (String × Json) → MpcRoundResult → ClientM (Final ⊕ MpcRoundResult)}
    {requestId turns : Nat} (typed : WellTyped convert reads past) (unsent : past.any (·.1.isSend) = false)
    (named : ∀ data, reads.opening data ↔ Kind.text.Holds (get data "sessionId"))
    (paid : ∀ data, get data "serverPayload" ≠ .null → reads.later data)
    (done : ∀ sessionId past data result, (WellTyped convert reads past ↔ reads.later data) →
      get data "serverPayload" = .null → result.isContinue → Reported convert past result →
      ((serverDone sessionId data result).bind next).Follows (fun _ _ => True) (Exact convert reads) past)
    (ends : ∀ past result, (WellTyped convert reads past ↔ PayloadTyped convert reads result) →
      Reported convert past result → (next (.inr result)).Follows (fun _ _ => True) (Exact convert reads) past) :
    ((rpcCall convert (requestId + 1) method opening).bind fun initData =>
      (attempt (asString (get initData "sessionId"))).bind fun sessionId =>
        (engineRound convert (first sessionId initData)).bind fun firstResult =>
          (rounds convert method sessionId (call sessionId) (serverDone sessionId) turns (requestId + 2) 2
            firstResult).bind next).Follows (fun _ _ => True) (Exact convert reads) past := by
  refine rpcCall_exact typed fun response data read => ?_
  rw [Reads.next, if_neg (by simp [unsent]), named] at read
  refine ((parses_text _).judged read).bind fun sessionId _ typed => ?_
  refine engineRound_exact (typed.mpr trivial) fun answer result typed reported => ?_
  exact rounds_exact paid (done sessionId) ends turns _ _ typed reported (by simp [Ask.isSend])

end Loops

/-! ## Ends -/

/-- What an operation makes of its last result. -/
theorem judged_end (operation : String) {outcome : Except Thrown Value} {result : MpcRoundResult}
    (typed : WellTyped convert reads past ↔ PayloadTyped convert reads result) (reported : Reported convert past result)
    (completed : ∀ payload, result.isCompleted → result.clientPayload = some payload →
      Parses outcome (TextTyped convert reads.payload payload))
    (otherwise : (∀ payload, result.isCompleted → result.clientPayload ≠ some payload) →
      outcome = .error (.protocol ("Unexpected " ++ operation ++ " state: " ++ result.status) none)) :
    Judged convert reads past outcome fun _ => True := by
  by_cases ended : ∃ payload, result.isCompleted ∧ result.clientPayload = some payload
  · obtain ⟨payload, status, sent⟩ := ended
    refine (completed payload status sent).judged (typed.trans ?_)
    simp [PayloadTyped, status, sent]
  · have nothing : ∀ payload, result.isCompleted → result.clientPayload ≠ some payload := by
      intro payload status sent
      exact ended ⟨payload, status, sent⟩
    rw [otherwise nothing]
    refine ⟨by simp, fun error thrown => ?_⟩
    cases thrown
    obtain ⟨call, text, members, member, decoded, status⟩ := reported
    refine iff_of_true (.state member decoded status) (typed.mpr fun status payload sent => ?_)
    exact absurd sent (nothing payload status)

end Steps

/-! ## Operations -/

section Operations

variable (convert : Convert)

def keygenReads : Reads :=
  { opening := fun data => Kind.text.Holds (get data "sessionId"), later := fun _ => True
    payload := fun payload => HasFields keygenFields (snakeToCamelKeys payload) }

def recoverReads : Reads :=
  { opening := fun data => Kind.text.Holds (get data "sessionId"), later := fun _ => True
    payload := fun payload => HasFields recoveryFields (snakeToCamelKeys payload) }

/-- A signature may also come with a response. -/
def signReads : Reads :=
  { opening := fun data => Kind.text.Holds (get data "sessionId")
    later := fun data => get data "serverPayload" = .null → serverSigned data → HasFields signFields data
    payload := HasFields signFields }

def exportReads : Reads :=
  { opening := fun data => Kind.text.Holds (get data "serverSharePrivate"), later := fun _ => True
    payload := fun _ => True }

theorem keygen_exact (turns requestId : Nat) (curve : Api.Curve) :
    (keygen convert turns requestId curve).Follows (fun _ _ => True) (Exact convert keygenReads) [] := by
  have ends (past : Past) (result : MpcRoundResult)
      (typed : WellTyped convert keygenReads past ↔ PayloadTyped convert keygenReads result)
      (reported : Reported convert past result) :
      (attempt (keygenEnd convert result)).Follows (fun _ _ => True) (Exact convert keygenReads) past := by
    refine (judged_end "keygen" typed reported (fun payload status sent => ?_) fun nothing => ?_).follows
    · simp only [keygenEnd, status, sent]
      exact parses_record convert (fun members => parses_keygen _) payload
    · unfold keygenEnd
      split
      · next payload status sent => exact absurd sent (nothing payload status)
      · rfl
  refine drive_exact trivial rfl (fun _ => Iff.rfl) (fun _ _ => trivial) ?_ ends
  intro sessionId past data result typed _ _ _
  exact collect_exact (fun _ => trivial) ends typed

theorem recover_exact (turns requestId : Nat) (mpcKeyId encryptedBackupShare userBackupSecret : String)
    (currentRotationVersion : Int) (newUserBackupSecret : Option String) :
    (recover convert turns requestId mpcKeyId encryptedBackupShare userBackupSecret currentRotationVersion
      newUserBackupSecret).Follows (fun _ _ => True) (Exact convert recoverReads) [] := by
  simp only [recover, bind_eq, request_bind]
  refine ⟨trivial, fun decrypted => ?_⟩
  have share : Parses (deviceBackupShare convert decrypted)
      (Returned (TextTyped convert (HasFields [("device_backup_share", .text)])) decrypted) :=
    parses_returned (fun text => parses_record convert (fun members => (parses_text _).iff (by simp [HasFields])) text)
      decrypted
  refine (share.judged (by simp [WellTyped, AnswerTyped])).bind fun backupShare _ typed => ?_
  have ends (past : Past) (result : MpcRoundResult)
      (typed : WellTyped convert recoverReads past ↔ PayloadTyped convert recoverReads result)
      (reported : Reported convert past result) :
      Judged convert recoverReads past (recoveryEnd convert mpcKeyId result) fun _ => True := by
    refine judged_end "recovery" typed reported (fun payload status sent => ?_) fun nothing => ?_
    · simp only [recoveryEnd, status, sent]
      have named (result : RecoveryResult) : Parses
          (if result.mpcKeyId ≠ mpcKeyId then return { result with mpcKeyId } else return result) True := by
        split <;> exact .ok trivial
      exact ((parses_record convert (fun members => parses_recovery _) payload).bind fun result _ => named result).iff
        (iff_of_eq (and_true _))
    · unfold recoveryEnd
      split
      · next payload status sent => exact absurd sent (nothing payload status)
      · rfl
  refine drive_exact (typed.mpr trivial) rfl (fun _ => Iff.rfl) (fun _ _ => trivial)
    (fun _ _ _ _ typed _ _ _ => collect_exact (fun _ => trivial) ?last typed) ?last
  intro past result typed reported
  refine (ends past result typed reported).bind fun result _ typed => ?_
  cases newUserBackupSecret with
  | none => exact Exact.value (typed.mpr trivial)
  | some newSecret =>
      refine ⟨trivial, fun createdAt => ⟨trivial, fun derived => ?_⟩⟩
      have envelope : Parses (backupEnvelope convert derived)
          (Returned (TextTyped convert (HasFields envelopeFields)) derived) :=
        parses_returned (fun text => parses_record convert parses_envelope text) derived
      refine (envelope.judged ?_).bind fun envelope _ typed => Exact.value (typed.mpr trivial)
      exact and_iff_left ⟨trivial, typed.mpr trivial⟩

theorem sign_exact (turns requestId : Nat) (mpcKeyId messageHash localEncryptedShare : String) :
    (sign convert turns requestId mpcKeyId messageHash localEncryptedShare).Follows (fun _ _ => True)
      (Exact convert signReads) [] := by
  have ends (past : Past) (result : MpcRoundResult)
      (typed : WellTyped convert signReads past ↔ PayloadTyped convert signReads result)
      (reported : Reported convert past result) :
      (attempt (signEnd convert result)).Follows (fun _ _ => True) (Exact convert signReads) past := by
    refine (judged_end "sign" typed reported (fun payload status sent => ?_) fun nothing => ?_).follows
    · simp only [signEnd, status, sent]
      exact parses_record convert parses_sign payload
    · unfold signEnd
      split
      · next payload status sent => exact absurd sent (nothing payload status)
      · rfl
  have start : WellTyped convert signReads [] := trivial
  refine drive_exact start rfl (fun _ => Iff.rfl) (fun data something nothing => absurd nothing something) ?_ ends
  intro sessionId past data result typed nothing continues reported
  split
  · next signed =>
    simp only [map_eq, Program.bind_assoc]
    refine ((parses_sign data).judged ?_).bind fun value _ typed => Exact.value (typed.mpr trivial)
    exact typed.trans ⟨fun reads => reads nothing signed, fun fields _ _ => fields⟩
  · next unsigned =>
    refine ends past result (iff_of_true (typed.mpr fun _ signed => absurd signed unsigned) ?_) reported
    exact payloadTyped_of_continue continues

theorem exportPrivateKey_exact (requestId : Nat) (mpcKeyId localEncryptedShare : String) :
    (exportPrivateKey convert requestId mpcKeyId localEncryptedShare).Follows (fun _ _ => True)
      (Exact convert exportReads) [] := by
  simp only [exportPrivateKey, bind_eq, request_bind]
  refine rpcCall_exact trivial fun response data read => ?_
  refine ((parses_text _).judged read).bind fun serverShare _ typed => ⟨trivial, fun exported => ?_⟩
  have payload : Parses (exportPayload convert exported)
      (Returned (TextTyped convert fun payload => ExportTyped (snakeToCamelKeys payload)) exported) :=
    parses_returned (fun text => parses_record convert (fun members => parses_export _) text) exported
  refine (payload.judged ?_).follows
  exact and_iff_left (typed.mpr trivial)

end Operations

/-- Once a response names a session, an `Err` of the first signing round is thrown as the bridge throws it. -/
theorem sign_undeclared {convert : Convert} {raw sessionId : String} {data : List (String × Json)}
    (read : rpcResult convert .sign (.ok raw) = .ok data) (named : get data "sessionId" = .str sessionId)
    (turns requestId : Nat) (mpcKeyId messageHash share : String) :
    ¬(sign convert turns requestId mpcKeyId messageHash share).Follows (fun _ _ => True) (Declares convert) [] := by
  intro follows
  simp only [sign, rpcCall, engineRound, bind_eq, request_bind, perform_bind, follows_perform, true_and] at follows
  have opened := follows (.ok raw)
  rw [read, attempt, done_ok_bind, named] at opened
  have thrown := (opened.2 (.error "signing rejected: keyshare has been exported")) _ rfl
  cases thrown

/-- A response that names a session. -/
def Toy.opening : String := "\x7b\"result\":\x7b\"sessionId\":\"s\"\x7d\x7d"

/-- A codec that reads it. -/
def Toy.responseCodec : Convert :=
  { Toy.codec with
    jsonDecode := fun text =>
      if text = Toy.opening then .ok (.obj [("result", .obj [("sessionId", .str "s")])]) else Toy.codec.jsonDecode text }

end CeresMpc.Client
