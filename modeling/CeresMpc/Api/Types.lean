import CeresMpc.Encoding.Encodings

/-!
# Wire and storage types

The records of the engine's API with their JSON forms. Readers follow derived
deserializers: an `Option` field may be absent, any other missing or repeated
field is an error, unknown fields are ignored.
-/

set_option autoImplicit false

namespace CeresMpc.Api

open Encoding

inductive Curve where
  | secp256k1
  | ed25519
  deriving DecidableEq, Repr

namespace Curve

def asStr : Curve → String
  | .secp256k1 => "secp256k1"
  | .ed25519 => "ed25519"

def parse (text : String) : Except String Curve :=
  if text = "secp256k1" ∨ text = "" then .ok .secp256k1
  else if text = "ed25519" then .ok .ed25519
  else .error ("unsupported curve: " ++ text)

@[simp] theorem parse_asStr (curve : Curve) : parse curve.asStr = .ok curve := by
  cases curve <;> decide

end Curve

/-! ## Keyshares at rest -/

structure ShareEnvelope where
  v : UInt8
  curve : String
  share : String
  deriving DecidableEq, Repr

namespace ShareEnvelope

def toJson (envelope : ShareEnvelope) : Json :=
  .obj [("v", .int envelope.v.toNat), ("curve", .str envelope.curve), ("share", .str envelope.share)]

def fromJson (value : Json) : Option ShareEnvelope := do
  let members ← value.record ["v", "curve", "share"]
  let v ← Json.required Json.asUInt8 members "v"
  let curve ← Json.required Json.asStr members "curve"
  let share ← Json.required Json.asStr members "share"
  return { v, curve, share }

theorem toJson_flat (envelope : ShareEnvelope) : envelope.toJson.Flat := by
  have bound := envelope.v.toNat_lt
  simp [toJson, Json.Flat, Json.Plain]
  omega

theorem fromJson_toJson (envelope : ShareEnvelope) : fromJson envelope.toJson = some envelope := by
  have bound := envelope.v.toNat_lt
  have byte : (0 : Int) ≤ envelope.v.toNat ∧ (envelope.v.toNat : Int) < 256 := by omega
  simp [fromJson, toJson, Json.record, Json.required, Json.member, Json.asUInt8, Json.asStr, byte]

variable (text : Encodings)

def new (curve : Curve) (shareBytes : Bytes) : ShareEnvelope :=
  { v := 2, curve := curve.asStr, share := text.encodeBase64 shareBytes }

def encode (envelope : ShareEnvelope) : String :=
  text.encodeBase64 (utf8 (text.renderJson envelope.toJson))

/-- A v2 envelope that parses decides the result, errors included; any other
bytes are a v0.1 raw DKLs23 keyshare. -/
def decode (localEncryptedShare : String) : Except String (Curve × Bytes) := do
  let raw ← mapErr "base64 decode keyshare: " (text.decodeBase64 localEncryptedShare)
  match text.fromSlice fromJson raw with
  | .ok envelope =>
      let curve ← Curve.parse envelope.curve
      let shareBytes ← mapErr "base64 decode envelope.share: " (text.decodeBase64 envelope.share)
      return (curve, shareBytes)
  | .error _ => return (.secp256k1, raw)

variable {text}

theorem decode_encode (lawful : text.Lawful) (curve : Curve) (shareBytes : Bytes) :
    decode text (encode text (new text curve shareBytes)) = .ok (curve, shareBytes) := by
  have parsed := Encodings.fromSlice_renderJson lawful (toJson_flat _)
    (fromJson_toJson (new text curve shareBytes))
  simp only [decode, encode, lawful.base64, mapErr, bind, Except.bind, parsed]
  simp [new, lawful.base64, pure, Except.pure]

/-- Bytes that are no envelope pass through as a raw secp256k1 keyshare. -/
theorem decode_raw (lawful : text.Lawful) {raw : Bytes}
    (legacy : ∀ envelope, text.fromSlice fromJson raw ≠ .ok envelope) :
    decode text (text.encodeBase64 raw) = .ok (.secp256k1, raw) := by
  cases parsed : text.fromSlice fromJson raw with
  | ok envelope => exact absurd parsed (legacy envelope)
  | error message =>
      simp [decode, lawful.base64, mapErr, bind, Except.bind, parsed, pure, Except.pure]

/-- A share is raw bytes that are no envelope, or what is inside an envelope. -/
theorem decode_eq_ok {share : String} {curve : Curve} {shareBytes : Bytes} :
    decode text share = .ok (curve, shareBytes) ↔
      ∃ raw, text.decodeBase64 share = .ok raw ∧
        ((curve = .secp256k1 ∧ shareBytes = raw ∧ ∀ envelope, text.fromSlice fromJson raw ≠ .ok envelope) ∨
          ∃ envelope, text.fromSlice fromJson raw = .ok envelope ∧ Curve.parse envelope.curve = .ok curve ∧
            text.decodeBase64 envelope.share = .ok shareBytes) := by
  rw [decode, bind_eq_ok]
  simp only [mapErr_eq_ok]
  refine exists_congr fun raw => and_congr_right fun _ => ?_
  cases parsed : text.fromSlice fromJson raw with
  | error failure => simp [pure, Except.pure, eq_comm]
  | ok envelope =>
      simp only [bind_eq_ok, mapErr_eq_ok]
      constructor
      · rintro ⟨found, tagged, bytes, decoded, made⟩
        cases made
        exact .inr ⟨envelope, rfl, tagged, decoded⟩
      · rintro (⟨_, _, noEnvelope⟩ | ⟨found, same, tagged, decoded⟩)
        · exact absurd rfl (noEnvelope envelope)
        · cases same
          exact ⟨curve, tagged, shareBytes, decoded, rfl⟩

end ShareEnvelope

/-! ## Results -/

structure MpcRoundResult where
  status : String
  round : Int32
  clientPayload : Option String
  errorMessage : Option String
  deriving DecidableEq

def MpcRoundResult.toJson (result : MpcRoundResult) : Json :=
  .obj [("status", .str result.status), ("round", .int result.round.toInt),
    ("client_payload", Json.nullable .str result.clientPayload),
    ("error_message", Json.nullable .str result.errorMessage)]

def MpcRoundResult.fromJson (value : Json) : Option MpcRoundResult := do
  let members ← value.record ["status", "round", "client_payload", "error_message"]
  let status ← Json.required Json.asStr members "status"
  let round ← Json.required Json.asInt32 members "round"
  let clientPayload ← Json.optional Json.asStr members "client_payload"
  let errorMessage ← Json.optional Json.asStr members "error_message"
  return { status, round, clientPayload, errorMessage }

theorem MpcRoundResult.toJson_flat (result : MpcRoundResult) : result.toJson.Flat := by
  have status : (Json.str result.status).Plain := trivial
  simp [toJson, Json.Flat, Json.plain_int32, Json.plain_nullable, status]

theorem MpcRoundResult.fromJson_toJson (result : MpcRoundResult) : fromJson result.toJson = some result := by
  obtain ⟨status, round, clientPayload, errorMessage⟩ := result
  cases clientPayload <;> cases errorMessage <;>
    simp [fromJson, toJson, Json.record, Json.required, Json.optional, Json.member, Json.nullable, Json.asStr]

structure KeygenCompletedPayload where
  mpcKeyId : String
  address : String
  publicKey : String
  curve : String
  threshold : Int32
  keyRef : String
  backupState : String
  rotationVersion : Int32
  localEncryptedShare : String
  deriving DecidableEq

def KeygenCompletedPayload.toJson (payload : KeygenCompletedPayload) : Json :=
  .obj [("mpc_key_id", .str payload.mpcKeyId), ("address", .str payload.address),
    ("public_key", .str payload.publicKey), ("curve", .str payload.curve),
    ("threshold", .int payload.threshold.toInt), ("key_ref", .str payload.keyRef),
    ("backup_state", .str payload.backupState),
    ("rotation_version", .int payload.rotationVersion.toInt),
    ("local_encrypted_share", .str payload.localEncryptedShare)]

structure RecoveryCompletedPayload where
  mpcKeyId : String
  address : String
  publicKey : String
  rotationVersion : Int32
  localEncryptedShare : String
  deriving DecidableEq

def RecoveryCompletedPayload.toJson (payload : RecoveryCompletedPayload) : Json :=
  .obj [("mpc_key_id", .str payload.mpcKeyId), ("address", .str payload.address),
    ("public_key", .str payload.publicKey),
    ("rotation_version", .int payload.rotationVersion.toInt),
    ("local_encrypted_share", .str payload.localEncryptedShare)]

theorem RecoveryCompletedPayload.toJson_flat (payload : RecoveryCompletedPayload) : payload.toJson.Flat := by
  have version := Json.plain_int32 payload.rotationVersion
  simpa [toJson, Json.Flat, Json.Plain] using version

structure SignCompletedPayload where
  r : String
  s : String
  recid : Option UInt8
  curve : String
  deriving DecidableEq

def SignCompletedPayload.toJson (payload : SignCompletedPayload) : Json :=
  .obj ([("r", .str payload.r), ("s", .str payload.s)] ++
    Json.present (fun recid : UInt8 => .int recid.toNat) "recid" payload.recid ++
    [("curve", .str payload.curve)])

structure ExportResult where
  privateKey : String
  address : String
  exported : Bool
  deriving DecidableEq

def ExportResult.toJson (result : ExportResult) : Json :=
  .obj [("private_key", .str result.privateKey), ("address", .str result.address),
    ("exported", .bool result.exported)]

/-! ## Protocol messages -/

inductive ProtocolType where
  | dkg
  | dsg
  | rotation
  deriving DecidableEq, Repr

namespace ProtocolType

def asStr : ProtocolType → String
  | .dkg => "dkg"
  | .dsg => "dsg"
  | .rotation => "rotation"

def parse (text : String) : Option ProtocolType :=
  if text = "dkg" then some .dkg
  else if text = "dsg" then some .dsg
  else if text = "rotation" then some .rotation
  else none

/-- A unit variant is its name, or the name as the only key of an object. -/
def fromJson : Json → Option ProtocolType
  | .str name => parse name
  | .obj [(name, .null)] => parse name
  | _ => none

@[simp] theorem parse_asStr (protocol : ProtocolType) : parse protocol.asStr = some protocol := by
  cases protocol <;> decide

end ProtocolType

structure WireEnvelope where
  sessionId : String
  protocol : ProtocolType
  round : UInt8
  fromId : UInt8
  toId : Option UInt8
  payloadEncoding : String
  payload : String
  step : Option String
  payloads : Option (List String)
  curve : Option String
  deriving DecidableEq

namespace WireEnvelope

def toJson (envelope : WireEnvelope) : Json :=
  .obj ([("session_id", .str envelope.sessionId), ("protocol", .str envelope.protocol.asStr),
      ("round", .int envelope.round.toNat), ("from_id", .int envelope.fromId.toNat),
      ("to_id", Json.nullable (fun id : UInt8 => .int id.toNat) envelope.toId),
      ("payload_encoding", .str envelope.payloadEncoding), ("payload", .str envelope.payload)] ++
    Json.present .str "step" envelope.step ++
    Json.present (fun items : List String => .arr (items.map .str)) "payloads" envelope.payloads ++
    Json.present .str "curve" envelope.curve)

def fromJson (value : Json) : Option WireEnvelope := do
  let members ← value.record ["session_id", "protocol", "round", "from_id", "to_id",
    "payload_encoding", "payload", "step", "payloads", "curve"]
  let sessionId ← Json.required Json.asStr members "session_id"
  let protocol ← Json.required ProtocolType.fromJson members "protocol"
  let round ← Json.required Json.asUInt8 members "round"
  let fromId ← Json.required Json.asUInt8 members "from_id"
  let toId ← Json.optional Json.asUInt8 members "to_id"
  let payloadEncoding ← Json.required Json.asStr members "payload_encoding"
  let payload ← Json.required Json.asStr members "payload"
  let step ← Json.optional Json.asStr members "step"
  let payloads ← Json.optional Json.asStrings members "payloads"
  let curve ← Json.optional Json.asStr members "curve"
  return { sessionId, protocol, round, fromId, toId, payloadEncoding, payload, step, payloads, curve }

theorem toJson_flat (envelope : WireEnvelope) : envelope.toJson.Flat := by
  have plain (id : UInt8) : (Json.int id.toNat).Plain := by
    have bound := id.toNat_lt
    simp only [Json.Plain]
    omega
  obtain ⟨_, _, round, fromId, toId, _, _, step, payloads, curve⟩ := envelope
  intro entry member
  simp only [List.mem_append, List.mem_cons, List.not_mem_nil, or_false] at member
  rcases member with ((((rfl | rfl | rfl | rfl | rfl | rfl | rfl) | stepped) | batched) | curved)
  · trivial
  · trivial
  · exact plain round
  · exact plain fromId
  · cases toId with
    | none => trivial
    | some id => exact plain id
  · trivial
  · trivial
  · cases step <;> simp [Json.present] at stepped
    rw [stepped]
    trivial
  · cases payloads <;> simp [Json.present] at batched
    rw [batched]
    intro item listed
    obtain ⟨text, _, rfl⟩ := List.mem_map.mp listed
    exact ⟨text, rfl⟩
  · cases curve <;> simp [Json.present] at curved
    rw [curved]
    trivial

theorem fromJson_toJson (envelope : WireEnvelope) : fromJson envelope.toJson = some envelope := by
  obtain ⟨sessionId, protocol, round, fromId, toId, encoding, payload, step, payloads, curve⟩ := envelope
  let fixed : List (String × Json) :=
    [("session_id", .str sessionId), ("protocol", .str protocol.asStr), ("round", .int round.toNat),
      ("from_id", .int fromId.toNat), ("to_id", Json.nullable (fun id : UInt8 => .int id.toNat) toId),
      ("payload_encoding", .str encoding), ("payload", .str payload)]
  let stepped := Json.present .str "step" step
  let batched := Json.present (fun items : List String => .arr (items.map .str)) "payloads" payloads
  let curved := Json.present .str "curve" curve
  have shape : toJson ⟨sessionId, protocol, round, fromId, toId, encoding, payload, step, payloads, curve⟩ =
      .obj (fixed ++ stepped ++ batched ++ curved) := rfl
  have early {name : String} (known : name ≠ "step" ∧ name ≠ "payloads" ∧ name ≠ "curve") :
      Json.member (fixed ++ stepped ++ batched ++ curved) name = Json.member fixed name := by
    rw [Json.member_append_left fun entry listed => Json.present_name listed ▸ known.2.2.symm,
      Json.member_append_left fun entry listed => Json.present_name listed ▸ known.2.1.symm,
      Json.member_append_left fun entry listed => Json.present_name listed ▸ known.1.symm]
  have late {name : String} (unknown : ∀ entry ∈ fixed, entry.1 ≠ name) :
      Json.member (fixed ++ stepped ++ batched ++ curved) name = Json.member (stepped ++ batched ++ curved) name := by
    rw [List.append_assoc, List.append_assoc, Json.member_append_right unknown, List.append_assoc]
  have text (value : String) : Json.asStr (.str value) = some value := rfl
  have solid (value : String) : Json.str value ≠ .null := by rintro ⟨⟩
  have stepRead : Json.optional Json.asStr (fixed ++ stepped ++ batched ++ curved) "step" = some step := by
    rw [Json.optional, late (by simp [fixed]),
      Json.member_append_left fun entry listed => Json.present_name listed ▸ by decide,
      Json.member_append_left fun entry listed => Json.present_name listed ▸ by decide]
    exact Json.optional_present text solid step
  have payloadsRead : Json.optional Json.asStrings (fixed ++ stepped ++ batched ++ curved) "payloads" = some payloads := by
    rw [Json.optional, late (by simp [fixed]),
      Json.member_append_left fun entry listed => Json.present_name listed ▸ by decide,
      Json.member_append_right fun entry listed => Json.present_name listed ▸ by decide]
    exact Json.optional_present Json.asStrings_map (by rintro _ ⟨⟩) payloads
  have curveRead : Json.optional Json.asStr (fixed ++ stepped ++ batched ++ curved) "curve" = some curve := by
    rw [Json.optional, late (by simp [fixed]), List.append_assoc,
      Json.member_append_right fun entry listed => Json.present_name listed ▸ by decide,
      Json.member_append_right fun entry listed => Json.present_name listed ▸ by decide]
    exact Json.optional_present text solid curve
  have named : ProtocolType.fromJson (.str protocol.asStr) = some protocol := ProtocolType.parse_asStr protocol
  have toIdRead : Json.optional Json.asUInt8 (fixed ++ stepped ++ batched ++ curved) "to_id" = some toId := by
    rw [Json.optional, early (by decide)]
    cases toId <;> simp [fixed, Json.member, Json.nullable]
  have required {Value : Type} (read : Json → Option Value) {name : String}
      (known : name ≠ "step" ∧ name ≠ "payloads" ∧ name ≠ "curve") :
      Json.required read (fixed ++ stepped ++ batched ++ curved) name = Json.required read fixed name := by
    rw [Json.required, Json.required, early known]
  simp only [fromJson, shape, Json.record, Option.bind_eq_bind, Option.bind_some, stepRead, payloadsRead, curveRead,
    toIdRead]
  rw [required Json.asStr (by decide), required ProtocolType.fromJson (by decide), required Json.asUInt8 (by decide),
    required Json.asUInt8 (by decide), required Json.asStr (by decide), required Json.asStr (by decide)]
  simp [fixed, Json.required, Json.member, Json.asStr, named]

def new (sessionId : String) (protocol : ProtocolType) (round fromId : UInt8) (toId : Option UInt8)
    (payload : String) (step : Option String) : WireEnvelope :=
  { sessionId, protocol, round, fromId, toId, payloadEncoding := "cbor_base64", payload, step
    payloads := none, curve := none }

def newBatch (sessionId : String) (protocol : ProtocolType) (round fromId : UInt8)
    (toId : Option UInt8) (payloads : List String) (step : Option String) : WireEnvelope :=
  { sessionId, protocol, round, fromId, toId, payloadEncoding := "cbor_base64", payload := "", step
    payloads := some payloads, curve := none }

/-- An unsupported curve name reads as the default as well. -/
def curveOrDefault (envelope : WireEnvelope) : Curve :=
  match envelope.curve with
  | some name =>
      match Curve.parse name with
      | .ok curve => curve
      | .error _ => .secp256k1
  | none => .secp256k1

variable (text : Encodings)

def decodePayload (payload : String) : Except String Bytes :=
  mapErr "base64 decode failed: " (text.decodeBase64 payload)

def decodeAllPayloads (envelope : WireEnvelope) : Except String (List Bytes) :=
  match envelope.payloads with
  | some payloads => payloads.mapM (decodePayload text)
  | none => do
      let bytes ← decodePayload text envelope.payload
      return [bytes]

variable {text}

theorem decodeAllPayloads_newBatch (lawful : text.Lawful) (sessionId : String) (protocol : ProtocolType)
    (round fromId : UInt8) (toId : Option UInt8) (messages : List Bytes) (step : Option String) :
    decodeAllPayloads text (newBatch sessionId protocol round fromId toId (messages.map text.encodeBase64) step) =
      .ok messages := by
  simp only [decodeAllPayloads, newBatch]
  induction messages with
  | nil => rfl
  | cons message rest ih =>
      rw [List.map_cons, List.mapM_cons, ih, decodePayload, lawful.base64]
      rfl

end WireEnvelope

/-! ## Message digests -/

/-- Exactly 32 bytes; there is no conversion from arbitrary byte strings. -/
structure MessageDigest where
  bytes : Bytes
  length_eq : bytes.length = 32

def MessageDigest.fromHex (text : Encodings) (input : String) : Except String MessageDigest := do
  let bytes ← mapErr "hex decode failed: " (text.decodeHex input)
  if exact : bytes.length = 32 then return ⟨bytes, exact⟩
  else .error "message digest must be exactly 32 bytes"

end CeresMpc.Api
