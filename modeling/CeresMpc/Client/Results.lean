import CeresMpc.Api.MpcEngine
import CeresMpc.Client.MpcClient
import CeresMpc.Toy

/-!
# Results across the bridge

Every record the engine answers with is read by the client with the fields it was written with.
-/

set_option autoImplicit false

namespace CeresMpc.Client

open Encoding Json

/-! ## The Dart objects of Rust records -/

def MpcRoundResult.ofRust (result : Api.MpcRoundResult) : MpcRoundResult :=
  { status := result.status, round := result.round.toInt, clientPayload := result.clientPayload
    errorMessage := result.errorMessage }

def KeygenResult.ofRust (payload : Api.KeygenCompletedPayload) : KeygenResult :=
  { mpcKeyId := payload.mpcKeyId, address := payload.address, publicKey := payload.publicKey, curve := payload.curve
    threshold := payload.threshold.toInt, keyRef := payload.keyRef, backupState := payload.backupState
    rotationVersion := payload.rotationVersion.toInt, localEncryptedShare := payload.localEncryptedShare
    encryptedBackupShare := none }

def RecoveryResult.ofRust (payload : Api.RecoveryCompletedPayload) : RecoveryResult :=
  { mpcKeyId := payload.mpcKeyId, address := payload.address, publicKey := payload.publicKey
    rotationVersion := payload.rotationVersion.toInt, localEncryptedShare := payload.localEncryptedShare
    encryptedBackupShare := none }

def SignResult.ofRust (payload : Api.SignCompletedPayload) (curve : Api.Curve) : SignResult :=
  { r := payload.r, s := payload.s, recid := payload.recid.map fun recid => (recid.toNat : Int), curve }

def ExportResult.ofRust (result : Api.ExportResult) : ExportResult :=
  { privateKey := result.privateKey, address := result.address, exported := result.exported }

/-! ## Reading them -/

section Reading

variable {convert : Convert} {text : Encodings}

private theorem fromJson_round (result : Api.MpcRoundResult) :
    MpcRoundResult.fromJson [("status", .str result.status), ("round", .int result.round.toInt),
      ("client_payload", nullable .str result.clientPayload), ("error_message", nullable .str result.errorMessage)] =
      .ok (.ofRust result) := by
  obtain ⟨status, round, clientPayload, errorMessage⟩ := result
  cases clientPayload <;> cases errorMessage <;>
    simp [MpcRoundResult.fromJson, MpcRoundResult.ofRust, Json.get, Json.lookup, asString, asInt, orNull, nullable]

theorem roundResult_toJson (reads : convert.Reads text) (result : Api.MpcRoundResult) :
    roundResult convert (.ok (text.renderJson result.toJson)) = .ok (.ofRust result) := by
  have read := decodeMap_written reads result.toJson_flat (by simp)
  change (decodeMap convert (text.renderJson result.toJson) >>= MpcRoundResult.fromJson) = _
  rw [Api.MpcRoundResult.toJson, read]
  exact fromJson_round result

theorem keygenPayload_toJson (reads : convert.Reads text) (payload : Api.KeygenCompletedPayload) :
    keygenPayload convert (text.renderJson payload.toJson) = .ok (.ofRust payload) := by
  have flat : payload.toJson.Flat := by
    have threshold := plain_int32 payload.threshold
    have version := plain_int32 payload.rotationVersion
    simp [Api.KeygenCompletedPayload.toJson, Json.Flat, threshold, version]
    simp [Json.Plain]
  have read := decodeMap_written reads flat (by simp)
  change (decodeMap convert (text.renderJson payload.toJson) >>= _) = _
  rw [Api.KeygenCompletedPayload.toJson, read]
  simp [KeygenResult.fromJson, KeygenResult.ofRust, snakeToCamelKeys, camelChars, Json.get, Json.lookup, asString, asInt,
    orNull]

theorem recoveryPayload_toJson (reads : convert.Reads text) (payload : Api.RecoveryCompletedPayload) :
    recoveryPayload convert (text.renderJson payload.toJson) = .ok (.ofRust payload) := by
  have read := decodeMap_written reads payload.toJson_flat (by simp)
  change (decodeMap convert (text.renderJson payload.toJson) >>= _) = _
  rw [Api.RecoveryCompletedPayload.toJson, read]
  simp [RecoveryResult.fromJson, RecoveryResult.ofRust, snakeToCamelKeys, camelChars, Json.get, Json.lookup, asString, asInt,
    orNull]

theorem signPayload_toJson (reads : convert.Reads text) {payload : Api.SignCompletedPayload} {curve : Api.Curve}
    (named : payload.curve = curve.asStr) :
    signPayload convert (text.renderJson payload.toJson) = .ok (.ofRust payload curve) := by
  obtain ⟨r, s, recid, _⟩ := payload
  obtain rfl : _ = curve.asStr := named
  have flat : (Api.SignCompletedPayload.toJson ⟨r, s, recid, curve.asStr⟩).Flat := by
    cases recid with
    | none => simp [Api.SignCompletedPayload.toJson, Json.present, Json.Flat, Json.Plain]
    | some recid =>
        have bound := recid.toNat_lt
        simp [Api.SignCompletedPayload.toJson, Json.present, Json.Flat, Json.Plain]
        omega
  have read := decodeMap_written reads flat (by cases recid <;> simp [Json.present])
  change (decodeMap convert (text.renderJson (Api.SignCompletedPayload.toJson ⟨r, s, recid, curve.asStr⟩)) >>= _) = _
  rw [Api.SignCompletedPayload.toJson, read]
  cases recid <;>
    simp [SignResult.fromJson, SignResult.ofRust, Json.present, Json.get, Json.lookup, asString, asInt, orNull]

theorem exportPayload_toJson (reads : convert.Reads text) (result : Api.ExportResult) :
    exportPayload convert (.ok (text.renderJson result.toJson)) = .ok (.ofRust result) := by
  have flat : result.toJson.Flat := by simp [Api.ExportResult.toJson, Json.Flat, Json.Plain]
  have read := decodeMap_written reads flat (by simp)
  change (decodeMap convert (text.renderJson result.toJson) >>= _) = _
  rw [Api.ExportResult.toJson, read]
  simp [ExportResult.fromJson, ExportResult.ofRust, snakeToCamelKeys, camelChars, Json.get, Json.lookup, asString, asBool]

/-- Fields that are not there read as their defaults. -/
theorem signResult_defaults {json : List (String × Json)} {result : SignResult}
    (read : SignResult.fromJson json = .ok result) :
    (Json.lookup json "recid" = none → result.recid = none) ∧
      (Json.lookup json "curve" = none → result.curve = .secp256k1) := by
  simp only [SignResult.fromJson, bind_eq_ok] at read
  obtain ⟨curveName, named, r, _, s, _, recid, counted, curve, known, made⟩ := read
  cases made
  constructor
  · intro absent
    rw [Json.get, absent] at counted
    cases counted
    rfl
  · intro absent
    rw [Json.get, absent] at named
    cases named
    cases known
    rfl

end Reading

/-! ## Results of the engines -/

variable (lib : Libraries) (convert : Convert)

/-- The record an engine completes with reaches the client as `value`. -/
def Arrives {Value : Type} (round : UInt8) (record : Json) (read : String → Except Thrown Value) (value : Value) : Prop :=
  ∀ wrapped ∈ [Api.MpcEngine.makeCompleted lib round record, Api.EngineEd25519.makeCompleted lib round record],
    ∃ inner, roundResult convert (.ok (lib.text.renderJson wrapped.toJson)) =
        .ok { status := "completed", round := round.toNat, clientPayload := some inner, errorMessage := none } ∧
      read inner = .ok value

variable {lib convert}

private theorem arrives_of_read {Value : Type} (reads : convert.Reads lib.text) (round : UInt8) {record : Json}
    {read : String → Except Thrown Value} {value : Value} (inner : read (lib.text.renderJson record) = .ok value) :
    Arrives lib convert round record read value := by
  intro wrapped member
  have number : (Int32.ofNat round.toNat).toInt = round.toNat := by
    have bound := round.toNat_lt
    exact Int32.toInt_ofNat_of_lt (by omega)
  refine ⟨_, ?_, inner⟩
  rw [roundResult_toJson reads]
  simp only [List.mem_cons, List.not_mem_nil, or_false] at member
  rcases member with rfl | rfl
  · simp [MpcRoundResult.ofRust, Api.MpcEngine.makeCompleted, number]
  · simp [MpcRoundResult.ofRust, Api.EngineEd25519.makeCompleted, number]

/-- The client reads every result as it was made: completed payloads inside their round result,
and an exported key as it is. -/
theorem results_arrive (reads : convert.Reads lib.text) :
    (∀ result : Api.MpcRoundResult,
      roundResult convert (.ok (lib.text.renderJson result.toJson)) = .ok (.ofRust result)) ∧
    (∀ round (payload : Api.KeygenCompletedPayload),
      Arrives lib convert round payload.toJson (keygenPayload convert) (.ofRust payload)) ∧
    (∀ round (payload : Api.RecoveryCompletedPayload),
      Arrives lib convert round payload.toJson (recoveryPayload convert) (.ofRust payload)) ∧
    (∀ round (payload : Api.SignCompletedPayload) (curve : Api.Curve), payload.curve = curve.asStr →
      Arrives lib convert round payload.toJson (signPayload convert) (.ofRust payload curve)) ∧
    (∀ result : Api.ExportResult,
      exportPayload convert (.ok (lib.text.renderJson result.toJson)) = .ok (.ofRust result)) ∧
    ∀ json result, SignResult.fromJson json = .ok result →
      (Json.lookup json "recid" = none → result.recid = none) ∧
        (Json.lookup json "curve" = none → result.curve = .secp256k1) := by
  refine ⟨roundResult_toJson reads, fun round payload => ?_, fun round payload => ?_, fun round payload curve named => ?_,
    exportPayload_toJson reads, fun json result read => signResult_defaults read⟩
  · exact arrives_of_read reads round (keygenPayload_toJson reads payload)
  · exact arrives_of_read reads round (recoveryPayload_toJson reads payload)
  · exact arrives_of_read reads round (signPayload_toJson reads named)

/-- The client's codec over the same JSON texts. -/
def Toy.codec : Convert :=
  { jsonEncode := standard.renderJson, jsonDecode := standard.parseJson, describe := fun _ => "error" }

theorem Toy.codec_reads : Toy.codec.Reads standard :=
  fun members flat _ => standard_lawful.json (.obj members) flat

theorem results_arrive_signed : Arrives CeresMpc.Toy.libraries Toy.codec 2
    (Api.SignCompletedPayload.toJson { r := "0a", s := "0b", recid := none, curve := "ed25519" }) (signPayload Toy.codec)
    { r := "0a", s := "0b", recid := none, curve := .ed25519 } :=
  (@results_arrive CeresMpc.Toy.libraries Toy.codec Toy.codec_reads).2.2.2.1 2
    { r := "0a", s := "0b", recid := none, curve := "ed25519" } .ed25519 rfl

end CeresMpc.Client
