import CeresMpc.Api.MpcEngine
import CeresMpc.Toy

/-!
# Batches on the wire

What the engine writes into an envelope is what a reader of the envelope gets out.
-/

set_option autoImplicit false

namespace CeresMpc.Api

open Encoding

namespace WireEnvelope

variable {text : Encodings}

theorem fromStr_toJson (lawful : text.Lawful) (envelope : WireEnvelope) :
    text.fromStr fromJson (text.renderJson envelope.toJson) = .ok envelope :=
  Encodings.fromStr_renderJson lawful envelope.toJson_flat envelope.fromJson_toJson

/-- One entry that is not base64 fails the envelope. -/
theorem decodeAllPayloads_bad {envelope : WireEnvelope} {payload failure : String}
    (member : payload ∈ envelope.payloads.getD [envelope.payload]) (bad : text.decodeBase64 payload = .error failure) :
    ∃ message, envelope.decodeAllPayloads text = .error message := by
  have undecoded : decodePayload text payload = .error ("base64 decode failed: " ++ failure) := by
    rw [decodePayload, bad]
    rfl
  rw [decodeAllPayloads]
  cases batch : envelope.payloads with
  | some payloads =>
      rw [batch] at member
      exact mapM_fails member undecoded
  | none =>
      rw [batch] at member
      obtain rfl : payload = envelope.payload := List.mem_singleton.mp member
      exact ⟨_, by rw [undecoded]; rfl⟩

end WireEnvelope

/-- Batches and envelopes come back as they were written; an envelope without a batch carries its
single payload, and one bad entry fails the whole envelope. -/
theorem wire_batches_round_trip {lib : Libraries} (lawful : lib.text.Lawful) :
    (∀ sessionId protocol round messages, ∃ result payload envelope,
      lib.text.fromStr MpcRoundResult.fromJson
          (lib.text.renderJson (MpcEngine.makeInProgressBatch lib sessionId protocol round messages).toJson) = .ok result ∧
        result = MpcEngine.makeInProgressBatch lib sessionId protocol round messages ∧
        result.clientPayload = some payload ∧ lib.text.fromStr WireEnvelope.fromJson payload = .ok envelope ∧
        envelope.decodeAllPayloads lib.text = .ok messages) ∧
    (∀ envelope : WireEnvelope,
      lib.text.fromStr WireEnvelope.fromJson (lib.text.renderJson envelope.toJson) = .ok envelope) ∧
    (∀ (envelope : WireEnvelope) bytes, envelope.payloads = none → lib.text.decodeBase64 envelope.payload = .ok bytes →
      envelope.decodeAllPayloads lib.text = .ok [bytes]) ∧
    ∀ (envelope : WireEnvelope) payload failure, payload ∈ envelope.payloads.getD [envelope.payload] →
      lib.text.decodeBase64 payload = .error failure →
        ∃ message, envelope.decodeAllPayloads lib.text = .error message := by
  refine ⟨fun sessionId protocol round messages => ?_, WireEnvelope.fromStr_toJson lawful, ?_, ?_⟩
  · have read := Encodings.fromStr_renderJson lawful (MpcRoundResult.toJson_flat _)
      (MpcEngine.makeInProgressBatch lib sessionId protocol round messages).fromJson_toJson
    refine ⟨_, _, _, read, rfl, rfl, WireEnvelope.fromStr_toJson lawful _, ?_⟩
    exact WireEnvelope.decodeAllPayloads_newBatch lawful sessionId protocol round 0 (some 1) messages none
  · intro envelope bytes single decoded
    simp [WireEnvelope.decodeAllPayloads, single, WireEnvelope.decodePayload, decoded, mapErr, bind, Except.bind, pure,
      Except.pure]
  · intro envelope payload failure member bad
    exact WireEnvelope.decodeAllPayloads_bad member bad

theorem wire_batches_round_trip_standard : ∃ result payload envelope,
    standard.fromStr MpcRoundResult.fromJson
        (standard.renderJson (MpcEngine.makeInProgressBatch Toy.libraries "s" .dkg 1 [[], [7]]).toJson) = .ok result ∧
      result = MpcEngine.makeInProgressBatch Toy.libraries "s" .dkg 1 [[], [7]] ∧
      result.clientPayload = some payload ∧ standard.fromStr WireEnvelope.fromJson payload = .ok envelope ∧
      envelope.decodeAllPayloads standard = .ok [[], [7]] :=
  (@wire_batches_round_trip Toy.libraries standard_lawful).1 "s" .dkg 1 [[], [7]]

end CeresMpc.Api
