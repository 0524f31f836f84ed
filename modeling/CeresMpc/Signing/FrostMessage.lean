import CeresMpc.Signing.Nonces

/-!
# What an ed25519 signature is over

The session a round-2 call takes was made by a round-1 call, and keeps its key
package and its message. Round 2 checks the message of the signing package
against it.
-/

set_option autoImplicit false

namespace CeresMpc.Signing

open Encoding Interleaving Program Api

variable {lib : Libraries} {Allowed : EngineWorld lib → Move Call Drift → Prop}
  {world : EngineWorld lib}

/-- `aggregate` returns only signatures that verify under the public key package,
over the message of the signing package. -/
def AggregateSound (frost : Frost) : Prop :=
  ∀ package shares pkp signature, frost.aggregate package shares pkp = .ok signature →
    ∀ sigBytes vk, frost.serializeSignature signature = .ok sigBytes →
      frost.verifyingKey pkp = .ok vk → frost.verify vk (frost.packageMessage package) sigBytes = true

/-- The round-1 call a session comes from: its share and message are the
session's. -/
structure OpenedBy (lib : Libraries) (world : EngineWorld lib) (creator : Nat) (sessionId : String)
    (session : FrostSignSession lib) (share messageHex : String) : Prop where
  call : ∃ entry serverPayload,
    world.Called creator (.sign entry sessionId 1 serverPayload (some share) (some messageHex))
  material : EngineEd25519.extractShareMaterial lib share =
    .ok (session.keyPackage, session.publicKeyPackage)
  message : lib.text.decodeHex messageHex = .ok session.message
  verifyingKey : ∃ vk, lib.frost.verifyingKey session.publicKeyPackage = .ok vk ∧
    session.verifyingKeyHex = lib.text.encodeHex vk

theorem openedBy_of_inserted (reached : (machine lib).Reaches Allowed (.initial .empty) world)
    {creator : Nat} {sessionId : String} {session : FrostSignSession lib}
    (inserted : Performed world.trace creator (.insert .ed25519 .dsg sessionId session) ()) :
    ∃ share messageHex, OpenedBy lib world creator sessionId session share messageHex := by
  obtain ⟨call, program, before, found, allowed, _⟩ :=
    reached.performed_permitted body_follows inserted
  obtain ⟨entry, serverPayload, share, messageHex, nonces, rfl, opening⟩ := allowed
  obtain ⟨vkBytes, serialized, hex⟩ := opening.verifyingKey
  exact ⟨share, messageHex, ⟨entry, serverPayload, program, found⟩, opening.material,
    opening.message, vkBytes, mapErr_eq_ok.mp serialized, hex⟩

/-- A completed ed25519 signature verifies under the key of the share, over the
message, of the round-1 call that made the session the signature was made in. -/
theorem frost_signature_verifies (sound : AggregateSound lib.frost)
    (reached : (machine lib).Reaches Allowed (.initial .empty) world)
    {thread : Nat} {entry : EntryPoint} {sessionId serverPayload : String} {round : Int32}
    {share messageHex : Option String} {result : MpcRoundResult}
    (returned : world.Returned thread (.sign entry sessionId round serverPayload share messageHex)
      (.ok (.round result)))
    (onFrost : OnFrost entry sessionId (past thread world.trace))
    (completed : result.status = "completed") :
    ∃ r s session creator creatorShare creatorMessage vk later earlier,
      result = EngineEd25519.makeCompleted lib 2
          { r := lib.text.encodeHex r, s := lib.text.encodeHex s, recid := none
            curve := "ed25519" : SignCompletedPayload }.toJson ∧
        world.trace =
          later ++ (thread, ⟨.remove .ed25519 .dsg sessionId, some session⟩) :: earlier ∧
        Performed earlier creator (.insert .ed25519 .dsg sessionId session) () ∧
        (∀ other otherId, Performed world.trace other (.insert .ed25519 .dsg otherId session) () →
          other = creator) ∧
        OpenedBy lib world creator sessionId session creatorShare creatorMessage ∧
        lib.frost.verifyingKey session.publicKeyPackage = .ok vk ∧
        lib.frost.verify vk session.message (r ++ s) = true ∧ r.length = 32 ∧ s.length = 32 := by
  have finished := reached.follows body_follows thread _ _ returned
  rcases finished result rfl completed with ⟨session, sigBytes, _, signed⟩ | ⟨_, _, _, _, direct, routed, _⟩
  · obtain ⟨package, nonces, own, server, signature, before, own_past, taken, aggregated, serialized⟩ :=
      signed.aggregated
    obtain ⟨earliest, rfl, _⟩ := taken.past
    have removed : Performed world.trace thread (.remove .ed25519 .dsg sessionId) (some session) := by
      refine mem_past.mp ?_
      simp [own_past]
    obtain ⟨later, earlier, split⟩ := List.append_of_mem removed
    obtain ⟨creator, stored, inserted, same⟩ := inserted_before_removal reached split
    obtain rfl : stored = session := same
    have inTrace : Performed world.trace creator (.insert .ed25519 .dsg sessionId stored) () := by
      rw [Performed, split]
      exact List.mem_append_right _ (List.mem_cons_of_mem _ inserted)
    obtain ⟨creatorShare, creatorMessage, opened⟩ := openedBy_of_inserted reached inTrace
    obtain ⟨vk, serializes, _⟩ := opened.verifyingKey
    have verifies := sound package _ _ signature aggregated sigBytes vk serialized serializes
    rw [taken.message] at verifies
    have length := signed.length
    refine ⟨sigBytes.take 32, sigBytes.drop 32, stored, creator, creatorShare, creatorMessage, vk,
      later, earlier, signed.result, split, inserted,
      fun other otherId again => inserter_unique reached again inTrace, opened, serializes, ?_, ?_, ?_⟩
    · rwa [List.take_append_drop]
    · simp [length]
    · simp [length]
  · rcases onFrost with rfl | looked
    · cases direct
    · rw [routed] at looked
      simp at looked

private theorem toy_aggregateSound : AggregateSound Toy.libraries.frost := by
  intro package shares publicKey signature aggregated sigBytes vk serialized serializes
  cases aggregated
  cases serialized
  cases serializes
  exact decide_eq_true rfl

/-- The run that signs once. -/
theorem frost_signature_verifies_once :
    ∃ result r s session vk, result = EngineEd25519.makeCompleted Toy.libraries 2
          { r := encodeHex r, s := encodeHex s, recid := none
            curve := "ed25519" : SignCompletedPayload }.toJson ∧
        (Toy.run Toy.signingCalls).Returned 1 Toy.signRound2 (.ok (.round result)) ∧
        Toy.frost.verify vk session (r ++ s) = true := by
  have reached : (machine Toy.libraries).Reaches Machine.Any (.initial .empty)
      (Toy.run Toy.signingCalls) := Machine.reaches_run _ _
  obtain ⟨result, returned, completed⟩ :=
    Toy.completed_of_status (rfl : Toy.signingCalls[1]? = some Toy.signRound2) Toy.signing_completed
  obtain ⟨r, s, session, _, _, _, vk, _, _, made, _, _, _, _, _, verifies, _⟩ :=
    frost_signature_verifies toy_aggregateSound reached returned (.inl rfl) completed
  exact ⟨result, r, s, session.message, vk, made, returned, verifies⟩

end CeresMpc.Signing
