import CeresMpc.Signing.Specification
import CeresMpc.Toy

/-!
# Exported keys and signing

The guard on exported keys is a check of round 1. It locks a key out of signing
on the runs where no signing session of the key is live when it is exported, and
no round-1 call that passed the check before inserts its session after.
-/

set_option autoImplicit false

namespace CeresMpc.Signing

open Encoding Interleaving Program Api

variable {lib : Libraries}

/-- The public key a signing session records for the guard. -/
def sessionKey : (curve : Curve) → Session lib curve .dsg → String
  | .secp256k1, session => session.publicKeyHex
  | .ed25519, session => session.verifyingKeyHex

theorem sessionKey_lasting {curve : Curve} {session stored : Session lib curve .dsg}
    (same : lasting curve .dsg stored = lasting curve .dsg session) :
    sessionKey curve stored = sessionKey curve session := by
  cases curve with
  | ed25519 => exact congrArg (sessionKey .ed25519) same
  | secp256k1 =>
      have keys := congrArg (fun session : SignSession => session.publicKeyHex) same
      exact keys

/-- A key is registered while no session of it is live, and a session is inserted
while its key is not registered. -/
def ExportsIdle (world : EngineWorld lib) : Move Call Drift → Prop
  | .run thread =>
      match world.nextAction thread with
      | some (.exportedInsert key) => ∀ curve sessionId session,
          world.shared.sessions curve .dsg sessionId = some session → sessionKey curve session ≠ key
      | some (.insert curve .dsg _ session) => sessionKey curve session ∉ world.shared.exportedKeys
      | _ => True
  | _ => True

/-- The session a call signed in was opened by a round-1 call with this share. -/
def SignedWith (world : EngineWorld lib) (thread : Nat) (share : String) : Prop :=
  ∃ curve sessionId session stored creator entry serverPayload messageHex,
    Performed world.trace thread (.remove curve .dsg sessionId) (some session) ∧
      Performed world.trace creator (.insert curve .dsg sessionId stored) () ∧
      lasting curve .dsg stored = lasting curve .dsg session ∧
      world.Called creator (.sign entry sessionId 1 serverPayload (some share) messageHex)

/-- The public key of the share a call signs or exports with. -/
def publicKeyOf (read : String → Except String (KeyMaterial lib)) (share : String) :
    Except String String := do
  let material ← read share
  material.publicKeyHex

/-- Once an export of a key has returned, no later call returns a signature made
with a share of that key. -/
def ExportLocksSigning (lib : Libraries)
    (Allowed : EngineWorld lib → Move Call Drift → Prop) : Prop :=
  ∀ middle world : EngineWorld lib, (machine lib).Reaches Allowed (.initial .empty) middle →
    (machine lib).Reaches Allowed middle world →
    ∀ exporter entry localShare serverShare reply key,
      middle.Returned exporter (.exportPrivateKey entry localShare serverShare) (.ok reply) →
      publicKeyOf (exportReads lib) localShare = .ok key →
      ∀ thread signEntry sessionId round serverPayload share messageHex result,
        middle.threads.length ≤ thread →
        world.Returned thread (.sign signEntry sessionId round serverPayload share messageHex)
          (.ok (.round result)) →
        result.status = "completed" →
        (∃ openingShare, SignedWith world thread openingShare) ∧
          ∀ openingShare, SignedWith world thread openingShare →
            publicKeyOf (signReads lib) openingShare ≠ .ok key

variable {Allowed : EngineWorld lib → Move Call Drift → Prop} {world : EngineWorld lib}

/-! ## Registered keys -/

theorem registered_of_performed
    (reached : (machine lib).Reaches Allowed (.initial .empty) world) :
    ∀ thread key, Performed world.trace thread (.exportedInsert key) () →
      key ∈ world.shared.exportedKeys := by
  refine reached.invariant (fun world => ∀ thread key,
    Performed world.trace thread (.exportedInsert key) () → key ∈ world.shared.exportedKeys)
    ?_ ?_ ?_ ?_ ?_
  · intro thread key performed
    cases performed
  · intro world call _ registered _
    exact registered
  · intro world thread call action next state answer _ registered _ _ moved other key performed
    have grown := (Engine.interpret_registers moved).2.1
    show key ∈ state.exportedKeys
    rw [grown]
    rcases List.mem_cons.mp performed with here | before
    · cases here
      exact List.mem_cons_self
    · exact List.mem_append_right _ (registered other key before)
  · intro world thread call action next state _ registered _ _ moved
    obtain ⟨tasks, rfl⟩ := Engine.interpret_pending moved
    exact registered
  · intro world change _ registered _ thread key performed
    exact Engine.drift_exportedKeys change world.shared ▸ registered thread key performed

private theorem live_unregistered
    (reached : (machine lib).Reaches ExportsIdle (.initial .empty) world) :
    ∀ curve sessionId session, world.shared.sessions curve .dsg sessionId = some session →
      sessionKey curve session ∉ world.shared.exportedKeys := by
  refine reached.invariant (fun world => ∀ curve sessionId session,
    world.shared.sessions curve .dsg sessionId = some session →
      sessionKey curve session ∉ world.shared.exportedKeys) ?_ ?_ ?_ ?_ ?_
  · intro curve sessionId session live
    cases live
  · intro world call _ unregistered _
    exact unregistered
  · intro world thread call action next state answer reached unregistered allowed found moved
      curve sessionId session live
    have performs : world.nextAction thread = some action := by simp [World.nextAction, found]
    show sessionKey curve session ∉ state.exportedKeys
    rw [(Engine.interpret_registers moved).2.1]
    rcases session_after_reply reached moved live with rfl | ⟨old, before, same⟩
    · simpa [ExportsIdle, performs, Action.registered] using allowed
    · have oldUnregistered := unregistered curve sessionId old before
      rw [sessionKey_lasting same] at oldUnregistered
      cases action with
      | exportedInsert key =>
          have free : ∀ curve sessionId session,
              world.shared.sessions curve .dsg sessionId = some session →
                sessionKey curve session ≠ key := by
            simpa [ExportsIdle, performs] using allowed
          have different := free curve sessionId old before
          rw [sessionKey_lasting same] at different
          simpa [Action.registered, different] using oldUnregistered
      | _ => exact oldUnregistered
  · intro world thread call action next state _ unregistered _ _ moved
    obtain ⟨tasks, rfl⟩ := Engine.interpret_pending moved
    exact unregistered
  · intro world change _ unregistered _ curve sessionId session live
    have before : world.shared.sessions curve .dsg sessionId = some session := by
      rw [← Engine.drift_sessions change world.shared]
      exact live
    exact Engine.drift_exportedKeys change world.shared ▸ unregistered curve sessionId session before

/-! ## After the export -/

/-- From the registration on, no call started later takes a session of the key. -/
private theorem removed_other_key {middle : EngineWorld lib} {key : String}
    (before : (machine lib).Reaches ExportsIdle (.initial .empty) middle)
    (registered : key ∈ middle.shared.exportedKeys)
    (after : (machine lib).Reaches ExportsIdle middle world) :
    key ∈ world.shared.exportedKeys ∧ ∀ thread curve sessionId session,
      middle.threads.length ≤ thread →
      Performed world.trace thread (.remove curve .dsg sessionId) (some session) →
        sessionKey curve session ≠ key := by
  refine after.invariant (fun world => key ∈ world.shared.exportedKeys ∧
    ∀ thread curve sessionId session, middle.threads.length ≤ thread →
      Performed world.trace thread (.remove curve .dsg sessionId) (some session) →
        sessionKey curve session ≠ key) ?_ ?_ ?_ ?_ ?_
  · refine ⟨registered, fun thread curve sessionId session later removed => ?_⟩
    have earlier := before.trace_lt _ removed
    exact absurd later (Nat.not_le_of_lt earlier)
  · intro world call _ kept _
    exact kept
  · rintro world thread call action next state answer reached ⟨known, others⟩ _ found moved
    refine ⟨?_, fun other curve sessionId session later removed => ?_⟩
    · show key ∈ state.exportedKeys
      rw [(Engine.interpret_registers moved).2.1]
      exact List.mem_append_right _ known
    · rcases List.mem_cons.mp removed with here | earlier
      · cases here
        have held : world.shared.sessions curve .dsg sessionId = some session :=
          Engine.remove_answer (show world.shared.interpret thread _ = _ from moved)
        have unregistered := live_unregistered (before.trans reached) curve sessionId session held
        exact fun same => unregistered (same ▸ known)
      · exact others other curve sessionId session later earlier
  · rintro world thread call action next state _ kept _ _ moved
    obtain ⟨tasks, rfl⟩ := Engine.interpret_pending moved
    exact kept
  · rintro world change _ ⟨known, others⟩ _
    exact ⟨Engine.drift_exportedKeys change world.shared ▸ known, others⟩

private theorem key_of_opening (reached : (machine lib).Reaches Allowed (.initial .empty) world)
    {creator : Nat} {curve : Curve} {sessionId serverPayload share : String}
    {messageHex : Option String} {entry : EntryPoint} {session : Session lib curve .dsg}
    (inserted : Performed world.trace creator (.insert curve .dsg sessionId session) ())
    (called : world.Called creator (.sign entry sessionId 1 serverPayload (some share) messageHex)) :
    publicKeyOf (signReads lib) share = .ok (sessionKey curve session) := by
  obtain ⟨call, program, before, found, allowed, _⟩ :=
    reached.performed_permitted body_follows inserted
  obtain ⟨later, sameThread⟩ := called
  rw [found] at sameThread
  cases sameThread
  cases curve with
  | ed25519 =>
      obtain ⟨_, _, openingShare, _, nonces, same, opening⟩ := allowed
      cases same
      obtain ⟨vkBytes, serialized, hex⟩ := opening.verifyingKey
      rw [publicKeyOf, (reads_of_material opening.material).1, sessionKey, hex]
      exact bind_eq_ok.mpr ⟨_, rfl, bind_eq_ok.mpr ⟨vkBytes, serialized, rfl⟩⟩
  | secp256k1 =>
      obtain ⟨_, openingShare, _, keyshare, same, opening⟩ := allowed
      cases same
      rw [publicKeyOf, opening.reads, sessionKey, opening.publicKey]
      rfl

private theorem signedWith_of_removed (reached : (machine lib).Reaches Allowed (.initial .empty) world)
    {thread : Nat} {curve : Curve} {sessionId : String} {session : Session lib curve .dsg}
    (removed : Performed world.trace thread (.remove curve .dsg sessionId) (some session)) :
    ∃ share, SignedWith world thread share := by
  obtain ⟨later, earlier, split⟩ := List.append_of_mem removed
  obtain ⟨creator, stored, insertedBefore, same⟩ := inserted_before_removal reached split
  have inserted : Performed world.trace creator (.insert curve .dsg sessionId stored) () := by
    rw [Performed, split]
    exact List.mem_append_right _ (List.mem_cons_of_mem _ insertedBefore)
  obtain ⟨call, program, before, found, allowed, _⟩ :=
    reached.performed_permitted body_follows inserted
  cases curve with
  | ed25519 =>
      obtain ⟨entry, serverPayload, share, messageHex, _, rfl, _⟩ := allowed
      exact ⟨share, .ed25519, sessionId, session, stored, creator, entry, serverPayload,
        some messageHex, removed, inserted, same, program, found⟩
  | secp256k1 =>
      obtain ⟨serverPayload, share, messageHex, _, rfl, _⟩ := allowed
      exact ⟨share, .secp256k1, sessionId, session, stored, creator, .mpcEngine, serverPayload,
        some messageHex, removed, inserted, same, program, found⟩

/-- On runs that export only idle keys, an exported key never signs again. -/
theorem export_locks_signing (lib : Libraries) : ExportLocksSigning lib ExportsIdle := by
  intro middle world before after exporter entry localShare serverShare reply key exported keyOf
    thread signEntry sessionId round serverPayload share messageHex result later signed completed
  have reached := before.trans after
  have registered : key ∈ middle.shared.exportedKeys := by
    have finished := before.follows body_follows exporter _ _ exported
    obtain ⟨registeredKey, ⟨material, reads, publicKey⟩, performed⟩ := finished reply rfl
    have sameKey : publicKeyOf (exportReads lib) localShare = .ok registeredKey := by
      rw [publicKeyOf, reads]
      exact publicKey
    obtain rfl : key = registeredKey := Except.ok.inj (keyOf.symm.trans sameKey)
    exact registered_of_performed before exporter key (mem_past.mp performed)
  obtain ⟨_, others⟩ := removed_other_key before registered after
  constructor
  · have finished := reached.follows body_follows thread _ _ signed
    rcases finished result rfl completed with ⟨session, sigBytes, _, frost⟩ |
      ⟨session, last, output, wireRound, _, _, joined, _⟩
    · obtain ⟨_, _, _, _, _, earlier, own_past, taken, _⟩ := frost.aggregated
      obtain ⟨earliest, rfl, _⟩ := taken.past
      have removed : Performed world.trace thread (.remove .ed25519 .dsg sessionId) (some session) := by
        refine mem_past.mp ?_
        simp [own_past]
      exact signedWith_of_removed reached removed
    · exact signedWith_of_removed reached (mem_past.mp joined.removed)
  · rintro openingShare ⟨curve, id, session, stored, creator, openEntry, openPayload, openMessage,
      removed, inserted, same, called⟩ sameKey
    have recorded := key_of_opening reached inserted called
    rw [recorded] at sameKey
    refine others thread curve id session later removed ?_
    rw [← sessionKey_lasting same]
    exact Except.ok.inj sameKey

/-- An export between the rounds of a session does not stop its signature. -/
theorem exported_key_signs : ¬ExportLocksSigning Toy.libraries Machine.Any := by
  intro locks
  have before : (machine Toy.libraries).Reaches Machine.Any (.initial .empty)
      (Toy.run (Toy.exportCalls.take 2)) := Machine.reaches_run _ _
  have after : (machine Toy.libraries).Reaches Machine.Any (Toy.run (Toy.exportCalls.take 2))
      (Toy.run Toy.exportCalls) := Toy.run_reaches (Toy.exportCalls.take 2) [Toy.signRound2]
  obtain ⟨reply, exported, _⟩ := Toy.returned_of_status
    (rfl : (Toy.exportCalls.take 2)[1]? = some _) Toy.export_returned
  obtain ⟨result, signed, completed⟩ := Toy.completed_of_status
    (rfl : Toy.exportCalls[2]? = some Toy.signRound2) Toy.export_completed
  obtain ⟨signs, _, exports⟩ := reads_of_material Toy.clientShareText_material
  have keyOf : publicKeyOf (exportReads Toy.libraries) Toy.clientShareText =
      .ok (encodeHex (Toy.verifyingKey 3)) := by
    rw [publicKeyOf, exports]
    rfl
  obtain ⟨⟨share, with_share⟩, never⟩ := locks _ _ before after 1 _ _ _ reply _ exported keyOf 2 _ _ _ _
    _ _ result (by rw [← List.length_map Prod.fst, Toy.run_called]; decide) signed completed
  have opened : share = Toy.clientShareText := by
    obtain ⟨curve, sessionId, session, stored, creator, entry, serverPayload, messageHex, _, _, _, called⟩ :=
      with_share
    have made := Toy.call_of_called called
    rcases creator with _ | _ | _ | creator
    all_goals cases made
    rfl
  subst opened
  refine never _ with_share ?_
  rw [publicKeyOf, signs]
  rfl

end CeresMpc.Signing
