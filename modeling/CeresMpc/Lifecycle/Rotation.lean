import CeresMpc.Lifecycle.Ceremony
import CeresMpc.Lifecycle.Descent

/-!
# The rotation version a recovery reports

The caller's version travels in the session from the first round to the last, where it is
incremented as a 32-bit number.
-/

set_option autoImplicit false

namespace CeresMpc

open Encoding Interleaving Program Api

variable {lib : Libraries}

/-- A DKLs23 recovery session is inserted with the version of its call. -/
def Action.Carries (version : Option Int32) : Action lib → Prop
  | .insert .secp256k1 .rotation _ session => version = some session.currentRotationVersion
  | _ => True

namespace Api

theorem MpcEngine.recoverRound1_carries (sessionId serverPayload : String) (backupShare : Option String)
    (currentRotationVersion : Option Int32) :
    (recoverRound1 lib sessionId serverPayload backupShare currentRotationVersion).Only
      (Action.Carries currentRotationVersion) := by
  have onTask (action : Action lib) (only : action.OnTask .rotation) : action.Carries currentRotationVersion := by
    cases action <;> trivial
  simp only [recoverRound1, bind_eq, liftM_eq, only_lift_bind, okOr_eq_ok]
  intro received _ share _ version given oldKs _ inst _
  refine ⟨trivial, fun seed => ?_⟩
  simp only [openSession, bind_eq, request_bind]
  refine ⟨trivial, fun task => Only.bind ((firstBatch_onTask fun _ => only_fail _).mono onTask) fun _ => ?_⟩
  exact ⟨trivial, fun createdAt => ⟨given, fun _ => trivial⟩⟩

namespace Call

def rotationVersion : Call → Option Int32
  | .recover _ _ _ _ _ rotationVersion => rotationVersion
  | _ => none

private theorem dkls_carries {call : Call} {protocol : ProtocolType} {sessionId : String}
    (names : call.scope = some (protocol, sessionId)) : (call.dkls lib).Only (Action.Carries call.rotationVersion) := by
  have quiet (action : Action lib) (continues : action.Continues protocol sessionId) :
      action.Carries call.rotationVersion := by
    cases action <;> first | trivial | exact continues.2.elim
  by_cases first : call.round = some 1
  · cases call with
    | recover entry sessionId round serverPayload backupShare rotationVersion =>
        cases first
        exact (MpcEngine.recoverRound1_carries _ _ _ _).bind fun _ => trivial
    | keygen | sign =>
        cases names
        refine (dkls_within rfl).mono fun action within => ?_
        cases action with
        | insert curve protocol otherId session =>
            obtain ⟨rfl, rfl, rfl⟩ := within
            trivial
        | _ => trivial
    | exportPrivateKey => cases first
  · exact (dkls_continues first names).mono quiet

theorem body_carries (call : Call) : (call.body lib).Only (Action.Carries call.rotationVersion) := by
  cases names : call.scope with
  | none =>
      refine (body_touches call).mono fun action touches => ?_
      rw [Touches, names] at touches
      cases action <;> trivial
  | some target =>
      obtain ⟨protocol, sessionId⟩ := target
      refine body_only names trivial ((direct_within names).mono fun action within => ?_) (dkls_carries names)
      cases action with
      | insert curve other otherId session =>
          obtain ⟨rfl, rfl, rfl⟩ := within
          trivial
      | _ => trivial

end Call

end Api

namespace Lifecycle

/-! ## The version a session carries -/

def rotationVersion : (curve : Curve) → Session lib curve .rotation → Int32
  | .secp256k1, session => session.currentRotationVersion
  | .ed25519, session => session.currentRotationVersion

/-- A recovery session carries the version its first round was called with. -/
def versionMark : Mark lib
  | call, curve, .rotation, session => call.rotationVersion = some (rotationVersion curve session)
  | _, _, .dkg, _ | _, _, .dsg, _ => True

private theorem version_inherited :
    Inherited (@versionMark lib) fun call past action =>
      Call.Step lib call past action ∧ action.Carries call.rotationVersion := by
  constructor
  · rintro call past curve protocol sessionId session first ⟨step, carries⟩
    cases protocol with
    | dkg | dsg => trivial
    | rotation =>
        cases curve with
        | secp256k1 => exact carries
        | ed25519 =>
            cases inserted_by step with
            | opens performs opened =>
                cases performs with
                | recover named =>
                    rw [named]
                    exact opened.rotationVersion
            | advances performs =>
                rw [performs.names.2] at first
                cases first
            | signs signing => cases signing
  · rintro call origin past curve protocol sessionId old session second ⟨step, _⟩ marked
    cases protocol with
    | dkg | dsg => trivial
    | rotation =>
        rcases put_once step with ⟨first, _⟩ | ⟨rfl, _, _⟩
        · rw [second] at first
          cases first
        · cases inserted_by step with
          | opens performs =>
              rw [performs.names.2] at second
              cases second
          | advances performs own advances same =>
              cases own
              cases performs with
              | recover named =>
                  rw [same]
                  exact marked
          | signs signing => cases signing
  · intro origin curve protocol old session same marked
    cases protocol with
    | dkg | dsg => trivial
    | rotation =>
        cases curve <;>
        · obtain rfl : old = session := same
          exact marked

/-! ## The version a recovery reports -/

/-- What the host reads in a reply. -/
def Reports (lib : Libraries) (reply : Reply) (version : Int) : Prop :=
  ∃ result text members, reply = .round result ∧ result.clientPayload = some text ∧
    lib.text.parseJson text = .ok (.obj members) ∧ Json.lookup members "rotation_version" = some (.int version)

private theorem reports_iff (lawful : lib.text.Lawful) {result : MpcRoundResult} {payload : RecoveryCompletedPayload}
    (written : result.clientPayload = some (lib.text.renderJson payload.toJson)) {version : Int} :
    Reports lib (.round result) version ↔ payload.rotationVersion.toInt = version := by
  have parsed := lawful.json _ payload.toJson_flat
  have member : Json.lookup [("mpc_key_id", .str payload.mpcKeyId), ("address", .str payload.address),
      ("public_key", .str payload.publicKey), ("rotation_version", .int payload.rotationVersion.toInt),
      ("local_encrypted_share", .str payload.localEncryptedShare)] "rotation_version" =
        some (.int payload.rotationVersion.toInt) := by
    simp [Json.lookup]
  constructor
  · rintro ⟨found, text, members, same, read, parsedText, reported⟩
    cases same
    cases written.symm.trans read
    cases parsed.symm.trans parsedText
    cases member.symm.trans reported
    rfl
  · rintro rfl
    exact ⟨result, _, _, rfl, written, parsed, member⟩

/-- The sum does not leave the range of 32 bits exactly below the largest version. -/
private theorem increment_toInt {looked version : Int32} :
    (looked + 1).toInt = version.toInt + 1 ↔ looked = version ∧ version.toInt < 2147483647 := by
  have lookedLow := looked.le_toInt
  have lookedHigh := looked.toInt_lt
  have low := version.le_toInt
  have high := version.toInt_lt
  rw [← Int32.toInt_inj, Int32.toInt_add, Int.bmod_def]
  have one : (1 : Int32).toInt = 1 := rfl
  rw [one]
  split <;> omega

/-- Every session the call has looked up on the DKLs23 path carries the version. -/
def LookedUp (sessionId : String) (past : Past lib) (version : Int32) : Prop :=
  ∀ session, ⟨.checkout .secp256k1 .rotation sessionId, .found session⟩ ∈ past → session.currentRotationVersion = version

private theorem recoveryCompleted_payload {sessionId : String} {session : RecoverySession} {round : UInt8} {output : Bytes}
    {result : MpcRoundResult} (made : MpcEngine.recoveryCompleted lib sessionId session round output = .ok result) :
    ∃ payload, result.clientPayload = some (lib.text.renderJson (RecoveryCompletedPayload.toJson payload)) ∧
      payload.rotationVersion = session.currentRotationVersion + 1 := by
  obtain ⟨⟨address, pubkeyHex, _⟩, _, same⟩ := bind_eq_ok.mp made
  cases same
  exact ⟨_, rfl, rfl⟩

/-- A completed recovery reports one more than the version of the session it has looked up
first, and took that session or another one. -/
private theorem completed_version {call : Call} {past : Past lib} {reply : Reply} {sessionId : String}
    (ended : Call.End lib call past (.ok reply)) (names : call.scope = some (.rotation, sessionId))
    (completed : reply.status = "completed") :
    ∃ curve session after before looked result payload,
      past = after ++ ⟨.remove curve .rotation sessionId, some session⟩ :: before ∧ (∀ entry ∈ after, ¬Moves entry.1) ∧
        reply = .round result ∧ result.clientPayload = some (lib.text.renderJson (RecoveryCompletedPayload.toJson payload)) ∧
        payload.rotationVersion = looked + 1 ∧
        (looked = rotationVersion curve session ↔ LookedUp sessionId past (rotationVersion curve session)) := by
  cases ended with
  | exports none same =>
      rw [names] at none
      cases none
  | frost routed ended same =>
      have looks := routed.looks
      cases ended with
      | ceremony performs ended =>
          have scope := performs.names.1
          rw [names] at scope
          cases scope
          cases ended with
          | failed => cases same
          | started | advanced =>
              cases same
              exact absurd completed (by simp [Reply.status, EngineEd25519.makeInProgress])
          | @completed session result last completes =>
              cases performs with
              | recover named =>
                  obtain ⟨_, _, vkBytes, address, share, _, _, _, _, _, rfl⟩ := completes
                  cases same
                  refine ⟨.ed25519, session, [], _, session.currentRotationVersion, _, _, rfl, by simp, rfl, rfl, rfl, ?_⟩
                  refine iff_of_true rfl fun other member => ?_
                  rcases List.mem_cons.mp member with impossible | before
                  · cases impossible
                  · obtain ⟨_, _, impossible⟩ := looks _ before
                    cases impossible
      | sign named ended =>
          rw [named] at names
          cases names
  | dkls routed ended same =>
      have looks := routed.looks
      cases ended with
      | first scope first ended =>
          cases ended with
          | failed => cases same
          | opened only parsed ended =>
              cases ended with
              | failed => cases same
              | opened =>
                  cases same
                  exact absurd completed (by simp [Reply.status, MpcEngine.makeInProgressBatch])
      | advance scope later ended =>
          rw [names] at scope
          cases scope
          cases ended with
          | failed => cases same
          | continued =>
              cases same
              exact absurd completed (by simp [Reply.status, MpcEngine.makeInProgressBatch])
          | @completed session env messages held last handle output result accepted joins made =>
              cases same
              obtain ⟨payload, written, increment⟩ := recoveryCompleted_payload made
              refine ⟨.secp256k1, last, [_, _, _, _], _, session.currentRotationVersion, result, payload, rfl, by simp [Moves],
                rfl, written, increment, ?_⟩
              constructor
              · intro same other member
                rw [← same]
                simp only [MpcEngine.sent_eq, List.mem_cons, List.mem_append, List.mem_map, List.mem_reverse] at member
                rcases member with impossible | impossible | impossible | impossible | impossible | impossible |
                  impossible | impossible | ⟨_, _, impossible⟩ | same | before
                any_goals cases impossible
                · cases same
                  rfl
                · obtain ⟨_, _, impossible⟩ := looks _ before
                  cases impossible
              · intro lookedUp
                refine lookedUp session (List.mem_append_right [_, _, _, _, _] ?_)
                exact List.mem_append_right [_, _, _] MpcEngine.looked_mem_injected
      | keyshare scope last other ended =>
          rw [names] at scope
          cases scope
          cases ended with
          | failed => cases same
          | @completed session handle output result joins made =>
              cases same
              obtain ⟨payload, written, increment⟩ := recoveryCompleted_payload made
              refine ⟨.secp256k1, session, [_, _, _], _, session.currentRotationVersion, result, payload, rfl, by simp [Moves],
                rfl, written, increment, ?_⟩
              refine iff_of_true rfl fun other member => ?_
              simp only [List.mem_cons] at member
              rcases member with impossible | impossible | impossible | impossible | before
              any_goals cases impossible
              obtain ⟨_, _, impossible⟩ := looks _ before
              cases impossible

/-! ## Runs -/

/-- A recovery has completed, and its first round was called with this version. -/
structure RecoveredFrom (world : EngineWorld lib) (thread : Nat) (sessionId : String) (reply : Reply)
    (version : Int32) : Prop where
  completed : ∃ call, world.Returned thread call (.ok reply) ∧ call.scope = some (.rotation, sessionId) ∧
    reply.status = "completed"
  opened : ∃ origin call, (descent world.trace).hand thread = some origin ∧ world.Called origin call ∧
    call.round = some 1 ∧ call.scope = some (.rotation, sessionId) ∧ call.rotationVersion = some version

/-- A completed recovery reports its version plus one when the sum fits into 32 bits, and the
session the call looked up first has the version of the one it completes. -/
def RotationAdvances (lib : Libraries) : Prop :=
  ∀ world : EngineWorld lib, (machine lib).Reaches Machine.Any (.initial .empty) world →
    ∀ thread call sessionId reply, world.Returned thread call (.ok reply) → call.scope = some (.rotation, sessionId) →
      reply.status = "completed" → ∃ version, RecoveredFrom world thread sessionId reply version ∧
        (Reports lib reply (version.toInt + 1) ↔
          version.toInt < 2147483647 ∧ LookedUp sessionId (past thread world.trace) version)

private theorem rotation_of_completed (lawful : lib.text.Lawful) : RotationAdvances lib := by
  intro world reached thread call sessionId reply returned names completed
  have ended : Call.End lib call (past thread world.trace) (.ok reply) :=
    reached.follows Call.body_steps thread call _ returned
  obtain ⟨curve, session, after, before, looked, result, payload, own, still, rfl, written, increment, lookups⟩ :=
    completed_version ended names completed
  have obeys (call : Call) : (call.body lib).Follows (fun past action => Call.Step lib call past action ∧
      action.Carries call.rotationVersion) (fun past outcome => Call.End lib call past outcome ∧ True) [] :=
    (Call.body_steps call).and ((Call.body_carries call).follows (fun _ _ carries => carries) fun _ _ => trivial)
  obtain ⟨origin, holds, opener, called, first, scope, marked⟩ :=
    (descends version_inherited obeys reached).hands own still
  refine ⟨rotationVersion curve session, ⟨⟨call, returned, names, completed⟩, origin, opener, holds, called, first, scope,
    marked⟩, ?_⟩
  rw [reports_iff lawful written, increment, increment_toInt, lookups, and_comm]

theorem rotation_advances (lawful : lib.text.Lawful) : RotationAdvances lib :=
  rotation_of_completed lawful

/-! ## A recovery at the largest version -/

private def recoverCall (round : Int32) (backupShare : Option String) (version : Option Int32) : Call :=
  .recover .engineEd25519 "r" round
    "\x7b\"session_id\":\"r\",\"protocol\":\"rotation\",\"round\":1,\"from_id\":1,\"payload_encoding\":\"\",\"payload\":\"\"\x7d"
    backupShare version

private def recoveryCalls (version : Int32) : List Call :=
  [recoverCall 1 (some Toy.clientShareText) (some version), recoverCall 2 none none, recoverCall 0 none none]

private theorem toy_version {given version : Int32} {thread : Nat} {reply : Reply}
    (recovered : RecoveredFrom (Toy.run (recoveryCalls given)) thread "r" reply version) : version = given := by
  obtain ⟨origin, call, _, called, first, _, carried⟩ := recovered.opened
  have listed := Toy.call_of_called called
  clear called recovered
  rcases origin with _ | _ | _ | origin
  · cases listed
    exact (Option.some.inj carried).symm
  · cases listed
    cases first
  · cases listed
    cases first
  · cases listed

private theorem lookedUp_of_ed25519 {world : EngineWorld lib} {thread : Nat} {version : Int32}
    (only : world.trace.all (fun event => match event.2.1 with
      | .checkout .secp256k1 _ _ => false
      | _ => true) = true) : LookedUp "r" (past thread world.trace) version := by
  intro session member
  have here := List.all_eq_true.mp only _ (mem_past.mp member)
  cases here

theorem rotation_advances_once :
    ∃ reply, (Toy.run (recoveryCalls 3)).Returned 2 (recoverCall 0 none none) (.ok reply) ∧
      Reports Toy.libraries reply 4 := by
  have ended : Toy.status (Toy.run (recoveryCalls 3)) 2 = some "completed" := by decide +kernel
  obtain ⟨reply, returned, completed⟩ := Toy.returned_of_status rfl ended
  obtain ⟨version, recovered, exact_⟩ := @rotation_advances Toy.libraries standard_lawful
    (Toy.run (recoveryCalls 3)) (Machine.reaches_run _ _) 2 _ "r" reply returned rfl completed
  obtain rfl := toy_version recovered
  exact ⟨reply, returned, exact_.mpr ⟨by decide, lookedUp_of_ed25519 (by decide +kernel)⟩⟩

/-- The largest version is accepted, and the recovery completes with the smallest. -/
theorem rotation_wraps :
    ¬∀ world : EngineWorld Toy.libraries, (machine Toy.libraries).Reaches Machine.Any (.initial .empty) world →
      ∀ thread sessionId reply version, RecoveredFrom world thread sessionId reply version →
        Reports Toy.libraries reply (version.toInt + 1) := by
  intro reports
  have ended : Toy.status (Toy.run (recoveryCalls 2147483647)) 2 = some "completed" := by decide +kernel
  obtain ⟨reply, returned, completed⟩ := Toy.returned_of_status rfl ended
  have reached : (machine Toy.libraries).Reaches Machine.Any (.initial .empty) (Toy.run (recoveryCalls 2147483647)) :=
    Machine.reaches_run _ _
  obtain ⟨version, recovered, exact_⟩ := @rotation_of_completed Toy.libraries standard_lawful _ reached 2 _ "r" reply
    returned rfl completed
  have small := (exact_.mp (reports _ reached 2 "r" reply version recovered)).1
  obtain rfl := toy_version recovered
  exact absurd small (by decide +kernel)

end Lifecycle

end CeresMpc
