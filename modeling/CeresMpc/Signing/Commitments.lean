import CeresMpc.Api.CallSteps
import CeresMpc.Signing.Nonces

/-!
# The commitments an ed25519 signature is made over

Round 1 records the client's commitments and those of the server's payload. Round 2 signs
over the package of the server's second payload, whose commitments it does not look at.
-/

set_option autoImplicit false

namespace CeresMpc.Signing

open Encoding Interleaving Program Api

variable {lib : Libraries}

/-! ## What round 1 records -/

/-- The commitments in a server's first payload. -/
def ServerCommits (lib : Libraries) (serverPayload : String) (commitments : lib.frost.SigningCommitments) : Prop :=
  ∃ env r1, EngineEd25519.parseWire lib serverPayload = .ok env ∧
    EngineEd25519.decodePayload lib EngineEd25519.SignR1Payload.fromJson env = .ok r1 ∧
    EngineEd25519.deserPkg lib lib.frost.deserializeCommitments r1.commitments = .ok commitments

/-- The map of both parties' commitments, with the nonces that belong to the client's. -/
structure RecordsMap (serverPayload : String) (session : FrostSignSession lib) : Prop where
  unused : session.consumed = false
  map : ∃ draw own server, session.nonces = some { value := (lib.frost.commit session.keyPackage draw).1, draw } ∧
    own = (lib.frost.commit session.keyPackage draw).2 ∧ ServerCommits lib serverPayload server ∧
    session.commitments = [(1, own), (2, server)]

/-- An ed25519 signing session is inserted with the map of its call. -/
def InsertsMap (serverPayload : String) : Action lib → Prop
  | .insert .ed25519 .dsg _ session => RecordsMap serverPayload session
  | _ => True

private theorem signRound1_records (sessionId serverPayload : String) (share messageHex : Option String) :
    (EngineEd25519.signRound1 lib sessionId serverPayload share messageHex).Only (InsertsMap serverPayload) := by
  simp only [EngineEd25519.signRound1, bind_eq, liftM_eq, only_lift_bind, request_bind]
  intro env parsed r1 decoded server deserialized shareStr _ msgHex _ message _ packages _ vkBytes _
  refine ⟨trivial, fun exported => Only.bind (only_ensure _ _) fun _ => ⟨trivial, fun draw => ⟨trivial, fun createdAt => ?_⟩⟩⟩
  refine ⟨⟨rfl, draw, _, server, rfl, rfl, ⟨env, r1, parsed, decoded, deserialized⟩, rfl⟩, fun _ => ?_⟩
  simp

private theorem body_inserts (call : Call) : (call.body lib).Only (InsertsMap call.payload) := by
  have elsewhere {curve : Curve} {protocol : ProtocolType} {sessionId : String} (other : curve = .secp256k1 ∨ protocol ≠ .dsg)
      (action : Action lib) (within : action.Within curve protocol sessionId) : InsertsMap call.payload action := by
    cases action with
    | insert otherCurve other otherId session =>
        obtain ⟨rfl, rfl, rfl⟩ := within
        rcases other with rfl | notSign
        · trivial
        · cases otherCurve <;> cases other <;> trivial
    | _ => trivial
  cases names : call.scope with
  | none =>
      refine (Call.body_touches call).mono fun action touches => ?_
      rw [Call.Touches, names] at touches
      cases action <;> trivial
  | some target =>
      obtain ⟨protocol, sessionId⟩ := target
      refine Call.body_only names trivial ?_ ((Call.dkls_within names).mono (elsewhere (.inl rfl)))
      by_cases signing : protocol = .dsg
      · subst signing
        cases call with
        | sign entry sessionId round serverPayload share messageHex =>
            refine Only.bind ?_ fun _ => trivial
            unfold EngineEd25519.sign
            split
            · exact signRound1_records _ _ _ _
            split
            · simp [EngineEd25519.signRound2, InsertsMap]
            · trivial
        | keygen | recover => cases names
        | exportPrivateKey => cases names
      · exact (Call.direct_within names).mono (elsewhere (.inr signing))

/-! ## What round 2 uses -/

/-- What a second round has done with the session it took. -/
def SignsOver (sessionId serverPayload : String) (past : Past lib) : Prop :=
  ∀ session, ⟨.remove .ed25519 .dsg sessionId, some session⟩ ∈ past →
    ∃ package serverSigShare, EngineEd25519.decodeSignRound2 lib serverPayload = .ok (package, serverSigShare) ∧
      (∀ used nonces keyPackage answer, ⟨.roundSign used nonces keyPackage, answer⟩ ∈ past →
        used = package ∧ lib.frost.packageMessage package = session.message) ∧
      (session.consumed = false → session.nonces ≠ none → lib.frost.packageMessage package = session.message →
        ∃ nonces keyPackage answer, ⟨.roundSign package nonces keyPackage, answer⟩ ∈ past)

private theorem signRound2_over {sessionId serverPayload : String} {base : Past lib}
    (clean : ∀ entry ∈ base, ¬entry.1.OnEngine .ed25519) :
    (EngineEd25519.signRound2 lib sessionId serverPayload).Follows (fun _ _ => True)
      (fun past _ => SignsOver sessionId serverPayload past) base := by
  have untaken {session : FrostSignSession lib} :
      (⟨.remove .ed25519 .dsg sessionId, some session⟩ : Entry (Action lib) (Action.Answer lib)) ∉ base :=
    fun member => clean _ member rfl
  have unsigned {used nonces keyPackage answer} :
      (⟨.roundSign used nonces keyPackage, answer⟩ : Entry (Action lib) (Action.Answer lib)) ∉ base :=
    fun member => clean _ member rfl
  simp only [EngineEd25519.signRound2, bind_eq, liftM_eq, request_bind, follows_lift_bind]
  refine ⟨fun decoded parsed => ?_, fun _ _ session member => absurd member untaken⟩
  obtain ⟨package, serverSigShare⟩ := decoded
  refine ⟨trivial, fun removed => ?_⟩
  have stopped (session : FrostSignSession lib) (reason : session.consumed = true ∨ session.nonces = none ∨
      lib.frost.packageMessage package ≠ session.message) :
      SignsOver sessionId serverPayload (⟨.remove .ed25519 .dsg sessionId, some session⟩ :: base) := by
    intro taken member
    rcases List.mem_cons.mp member with same | before
    · cases same
      refine ⟨package, serverSigShare, parsed, fun used nonces keyPackage answer signed => ?_, fun free stored matching => ?_⟩
      · rcases List.mem_cons.mp signed with impossible | before
        · cases impossible
        · exact absurd before unsigned
      · rcases reason with consumed | missing | other
        · rw [free] at consumed
          cases consumed
        · exact absurd missing stored
        · exact absurd matching other
    · exact absurd before untaken
  simp only [follows_lift_bind, okOr_eq_ok, follows_ensure_bind]
  constructor
  · rintro session rfl
    refine ⟨fun free => ⟨fun matching => ?_, fun other => stopped session (.inr (.inr other))⟩,
      fun consumed => stopped session (.inl (by simpa using consumed))⟩
    refine ⟨fun nonces stored => ?_, fun failure missing => ?_⟩
    · refine ⟨trivial, fun signed => ?_⟩
      have signs : SignsOver sessionId serverPayload
          (⟨.roundSign package nonces session.keyPackage, signed⟩ ::
            ⟨.remove .ed25519 .dsg sessionId, some session⟩ :: base) := by
        intro taken member
        obtain rfl : taken = session := by
          rcases List.mem_cons.mp member with impossible | member
          · cases impossible
          · rcases List.mem_cons.mp member with same | before
            · cases same
              rfl
            · exact absurd before untaken
        refine ⟨package, serverSigShare, parsed, fun used _ _ _ performed => ?_, fun _ _ _ =>
          ⟨nonces, taken.keyPackage, signed, List.mem_cons_self⟩⟩
        rcases List.mem_cons.mp performed with same | before
        · cases same
          exact ⟨rfl, matching⟩
        · rcases List.mem_cons.mp before with impossible | before
          · cases impossible
          · exact absurd before unsigned
      simp only [follows_lift_bind, follows_ensure_bind]
      exact ⟨fun own _ => ⟨fun signature _ => ⟨fun sigBytes _ => ⟨fun _ => signs, fun _ => signs⟩, fun _ _ => signs⟩,
        fun _ _ => signs⟩, fun _ _ => signs⟩
    · cases none : session.nonces with
      | none => exact stopped session (.inr (.inl none))
      | some nonces =>
          rw [none] at missing
          cases missing
  · intro failure missing taken member
    rcases List.mem_cons.mp member with same | before
    · cases same
      cases missing
    · exact absurd before untaken

private theorem sign_over (entry : EntryPoint) (sessionId serverPayload : String) (share messageHex : Option String) :
    (Call.body lib (.sign entry sessionId 2 serverPayload share messageHex)).Follows (fun _ _ => True)
      (fun past _ => SignsOver sessionId serverPayload past) [] := by
  refine Call.body_follows rfl (fun _ _ => trivial) (fun base routed => ?_) fun base routed => ?_
  · exact (follows_map _ _).mpr (signRound2_over (routed.off_engine .ed25519))
  · refine (Call.dkls_within rfl).tracks.mono (fun _ _ _ => trivial) ?_
    rintro past outcome ⟨tail, rfl, within⟩ session member
    rcases List.mem_append.mp member with own | before
    · obtain ⟨impossible, _⟩ := within _ own
      cases impossible
    · exact absurd rfl (routed.off_engine .ed25519 _ before)

/-! ## Runs -/

private theorem calls_over (call : Call) :
    (call.body lib).Follows (fun past action => Permitted lib call past action ∧ InsertsMap call.payload action)
      (fun past _ => ∀ entry sessionId serverPayload share messageHex,
        call = .sign entry sessionId 2 serverPayload share messageHex → SignsOver sessionId serverPayload past) [] := by
  have inserts : (call.body lib).Follows (fun _ action => InsertsMap call.payload action) (fun _ _ => True) [] :=
    (body_inserts call).follows (fun _ _ inserts => inserts) fun _ _ => trivial
  have permitted := (body_follows call).and inserts
  by_cases second : ∃ entry sessionId serverPayload share messageHex,
      call = .sign entry sessionId 2 serverPayload share messageHex
  · obtain ⟨entry, sessionId, serverPayload, share, messageHex, rfl⟩ := second
    refine (permitted.and (sign_over entry sessionId serverPayload share messageHex)).mono (fun _ _ both => both.1) ?_
    rintro past outcome ⟨_, signs⟩ _ _ _ _ _ same
    cases same
    exact signs
  · refine permitted.mono (fun _ _ both => both) fun past outcome _ entry sessionId serverPayload share messageHex same => ?_
    exact absurd ⟨entry, sessionId, serverPayload, share, messageHex, same⟩ second

/-- The call passes nonces to no package but one over the map of its session. -/
def UsesMap (world : EngineWorld lib) (thread : Nat) (session : FrostSignSession lib) : Prop :=
  ∀ used nonces keyPackage answer, Performed world.trace thread (.roundSign used nonces keyPackage) answer →
    lib.frost.packageCommitments used = session.commitments

/-- The map of a session a second round has taken is that of its first round, and the second
round keeps to it exactly when the server's package does or is over another message. -/
theorem commitments_used {world : EngineWorld lib} (reached : (machine lib).Reaches Machine.Any (.initial .empty) world)
    {thread : Nat} {entry : EntryPoint} {sessionId serverPayload : String} {share messageHex : Option String}
    {outcome : Except String Reply} {session : FrostSignSession lib}
    (returned : world.Returned thread (.sign entry sessionId 2 serverPayload share messageHex) outcome)
    (taken : Performed world.trace thread (.remove .ed25519 .dsg sessionId) (some session)) :
    ∃ creator opener first creatorShare creatorMessage package serverSigShare,
      world.Called creator (.sign opener sessionId 1 first (some creatorShare) (some creatorMessage)) ∧
      Performed world.trace creator (.insert .ed25519 .dsg sessionId session) () ∧ RecordsMap first session ∧
      EngineEd25519.decodeSignRound2 lib serverPayload = .ok (package, serverSigShare) ∧
      (UsesMap world thread session ↔ (lib.frost.packageMessage package = session.message →
        lib.frost.packageCommitments package = session.commitments)) := by
  have signsOver := reached.follows calls_over thread _ _ returned _ _ _ _ _ rfl
  obtain ⟨package, serverSigShare, parsed, uses, signs⟩ := signsOver session (mem_past.mpr taken)
  obtain ⟨later, earlier, split⟩ := List.append_of_mem taken
  obtain ⟨creator, stored, inserted, same⟩ := inserted_before_removal reached split
  obtain rfl : stored = session := same
  have inTrace : Performed world.trace creator (.insert .ed25519 .dsg sessionId stored) () := by
    rw [Performed, split]
    exact List.mem_append_right _ (List.mem_cons_of_mem _ inserted)
  obtain ⟨call, program, before, found, ⟨permitted, records⟩, _⟩ := reached.performed_permitted calls_over inTrace
  obtain ⟨opener, first, creatorShare, creatorMessage, nonces, rfl, _⟩ := permitted
  have recorded : RecordsMap first stored := records
  refine ⟨creator, opener, first, creatorShare, creatorMessage, package, serverSigShare, ⟨program, found⟩, inTrace, recorded,
    parsed, ?_⟩
  constructor
  · intro keeps matching
    obtain ⟨draw, own, server, held, _⟩ := recorded.map
    obtain ⟨used, keyPackage, answer, signed⟩ := signs recorded.unused (by simp [held]) matching
    exact keeps package used keyPackage answer (mem_past.mp signed)
  · intro matches_ used nonces keyPackage answer signed
    obtain ⟨rfl, matching⟩ := uses used nonces keyPackage answer (mem_past.mpr signed)
    exact matches_ matching

/-! ## A package over other commitments -/

private def otherRound2 : Call :=
  .sign .engineEd25519 "s" 2
    "\x7b\"session_id\":\"s\",\"protocol\":\"dsg\",\"round\":2,\"from_id\":1,\"payload_encoding\":\"\",\"payload\":\"eyJzaWduaW5nX3BrZyI6IjAwMDVhYWJiIiwic2lnX3NoYXJlIjoiMDcifQ==\"\x7d"
    none none

private def otherCalls : List Call := [Toy.signRound1, otherRound2]

/-- The map of the session that call 1 takes. -/
private def takenMap : Nat × Entry (Action Toy.libraries) (Action.Answer Toy.libraries) → Option (List (Nat × UInt8))
  | (1, ⟨.remove .ed25519 .dsg sessionId, some session⟩) => if sessionId = "s" then some session.commitments else none
  | _ => none

private theorem taken_of_map {world : EngineWorld Toy.libraries} {map : List (Nat × UInt8)}
    (only : world.trace.filterMap takenMap = [map]) : ∃ session : FrostSignSession Toy.libraries,
      Performed world.trace 1 (.remove .ed25519 .dsg "s") (some session) ∧ session.commitments = map := by
  have member : map ∈ world.trace.filterMap takenMap := by simp [only]
  obtain ⟨⟨thread, action, answer⟩, performed, found⟩ := List.mem_filterMap.mp member
  unfold takenMap at found
  split at found
  · next sessionId session same =>
    cases same
    split at found
    · next named =>
      subst named
      exact ⟨session, performed, Option.some.inj found⟩
    · cases found
  · cases found

/-- The commitments of the packages that call 1 passes nonces to. -/
private def usedCommitments : Nat × Entry (Action Toy.libraries) (Action.Answer Toy.libraries) → Option (List (Nat × UInt8))
  | (1, ⟨.roundSign package _ _, _⟩) => some (Toy.frost.packageCommitments package)
  | _ => none

private theorem used_of_commitments {world : EngineWorld Toy.libraries} {commitments : List (Nat × UInt8)}
    (only : world.trace.filterMap usedCommitments = [commitments]) : ∃ package nonces keyPackage answer,
      Performed world.trace 1 (.roundSign package nonces keyPackage) answer ∧
        Toy.frost.packageCommitments package = commitments := by
  have member : commitments ∈ world.trace.filterMap usedCommitments := by simp [only]
  obtain ⟨⟨thread, action, answer⟩, performed, found⟩ := List.mem_filterMap.mp member
  unfold usedCommitments at found
  split at found
  · next package nonces keyPackage answer same =>
    cases same
    exact ⟨package, nonces, keyPackage, answer, performed, Option.some.inj found⟩
  · cases found

/-- The map of the package in a server's second payload. -/
private def payloadMap (serverPayload : String) : Option (List (Nat × UInt8)) :=
  (EngineEd25519.decodeSignRound2 Toy.libraries serverPayload).toOption.map fun decoded =>
    Toy.frost.packageCommitments decoded.1

theorem commitments_used_once : ∃ session : FrostSignSession Toy.libraries,
    Performed (Toy.run Toy.signingCalls).trace 1 (.remove .ed25519 .dsg "s") (some session) ∧
      UsesMap (Toy.run Toy.signingCalls) 1 session := by
  have reached : (machine Toy.libraries).Reaches Machine.Any (.initial .empty) (Toy.run Toy.signingCalls) :=
    Machine.reaches_run _ _
  have maps : (Toy.run Toy.signingCalls).trace.filterMap takenMap = [[(1, 0), (2, 9)]] := by decide +kernel
  obtain ⟨session, taken, recorded⟩ := taken_of_map maps
  obtain ⟨reply, returned, _⟩ :=
    Toy.returned_of_status (rfl : Toy.signingCalls[1]? = some Toy.signRound2) Toy.signing_completed
  obtain ⟨_, _, _, _, _, package, serverSigShare, _, _, _, parsed, keeps⟩ := commitments_used reached returned taken
  have decides : payloadMap Toy.signRound2.payload = some [(1, 0), (2, 9)] := by decide +kernel
  refine ⟨session, taken, keeps.mpr fun _ => ?_⟩
  have listed : payloadMap Toy.signRound2.payload = some (Toy.frost.packageCommitments package) :=
    congrArg (fun decoded => decoded.toOption.map fun parts => Toy.frost.packageCommitments parts.1) parsed
  rw [recorded]
  exact Option.some.inj (listed.symm.trans decides)

theorem commitments_replaced :
    ¬∀ world : EngineWorld Toy.libraries, (machine Toy.libraries).Reaches Machine.Any (.initial .empty) world →
      ∀ thread sessionId session, Performed world.trace thread (.remove .ed25519 .dsg sessionId) (some session) →
        UsesMap world thread session := by
  intro kept
  have maps : (Toy.run otherCalls).trace.filterMap takenMap = [[(1, 0), (2, 9)]] := by decide +kernel
  have used : (Toy.run otherCalls).trace.filterMap usedCommitments = [[(1, 0), (2, 5)]] := by decide +kernel
  obtain ⟨session, taken, recorded⟩ := taken_of_map maps
  obtain ⟨package, nonces, keyPackage, answer, signed, lists⟩ := used_of_commitments used
  have same := kept _ (Machine.reaches_run _ _) 1 "s" session taken package nonces keyPackage answer signed
  have differs : ([(1, 0), (2, 5)] : List (Nat × UInt8)) = [(1, 0), (2, 9)] := lists.symm.trans (same.trans recorded)
  cases differs

end CeresMpc.Signing
