import CeresMpc.Api.Footprint

/-!
# What a FROST round does, step by step

Keygen and recovery are ceremonies: the library's state and the last server payload
are handed from round to round. Signing hands its nonces to the second round.
-/

set_option autoImplicit false

namespace CeresMpc.Api.EngineEd25519

open Encoding Interleaving Program

/-! ## Ceremonies -/

/-- What keygen and recovery have in common after their first round. -/
structure Ceremony (lib : Libraries) (protocol : ProtocolType) where
  State : Type
  state : Session lib .ed25519 protocol → State
  pending : Session lib .ed25519 protocol → String
  createdAt : Session lib .ed25519 protocol → Nat
  part2 : State → String → Except String (State × String)
  part3 : State → String → Except String (lib.frost.KeyPackage × lib.frost.PublicKeyPackage)
  /-- The session round 2 puts back. -/
  advanced : Session lib .ed25519 protocol → State → String → Session lib .ed25519 protocol
  state_advanced : ∀ session next payload, state (advanced session next payload) = next
  pending_advanced : ∀ session next payload, pending (advanced session next payload) = payload
  createdAt_advanced : ∀ session next payload,
    createdAt (advanced session next payload) = createdAt session

def keygenCeremony (lib : Libraries) : Ceremony lib .dkg where
  State := lib.frost.KeygenSessionState
  state := FrostKeygenSession.libState
  pending := FrostKeygenSession.pendingServerInner
  createdAt := FrostKeygenSession.createdAt
  part2 := lib.frost.keygenPart2
  part3 := lib.frost.keygenPart3
  advanced := fun session libState payload =>
    { createdAt := session.createdAt, libState, pendingServerInner := payload }
  state_advanced := fun _ _ _ => rfl
  pending_advanced := fun _ _ _ => rfl
  createdAt_advanced := fun _ _ _ => rfl

def recoveryCeremony (lib : Libraries) : Ceremony lib .rotation where
  State := lib.frost.RecoverySessionState
  state := FrostRecoverySession.libState
  pending := FrostRecoverySession.pendingServerInner
  createdAt := FrostRecoverySession.createdAt
  part2 := lib.frost.recoveryPart2
  part3 := lib.frost.recoveryPart3
  advanced := fun session libState payload =>
    { createdAt := session.createdAt, currentRotationVersion := session.currentRotationVersion
      libState, pendingServerInner := payload }
  state_advanced := fun _ _ _ => rfl
  pending_advanced := fun _ _ _ => rfl
  createdAt_advanced := fun _ _ _ => rfl

/-- Round 2 of a recovery looks the session up before it takes it. -/
def Looked {lib : Libraries} (protocol : ProtocolType) (sessionId : String) (base past : Past lib) : Prop :=
  protocol = .dkg ∧ past = base ∨ protocol = .rotation ∧
    ∃ cloned, past = ⟨.checkout .ed25519 protocol sessionId, .found cloned⟩ :: base

section Ceremony

variable {lib : Libraries} {protocol : ProtocolType} (ceremony : Ceremony lib protocol)
  (sessionId serverPayload : String) (round : Int32) (base : Past lib)

/-- Round 2 consumes the payload of round 1 and keeps its own. -/
structure Advances (session : Session lib .ed25519 protocol) (env : WireEnvelope)
    (next : ceremony.State) (inner : String) : Prop where
  parsed : parseWire lib serverPayload = .ok env
  part2 : ceremony.part2 (ceremony.state session) (ceremony.pending session) = .ok (next, inner)

/-- `opens` is what round 1 makes of the call's arguments and of what it read. -/
inductive CeremonyStep (opens : Past lib → Session lib .ed25519 protocol → String → Prop) :
    Past lib → Action lib → Prop where
  | read {reads action} : round = 1 → (∀ entry ∈ reads, entry.1.Reads) → action = .random ∨ action = .now →
      CeremonyStep opens (reads ++ base) action
  | start {past reads session inner} : round = 1 → opens reads session inner → past = reads ++ base →
      CeremonyStep opens past (.insert .ed25519 protocol sessionId session)
  | look : round = 2 → protocol = .rotation → CeremonyStep opens base (.checkout .ed25519 protocol sessionId)
  | take {past} : round = 2 → Looked protocol sessionId base past →
      CeremonyStep opens past (.remove .ed25519 protocol sessionId)
  | putBack {past session env next inner} : round = 2 → Looked protocol sessionId base past →
      Advances ceremony serverPayload session env next inner →
      CeremonyStep opens (⟨.remove .ed25519 protocol sessionId, some session⟩ :: past)
        (.insert .ed25519 protocol sessionId (ceremony.advanced session next env.payload))
  | finish : round = 0 → CeremonyStep opens base (.remove .ed25519 protocol sessionId)

/-- `completes` is what round 0 makes of the session it took. -/
inductive CeremonyEnd (opens : Past lib → Session lib .ed25519 protocol → String → Prop)
    (completes : Session lib .ed25519 protocol → MpcRoundResult → Prop) :
    Past lib → Except String MpcRoundResult → Prop where
  | failed {past failure} : CeremonyEnd opens completes past (.error failure)
  | started {past reads session inner} : round = 1 → opens reads session inner → past = reads ++ base →
      CeremonyEnd opens completes (⟨.insert .ed25519 protocol sessionId session, ()⟩ :: past)
        (.ok (makeInProgress 1 (encodeWirePayloadFromInner lib sessionId protocol 1 inner)))
  | advanced {past session env next inner} : round = 2 → Looked protocol sessionId base past →
      Advances ceremony serverPayload session env next inner →
      CeremonyEnd opens completes
        (⟨.insert .ed25519 protocol sessionId (ceremony.advanced session next env.payload), ()⟩ ::
          ⟨.remove .ed25519 protocol sessionId, some session⟩ :: past)
        (.ok (makeInProgress 2 (encodeWirePayloadFromInner lib sessionId protocol 2 inner)))
  | completed {session result} : round = 0 → completes session result →
      CeremonyEnd opens completes (⟨.remove .ed25519 protocol sessionId, some session⟩ :: base) (.ok result)

variable {ceremony sessionId serverPayload round base}
  {opens : Past lib → Session lib .ed25519 protocol → String → Prop}

theorem CeremonyStep.read_start {action : Action lib} (first : round = 1)
    (reading : action = .random ∨ action = .now) :
    CeremonyStep ceremony sessionId serverPayload round base opens base action :=
  @CeremonyStep.read lib protocol ceremony sessionId serverPayload round base opens [] action first
    (by simp) reading

theorem CeremonyStep.read_next {entry : Entry (Action lib) (Action.Answer lib)} {action : Action lib}
    (first : round = 1) (before : entry.1.Reads) (reading : action = .random ∨ action = .now) :
    CeremonyStep ceremony sessionId serverPayload round base opens (entry :: base) action :=
  @CeremonyStep.read lib protocol ceremony sessionId serverPayload round base opens [entry] action first
    (by simpa using before) reading

end Ceremony

/-! ## Keygen -/

section Keygen

variable (lib : Libraries) (sessionId serverPayload : String)

structure KeygenOpens (reads : Past lib) (session : FrostKeygenSession lib) (inner : String) : Prop where
  payload : ∃ env, parseWire lib serverPayload = .ok env ∧ session.pendingServerInner = env.payload
  part1 : ∃ draw, lib.frost.keygenPart1 1 draw = .ok (session.libState, inner) ∧
    reads = [⟨.now, session.createdAt⟩, ⟨.random, draw⟩]

/-- Round 0 of a keygen: the library's last part, and what is reported of its keys. -/
structure KeygenCompletes (session : FrostKeygenSession lib) (result : MpcRoundResult) : Prop where
  completed : ∃ keyPackage publicKeyPackage vkBytes address share,
    lib.frost.keygenPart3 session.libState session.pendingServerInner = .ok (keyPackage, publicKeyPackage) ∧
      verifyingKeyBytes lib publicKeyPackage = .ok vkBytes ∧ deriveSolanaAddress lib vkBytes = .ok address ∧
      lib.frost.buildShareEnvelope keyPackage publicKeyPackage = .ok share ∧
      result = makeCompleted lib 0 (KeygenCompletedPayload.toJson
        { mpcKeyId := sessionId, address, publicKey := lib.text.encodeHex vkBytes, curve := "ed25519"
          threshold := 2, keyRef := sessionId, backupState := "none", rotationVersion := 1
          localEncryptedShare := share })

variable {lib sessionId serverPayload}

theorem keygen_steps {round : Int32} {base : Past lib} :
    (keygen lib sessionId round serverPayload).Follows
      (CeremonyStep (keygenCeremony lib) sessionId serverPayload round base (KeygenOpens lib serverPayload))
      (CeremonyEnd (keygenCeremony lib) sessionId serverPayload round base (KeygenOpens lib serverPayload)
        (KeygenCompletes lib sessionId)) base := by
  unfold keygen
  split
  · next first =>
    simp only [keygenRound1, bind_eq, liftM_eq, request_bind, follows_lift_bind]
    refine ⟨fun env parsed => ?_, fun _ _ => .failed⟩
    refine ⟨.read_start first (.inl rfl), fun draw => ?_⟩
    simp only [follows_lift_bind, mapErr_eq_ok]
    refine ⟨fun made part1 => ?_, fun _ _ => .failed⟩
    obtain ⟨libState, inner⟩ := made
    refine ⟨.read_next first trivial (.inr rfl), fun createdAt => ?_⟩
    have opens : KeygenOpens lib serverPayload [⟨.now, createdAt⟩, ⟨.random, draw⟩]
        { createdAt, libState, pendingServerInner := env.payload } inner :=
      ⟨⟨env, parsed, rfl⟩, draw, part1, rfl⟩
    exact ⟨.start first opens rfl, fun _ => .started first opens rfl⟩
  split
  · next second =>
    simp only [keygenRound2, bind_eq, liftM_eq, request_bind, follows_lift_bind]
    refine ⟨fun env parsed => ?_, fun _ _ => .failed⟩
    refine ⟨.take second (.inl ⟨rfl, rfl⟩), fun removed => ?_⟩
    simp only [follows_lift_bind, okOr_eq_ok]
    refine ⟨?_, fun _ _ => .failed⟩
    rintro session rfl
    simp only [mapErr_eq_ok]
    refine ⟨fun made part2 => ?_, fun _ _ => .failed⟩
    obtain ⟨next, inner⟩ := made
    have advances : Advances (keygenCeremony lib) serverPayload session env next inner := ⟨parsed, part2⟩
    exact ⟨.putBack second (.inl ⟨rfl, rfl⟩) advances, fun _ => .advanced second (.inl ⟨rfl, rfl⟩) advances⟩
  split
  · next last =>
    simp only [keygenFinalize, bind_eq, liftM_eq, request_bind]
    refine ⟨.finish last, fun removed => ?_⟩
    simp only [follows_lift_bind, okOr_eq_ok]
    refine ⟨?_, fun _ _ => .failed⟩
    rintro session rfl
    simp only [mapErr_eq_ok]
    refine ⟨fun keys part3 => ?_, fun _ _ => .failed⟩
    obtain ⟨keyPackage, publicKeyPackage⟩ := keys
    refine ⟨fun vkBytes serialized => ?_, fun _ _ => .failed⟩
    refine ⟨fun address derived => ?_, fun _ _ => .failed⟩
    refine ⟨fun share built => ?_, fun _ _ => .failed⟩
    exact .completed last ⟨keyPackage, publicKeyPackage, vkBytes, address, share, part3, serialized, derived,
      built, rfl⟩
  · exact .failed

end Keygen

/-! ## Recovery -/

section Recovery

variable (lib : Libraries) (sessionId serverPayload : String)
  (backupShare : Option String) (currentRotationVersion : Option Int32)

structure RecoveryOpens (reads : Past lib) (session : FrostRecoverySession lib) (inner : String) : Prop where
  payload : ∃ env, parseWire lib serverPayload = .ok env ∧ session.pendingServerInner = env.payload
  rotationVersion : currentRotationVersion = some session.currentRotationVersion
  part1 : ∃ share oldKp oldPkp draw, backupShare = some share ∧
    extractShareMaterial lib share = .ok (oldKp, oldPkp) ∧
    lib.frost.recoveryPart1 oldKp oldPkp draw = .ok (session.libState, inner) ∧
    reads = [⟨.now, session.createdAt⟩, ⟨.random, draw⟩]

/-- Round 0 of a recovery. The new key must be the old one, whatever the library returns. -/
structure RecoveryCompletes (session : FrostRecoverySession lib) (result : MpcRoundResult) : Prop where
  completed : ∃ keyPackage publicKeyPackage vkBytes address share,
    lib.frost.recoveryPart3 session.libState session.pendingServerInner = .ok (keyPackage, publicKeyPackage) ∧
      verifyingKeyBytes lib publicKeyPackage = .ok vkBytes ∧
      verifyingKeyBytes lib (lib.frost.oldPubKeyPkg session.libState) = .ok vkBytes ∧
      deriveSolanaAddress lib vkBytes = .ok address ∧
      lib.frost.buildShareEnvelope keyPackage publicKeyPackage = .ok share ∧
      result = makeCompleted lib 0 (RecoveryCompletedPayload.toJson
        { mpcKeyId := sessionId, address, publicKey := lib.text.encodeHex vkBytes
          rotationVersion := session.currentRotationVersion + 1, localEncryptedShare := share })

variable {lib sessionId serverPayload backupShare currentRotationVersion}

theorem recover_steps {round : Int32} {base : Past lib} :
    (recover lib sessionId round serverPayload backupShare currentRotationVersion).Follows
      (CeremonyStep (recoveryCeremony lib) sessionId serverPayload round base
        (RecoveryOpens lib serverPayload backupShare currentRotationVersion))
      (CeremonyEnd (recoveryCeremony lib) sessionId serverPayload round base
        (RecoveryOpens lib serverPayload backupShare currentRotationVersion)
        (RecoveryCompletes lib sessionId)) base := by
  unfold recover
  split
  · next first =>
    simp only [recoverRound1, bind_eq, liftM_eq, request_bind, follows_lift_bind, okOr_eq_ok]
    refine ⟨fun env parsed => ?_, fun _ _ => .failed⟩
    refine ⟨?_, fun _ _ => .failed⟩
    rintro share rfl
    refine ⟨?_, fun _ _ => .failed⟩
    rintro version rfl
    refine ⟨fun packages material => ?_, fun _ _ => .failed⟩
    obtain ⟨oldKp, oldPkp⟩ := packages
    refine ⟨.read_start first (.inl rfl), fun draw => ?_⟩
    simp only [follows_lift_bind, mapErr_eq_ok]
    refine ⟨fun made part1 => ?_, fun _ _ => .failed⟩
    obtain ⟨libState, inner⟩ := made
    refine ⟨.read_next first trivial (.inr rfl), fun createdAt => ?_⟩
    have opens : RecoveryOpens lib serverPayload (some share) (some version)
        [⟨.now, createdAt⟩, ⟨.random, draw⟩]
        { createdAt, currentRotationVersion := version, libState, pendingServerInner := env.payload } inner :=
      ⟨⟨env, parsed, rfl⟩, rfl, share, oldKp, oldPkp, draw, rfl, material, part1, rfl⟩
    exact ⟨.start first opens rfl, fun _ => .started first opens rfl⟩
  split
  · next second =>
    simp only [recoverRound2, bind_eq, liftM_eq, request_bind]
    refine ⟨.look second rfl, fun found => ?_⟩
    cases found with
    | missing => exact .failed
    | expired => exact .failed
    | found cloned =>
        have looked : Looked .rotation sessionId base
            (⟨.checkout .ed25519 .rotation sessionId, .found cloned⟩ :: base) := .inr ⟨rfl, cloned, rfl⟩
        simp only [follows_lift_bind]
        refine ⟨fun env parsed => ?_, fun _ _ => .failed⟩
        refine ⟨.take second looked, fun removed => ?_⟩
        simp only [follows_lift_bind, okOr_eq_ok]
        refine ⟨?_, fun _ _ => .failed⟩
        rintro session rfl
        simp only [mapErr_eq_ok]
        refine ⟨fun made part2 => ?_, fun _ _ => .failed⟩
        obtain ⟨next, inner⟩ := made
        have advances : Advances (recoveryCeremony lib) serverPayload session env next inner := ⟨parsed, part2⟩
        exact ⟨.putBack second looked advances, fun _ => .advanced second looked advances⟩
  split
  · next last =>
    simp only [recoverFinalize, bind_eq, liftM_eq, request_bind]
    refine ⟨.finish last, fun removed => ?_⟩
    simp only [follows_lift_bind, okOr_eq_ok]
    refine ⟨?_, fun _ _ => .failed⟩
    rintro session rfl
    simp only [mapErr_eq_ok, follows_ensure_bind]
    refine ⟨fun oldVkBytes oldSerialized => ?_, fun _ _ => .failed⟩
    refine ⟨fun keys part3 => ?_, fun _ _ => .failed⟩
    obtain ⟨keyPackage, publicKeyPackage⟩ := keys
    refine ⟨fun vkBytes serialized => ?_, fun _ _ => .failed⟩
    refine ⟨?_, fun _ => .failed⟩
    rintro rfl
    simp only [follows_lift_bind]
    refine ⟨fun address derived => ?_, fun _ _ => .failed⟩
    refine ⟨fun share built => ?_, fun _ _ => .failed⟩
    exact .completed last ⟨keyPackage, publicKeyPackage, vkBytes, address, share, part3, serialized,
      oldSerialized, derived, built, rfl⟩
  · exact .failed

end Recovery

/-! ## Signing -/

section Signing

variable (lib : Libraries) (sessionId serverPayload : String) (share messageHex : Option String)
  (round : Int32) (base : Past lib)

inductive SignStep : Past lib → Action lib → Prop where
  | read {reads action} : round = 1 → (∀ entry ∈ reads, entry.1.Reads) →
      (∃ key, action = .exportedContains key) ∨ action = .random ∨ action = .now →
      SignStep (reads ++ base) action
  | start {past reads session} : round = 1 → (∀ entry ∈ reads, entry.1.Reads) → past = reads ++ base →
      session.consumed = false → SignStep past (.insert .ed25519 .dsg sessionId session)
  | take {package serverSigShare} : round = 2 →
      decodeSignRound2 lib serverPayload = .ok (package, serverSigShare) →
      SignStep base (.remove .ed25519 .dsg sessionId)
  | sign {session package nonces} : round = 2 → session.nonces = some nonces →
      SignStep (⟨.remove .ed25519 .dsg sessionId, some session⟩ :: base)
        (.roundSign package nonces session.keyPackage)

inductive SignEnd : Past lib → Except String MpcRoundResult → Prop where
  | failed {past failure} : SignEnd past (.error failure)
  | started {past reads session inner} : round = 1 → (∀ entry ∈ reads, entry.1.Reads) → past = reads ++ base →
      SignEnd (⟨.insert .ed25519 .dsg sessionId session, ()⟩ :: past)
        (.ok (makeInProgress 1 (encodeWirePayloadFromInner lib sessionId .dsg 1 inner)))
  | completed {session package nonces signed completed} : round = 2 →
      SignEnd (⟨.roundSign package nonces session.keyPackage, signed⟩ ::
          ⟨.remove .ed25519 .dsg sessionId, some session⟩ :: base)
        (.ok (makeCompleted lib 2 completed))

variable {lib sessionId serverPayload share messageHex round base}

private theorem sign_reads {action : Action lib} (reads : Past lib) (first : round = 1)
    (before : ∀ entry ∈ reads, entry.1.Reads)
    (reading : (∃ key, action = .exportedContains key) ∨ action = .random ∨ action = .now) :
    SignStep lib sessionId serverPayload round base (reads ++ base) action :=
  .read first before reading

theorem sign_steps :
    (sign lib sessionId round serverPayload share messageHex).Follows
      (SignStep lib sessionId serverPayload round base) (SignEnd lib sessionId round base) base := by
  unfold sign
  split
  · next first =>
    simp only [signRound1, bind_eq, liftM_eq, request_bind, follows_lift_bind, okOr_eq_ok]
    refine ⟨fun env _ => ?_, fun _ _ => .failed⟩
    refine ⟨fun r1 _ => ?_, fun _ _ => .failed⟩
    refine ⟨fun serverCommitments _ => ?_, fun _ _ => .failed⟩
    refine ⟨fun shareStr _ => ?_, fun _ _ => .failed⟩
    refine ⟨fun msgHex _ => ?_, fun _ _ => .failed⟩
    refine ⟨fun message _ => ?_, fun _ _ => .failed⟩
    refine ⟨fun packages _ => ?_, fun _ _ => .failed⟩
    refine ⟨fun vkBytes _ => ?_, fun _ _ => .failed⟩
    refine ⟨sign_reads [] first (by simp) (.inl ⟨_, rfl⟩), fun exported => ?_⟩
    rw [follows_ensure_bind]
    refine ⟨fun _ => ?_, fun _ => .failed⟩
    refine ⟨sign_reads [_] first (by simp [Action.Reads]) (.inr (.inl rfl)), fun draw => ?_⟩
    refine ⟨sign_reads [_, _] first (by simp [Action.Reads]) (.inr (.inr rfl)), fun createdAt => ?_⟩
    have reads : ∀ entry ∈ ([⟨.now, createdAt⟩, ⟨.random, draw⟩,
        ⟨.exportedContains (lib.text.encodeHex vkBytes), exported⟩] : Past lib), entry.1.Reads := by
      simp [Action.Reads]
    refine ⟨.start first reads rfl rfl, fun _ => ?_⟩
    simp only [follows_lift_bind]
    exact ⟨fun commitments _ => .started first reads rfl, fun _ _ => .failed⟩
  split
  · next second =>
    simp only [signRound2, bind_eq, liftM_eq, request_bind, follows_lift_bind]
    refine ⟨fun decoded parsed => ?_, fun _ _ => .failed⟩
    obtain ⟨package, serverSigShare⟩ := decoded
    refine ⟨.take second parsed, fun removed => ?_⟩
    simp only [follows_lift_bind, okOr_eq_ok, follows_ensure_bind]
    refine ⟨?_, fun _ _ => .failed⟩
    rintro session rfl
    refine ⟨fun _ => ⟨fun _ => ?_, fun _ => .failed⟩, fun _ => .failed⟩
    refine ⟨fun nonces stored => ?_, fun _ _ => .failed⟩
    refine ⟨.sign second stored, fun signed => ?_⟩
    simp only [follows_lift_bind, follows_ensure_bind]
    refine ⟨fun own _ => ⟨fun signature _ => ?_, fun _ _ => .failed⟩, fun _ _ => .failed⟩
    refine ⟨fun sigBytes _ => ⟨fun _ => .completed second, fun _ => .failed⟩, fun _ _ => .failed⟩
  · exact .failed

end Signing

end CeresMpc.Api.EngineEd25519
