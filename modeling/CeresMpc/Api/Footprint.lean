import CeresMpc.Api.Calls

/-!
# What a call can touch

Every operation of a keygen, recovery or signing call concerns the tables and
tasks of its own protocol and the session it names. A round other than the first
stays with one engine and opens no DKLs23 session. Only an export touches the
registry of exported keys.
-/

set_option autoImplicit false

namespace CeresMpc

open Interleaving Program Api

variable {lib : Libraries}

/-- Operations of one curve's engine for one protocol and session. Looking an id up
is part of the dispatch. -/
def Action.Within (curve : Curve) (protocol : ProtocolType) (sessionId : String) : Action lib → Prop
  | .now | .random | .exportedContains _ => True
  | .contains .. => False
  | .insert otherCurve other otherId _ | .remove otherCurve other otherId
  | .checkout otherCurve other otherId => otherCurve = curve ∧ other = protocol ∧ otherId = sessionId
  | .acquire other otherId => .secp256k1 = curve ∧ other = protocol ∧ otherId = sessionId
  | .release other | .spawn other _ | .send other .. | .collect other .. | .join other _
  | .abort other _ | .dropSender other _ | .dropReceiver other _ =>
      .secp256k1 = curve ∧ other = protocol
  | .resetConsumed otherId => .secp256k1 = curve ∧ .dsg = protocol ∧ otherId = sessionId
  | .roundSign .. => .ed25519 = curve ∧ .dsg = protocol
  | .exportedInsert _ => False

/-- Operations on one protocol's tasks alone. -/
def Action.OnTask (protocol : ProtocolType) : Action lib → Prop
  | .send other .. | .collect other .. | .join other _ | .abort other _ | .dropSender other _
  | .dropReceiver other _ => other = protocol
  | _ => False

/-- Operations that put nothing into a table, sign nothing and register nothing. -/
def Action.Quiet : Action lib → Prop
  | .insert .. | .roundSign .. | .exportedInsert _ => False
  | _ => True

/-- Operations of a later DKLs23 round. -/
def Action.Continues (protocol : ProtocolType) (sessionId : String) (action : Action lib) : Prop :=
  action.Within .secp256k1 protocol sessionId ∧ action.Quiet

/-- Clock, randomness and the registry of exported keys. -/
def Action.Reads : Action lib → Prop
  | .now | .random | .exportedContains _ => True
  | _ => False

/-- Operations on one engine's tables, tasks and nonces. -/
def Action.OnEngine (curve : Curve) : Action lib → Prop
  | .insert other .. | .remove other .. | .checkout other .. => other = curve
  | .acquire .. | .release _ | .resetConsumed _ | .spawn .. | .send .. | .collect .. | .join .. | .abort ..
  | .dropSender .. | .dropReceiver .. => .secp256k1 = curve
  | .roundSign .. => .ed25519 = curve
  | _ => False

theorem Action.reads_off_engine {curve : Curve} (action : Action lib) (reads : action.Reads) :
    ¬action.OnEngine curve := by
  cases action <;> first | exact reads.elim | exact id

theorem Action.engine_unique {curve other : Curve} (action : Action lib) (first : action.OnEngine curve)
    (second : action.OnEngine other) : curve = other := by
  cases action <;> first | exact first.elim | exact first.symm.trans second

theorem Action.Within.engine {curve other : Curve} {protocol : ProtocolType} {sessionId : String} {action : Action lib}
    (within : action.Within curve protocol sessionId) (engine : action.OnEngine other) : curve = other := by
  cases action <;> first | exact engine.elim | exact within.1.symm.trans engine

/-- Operations that let nothing pass through a task's channels and find no session. -/
def Action.Concludes : Action lib → Prop
  | .now | .remove .. | .release _ | .join .. | .abort .. | .dropSender .. | .dropReceiver .. => True
  | _ => False

/-- Registering an exported key. -/
def Action.Exports : Action lib → Prop
  | .exportedInsert _ => True
  | _ => False

theorem Action.OnTask.continues {protocol : ProtocolType} {action : Action lib}
    (onTask : action.OnTask protocol) (sessionId : String) : action.Continues protocol sessionId := by
  cases action <;> first | exact ⟨⟨rfl, onTask⟩, trivial⟩ | exact onTask.elim

namespace Api

namespace EngineEd25519

theorem keygen_within (sessionId : String) (round : Int32) (serverPayload : String) :
    (keygen lib sessionId round serverPayload).Only (Action.Within .ed25519 .dkg sessionId) := by
  unfold keygen
  split
  · simp [keygenRound1, Action.Within]
  split
  · simp [keygenRound2, Action.Within]
  split
  · simp [keygenFinalize, Action.Within]
  · simp

theorem recover_within (sessionId : String) (round : Int32) (serverPayload : String)
    (backupShare : Option String) (currentRotationVersion : Option Int32) :
    (recover lib sessionId round serverPayload backupShare currentRotationVersion).Only
      (Action.Within .ed25519 .rotation sessionId) := by
  unfold recover
  split
  · simp [recoverRound1, Action.Within]
  split
  · refine ⟨⟨rfl, rfl, rfl⟩, fun found => ?_⟩
    cases found <;> simp [Action.Within]
  split
  · simp [recoverFinalize, Action.Within]
  · simp

theorem sign_within (sessionId : String) (round : Int32) (serverPayload : String)
    (share messageHex : Option String) :
    (sign lib sessionId round serverPayload share messageHex).Only
      (Action.Within .ed25519 .dsg sessionId) := by
  unfold sign
  split
  · simp [signRound1, Action.Within]
  split
  · simp [signRound2, Action.Within]
  · simp

theorem exportPrivateKey_exports (localShare serverShare : String) :
    (exportPrivateKey lib localShare serverShare).Only Action.Exports := by
  simp [exportPrivateKey, Action.Exports]

end EngineEd25519

namespace MpcEngine

variable {protocol : ProtocolType} {sessionId : String}

/-! ## The DKLs23 path -/

theorem injectAll_onTask (task : Nat) (messages : List Encoding.Bytes) :
    (injectAll lib protocol task messages).Only (Action.OnTask protocol) := by
  induction messages with
  | nil => simp [injectAll]
  | cons message rest ih => simp [injectAll, Action.OnTask, ih]

theorem firstBatch_onTask {task : Nat} {serverMsgs : List Encoding.Bytes}
    {closed : Nat → EngineM lib (List Encoding.Bytes)}
    (closing : ∀ task, (closed task).Only (Action.OnTask protocol)) :
    (firstBatch lib protocol task serverMsgs closed).Only (Action.OnTask protocol) := by
  simp only [firstBatch, bind_eq, request_bind]
  refine Only.onFailure (Only.bind ?_ fun _ => ?_) ?_
  · exact Only.onFailure (injectAll_onTask task serverMsgs) (by simp [Action.OnTask])
  · refine ⟨rfl, fun collected => ?_⟩
    cases collected with
    | none => exact closing task
    | some batch => trivial
  · simp [Action.OnTask]

theorem openSession_within {serverEnv : WireEnvelope} {serverMsgs : List Encoding.Bytes}
    {protocolRun : lib.dkls.Protocol protocol} {closed : Nat → EngineM lib (List Encoding.Bytes)}
    {session : Nat → EngineM lib (Session lib .secp256k1 protocol)}
    (closing : ∀ task, (closed task).Only (Action.OnTask protocol))
    (opening : ∀ task, (session task).Only (Action.Within .secp256k1 protocol sessionId)) :
    (openSession lib protocol sessionId serverEnv serverMsgs protocolRun closed session).Only
      (Action.Within .secp256k1 protocol sessionId) := by
  simp only [openSession, bind_eq, request_bind]
  refine ⟨⟨rfl, rfl⟩, fun task => Only.bind ?_ fun _ => (opening task).bind fun opened => ?_⟩
  · exact (firstBatch_onTask closing).mono fun _ onTask => (onTask.continues sessionId).1
  · simp [Action.Within]

theorem collectLocked_continues (signal : Nat) :
    (collectLocked lib protocol sessionId signal).Only (Action.Continues protocol sessionId) := by
  simp only [collectLocked, bind_eq, request_bind]
  refine ⟨⟨⟨rfl, rfl, rfl⟩, trivial⟩, fun found => ?_⟩
  cases found <;> simp [Action.Continues, Action.Within, Action.Quiet]

theorem advance_continues (serverPayload : String)
    (finish : Session lib .secp256k1 protocol → UInt8 → Dkls.Output protocol →
      Except String MpcRoundResult) :
    (advance lib protocol sessionId serverPayload finish).Only
      (Action.Continues protocol sessionId) := by
  simp only [advance, bind_eq, request_bind]
  refine ⟨⟨⟨rfl, rfl, rfl⟩, trivial⟩, fun found => ?_⟩
  cases found with
  | missing => trivial
  | expired => trivial
  | found session =>
      refine Only.bind (only_ensure _ _) fun _ => Only.always ?_ ?_
      · simp only [runRound, bind_eq, liftM_eq]
        refine Only.bind (only_lift _) fun received =>
          ((injectAll_onTask _ _).mono fun _ onTask => onTask.continues sessionId).bind fun _ =>
          (collectLocked_continues _).bind fun collected => ?_
        cases collected with
        | some batch =>
            by_cases signing : protocol = .dsg
            · subst signing
              simp [Action.Continues, Action.Within, Action.Quiet]
            · simp [signing]
        | none => simp [Action.Continues, Action.Within, Action.Quiet, joinTask]
      · simp [Action.Continues, Action.Within, Action.Quiet]

theorem collectKeyshare_continues
    (finish : Session lib .secp256k1 protocol → UInt8 → Dkls.Output protocol →
      Except String MpcRoundResult) :
    (collectKeyshare lib protocol sessionId finish).Only (Action.Continues protocol sessionId) := by
  simp only [collectKeyshare, bind_eq, liftM_eq, request_bind]
  refine ⟨⟨⟨rfl, rfl, rfl⟩, trivial⟩, fun removed => Only.bind (only_lift _) fun session =>
    ⟨⟨⟨rfl, rfl⟩, trivial⟩, fun _ => Only.always ?_ ?_⟩⟩
  · simp [Action.Continues, Action.Within, Action.Quiet, joinTask]
  · simp [Action.Continues, Action.Within, Action.Quiet]

theorem collectKeyshare_concludes
    (finish : Session lib .secp256k1 protocol → UInt8 → Dkls.Output protocol →
      Except String MpcRoundResult) :
    (collectKeyshare lib protocol sessionId finish).Only Action.Concludes := by
  simp only [collectKeyshare, bind_eq, liftM_eq, request_bind]
  refine ⟨trivial, fun removed => Only.bind (only_lift _) fun session => ⟨trivial, fun _ => Only.always ?_ ?_⟩⟩
  · simp [Action.Concludes, joinTask]
  · simp [Action.Concludes]

theorem keygenRound1_within (serverPayload : String) :
    (keygenRound1 lib sessionId serverPayload).Only (Action.Within .secp256k1 .dkg sessionId) := by
  simp only [keygenRound1, bind_eq, liftM_eq, request_bind]
  refine Only.bind (only_lift _) fun received => Only.bind (only_lift _) fun inst =>
    ⟨trivial, fun seed => openSession_within (fun task => ?_) fun task => trivial⟩
  simp [keygenClosed, Action.OnTask]

theorem recoverRound1_within (serverPayload : String) (backupShare : Option String)
    (currentRotationVersion : Option Int32) :
    (recoverRound1 lib sessionId serverPayload backupShare currentRotationVersion).Only
      (Action.Within .secp256k1 .rotation sessionId) := by
  simp only [recoverRound1, bind_eq, liftM_eq, request_bind]
  refine Only.bind (only_lift _) fun received => Only.bind (only_lift _) fun bs =>
    Only.bind (only_lift _) fun rv => Only.bind (only_lift _) fun oldKs =>
      Only.bind (only_lift _) fun inst => ⟨trivial, fun seed => ?_⟩
  exact openSession_within (fun task => trivial) fun task => by simp [Action.Within]

theorem signRound1_within (serverPayload : String) (share messageHashHex : Option String) :
    (signRound1 lib sessionId serverPayload share messageHashHex).Only
      (Action.Within .secp256k1 .dsg sessionId) := by
  simp only [signRound1, bind_eq, liftM_eq, request_bind]
  refine Only.bind (only_lift _) fun received => Only.bind (only_lift _) fun shareB64 =>
    Only.bind (only_lift _) fun hashHex => Only.bind (only_lift _) fun digest =>
      Only.bind (only_lift _) fun keyshare => ⟨trivial, fun exported => ?_⟩
  refine Only.bind (only_ensure _ _) fun _ => Only.bind (only_lift _) fun inst =>
    ⟨trivial, fun seed => ?_⟩
  exact openSession_within (fun task => trivial) fun task => trivial

theorem exportPrivateKey_exports (localShare serverSharePrivate : String) :
    (exportPrivateKey lib localShare serverSharePrivate).Only Action.Exports := by
  unfold exportPrivateKey
  split
  · exact EngineEd25519.exportPrivateKey_exports _ _
  · simp [exportSecp256k1, Action.Exports]

end MpcEngine

/-! ## Calls -/

namespace Call

def entry : Call → EntryPoint
  | .keygen entry .. | .recover entry .. | .sign entry .. | .exportPrivateKey entry .. => entry

/-- An export has no round. -/
def round : Call → Option Int32
  | .keygen _ _ round .. | .recover _ _ round .. | .sign _ _ round .. => some round
  | .exportPrivateKey .. => none

/-- The tables a call works on; an export has none. -/
def scope : Call → Option (ProtocolType × String)
  | .keygen _ sessionId .. => some (.dkg, sessionId)
  | .recover _ sessionId .. => some (.rotation, sessionId)
  | .sign _ sessionId .. => some (.dsg, sessionId)
  | .exportPrivateKey .. => none

/-- The same call, made to the FROST engine. -/
def direct : Call → Call
  | .keygen _ sessionId round serverPayload => .keygen .engineEd25519 sessionId round serverPayload
  | .recover _ sessionId round serverPayload backupShare rotationVersion =>
      .recover .engineEd25519 sessionId round serverPayload backupShare rotationVersion
  | .sign _ sessionId round serverPayload share messageHex =>
      .sign .engineEd25519 sessionId round serverPayload share messageHex
  | .exportPrivateKey _ localShare serverShare => .exportPrivateKey .engineEd25519 localShare serverShare

theorem direct_eq (call : Call) (direct : call.entry = .engineEd25519) : call.direct = call := by
  cases call <;> cases direct <;> rfl

variable {call : Call} {protocol : ProtocolType} {sessionId : String}

theorem direct_within (names : call.scope = some (protocol, sessionId)) :
    (call.direct.body lib).Only (Action.Within .ed25519 protocol sessionId) := by
  cases call with
  | keygen entry sessionId round serverPayload =>
      cases names
      exact (EngineEd25519.keygen_within _ _ _).bind fun _ => trivial
  | recover entry sessionId round serverPayload backupShare rotationVersion =>
      cases names
      exact (EngineEd25519.recover_within _ _ _ _ _).bind fun _ => trivial
  | sign entry sessionId round serverPayload share messageHex =>
      cases names
      exact (EngineEd25519.sign_within _ _ _ _ _).bind fun _ => trivial
  | exportPrivateKey entry localShare serverShare => cases names

/-! ## Dispatch -/

variable (lib) in
/-- What a first round of the unified engine goes by. -/
def detected : Call → Bool
  | .keygen _ _ _ serverPayload => MpcEngine.detectCurveFromEnvelope lib serverPayload = .ed25519
  | .recover _ _ _ _ backupShare _ => MpcEngine.isEd25519Share lib backupShare
  | .sign _ _ _ _ share _ => MpcEngine.isEd25519Share lib share
  | .exportPrivateKey _ localShare _ => MpcEngine.isEd25519Share lib (some localShare)

variable (lib) in
/-- What the unified engine does with a call it does not hand on. -/
def dkls : Call → EngineM lib Reply
  | .keygen _ sessionId round serverPayload =>
      .round <$> (if round = 0 then
          MpcEngine.collectKeyshare lib .dkg sessionId (MpcEngine.keygenCompleted lib sessionId)
        else if round = 1 then MpcEngine.keygenRound1 lib sessionId serverPayload
        else MpcEngine.advance lib .dkg sessionId serverPayload (MpcEngine.keygenCompleted lib sessionId))
  | .recover _ sessionId round serverPayload backupShare rotationVersion =>
      .round <$> (if round = 0 then
          MpcEngine.collectKeyshare lib .rotation sessionId (MpcEngine.recoveryCompleted lib sessionId)
        else if round = 1 then
          MpcEngine.recoverRound1 lib sessionId serverPayload backupShare rotationVersion
        else MpcEngine.advance lib .rotation sessionId serverPayload
          (MpcEngine.recoveryCompleted lib sessionId))
  | .sign _ sessionId round serverPayload share messageHex =>
      .round <$> (if round = 1 then MpcEngine.signRound1 lib sessionId serverPayload share messageHex
        else MpcEngine.advance lib .dsg sessionId serverPayload (MpcEngine.signCompleted lib))
  | .exportPrivateKey _ localShare serverShare =>
      .exported <$> MpcEngine.exportSecp256k1 lib localShare serverShare

theorem unified_first (unified : call.entry = .mpcEngine) (first : call.round = some 1) :
    call.body lib = if call.detected lib = true then call.direct.body lib else call.dkls lib := by
  cases call with
  | keygen entry sessionId round serverPayload =>
      cases unified
      cases first
      cases chosen : (decide (MpcEngine.detectCurveFromEnvelope lib serverPayload = .ed25519)) <;>
        simp [body, direct, dkls, detected, MpcEngine.keygen, MpcEngine.routeToEd25519, chosen]
  | recover entry sessionId round serverPayload backupShare rotationVersion =>
      cases unified
      cases first
      cases chosen : MpcEngine.isEd25519Share lib backupShare <;>
        simp [body, direct, dkls, detected, MpcEngine.recover, MpcEngine.routeToEd25519, chosen]
  | sign entry sessionId round serverPayload share messageHex =>
      cases unified
      cases first
      cases chosen : MpcEngine.isEd25519Share lib share <;>
        simp [body, direct, dkls, detected, MpcEngine.sign, MpcEngine.routeToEd25519, chosen]
  | exportPrivateKey entry localShare serverShare => cases first

theorem unified_later (unified : call.entry = .mpcEngine) (later : call.round ≠ some 1)
    (names : call.scope = some (protocol, sessionId)) :
    call.body lib = .perform (.contains .ed25519 protocol sessionId) fun toEd25519 =>
      if toEd25519 = true then call.direct.body lib else call.dkls lib := by
  cases call with
  | keygen entry sessionId round serverPayload =>
      cases unified
      cases names
      have later : round ≠ 1 := fun first => later (congrArg some first)
      simp only [body, direct, dkls, MpcEngine.keygen, MpcEngine.routeToEd25519, later, if_false, map_eq,
        bind_eq, request_bind, perform_bind]
      congr 1
      funext toEd25519
      split <;> rfl
  | recover entry sessionId round serverPayload backupShare rotationVersion =>
      cases unified
      cases names
      have later : round ≠ 1 := fun first => later (congrArg some first)
      simp only [body, direct, dkls, MpcEngine.recover, MpcEngine.routeToEd25519, later, if_false, map_eq,
        bind_eq, request_bind, perform_bind]
      congr 1
      funext toEd25519
      split <;> rfl
  | sign entry sessionId round serverPayload share messageHex =>
      cases unified
      cases names
      have later : round ≠ 1 := fun first => later (congrArg some first)
      simp only [body, direct, dkls, MpcEngine.sign, MpcEngine.routeToEd25519, later, if_false, map_eq,
        bind_eq, request_bind, perform_bind]
      congr 1
      funext toEd25519
      split <;> rfl
  | exportPrivateKey entry localShare serverShare => cases names

theorem dkls_within (names : call.scope = some (protocol, sessionId)) :
    (call.dkls lib).Only (Action.Within .secp256k1 protocol sessionId) := by
  cases call with
  | keygen entry sessionId round serverPayload =>
      cases names
      refine Only.bind ?_ fun _ => trivial
      split
      · exact (MpcEngine.collectKeyshare_continues _).mono fun _ continued => continued.1
      split
      · exact MpcEngine.keygenRound1_within _
      · exact (MpcEngine.advance_continues _ _).mono fun _ continued => continued.1
  | recover entry sessionId round serverPayload backupShare rotationVersion =>
      cases names
      refine Only.bind ?_ fun _ => trivial
      split
      · exact (MpcEngine.collectKeyshare_continues _).mono fun _ continued => continued.1
      split
      · exact MpcEngine.recoverRound1_within _ _ _
      · exact (MpcEngine.advance_continues _ _).mono fun _ continued => continued.1
  | sign entry sessionId round serverPayload share messageHex =>
      cases names
      refine Only.bind ?_ fun _ => trivial
      split
      · exact MpcEngine.signRound1_within _ _ _
      · exact (MpcEngine.advance_continues _ _).mono fun _ continued => continued.1
  | exportPrivateKey entry localShare serverShare => cases names

theorem dkls_continues (later : call.round ≠ some 1) (names : call.scope = some (protocol, sessionId)) :
    (call.dkls lib).Only (Action.Continues protocol sessionId) := by
  cases call with
  | keygen entry sessionId round serverPayload =>
      cases names
      have later : round ≠ 1 := fun first => later (congrArg some first)
      refine Only.bind ?_ fun _ => trivial
      split
      · exact MpcEngine.collectKeyshare_continues _
      · exact MpcEngine.advance_continues _ _
  | recover entry sessionId round serverPayload backupShare rotationVersion =>
      cases names
      have later : round ≠ 1 := fun first => later (congrArg some first)
      refine Only.bind ?_ fun _ => trivial
      split
      · exact MpcEngine.collectKeyshare_continues _
      · exact MpcEngine.advance_continues _ _
  | sign entry sessionId round serverPayload share messageHex =>
      cases names
      have later : round ≠ 1 := fun first => later (congrArg some first)
      rw [dkls, if_neg later]
      exact (MpcEngine.advance_continues _ _).bind fun _ => trivial
  | exportPrivateKey entry localShare serverShare => cases names

/-- A first round goes to one of the engines. -/
theorem first_body (unified : call.entry = .mpcEngine) (first : call.round = some 1)
    (names : call.scope = some (protocol, sessionId)) :
    call.body lib = call.direct.body lib ∨
      (call.body lib).Only (Action.Within .secp256k1 protocol sessionId) := by
  rw [unified_first unified first]
  split
  · exact .inl rfl
  · exact .inr (dkls_within names)

/-- A later round starts with a lookup that chooses the engine. -/
theorem later_body (unified : call.entry = .mpcEngine) (later : call.round ≠ some 1)
    (names : call.scope = some (protocol, sessionId)) :
    ∃ other : EngineM lib Reply, other.Only (Action.Continues protocol sessionId) ∧
      call.body lib = .perform (.contains .ed25519 protocol sessionId) fun toEd25519 =>
        if toEd25519 = true then call.direct.body lib else other :=
  ⟨call.dkls lib, dkls_continues later names, unified_later unified later names⟩

/-- The operations a call can perform. -/
def Touches (call : Call) (action : Action lib) : Prop :=
  match call.scope with
  | some (protocol, sessionId) =>
      action = .contains .ed25519 protocol sessionId ∨ ∃ curve, action.Within curve protocol sessionId
  | none => action.Exports

theorem body_touches (call : Call) : (call.body lib).Only call.Touches := by
  cases names : call.scope with
  | none =>
      cases call with
      | exportPrivateKey entry localShare serverShare =>
          cases entry with
          | mpcEngine => exact (MpcEngine.exportPrivateKey_exports _ _).bind fun _ => trivial
          | engineEd25519 => exact (EngineEd25519.exportPrivateKey_exports _ _).bind fun _ => trivial
      | _ => cases names
  | some target =>
      obtain ⟨protocol, sessionId⟩ := target
      have touches {curve : Curve} (action : Action lib) (within : action.Within curve protocol sessionId) :
          call.Touches action := by
        rw [Touches, names]
        exact .inr ⟨curve, within⟩
      have direct := (direct_within names).mono fun action => touches action
      cases unified : call.entry with
      | engineEd25519 =>
          rwa [call.direct_eq unified] at direct
      | mpcEngine =>
          by_cases first : call.round = some 1
          · rcases first_body unified first names with same | within
            · rwa [same]
            · exact within.mono fun action => touches action
          · obtain ⟨other, continues, starts⟩ := later_body unified first names
            rw [starts]
            refine ⟨by rw [Touches, names]; exact .inl rfl, fun toEd25519 => ?_⟩
            cases toEd25519 with
            | true => exact direct
            | false => exact continues.mono fun action continued => touches action continued.1

end Call

end Api

end CeresMpc
