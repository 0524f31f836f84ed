import CeresMpc.Libraries

/-!
# Session tables and the engine's shared operations

All state two calls can share: the six session tables, the registry of exported
keys, the protocol tasks, the clock and the randomness drawn so far. An action
is one critical section or one channel operation.
-/

set_option autoImplicit false

namespace CeresMpc

open Encoding Api Interleaving

/-- Nanoseconds; sessions live for five minutes. -/
def sessionTtl : Nat := 300 * 10 ^ 9

variable (lib : Libraries)

/-! ## Sessions -/

/-- `task` names the relay whose `tx_in`, `rx_out` and `round_complete` the
session holds. -/
structure KeygenSession where
  task : Nat
  taskHandle : Option Nat

structure SignSession where
  task : Nat
  taskHandle : Option Nat
  digest : MessageDigest
  /-- SEC-01. -/
  consumed : Bool
  publicKeyHex : String

structure RecoverySession where
  task : Nat
  taskHandle : Option Nat
  createdAt : Nat
  currentRotationVersion : Int32

structure FrostKeygenSession where
  createdAt : Nat
  libState : lib.frost.KeygenSessionState
  /-- The last server payload no library call has consumed yet. -/
  pendingServerInner : String

/-- The nonces of one signing round with the draw they were made from. -/
structure SigningNonces where
  value : lib.frost.SigningNonces
  draw : Nat

structure FrostSignSession where
  createdAt : Nat
  keyPackage : lib.frost.KeyPackage
  publicKeyPackage : lib.frost.PublicKeyPackage
  message : Bytes
  nonces : Option (SigningNonces lib)
  commitments : List (Nat × lib.frost.SigningCommitments)
  /-- SEC-01. -/
  consumed : Bool
  verifyingKeyHex : String

structure FrostRecoverySession where
  createdAt : Nat
  currentRotationVersion : Int32
  libState : lib.frost.RecoverySessionState
  pendingServerInner : String

/-- What each of the six tables holds. Keygen, sign and recovery are named by
their protocol types `dkg`, `dsg` and `rotation`. -/
abbrev Session : Curve → ProtocolType → Type
  | .secp256k1, .dkg => KeygenSession
  | .secp256k1, .dsg => SignSession
  | .secp256k1, .rotation => RecoverySession
  | .ed25519, .dkg => FrostKeygenSession lib
  | .ed25519, .dsg => FrostSignSession lib
  | .ed25519, .rotation => FrostRecoverySession lib

/-- The relay behind a DKLs23 session. -/
def dklsTask : (protocol : ProtocolType) → Session lib .secp256k1 protocol → Nat
  | .dkg, session => session.task
  | .dsg, session => session.task
  | .rotation, session => session.task

def dklsTaskHandle : (protocol : ProtocolType) → Session lib .secp256k1 protocol → Option Nat
  | .dkg, session => session.taskHandle
  | .dsg, session => session.taskHandle
  | .rotation, session => session.taskHandle

/-- Only recovery sessions are checked against the TTL. -/
def expired (now : Nat) : (curve : Curve) → (protocol : ProtocolType) →
    Session lib curve protocol → Bool
  | .secp256k1, .rotation, session => sessionTtl < now - session.createdAt
  | .ed25519, .rotation, session => sessionTtl < now - session.createdAt
  | _, _, _ => false

/-- SEC-01 rejects a round on a consumed DKLs23 sign session. -/
def consumed : (protocol : ProtocolType) → Session lib .secp256k1 protocol → Bool
  | .dsg, session => session.consumed
  | _, _ => false

/-- Set the SEC-01 flag of a DKLs23 sign session; other sessions stay as they are. -/
def markConsumed (value : Bool) : (curve : Curve) → (protocol : ProtocolType) →
    Session lib curve protocol → Session lib curve protocol
  | .secp256k1, .dsg, session => { session with consumed := value }
  | .secp256k1, .dkg, session => session
  | .secp256k1, .rotation, session => session
  | .ed25519, _, session => session

@[simp] theorem markConsumed_ed25519 (value : Bool) (protocol : ProtocolType)
    (session : Session lib .ed25519 protocol) :
    markConsumed lib value .ed25519 protocol session = session := rfl

theorem markConsumed_mark (value first : Bool) (curve : Curve) (protocol : ProtocolType)
    (session : Session lib curve protocol) :
    markConsumed lib value curve protocol (markConsumed lib first curve protocol session) =
      markConsumed lib value curve protocol session := by
  cases curve <;> cases protocol <;> rfl

/-! ## State -/

abbrev EngineRelay (protocol : ProtocolType) :=
  Relay (lib.dkls.Protocol protocol) (Dkls.Output protocol)

structure Engine where
  clock : Nat
  draws : Nat
  sessions : (curve : Curve) → (protocol : ProtocolType) → String → Option (Session lib curve protocol)
  /-- The call that holds a DKLs23 table's lock across several operations. -/
  locks : ProtocolType → Option Nat
  exportedKeys : List String
  tasks : (protocol : ProtocolType) → Nat → Option (EngineRelay lib protocol)
  nextTask : Nat

namespace Engine

variable {lib}

def empty : Engine lib :=
  { clock := 0, draws := 0, sessions := fun _ _ _ => none, locks := fun _ => none
    exportedKeys := [], tasks := fun _ _ => none, nextTask := 0 }

def setSession (curve : Curve) (protocol : ProtocolType) (sessionId : String)
    (session : Option (Session lib curve protocol)) (engine : Engine lib) : Engine lib :=
  { engine with
    sessions := Function.update engine.sessions curve
      (Function.update (engine.sessions curve) protocol
        (Function.update (engine.sessions curve protocol) sessionId session)) }

def setTask (protocol : ProtocolType) (task : Nat) (relay : EngineRelay lib protocol)
    (engine : Engine lib) : Engine lib :=
  { engine with
    tasks := Function.update engine.tasks protocol
      (Function.update (engine.tasks protocol) task (some relay)) }

/-- Change a relay that exists. -/
def mapTask (protocol : ProtocolType) (task : Nat)
    (change : EngineRelay lib protocol → EngineRelay lib protocol) (engine : Engine lib) : Engine lib :=
  match engine.tasks protocol task with
  | some relay => engine.setTask protocol task (change relay)
  | none => engine

/-- Dropping a session closes both of its channel ends. -/
def dropSession (curve : Curve) (protocol : ProtocolType)
    (session : Option (Session lib curve protocol)) (engine : Engine lib) : Engine lib :=
  match curve, session with
  | .secp256k1, some session =>
      engine.mapTask protocol (dklsTask lib protocol session) fun relay =>
        { relay with senders := relay.senders - 1, receiver := false }
  | _, _ => engine

section

variable (engine : Engine lib) (curve : Curve) (protocol : ProtocolType)

@[simp] theorem setTask_sessions (task : Nat) (relay : EngineRelay lib protocol) :
    (engine.setTask protocol task relay).sessions = engine.sessions := rfl

/-- Changing a relay changes the tasks and nothing else. -/
theorem mapTask_frame (task : Nat) (change : EngineRelay lib protocol → EngineRelay lib protocol) :
    engine.mapTask protocol task change =
      { engine with tasks := (engine.mapTask protocol task change).tasks } := by
  unfold mapTask
  split <;> rfl

@[simp] theorem mapTask_sessions (task : Nat)
    (change : EngineRelay lib protocol → EngineRelay lib protocol) :
    (engine.mapTask protocol task change).sessions = engine.sessions := by
  rw [mapTask_frame]

theorem dropSession_frame (session : Option (Session lib curve protocol)) :
    engine.dropSession curve protocol session =
      { engine with tasks := (engine.dropSession curve protocol session).tasks } := by
  unfold dropSession
  split
  · exact mapTask_frame engine protocol _ _
  · rfl

@[simp] theorem dropSession_sessions (session : Option (Session lib curve protocol)) :
    (engine.dropSession curve protocol session).sessions = engine.sessions := by
  rw [dropSession_frame]

variable (sessionId : String) (session : Option (Session lib curve protocol))

@[simp] theorem setSession_sessions_self :
    (engine.setSession curve protocol sessionId session).sessions curve protocol =
      Function.update (engine.sessions curve protocol) sessionId session := by
  simp [setSession]

theorem setSession_sessions_of_ne {otherCurve : Curve} {other : ProtocolType}
    (different : (curve, protocol) ≠ (otherCurve, other)) :
    (engine.setSession curve protocol sessionId session).sessions otherCurve other =
      engine.sessions otherCurve other := by
  by_cases same : otherCurve = curve
  · subst same
    have elsewhere : other ≠ protocol := fun same => different (by rw [same])
    simp [setSession, elsewhere]
  · simp [setSession, same]

theorem setSession_elsewhere {other : Curve × ProtocolType × String}
    (elsewhere : other ≠ (curve, protocol, sessionId)) :
    (engine.setSession curve protocol sessionId session).sessions other.1 other.2.1 other.2.2 =
      engine.sessions other.1 other.2.1 other.2.2 := by
  obtain ⟨otherCurve, other, otherId⟩ := other
  by_cases same : (curve, protocol) = (otherCurve, other)
  · cases same
    have different : otherId ≠ sessionId := fun same => elsewhere (by rw [same])
    simp [different]
  · rw [setSession_sessions_of_ne _ _ _ _ _ same]

end

end Engine

/-! ## Operations -/

/-- Result of looking a session up to run a further round on it. -/
inductive Checkout (Session : Type) where
  | missing
  | expired
  | found (session : Session)

inductive Action where
  /-- `Instant::now()`. -/
  | now
  /-- A draw from `OsRng`. -/
  | random
  | contains (curve : Curve) (protocol : ProtocolType) (sessionId : String)
  | insert (curve : Curve) (protocol : ProtocolType) (sessionId : String)
      (session : Session lib curve protocol)
  | remove (curve : Curve) (protocol : ProtocolType) (sessionId : String)
  /-- Look a session up, evict it when its TTL is over, and clone `tx_in` and
  `round_complete` of a DKLs23 session that may run a round. -/
  | checkout (curve : Curve) (protocol : ProtocolType) (sessionId : String)
  /-- Lock a DKLs23 table and look a session up, keeping the lock. A sign session
  is marked consumed. -/
  | acquire (protocol : ProtocolType) (sessionId : String)
  | release (protocol : ProtocolType)
  /-- Reset the SEC-01 flag after an intermediate round. -/
  | resetConsumed (sessionId : String)
  | exportedContains (key : String)
  | exportedInsert (key : String)
  /-- `round2::sign`, which uses up the nonces. -/
  | roundSign (package : lib.frost.SigningPackage) (nonces : SigningNonces lib)
      (keyPackage : lib.frost.KeyPackage)
  | spawn (protocol : ProtocolType) (run : lib.dkls.Protocol protocol)
  | send (protocol : ProtocolType) (task : Nat) (message : Bytes)
  | collect (protocol : ProtocolType) (receiver signal : Nat)
  | join (protocol : ProtocolType) (task : Nat)
  | abort (protocol : ProtocolType) (task : Nat)
  | dropSender (protocol : ProtocolType) (task : Nat)
  | dropReceiver (protocol : ProtocolType) (task : Nat)

abbrev Action.Answer : Action lib → Type
  | .now => Nat
  | .random => Nat
  | .contains .. => Bool
  | .insert .. => Unit
  | .remove curve protocol _ => Option (Session lib curve protocol)
  | .checkout curve protocol _ => Checkout (Session lib curve protocol)
  | .acquire protocol _ => Option (Session lib .secp256k1 protocol)
  | .release _ => Unit
  | .resetConsumed _ => Unit
  | .exportedContains _ => Bool
  | .exportedInsert _ => Unit
  | .roundSign .. => Except String lib.frost.SignatureShare
  | .spawn .. => Nat
  | .send .. => Bool
  | .collect .. => Option (List Bytes × Bool)
  | .join protocol _ => Except String (Except String (Dkls.Output protocol))
  | .abort .. => Unit
  | .dropSender .. => Unit
  | .dropReceiver .. => Unit

namespace Engine

variable {lib}

/-- A table operation waits for the table's lock; FROST tables are never locked
across operations. -/
def locked (curve : Curve) (protocol : ProtocolType) (engine : Engine lib) : Bool :=
  match curve with
  | .secp256k1 => (engine.locks protocol).isSome
  | .ed25519 => false

/-- `collect_batch` on one relay's output channel and another's notification.
They are different when the session was replaced after `round_complete` was
cloned. -/
def collect (protocol : ProtocolType) (receiver signal : Nat) (engine : Engine lib) :
    Reaction (Engine lib) (Option (List Bytes × Bool)) :=
  match engine.tasks protocol receiver, engine.tasks protocol signal with
  | some relay, some source =>
      match relay.collector with
      | none =>
          let (ready, notify) := source.notify.enable
          .pending ((engine.mapTask protocol signal fun source => { source with notify }).mapTask
            protocol receiver fun relay => { relay with collector := some (.start ready) })
      | some collector =>
          let woken := collector.ready || source.notify.waiter = .notified
          match collector.advance woken relay.closed relay.output with
          | .wait => .blocked
          | .continue collector output =>
              .pending (engine.mapTask protocol receiver fun relay =>
                { relay with collector := some collector, output })
          | .return observed batch =>
              .reply ((engine.mapTask protocol signal fun source =>
                { source with notify := source.notify.release observed }).mapTask
                  protocol receiver fun relay => { relay with collector := none }) batch
  | _, _ => .blocked

/-- Look a session up for a further round. -/
def checkout (curve : Curve) (protocol : ProtocolType) (sessionId : String) (engine : Engine lib) :
    Engine lib × Checkout (Session lib curve protocol) :=
  match engine.sessions curve protocol sessionId with
  | none => (engine, .missing)
  | some session =>
      if expired lib engine.clock curve protocol session then
        -- the handle of an evicted DKLs23 task is aborted before the session is dropped
        let evicted := engine.setSession curve protocol sessionId none
        match curve, session with
        | .secp256k1, session =>
            ((evicted.mapTask protocol (dklsTask lib protocol session) Relay.cancel).dropSession
              .secp256k1 protocol (some session), .expired)
        | .ed25519, _ => (evicted, .expired)
      else match curve, session with
        | .secp256k1, session =>
            if consumed lib protocol session then (engine, .found session)
            else (engine.mapTask protocol (dklsTask lib protocol session) fun relay =>
              { relay with senders := relay.senders + 1 }, .found session)
        | .ed25519, session => (engine, .found session)

def interpret (thread : Nat) :
    (action : Action lib) → Engine lib → Reaction (Engine lib) (Action.Answer lib action)
  | .now, engine => .reply engine engine.clock
  | .random, engine => .reply { engine with draws := engine.draws + 1 } engine.draws
  | .contains curve protocol sessionId, engine =>
      if engine.locked curve protocol then .blocked
      else .reply engine (engine.sessions curve protocol sessionId).isSome
  | .insert curve protocol sessionId session, engine =>
      if engine.locked curve protocol then .blocked
      else .reply
        ((engine.dropSession curve protocol (engine.sessions curve protocol sessionId)).setSession
          curve protocol sessionId (some session)) ()
  | .remove curve protocol sessionId, engine =>
      if engine.locked curve protocol then .blocked
      else .reply (engine.setSession curve protocol sessionId none)
        (engine.sessions curve protocol sessionId)
  | .checkout curve protocol sessionId, engine =>
      if engine.locked curve protocol then .blocked
      else
        let (after, found) := engine.checkout curve protocol sessionId
        .reply after found
  | .acquire protocol sessionId, engine =>
      if engine.locked .secp256k1 protocol then .blocked
      else
        let held := { engine with locks := Function.update engine.locks protocol (some thread) }
        match engine.sessions .secp256k1 protocol sessionId with
        | some session =>
            .reply (held.setSession .secp256k1 protocol sessionId
              (some (markConsumed lib true .secp256k1 protocol session))) (some session)
        | none => .reply held none
  | .release protocol, engine =>
      .reply { engine with locks := Function.update engine.locks protocol none } ()
  | .resetConsumed sessionId, engine =>
      if engine.locked .secp256k1 .dsg then .blocked
      else match engine.sessions .secp256k1 .dsg sessionId with
        | some session =>
            .reply (engine.setSession .secp256k1 .dsg sessionId
              (some (markConsumed lib false .secp256k1 .dsg session))) ()
        | none => .reply engine ()
  | .exportedContains key, engine => .reply engine (key ∈ engine.exportedKeys)
  | .exportedInsert key, engine =>
      .reply { engine with exportedKeys := key :: engine.exportedKeys } ()
  | .roundSign package nonces keyPackage, engine =>
      .reply engine (lib.frost.sign package nonces.value keyPackage)
  | .spawn protocol run, engine =>
      .reply ({ engine with nextTask := engine.nextTask + 1 }.setTask protocol engine.nextTask
        (.spawn run)) engine.nextTask
  | .send protocol task message, engine =>
      match engine.tasks protocol task with
      | none => .blocked
      | some relay =>
          match relay.send message with
          | .blocked => .blocked
          | .pending relay => .pending (engine.setTask protocol task relay)
          | .reply relay sent => .reply (engine.setTask protocol task relay) sent
  | .collect protocol receiver signal, engine => engine.collect protocol receiver signal
  | .join protocol task, engine =>
      match engine.tasks protocol task with
      | some relay =>
          match relay.task with
          | .ended result => .reply engine result
          | .running _ => .blocked
      | none => .blocked
  | .abort protocol task, engine =>
      .reply (engine.mapTask protocol task Relay.cancel) ()
  | .dropSender protocol task, engine =>
      .reply (engine.mapTask protocol task fun relay =>
        { relay with senders := relay.senders - 1 }) ()
  | .dropReceiver protocol task, engine =>
      .reply (engine.mapTask protocol task fun relay => { relay with receiver := false }) ()

end Engine

/-! ## Programs -/

abbrev EngineM : Type → Type := Program (Action lib) (Action.Answer lib) String

/-- What a call has done so far, newest first. -/
abbrev Past := List (Entry (Action lib) (Action.Answer lib))

namespace EngineM

variable {lib}

abbrev now : EngineM lib Nat := .request Action.now

abbrev random : EngineM lib Nat := .request Action.random

abbrev contains (curve : Curve) (protocol : ProtocolType) (sessionId : String) : EngineM lib Bool :=
  .request (Action.contains curve protocol sessionId)

abbrev insert (curve : Curve) (protocol : ProtocolType) (sessionId : String)
    (session : Session lib curve protocol) : EngineM lib Unit :=
  .request (Action.insert curve protocol sessionId session)

abbrev remove (curve : Curve) (protocol : ProtocolType) (sessionId : String) :
    EngineM lib (Option (Session lib curve protocol)) :=
  .request (Action.remove curve protocol sessionId)

abbrev checkout (curve : Curve) (protocol : ProtocolType) (sessionId : String) :
    EngineM lib (Checkout (Session lib curve protocol)) :=
  .request (Action.checkout curve protocol sessionId)

abbrev acquire (protocol : ProtocolType) (sessionId : String) :
    EngineM lib (Option (Session lib .secp256k1 protocol)) :=
  .request (Action.acquire protocol sessionId)

abbrev release (protocol : ProtocolType) : EngineM lib Unit :=
  .request (Action.release protocol)

abbrev resetConsumed (sessionId : String) : EngineM lib Unit :=
  .request (Action.resetConsumed sessionId)

abbrev exportedContains (key : String) : EngineM lib Bool :=
  .request (Action.exportedContains key)

abbrev exportedInsert (key : String) : EngineM lib Unit :=
  .request (Action.exportedInsert key)

abbrev roundSign (package : lib.frost.SigningPackage) (nonces : SigningNonces lib)
    (keyPackage : lib.frost.KeyPackage) : EngineM lib (Except String lib.frost.SignatureShare) :=
  .request (Action.roundSign package nonces keyPackage)

abbrev spawn (protocol : ProtocolType) (run : lib.dkls.Protocol protocol) : EngineM lib Nat :=
  .request (Action.spawn protocol run)

abbrev send (protocol : ProtocolType) (task : Nat) (message : Bytes) : EngineM lib Bool :=
  .request (Action.send protocol task message)

abbrev collect (protocol : ProtocolType) (receiver signal : Nat) :
    EngineM lib (Option (List Bytes × Bool)) :=
  .request (Action.collect protocol receiver signal)

abbrev join (protocol : ProtocolType) (task : Nat) :
    EngineM lib (Except String (Except String (Dkls.Output protocol))) :=
  .request (Action.join protocol task)

abbrev abort (protocol : ProtocolType) (task : Nat) : EngineM lib Unit :=
  .request (Action.abort protocol task)

abbrev dropSender (protocol : ProtocolType) (task : Nat) : EngineM lib Unit :=
  .request (Action.dropSender protocol task)

abbrev dropReceiver (protocol : ProtocolType) (task : Nat) : EngineM lib Unit :=
  .request (Action.dropReceiver protocol task)

end EngineM

end CeresMpc
