import CeresMpc.Api.MpcEngine

/-!
# Calls into the engine

Every function the FFI boundary exposes for keys and signatures, as a thread of
one process. Both engines are entry points: the unified one, and the FROST one
it dispatches to.
-/

set_option autoImplicit false

namespace CeresMpc.Api

open Interleaving

inductive EntryPoint where
  | mpcEngine
  | engineEd25519
  deriving DecidableEq

inductive Call where
  | keygen (entry : EntryPoint) (sessionId : String) (round : Int32) (serverPayload : String)
  | recover (entry : EntryPoint) (sessionId : String) (round : Int32) (serverPayload : String)
      (backupShare : Option String) (currentRotationVersion : Option Int32)
  | sign (entry : EntryPoint) (sessionId : String) (round : Int32) (serverPayload : String)
      (share messageHex : Option String)
  | exportPrivateKey (entry : EntryPoint) (localShare serverShare : String)
  deriving DecidableEq

inductive Reply where
  | round (result : MpcRoundResult)
  | exported (result : ExportResult)
  deriving DecidableEq

def Reply.status : Reply → String
  | .round result => result.status
  | .exported _ => ""

variable (lib : Libraries)

def Call.body : Call → EngineM lib Reply
  | .keygen .mpcEngine sessionId round serverPayload =>
      .round <$> MpcEngine.keygen lib sessionId round serverPayload
  | .keygen .engineEd25519 sessionId round serverPayload =>
      .round <$> EngineEd25519.keygen lib sessionId round serverPayload
  | .recover .mpcEngine sessionId round serverPayload backupShare rotationVersion =>
      .round <$> MpcEngine.recover lib sessionId round serverPayload backupShare rotationVersion
  | .recover .engineEd25519 sessionId round serverPayload backupShare rotationVersion =>
      .round <$> EngineEd25519.recover lib sessionId round serverPayload backupShare rotationVersion
  | .sign .mpcEngine sessionId round serverPayload share messageHex =>
      .round <$> MpcEngine.sign lib sessionId round serverPayload share messageHex
  | .sign .engineEd25519 sessionId round serverPayload share messageHex =>
      .round <$> EngineEd25519.sign lib sessionId round serverPayload share messageHex
  | .exportPrivateKey .mpcEngine localShare serverShare =>
      .exported <$> MpcEngine.exportPrivateKey lib localShare serverShare
  | .exportPrivateKey .engineEd25519 localShare serverShare =>
      .exported <$> EngineEd25519.exportPrivateKey lib localShare serverShare

/-- What happens between the operations of calls: time passes, and protocol
tasks run. -/
inductive Drift where
  | tick (elapsed : Nat)
  | poll (protocol : ProtocolType) (task : Nat)

def Engine.drift : Drift → Engine lib → Engine lib
  | .tick elapsed, engine => { engine with clock := engine.clock + elapsed }
  | .poll protocol task, engine => engine.mapTask protocol task (Relay.poll lib.dkls.resume)

abbrev EngineMachine :=
  Machine (Action lib) (Action.Answer lib) String Reply (Engine lib) Call Drift

abbrev EngineWorld :=
  World (Action lib) (Action.Answer lib) String Reply (Engine lib) Call

def machine : EngineMachine lib :=
  { interpret := Engine.interpret, drift := Engine.drift lib, body := Call.body lib }

end CeresMpc.Api
