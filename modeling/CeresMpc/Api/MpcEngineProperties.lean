import CeresMpc.Api.Footprint

/-!
# Rounds of a DKLs23 session

One rule for each shape of round. A specification that leaves quiet operations
and errors free only has to look at the session a first round inserts, and at the
output a last round joins.
-/

set_option autoImplicit false

namespace CeresMpc.Api.MpcEngine

open Encoding Interleaving Program

variable {lib : Libraries}

/-- How a call came to the output it returns: it removed the session `last` and
joined its task. `session` is the one the call had looked up. -/
structure Joined (protocol : ProtocolType) (sessionId : String)
    (past : List (Entry (Action lib) (Action.Answer lib)))
    (session last : Session lib .secp256k1 protocol) (output : Dkls.Output protocol) : Prop where
  found : session = last ∨ ⟨.checkout .secp256k1 protocol sessionId, .found session⟩ ∈ past
  removed : ⟨.remove .secp256k1 protocol sessionId, some last⟩ ∈ past
  joined : ∃ handle, dklsTaskHandle lib protocol last = some handle ∧
    ⟨.join protocol handle, .ok (.ok output)⟩ ∈ past

variable {protocol : ProtocolType} {sessionId : String}
  {permitted : List (Entry (Action lib) (Action.Answer lib)) → Action lib → Prop}
  {finished : List (Entry (Action lib) (Action.Answer lib)) → Except String MpcRoundResult → Prop}
  {past : List (Entry (Action lib) (Action.Answer lib))}

theorem openSession_follows {serverEnv : WireEnvelope} {serverMsgs : List Bytes}
    {protocolRun : lib.dkls.Protocol protocol} {closed : Nat → EngineM lib (List Bytes)}
    {session : Nat → EngineM lib (Session lib .secp256k1 protocol)}
    (quiet : ∀ past action, action.Quiet → permitted past action)
    (fails : ∀ past failure, finished past (.error failure))
    (closing : ∀ task, (closed task).Only (Action.OnTask protocol))
    (opens : ∀ extra (task : Nat) clientMsgs,
      Follows permitted finished (extra ++ ⟨.spawn protocol protocolRun, task⟩ :: past)
        ((session task).bind fun opened =>
          .perform (.insert .secp256k1 protocol sessionId opened) fun _ =>
            .done (.ok (makeInProgressBatch lib sessionId protocol serverEnv.round clientMsgs)))) :
    Follows permitted finished past
      (openSession lib protocol sessionId serverEnv serverMsgs protocolRun closed session) := by
  simp only [openSession, bind_eq, request_bind]
  refine ⟨quiet _ _ trivial, fun task => ?_⟩
  refine (firstBatch_onTask closing).follows_bind (fun past action onTask => quiet _ _ (onTask.continues sessionId).2)
    fails fun extra clientMsgs _ => opens extra task clientMsgs

private theorem joinTask_follows {task : Nat} {continuation : Dkls.Output protocol → EngineM lib MpcRoundResult}
    (quiet : ∀ past action, action.Quiet → permitted past action)
    (fails : ∀ past failure, finished past (.error failure))
    (continues : ∀ output, Follows permitted finished
      (⟨.join protocol task, .ok (.ok output)⟩ :: past) (continuation output)) :
    Follows permitted finished past ((joinTask lib protocol task).bind continuation) := by
  simp only [joinTask, bind_eq, liftM_eq, request_bind, perform_bind]
  refine ⟨quiet _ _ trivial, fun joined => ?_⟩
  simp only [bind_assoc, follows_lift_bind, mapErr_eq_ok]
  refine ⟨?_, fun _ _ => fails _ _⟩
  rintro outcome rfl
  refine ⟨?_, fun _ _ => fails _ _⟩
  rintro output rfl
  exact continues output

private theorem runRound_follows {serverPayload : String} {session : Session lib .secp256k1 protocol}
    {finish : Session lib .secp256k1 protocol → UInt8 → Dkls.Output protocol →
      Except String MpcRoundResult}
    (quiet : ∀ past action, action.Quiet → permitted past action)
    (fails : ∀ past failure, finished past (.error failure))
    (found : ⟨.checkout .secp256k1 protocol sessionId, .found session⟩ ∈ past)
    (continues : ∀ past round clientMsgs,
      finished past (.ok (makeInProgressBatch lib sessionId protocol round clientMsgs)))
    (completes : ∀ extra session last output round result,
      Joined protocol sessionId (extra ++ past) session last output →
      finish session round output = .ok result → finished (extra ++ past) (.ok result)) :
    Follows permitted finished past
      (runRound lib protocol sessionId serverPayload session finish) := by
  have relays : ∀ past (action : Action lib), action.OnTask protocol → permitted past action :=
    fun past action onTask => quiet _ _ (onTask.continues sessionId).2
  simp only [runRound, bind_eq, liftM_eq, request_bind, follows_lift_bind]
  refine ⟨fun received _ => ?_, fun _ _ => fails _ _⟩
  refine (injectAll_onTask _ _).follows_bind relays fails fun injected _ _ => ?_
  refine (collectLocked_continues _).follows_bind (fun past action continues => quiet _ _ continues.2)
    fails fun collected next _ => ?_
  rw [← List.append_assoc]
  generalize collected ++ injected = extra
  have looked : ⟨.checkout .secp256k1 protocol sessionId, .found session⟩ ∈ extra ++ past := by
    simp [found]
  cases next with
  | some batch =>
      by_cases signing : protocol = .dsg
      · subst signing
        exact ⟨quiet _ _ trivial, fun _ => continues _ _ _⟩
      · simp only [signing, if_false]
        exact continues _ _ _
  | none =>
      refine ⟨quiet _ _ trivial, fun removed => ?_⟩
      simp only [follows_lift_bind, okOr_eq_ok]
      refine ⟨?_, fun _ _ => fails _ _⟩
      rintro last rfl
      refine ⟨quiet _ _ trivial, fun _ => ⟨quiet _ _ trivial, fun _ => ?_⟩⟩
      simp only [follows_lift_bind, okOr_eq_ok]
      refine ⟨fun handle held => ?_, fun _ _ => fails _ _⟩
      refine joinTask_follows quiet fails fun output => ?_
      cases finished : finish session received.1.round output with
      | error failure => exact fails _ _
      | ok result =>
          refine completes (_ :: _ :: _ :: _ :: extra) session last output _ result
            ⟨.inr ?_, ?_, handle, held, ?_⟩ finished
          · simp [found]
          · simp
          · simp

theorem advance_follows {serverPayload : String}
    {finish : Session lib .secp256k1 protocol → UInt8 → Dkls.Output protocol →
      Except String MpcRoundResult}
    (quiet : ∀ past action, action.Quiet → permitted past action)
    (fails : ∀ past failure, finished past (.error failure))
    (continues : ∀ past round clientMsgs,
      finished past (.ok (makeInProgressBatch lib sessionId protocol round clientMsgs)))
    (completes : ∀ extra session last output round result,
      Joined protocol sessionId (extra ++ past) session last output →
      finish session round output = .ok result → finished (extra ++ past) (.ok result)) :
    Follows permitted finished past
      (advance lib protocol sessionId serverPayload finish) := by
  simp only [advance, bind_eq, request_bind]
  refine ⟨quiet _ _ trivial, fun found => ?_⟩
  cases found with
  | missing => exact fails _ _
  | expired => exact fails _ _
  | found cloned =>
      simp only [follows_ensure_bind]
      refine ⟨fun _ => ?_, fun _ => fails _ _⟩
      rw [follows_always]
      refine runRound_follows quiet (fun past failure => ?_) (by simp) (fun past round clientMsgs => ?_)
        fun extra session last output round result joined made => ?_
      · exact ⟨quiet _ _ trivial, fun _ => fails _ _⟩
      · exact ⟨quiet _ _ trivial, fun _ => continues _ _ _⟩
      · refine ⟨quiet _ _ trivial, fun dropped => ?_⟩
        have whole := completes (⟨_, dropped⟩ :: extra ++
          [⟨.checkout .secp256k1 protocol sessionId, .found cloned⟩]) session last output round result
        simp only [List.append_assoc, List.cons_append, List.nil_append] at whole
        refine whole ?_ made
        obtain ⟨handle, held, inPast⟩ := joined.joined
        exact ⟨joined.found.imp_right (List.mem_cons_of_mem _), List.mem_cons_of_mem _ joined.removed,
          handle, held, List.mem_cons_of_mem _ inPast⟩

end CeresMpc.Api.MpcEngine
