import CeresMpc.Dispatch.Specification
import CeresMpc.Toy

/-!
# The sender of an envelope

An envelope that does not come from the server is turned away by the DKLs23 path
before anything is done with it. The FROST engine does not look at the sender.
-/

set_option autoImplicit false

namespace CeresMpc.Dispatch

open Encoding Interleaving Program Api

variable {lib : Libraries}

/-- The envelope text of a call in a round that takes one. -/
def envelopeText : Call → Option String
  | .keygen _ _ round serverPayload | .recover _ _ round serverPayload _ _ =>
      if round = 0 then none else some serverPayload
  | .sign _ _ _ serverPayload _ _ => some serverPayload
  | .exportPrivateKey .. => none

/-- The call carries an envelope of somebody other than the server. -/
def Foreign (lib : Libraries) (call : Call) : Prop :=
  ∃ serverPayload env, envelopeText call = some serverPayload ∧
    lib.text.fromStr WireEnvelope.fromJson serverPayload = .ok env ∧ env.fromId ≠ 1

/-- Every table and the input of every protocol task are as they were. -/
structure Undisturbed (before after : Engine lib) : Prop where
  sessions : after.sessions = before.sessions
  inputs : ∀ protocol task, (after.tasks protocol task).map Relay.input =
    (before.tasks protocol task).map Relay.input

/-- A second round that the FROST engine starts with the envelope; a recovery starts it
with its session. -/
def secondByEnvelope : Call → Prop
  | .keygen _ _ round _ | .sign _ _ round .. => round = 2
  | .recover .. | .exportPrivateKey .. => False

/-- The FROST engine was called itself, or is chosen by what the call brings along, in a
round that it starts with the envelope. -/
def opensFrost (lib : Libraries) (call : Call) : Prop :=
  call.entry = .engineEd25519 ∧ (call.round = some 1 ∨ secondByEnvelope call) ∨
    call.round = some 1 ∧ call.detected lib = true

/-- No such envelope gets to the FROST engine's parser, and no session that is looked up
for one is past its lifetime. -/
def UnreadByFrost (world : EngineWorld lib) : Move Call Drift → Prop
  | .start call => Foreign lib call → ¬opensFrost lib call
  | .run thread =>
      match world.threads[thread]? with
      | some (call, .perform (.contains _ protocol sessionId) _) =>
          Foreign lib call → secondByEnvelope call → world.shared.sessions .ed25519 protocol sessionId = none
      | some (call, .perform (.checkout curve protocol sessionId) _) =>
          Foreign lib call → ∀ session, world.shared.sessions curve protocol sessionId = some session →
            curve = .secp256k1 ∧ expired lib world.shared.clock curve protocol session = false
      | _ => True
  | .drift _ => True

/-- A call with an envelope of somebody else fails, and none of its steps leaves a
mark. -/
def ForeignRejected (lib : Libraries) (Allowed : EngineWorld lib → Move Call Drift → Prop) : Prop :=
  ∀ world : EngineWorld lib, (machine lib).Reaches Allowed (.initial .empty) world →
    ∀ thread call program, world.threads[thread]? = some (call, program) → Foreign lib call →
      (∀ outcome, program = .done outcome → ∃ failure, outcome = .error failure) ∧
      (Allowed world (.run thread) → Undisturbed world.shared ((machine lib).step world (.run thread)).shared)

/-! ## What such a call does -/

private theorem parse_rejects {serverPayload : String} {env : WireEnvelope}
    (parsed : lib.text.fromStr WireEnvelope.fromJson serverPayload = .ok env) (foreign : env.fromId ≠ 1) :
    ∃ failure, MpcEngine.parseServerEnvelopeBatch lib serverPayload = .error failure := by
  cases read : MpcEngine.parseServerEnvelopeBatch lib serverPayload with
  | error failure => exact ⟨failure, rfl⟩
  | ok received =>
      simp only [MpcEngine.parseServerEnvelopeBatch, bind_eq_ok, mapErr_eq_ok] at read
      obtain ⟨found, again, checked⟩ := read
      rw [parsed] at again
      cases again
      split at checked
      · cases checked
      · next server => exact absurd foreign server

/-- A lookup, or closing the input the call has just opened. -/
def Looks : Action lib → Prop
  | .contains curve .. => curve = .ed25519
  | .checkout .. | .dropSender .. => True
  | _ => False

/-- The lookup has chosen the FROST engine for a round that starts with the envelope, or a
recovery has found its session there. -/
private inductive Chosen (call : Call) (past : Past lib) : Prop where
  | second {protocol sessionId} : secondByEnvelope call → ⟨.contains .ed25519 protocol sessionId, true⟩ ∈ past →
      Chosen call past
  | recovery {protocol sessionId session} : ⟨.checkout .ed25519 protocol sessionId, .found session⟩ ∈ past →
      Chosen call past

private theorem Chosen.later {call : Call} {past : Past lib} (chosen : Chosen call past)
    (entry : Entry (Action lib) (Action.Answer lib)) : Chosen call (entry :: past) := by
  cases chosen with
  | second second member => exact .second second (List.mem_cons_of_mem _ member)
  | recovery member => exact .recovery (List.mem_cons_of_mem _ member)

private abbrev Fails (call : Call) (Result : Type) (past : Past lib) (outcome : Except String Result) : Prop :=
  (∃ failure, outcome = .error failure) ∨ Chosen call past

/-- The program only looks and fails, unless the FROST engine gets to the envelope. -/
private abbrev Rejects {Result : Type} (call : Call) (past : Past lib) (program : EngineM lib Result) : Prop :=
  program.Follows (fun past action => Looks action ∨ Chosen call past) (Fails call Result) past

section Rejects

variable {call : Call}

private theorem chosen_follows {Result : Type} {program : EngineM lib Result} {past : Past lib}
    (chosen : Chosen call past) : Rejects call past program := by
  induction program generalizing past with
  | done outcome => exact .inr chosen
  | perform action next ih => exact ⟨.inr chosen, fun answer => ih answer (chosen.later _)⟩

private theorem replies {program : EngineM lib MpcRoundResult} {past : Past lib} (rejects : Rejects call past program) :
    Rejects call past (Reply.round <$> program) := by
  refine (follows_map _ _).mpr (rejects.mono (fun _ _ permitted => permitted) ?_)
  intro past outcome fails
  rcases fails with ⟨failure, rfl⟩ | chosen
  · exact .inl ⟨failure, rfl⟩
  · exact .inr chosen

private theorem advance_rejects {protocol : ProtocolType} {sessionId serverPayload failure : String}
    {finish : Session lib .secp256k1 protocol → UInt8 → Dkls.Output protocol → Except String MpcRoundResult}
    (rejected : MpcEngine.parseServerEnvelopeBatch lib serverPayload = .error failure) (past : Past lib) :
    Rejects call past (MpcEngine.advance lib protocol sessionId serverPayload finish) := by
  simp only [MpcEngine.advance, bind_eq, request_bind]
  refine ⟨.inl trivial, fun found => ?_⟩
  cases found with
  | missing => exact .inl ⟨_, rfl⟩
  | expired => exact .inl ⟨_, rfl⟩
  | found session =>
      simp only [follows_ensure_bind]
      refine ⟨fun _ => ?_, fun _ => .inl ⟨_, rfl⟩⟩
      have stops : MpcEngine.runRound lib protocol sessionId serverPayload session finish =
          .done (.error failure) := by
        rw [MpcEngine.runRound, rejected]
        rfl
      rw [stops]
      exact ⟨.inl trivial, fun _ => .inl ⟨failure, rfl⟩⟩

/-- The FROST engine has no such round, or the recovery has no session. -/
private theorem direct_rejects (foreign : Foreign lib call) (first : call.round ≠ some 1) (second : ¬secondByEnvelope call)
    (past : Past lib) : Rejects call past (call.direct.body lib) := by
  obtain ⟨serverPayload, env, carried, _⟩ := foreign
  cases call with
  | keygen entry sessionId round text =>
      apply replies
      have notFirst : round ≠ 1 := fun same => first (congrArg some same)
      have notSecond : round ≠ 2 := second
      have notLast : round ≠ 0 := by
        intro last
        subst last
        cases carried
      rw [EngineEd25519.keygen, if_neg notFirst, if_neg notSecond, if_neg notLast]
      exact .inl ⟨_, rfl⟩
  | recover entry sessionId round text backupShare rotationVersion =>
      apply replies
      have notFirst : round ≠ 1 := fun same => first (congrArg some same)
      have notLast : round ≠ 0 := by
        intro last
        subst last
        cases carried
      rw [EngineEd25519.recover, if_neg notFirst, if_neg notLast]
      split
      · simp only [EngineEd25519.recoverRound2, bind_eq, request_bind]
        refine ⟨.inl trivial, fun found => ?_⟩
        cases found with
        | missing => exact .inl ⟨_, rfl⟩
        | expired => exact .inl ⟨_, rfl⟩
        | found session => exact chosen_follows (.recovery List.mem_cons_self)
      · exact .inl ⟨_, rfl⟩
  | sign entry sessionId round text share messageHex =>
      apply replies
      have notFirst : round ≠ 1 := fun same => first (congrArg some same)
      have notSecond : round ≠ 2 := second
      rw [EngineEd25519.sign, if_neg notFirst, if_neg notSecond]
      exact .inl ⟨_, rfl⟩
  | exportPrivateKey entry localShare serverShare => cases carried

private theorem dkls_rejects (foreign : Foreign lib call) (past : Past lib) : Rejects call past (call.dkls lib) := by
  obtain ⟨serverPayload, env, carried, parsed, sender⟩ := foreign
  obtain ⟨failure, rejected⟩ := parse_rejects parsed sender
  have stops {call : Call} {program : EngineM lib MpcRoundResult} (same : program = .done (.error failure)) :
      Rejects call past program := by
    rw [same]
    exact .inl ⟨failure, rfl⟩
  cases call with
  | keygen entry sessionId round text =>
      apply replies
      split
      · next last => simp [envelopeText, last] at carried
      · next notLast =>
        have same : text = serverPayload := by simpa [envelopeText, notLast] using carried
        subst same
        split
        · exact stops (by rw [MpcEngine.keygenRound1, rejected]; rfl)
        · exact advance_rejects rejected past
  | recover entry sessionId round text backupShare rotationVersion =>
      apply replies
      split
      · next last => simp [envelopeText, last] at carried
      · next notLast =>
        have same : text = serverPayload := by simpa [envelopeText, notLast] using carried
        subst same
        split
        · exact stops (by rw [MpcEngine.recoverRound1, rejected]; rfl)
        · exact advance_rejects rejected past
  | sign entry sessionId round text share messageHex =>
      have same : text = serverPayload := by simpa [envelopeText] using carried
      subst same
      apply replies
      split
      · exact stops (by rw [MpcEngine.signRound1, rejected]; rfl)
      · exact advance_rejects rejected past
  | exportPrivateKey entry localShare serverShare => cases carried

private theorem body_rejects (foreign : Foreign lib call) (other : ¬opensFrost lib call) :
    Rejects call [] (call.body lib) := by
  by_cases direct : call.entry = .engineEd25519
  · have rejects : Rejects call [] (call.direct.body lib) :=
      direct_rejects foreign (fun first => other (.inl ⟨direct, .inl first⟩)) (fun second => other (.inl ⟨direct, .inr second⟩)) []
    rwa [call.direct_eq direct] at rejects
  have unified : call.entry = .mpcEngine := by
    cases entry : call.entry with
    | mpcEngine => rfl
    | engineEd25519 => exact absurd entry direct
  by_cases first : call.round = some 1
  · have undetected : ¬call.detected lib = true := fun detected => other (.inr ⟨first, detected⟩)
    rw [Call.unified_first unified first, if_neg undetected]
    exact dkls_rejects foreign []
  cases names : call.scope with
  | none =>
      obtain ⟨serverPayload, env, carried, _⟩ := foreign
      cases call with
      | exportPrivateKey entry localShare serverShare => cases carried
      | _ => cases names
  | some target =>
      obtain ⟨protocol, sessionId⟩ := target
      rw [Call.unified_later unified first names]
      refine ⟨.inl rfl, fun toEd25519 => ?_⟩
      cases toEd25519 with
      | false => exact dkls_rejects foreign _
      | true =>
          by_cases second : secondByEnvelope call
          · exact chosen_follows (.second second List.mem_cons_self)
          · exact direct_rejects foreign first second _

end Rejects

/-! ## Runs -/

private def Restricted (lib : Libraries) (call : Call) : Prop :=
  Foreign lib call ∧ ¬opensFrost lib call

private theorem body_restricted (call : Call) :
    (call.body lib).Follows (fun past action => Restricted lib call → Looks action ∨ Chosen call past)
      (fun past outcome => Restricted lib call → Fails call Reply past outcome) [] := by
  by_cases restricted : Restricted lib call
  · refine (body_rejects restricted.1 restricted.2).mono ?_ ?_
    · intro past action permitted _
      exact permitted
    · intro past outcome fails _
      exact fails
  · refine (Call.body_touches call).follows ?_ ?_
    · intro extra action _ holds
      exact absurd holds restricted
    · intro extra outcome holds
      exact absurd holds restricted

variable {world : EngineWorld lib}

private theorem not_chosen (reached : (machine lib).Reaches UnreadByFrost (.initial .empty) world)
    {thread : Nat} {call : Call} {program : EngineM lib Reply}
    (found : world.threads[thread]? = some (call, program)) (foreign : Foreign lib call) :
    ¬Chosen call (past thread world.trace) := by
  -- the step that chose was made by this call, and the condition held of it
  have moment {action : Action lib} {answer : Action.Answer lib action} (member : ⟨action, answer⟩ ∈ past thread world.trace) :
      ∃ (before : EngineWorld lib) (next : Action.Answer lib action → EngineM lib Reply) (after : Engine lib),
        UnreadByFrost before (.run thread) ∧ before.threads[thread]? = some (call, .perform action next) ∧
          before.shared.interpret thread action = .reply after answer := by
    obtain ⟨later, earlier, split⟩ := List.append_of_mem (mem_past.mp member)
    obtain ⟨before, owner, next, after, _, allowed, _, active, moved, first⟩ := reached.event_moved split
    obtain ⟨last, here⟩ := first.call_stable active
    rw [found] at here
    cases here
    exact ⟨before, next, after, allowed, active, moved⟩
  intro chosen
  cases chosen with
  | second second member =>
      obtain ⟨before, next, after, allowed, active, moved⟩ := moment member
      simp only [UnreadByFrost, active] at allowed
      have answered := Engine.contains_answer moved
      rw [allowed foreign second] at answered
      cases answered
  | recovery member =>
      obtain ⟨before, next, after, allowed, active, moved⟩ := moment member
      simp only [UnreadByFrost, active] at allowed
      have live := Engine.checkout_answer moved
      obtain ⟨impossible, _⟩ := allowed foreign _ live
      cases impossible

private theorem mapTask_inputs (engine : Engine lib) (protocol : ProtocolType) (task : Nat)
    {change : EngineRelay lib protocol → EngineRelay lib protocol}
    (keeps : ∀ relay, (change relay).input = relay.input) :
    Undisturbed engine (engine.mapTask protocol task change) := by
  refine ⟨Engine.mapTask_sessions _ _ _ _, fun other otherTask => ?_⟩
  unfold Engine.mapTask
  split
  · next relay live =>
    by_cases same : other = protocol
    · subst same
      by_cases sameTask : otherTask = task
      · subst sameTask
        simp [Engine.setTask, live, keeps]
      · simp [Engine.setTask, sameTask]
    · simp [Engine.setTask, same]
  · rfl

private theorem Undisturbed.refl (engine : Engine lib) : Undisturbed engine engine :=
  ⟨rfl, fun _ _ => rfl⟩

private theorem looks_answered {thread : Nat} {action : Action lib} {engine after : Engine lib}
    (looks : Looks action) : engine.interpret thread action ≠ .pending after := by
  intro moved
  rcases Engine.pending_channel moved with ⟨protocol, task, message, rfl⟩ | ⟨protocol, receiver, signal, rfl⟩
  · exact looks
  · exact looks

private theorem looks_undisturbed {thread : Nat} {action : Action lib} {answer : Action.Answer lib action}
    {engine after : Engine lib} (looks : Looks action)
    (moved : engine.interpret thread action = .reply after answer)
    (lives : ∀ curve protocol sessionId session, action = .checkout curve protocol sessionId →
      engine.sessions curve protocol sessionId = some session →
        expired lib engine.clock curve protocol session = false) :
    Undisturbed engine after := by
  cases action with
  | contains curve protocol sessionId =>
      simp only [Engine.interpret] at moved
      split at moved <;> cases moved
      exact .refl engine
  | checkout curve protocol sessionId =>
      simp only [Engine.interpret] at moved
      split at moved <;> cases moved
      unfold Engine.checkout
      split
      · exact .refl engine
      · next session live =>
        rw [if_neg (by simp [lives curve protocol sessionId session rfl live])]
        cases curve with
        | ed25519 => exact .refl engine
        | secp256k1 =>
            dsimp only
            split
            · exact .refl engine
            · exact mapTask_inputs engine protocol _ fun _ => rfl
  | dropSender protocol task =>
      cases moved
      exact mapTask_inputs engine protocol task fun _ => rfl
  | _ => exact looks.elim

theorem foreign_rejected (lib : Libraries) : ForeignRejected lib UnreadByFrost := by
  intro world reached thread call program found foreign
  obtain ⟨start, _, permitted, _⟩ := reached.call_started thread call program found
  have unchosen := not_chosen reached found foreign
  have follows := reached.follows body_restricted thread call program found
  constructor
  · rintro outcome rfl
    exact (follows ⟨foreign, permitted foreign⟩).resolve_right unchosen
  · intro allowed
    cases program with
    | done outcome =>
        simp only [Machine.step, found]
        exact .refl world.shared
    | perform action next =>
        have looks := (follows.1 ⟨foreign, permitted foreign⟩).resolve_right unchosen
        simp only [Machine.step, found]
        split
        · exact .refl world.shared
        · next state moved => exact absurd moved (looks_answered looks)
        · next state answer moved =>
          refine looks_undisturbed looks moved ?_
          rintro curve protocol sessionId session rfl live
          simp only [UnreadByFrost, found] at allowed
          exact (allowed foreign session live).2

/-! ## A reflected envelope -/

private def reflectedText : String :=
  "\x7b\"session_id\":\"s\",\"protocol\":\"dkg\",\"round\":1,\"from_id\":0,\"payload_encoding\":\"\",\"payload\":\"\"\x7d"

private def reflected : Call :=
  .keygen .engineEd25519 "s" 1 reflectedText

private theorem reflected_foreign : Foreign Toy.libraries reflected := by
  have sender : (Toy.libraries.text.fromStr WireEnvelope.fromJson reflectedText).toOption.map
      WireEnvelope.fromId = some 0 := by decide +kernel
  cases parsed : Toy.libraries.text.fromStr WireEnvelope.fromJson reflectedText with
  | error failure =>
      rw [parsed] at sender
      cases sender
  | ok env =>
      rw [parsed] at sender
      have client : env.fromId = 0 := Option.some.inj sender
      exact ⟨reflectedText, env, rfl, parsed, by rw [client]; decide⟩

/-- The FROST engine takes the client's own envelope for the server's. -/
theorem reflected_accepted : ¬ForeignRejected Toy.libraries Machine.Any := by
  intro rejected
  have continued : Toy.status (Toy.run [reflected]) 0 = some "continue" := by decide +kernel
  obtain ⟨reply, returned, _⟩ := Toy.returned_of_status rfl continued
  have reached : (machine Toy.libraries).Reaches Machine.Any (.initial .empty) (Toy.run [reflected]) :=
    Machine.reaches_run _ _
  obtain ⟨failure, failed⟩ := (rejected _ reached 0 reflected _ returned reflected_foreign).1 _ rfl
  cases failed

end CeresMpc.Dispatch
