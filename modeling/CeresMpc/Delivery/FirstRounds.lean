import CeresMpc.Api.CallSteps
import CeresMpc.Delivery.Rounds
import CeresMpc.Toy

/-!
# First rounds

Nobody but the call that spawned it knows a protocol task until its session is in the
table. So a first round is a round of the task's relay, whatever other calls do meanwhile.
-/

set_option autoImplicit false

namespace CeresMpc

open Encoding Interleaving Program Api Lifecycle

/-! ## A task's relay in the engine -/

theorem Relay.send_ne_pending {Protocol Output : Type} (relay : Relay Protocol Output) {message : Bytes}
    {later : Relay Protocol Output} : relay.send message ≠ .pending later := by
  unfold send
  split
  · nofun
  · split
    · nofun
    · nofun

namespace Engine

variable {lib : Libraries} {protocol : ProtocolType} {task : Nat} {engine : Engine lib} {relay : EngineRelay lib protocol}

theorem setTask_self : (engine.setTask protocol task relay).tasks protocol task = some relay := by
  simp [setTask]

@[simp] theorem setTask_setTask (first second : EngineRelay lib protocol) :
    (engine.setTask protocol task first).setTask protocol task second = engine.setTask protocol task second := by
  simp [setTask]

theorem mapTask_live (live : engine.tasks protocol task = some relay)
    (change : EngineRelay lib protocol → EngineRelay lib protocol) :
    engine.mapTask protocol task change = engine.setTask protocol task (change relay) := by
  simp [mapTask, live]

theorem interpret_send (thread : Nat) (message : Bytes) (live : engine.tasks protocol task = some relay) :
    engine.interpret thread (.send protocol task message) =
      (relay.send message).map (engine.setTask protocol task) := by
  simp only [interpret, live]
  cases relay.send message <;> rfl

theorem mapTask_setTask (change : EngineRelay lib protocol → EngineRelay lib protocol) :
    (engine.setTask protocol task relay).mapTask protocol task change =
      engine.setTask protocol task (change relay) := by
  rw [mapTask_live setTask_self, setTask_setTask]

/-- A collection on a task's own channel and notification is a collection on its relay. -/
theorem interpret_collect (thread : Nat) (live : engine.tasks protocol task = some relay) :
    engine.interpret thread (.collect protocol task task) = relay.collect.map (engine.setTask protocol task) := by
  simp only [interpret, collect, live, Relay.collect, mapTask_live live, mapTask_setTask]
  cases found : relay.collector with
  | none => rfl
  | some collector =>
      simp only []
      cases collector.advance _ _ _ <;> rfl

/-- Only collections have intermediate steps. -/
theorem collect_of_pending {thread : Nat} {action : Action lib} {after : Engine lib}
    (moved : engine.interpret thread action = .pending after) :
    ∃ other receiver signal, action = .collect other receiver signal := by
  rcases pending_channel moved with ⟨other, named, message, rfl⟩ | collects
  · simp only [interpret] at moved
    split at moved
    · cases moved
    · split at moved
      · cases moved
      · next relay _ _ later goesOn => exact absurd goesOn relay.send_ne_pending
      · cases moved
  · exact collects

end Engine

namespace Delivery

variable {lib : Libraries} {Allowed : EngineWorld lib → Move Call Drift → Prop} {world : EngineWorld lib}
  {protocol : ProtocolType} {task : Nat}

/-! ## Who knows a task -/

/-- The call that spawned the task has put a session of it into the table. -/
def Opened (world : EngineWorld lib) (protocol : ProtocolType) (task : Nat) : Prop :=
  ∃ thread sessionId stored run, Performed world.trace thread (.insert .secp256k1 protocol sessionId stored) () ∧
    Performed world.trace thread (.spawn protocol run) task

private theorem opened_of_session (reached : (machine lib).Reaches Allowed (.initial .empty) world) {sessionId : String}
    {session : Session lib .secp256k1 protocol}
    (live : world.shared.sessions .secp256k1 protocol sessionId = some session) (has : HasTask session task) :
    Opened world protocol task := by
  obtain ⟨thread, stored, inserted, same⟩ := inserted_of_session reached live
  obtain ⟨later, earlier, split⟩ := List.append_of_mem inserted
  obtain ⟨call, program, found, step⟩ := reached.event_permitted Call.body_steps later earlier thread _ split
  obtain ⟨_, _, run, own, spawned, owns⟩ := spawned_of_insert step
  cases owns_hasTask owns ((hasTask_lasting same).mpr has)
  refine ⟨thread, sessionId, stored, run, inserted, ?_⟩
  rw [Performed, split]
  exact List.mem_append_right _ (List.mem_cons_of_mem _ (mem_past.mp spawned))

private theorem Opened.onward {before : EngineWorld lib} (opened : Opened before protocol task)
    (onward : (machine lib).Reaches Allowed before world) : Opened world protocol task := by
  obtain ⟨thread, sessionId, stored, run, inserted, spawned⟩ := opened
  exact ⟨thread, sessionId, stored, run, onward.performed inserted, onward.performed spawned⟩

/-- A call that is about to work on a task has spawned it, or the session is open. -/
theorem known_of_touched (reached : (machine lib).Reaches Allowed (.initial .empty) world) {thread : Nat} {call : Call}
    {action : Action lib} {next : Action.Answer lib action → EngineM lib Reply}
    (found : world.threads[thread]? = some (call, .perform action next))
    (touched : Touched protocol task world.shared action) :
    (∃ run, Performed world.trace thread (.spawn protocol run) task) ∨ Opened world protocol task := by
  rcases touched with names | ⟨sessionId, session, _, live, onTask⟩
  · have step := (reached.follows Call.body_steps thread call _ found).1
    obtain ⟨sessionId, scope, learned⟩ := learned_of_names step names
    cases learned with
    | @spawned run member => exact .inl ⟨run, mem_past.mp member⟩
    | @found session entry member finds has =>
        obtain ⟨action, answer⟩ := entry
        obtain ⟨later, earlier, split⟩ := List.append_of_mem (mem_past.mp member)
        obtain ⟨before, _, _, after, start, _, _, _, moved, onward⟩ := reached.event_moved split
        have moved : before.shared.interpret thread action = .reply after answer := moved
        exact .inr ((opened_of_session start (found_live finds moved) has).onward onward)
  · exact .inr (opened_of_session reached live (.inl onTask))

/-- Until then the task is its spawner's own. -/
theorem private_task (reached : (machine lib).Reaches Allowed (.initial .empty) world) {spawner thread : Nat}
    {run : lib.dkls.Protocol protocol} (spawned : Performed world.trace spawner (.spawn protocol run) task)
    (unopened : ∀ sessionId stored, ¬Performed world.trace spawner (.insert .secp256k1 protocol sessionId stored) ())
    {call : Call} {action : Action lib} {next : Action.Answer lib action → EngineM lib Reply}
    (found : world.threads[thread]? = some (call, .perform action next))
    (touched : Touched protocol task world.shared action) : thread = spawner := by
  rcases known_of_touched reached found touched with ⟨again, own⟩ | ⟨opener, sessionId, stored, other, inserted, own⟩
  · exact spawner_unique reached own spawned
  · obtain rfl := spawner_unique reached own spawned
    exact absurd inserted (unopened sessionId stored)

/-! ## The caller's own steps -/

section Fed

variable {run : lib.dkls.Protocol protocol} {base : Past lib}

theorem fed_snoc (message : Bytes) (done : List Bytes) :
    MpcEngine.fed lib protocol run base task (done ++ [message]) =
      ⟨.send protocol task message, true⟩ :: MpcEngine.fed lib protocol run base task done :=
  (MpcEngine.sent_snoc task done message _).symm

/-- The past of a round tells its task and what has been injected. -/
theorem fed_inj {other : ProtocolType} {named : Nat} {otherRun : lib.dkls.Protocol other} {otherBase : Past lib}
    {done sent : List Bytes} (same : MpcEngine.fed lib protocol run base task done =
      MpcEngine.fed lib other otherRun otherBase named sent) : protocol = other ∧ task = named ∧ done = sent := by
  induction done using List.reverseRecOn generalizing sent with
  | nil =>
      rcases List.eq_nil_or_concat sent with rfl | ⟨_, _, rfl⟩
      · cases same
        exact ⟨rfl, rfl, rfl⟩
      · rw [List.concat_eq_append, fed_snoc] at same
        cases same
  | append_singleton earlier message ih =>
      rw [fed_snoc] at same
      rcases List.eq_nil_or_concat sent with rfl | ⟨before, last, rfl⟩
      · cases same
      · rw [List.concat_eq_append, fed_snoc] at same
        obtain ⟨heads, tails⟩ := List.cons.inj same
        obtain ⟨rfl, rfl, rfl⟩ := ih tails
        cases heads
        exact ⟨rfl, rfl, List.concat_eq_append.symm⟩

theorem spawn_mem_fed (done : List Bytes) :
    ⟨.spawn protocol run, task⟩ ∈ MpcEngine.fed lib protocol run base task done := by
  rw [MpcEngine.fed, MpcEngine.sent_eq]
  exact List.mem_append_right _ List.mem_cons_self

/-- What a thread has done in front of a list of injections. -/
theorem fed_cons {entry : Entry (Action lib) (Action.Answer lib)} {earlier : Past lib} {done : List Bytes}
    (same : entry :: earlier = MpcEngine.fed lib protocol run base task done) :
    entry = ⟨.spawn protocol run, task⟩ ∧ earlier = base ∧ done = [] ∨
      ∃ before message, done = before ++ [message] ∧ entry = ⟨.send protocol task message, true⟩ ∧
        earlier = MpcEngine.fed lib protocol run base task before := by
  rcases List.eq_nil_or_concat done with rfl | ⟨before, message, rfl⟩
  · cases same
    exact .inl ⟨rfl, rfl, rfl⟩
  · rw [List.concat_eq_append, fed_snoc] at same
    cases same
    exact .inr ⟨before, message, List.concat_eq_append, rfl, rfl⟩

/-- A caller that has injected something and collects has injected everything. -/
theorem collect_of_fed {call : Call} {done : List Bytes} {other : ProtocolType} {receiver signal : Nat}
    (step : Call.Step lib call (MpcEngine.fed lib protocol run base task done) (.collect other receiver signal)) :
    protocol = other ∧ task = receiver ∧ task = signal ∧
      ∃ env, MpcEngine.parseServerEnvelopeBatch lib call.payload = .ok (env, done) := by
  obtain ⟨_, _, step⟩ := step.on_secp256k1 rfl
  generalize here : MpcEngine.fed lib protocol run base task done = past at step
  cases step with
  | keyshare _ _ _ step => cases step
  | advance _ _ step =>
      cases step with
      | collect accepted =>
          rcases fed_cons here.symm with ⟨newest, _⟩ | ⟨_, _, _, newest, _⟩
          · cases newest
          · cases newest
  | first _ _ step =>
      cases step with
      | read _ _ reading => exact reading.elim
      | opens only parsed step =>
          cases step with
          | collect =>
              obtain ⟨rfl, rfl, rfl⟩ := fed_inj here
              exact ⟨rfl, rfl, rfl, _, parsed⟩

end Fed

/-! ## A first round in a run -/

section Rounds

variable {run : lib.dkls.Protocol protocol} {base : Past lib}
  {Condition : Round (lib.dkls.Protocol protocol) (Dkls.Output protocol) → Prop}

/-- The task's relay is in a round of its own at this stage. -/
def InRound (Condition : Round (lib.dkls.Protocol protocol) (Dkls.Output protocol) → Prop)
    (run : lib.dkls.Protocol protocol) (messages : List Bytes) (task : Nat) (stage : Stage) (engine : Engine lib) : Prop :=
  ∃ round, Round.Runs lib.dkls.resume Condition (.begin (.spawn run) messages) round ∧ round.stage = stage ∧
    engine.tasks protocol task = some round.relay

/-- What the schedule does to the caller's steps in a round. -/
structure Grants (Allowed : EngineWorld lib → Move Call Drift → Prop) (protocol : ProtocolType)
    (Condition : Round (lib.dkls.Protocol protocol) (Dkls.Output protocol) → Prop) : Prop where
  inject : ∀ relay message rest, Condition ⟨relay, .inject message rest⟩
  collect : ∀ world thread task relay, Allowed world (.run thread) →
    world.nextAction thread = some (.collect protocol task task) → world.shared.tasks protocol task = some relay →
    Condition ⟨relay, .collect⟩

variable {engine after : Engine lib} {messages : List Bytes} {stage : Stage}

private theorem InRound.same (inRound : InRound Condition run messages task stage engine)
    (same : after.tasks protocol task = engine.tasks protocol task) : InRound Condition run messages task stage after := by
  obtain ⟨round, runs, here, live⟩ := inRound
  exact ⟨round, runs, here, same.trans live⟩

private theorem InRound.drift (inRound : InRound Condition run messages task stage engine) (change : Drift) :
    InRound Condition run messages task stage (Engine.drift lib change engine) := by
  cases change with
  | tick elapsed => exact inRound.same rfl
  | poll other named =>
      rcases mapTask_tasks engine other protocol named task (Relay.poll lib.dkls.resume) with same | ⟨_, rfl, rfl⟩
      · exact inRound.same same
      · obtain ⟨round, runs, here, live⟩ := inRound
        exact ⟨_, runs.task, here, Engine.mapTask_self live⟩

private theorem InRound.elsewhere (inRound : InRound Condition run messages task stage world.shared)
    (reached : (machine lib).Reaches Allowed (.initial .empty) world) {spawner thread : Nat}
    (spawned : Performed world.trace spawner (.spawn protocol run) task) {call : Call} {action : Action lib}
    {next : Action.Answer lib action → EngineM lib Reply}
    (found : world.threads[thread]? = some (call, .perform action next)) (kept : Kept protocol task world.shared action after)
    (other : thread ≠ spawner)
    (unopened : ∀ sessionId stored, ¬Performed world.trace spawner (.insert .secp256k1 protocol sessionId stored) ()) :
    InRound Condition run messages task stage after := by
  rcases kept with same | ⟨_, touched⟩ | ⟨_, fresh⟩
  · exact inRound.same same
  · exact absurd (private_task reached spawned unopened found touched) other
  · obtain ⟨_, _, _, live⟩ := inRound
    rw [unspawned reached protocol task (Nat.le_of_eq fresh.symm)] at live
    cases live

private theorem InRound.send {message : Bytes} {rest : List Bytes}
    (inRound : InRound Condition run messages task (.inject message rest) engine)
    (free : ∀ relay, Condition ⟨relay, .inject message rest⟩) {thread : Nat} {sent : Bool}
    (moved : engine.interpret thread (.send protocol task message) = .reply after sent) :
    InRound Condition run messages task (if sent then .ofMessages rest else .refused) after := by
  obtain ⟨⟨relay, _⟩, runs, rfl, live⟩ := inRound
  rw [Engine.interpret_send thread message live] at moved
  cases reacts : relay.send message with
  | blocked => simp [reacts, Reaction.map] at moved
  | pending later => simp [reacts, Reaction.map] at moved
  | reply later accepted =>
      rw [reacts] at moved
      cases moved
      have steps : Round.caller ⟨relay, .inject message rest⟩ =
          some ⟨later, if sent then .ofMessages rest else .refused⟩ := by
        cases sent <;> simp [Round.caller, reacts]
      exact ⟨_, runs.caller (free relay) steps, rfl, Engine.setTask_self⟩

private theorem InRound.collecting (inRound : InRound Condition run messages task .collect engine)
    (granted : ∀ relay, engine.tasks protocol task = some relay → Condition ⟨relay, .collect⟩) {thread : Nat}
    (moved : engine.interpret thread (.collect protocol task task) = .pending after) :
    InRound Condition run messages task .collect after := by
  obtain ⟨⟨relay, _⟩, runs, rfl, live⟩ := inRound
  rw [Engine.interpret_collect thread live] at moved
  cases reacts : relay.collect with
  | blocked => simp [reacts, Reaction.map] at moved
  | reply later batch => simp [reacts, Reaction.map] at moved
  | pending later =>
      rw [reacts] at moved
      cases moved
      have steps : Round.caller ⟨relay, .collect⟩ = some ⟨later, .collect⟩ := by simp [Round.caller, reacts]
      exact ⟨_, runs.caller (granted relay live) steps, rfl, Engine.setTask_self⟩

private theorem InRound.collected (inRound : InRound Condition run messages task .collect engine)
    (granted : ∀ relay, engine.tasks protocol task = some relay → Condition ⟨relay, .collect⟩) {thread : Nat}
    {batch : Option (List Bytes × Bool)}
    (moved : engine.interpret thread (.collect protocol task task) = .reply after batch) :
    InRound Condition run messages task (.returned batch) after := by
  obtain ⟨⟨relay, _⟩, runs, rfl, live⟩ := inRound
  rw [Engine.interpret_collect thread live] at moved
  cases reacts : relay.collect with
  | blocked => simp [reacts, Reaction.map] at moved
  | pending later => simp [reacts, Reaction.map] at moved
  | reply later batch =>
      rw [reacts] at moved
      cases moved
      have steps : Round.caller ⟨relay, .collect⟩ = some ⟨later, .returned batch⟩ := by simp [Round.caller, reacts]
      exact ⟨_, runs.caller (granted relay live) steps, rfl, Engine.setTask_self⟩

/-- Until its session is open, a first round is a round of its task, whatever else happens. -/
theorem in_round (reached : (machine lib).Reaches Allowed (.initial .empty) world) (grants : Grants Allowed protocol Condition) :
    ∀ thread call program base run task done rest env, world.threads[thread]? = some (call, program) →
      MpcEngine.parseServerEnvelopeBatch lib call.payload = .ok (env, done ++ rest) →
      (∀ sessionId stored, ¬Performed world.trace thread (.insert .secp256k1 protocol sessionId stored) ()) →
      past thread world.trace = MpcEngine.fed lib protocol run base task done →
      InRound Condition run (done ++ rest) task (.ofMessages rest) world.shared := by
  refine reached.invariant (fun world => ∀ thread call program base run task done rest env,
    world.threads[thread]? = some (call, program) →
      MpcEngine.parseServerEnvelopeBatch lib call.payload = .ok (env, done ++ rest) →
      (∀ sessionId stored, ¬Performed world.trace thread (.insert .secp256k1 protocol sessionId stored) ()) →
      past thread world.trace = MpcEngine.fed lib protocol run base task done →
      InRound Condition run (done ++ rest) task (.ofMessages rest) world.shared) ?_ ?_ ?_ ?_ ?_
  · intro thread call program base run task done rest env found
    simp [World.initial] at found
  · intro world started reached inRound _ thread call program base run task done rest env found parsed unopened same
    rcases Nat.lt_or_ge thread world.threads.length with old | new
    · rw [List.getElem?_append_left old] at found
      exact inRound thread call program base run task done rest env found parsed unopened same
    · have unseen : past thread world.trace = [] := past_eq_nil_of_fresh fun event member =>
        Nat.lt_of_lt_of_le (reached.trace_lt event member) new
      have member := @spawn_mem_fed lib protocol task run base done
      rw [← same] at member
      exact absurd (unseen ▸ member) List.not_mem_nil
  · intro world mover owner action next state answer reached inRound allowed moving moved thread call program base run task
      done rest env found parsed unopened same
    have moved : world.shared.interpret mover action = .reply state answer := moved
    have before (sessionId : String) (stored : Session lib .secp256k1 protocol) :
        ¬Performed world.trace thread (.insert .secp256k1 protocol sessionId stored) () :=
      fun performed => unopened sessionId stored (performed.cons _)
    by_cases own : mover = thread
    · subst own
      rw [past_cons_self] at same
      have bound := (List.getElem?_eq_some_iff.mp moving).1
      rw [List.getElem?_set_self bound] at found
      cases found
      rcases fed_cons same with ⟨newest, earlier, rfl⟩ | ⟨injected, message, rfl, newest, earlier⟩
      · cases newest
        cases moved
        exact ⟨_, .refl, rfl, Engine.setTask_self⟩
      · cases newest
        rw [List.append_assoc, List.singleton_append] at parsed ⊢
        have inject := inRound mover owner _ base run task injected (message :: rest) env moving parsed before earlier
        exact inject.send (fun relay => grants.inject relay message rest) moved
    · rw [List.getElem?_set_ne own] at found
      rw [past_cons_of_ne own] at same
      have here := inRound thread call program base run task done rest env found parsed before same
      refine here.elsewhere reached ?_ moving (interpret_tasks moved protocol task) own before
      exact mem_past.mp (same ▸ spawn_mem_fed done)
  · intro world mover owner action next state reached inRound allowed moving moved thread call program base run task
      done rest env found parsed unopened same
    have moved : world.shared.interpret mover action = .pending state := moved
    have here := inRound thread call program base run task done rest env found parsed unopened same
    by_cases own : mover = thread
    · subst own
      rw [moving] at found
      cases found
      obtain ⟨other, receiver, signal, rfl⟩ := Engine.collect_of_pending moved
      have step := (reached.follows Call.body_steps mover owner _ moving).1
      rw [same] at step
      obtain ⟨rfl, rfl, rfl, again, parsedAgain⟩ := collect_of_fed step
      rw [parsed] at parsedAgain
      obtain ⟨_, rfl⟩ : env = again ∧ rest = [] := by simpa using parsedAgain
      refine here.collecting (fun relay live => ?_) moved
      exact grants.collect world mover task relay allowed (by simp [World.nextAction, moving]) live
    · refine here.elsewhere reached ?_ moving (interpret_tasks_pending moved protocol task) own unopened
      exact mem_past.mp (same ▸ spawn_mem_fed done)
  · intro world change _ inRound _ thread call program base run task done rest env found parsed unopened same
    exact (inRound thread call program base run task done rest env found parsed unopened same).drift change

/-! ## First rounds that return -/

/-- How far the past of a first round says it has got. -/
inductive Passed (messages : List Bytes) (run : lib.dkls.Protocol protocol) (task : Nat) (base : Past lib) :
    Stage → Past lib → Prop where
  | returned {batch whole} : MpcEngine.answered lib protocol messages run base task batch <:+ whole →
      Passed messages run task base (.returned batch) whole
  | refused {done message rest whole} : messages = done ++ message :: rest →
      (⟨.send protocol task message, false⟩ :: MpcEngine.fed lib protocol run base task done) <:+ whole →
      Passed messages run task base .refused whole

/-- What a first round does before it spawns its task. -/
def Preludes (base : Past lib) : Prop :=
  ∀ entry ∈ base, entry.1.Reads ∨ ∃ other sessionId, entry.1 = .contains .ed25519 other sessionId

private theorem Preludes.unopened (preludes : Preludes base) {earlier : List (Nat × Entry (Action lib) (Action.Answer lib))}
    {thread : Nat} {done : List Bytes} (same : past thread earlier = MpcEngine.fed lib protocol run base task done)
    (sessionId : String) (stored : Session lib .secp256k1 protocol) :
    ¬Performed earlier thread (.insert .secp256k1 protocol sessionId stored) () := by
  intro performed
  have member := mem_past.mpr performed
  rw [same, MpcEngine.fed, MpcEngine.sent_eq] at member
  rcases List.mem_append.mp member with sends | before
  · simp at sends
  · rcases List.mem_cons.mp before with spawns | first
    · cases spawns
    · rcases preludes _ first with reads | ⟨_, _, looks⟩
      · exact reads
      · cases looks

/-- The round as it was when the caller got an answer to an injection or its collection. -/
private theorem in_round_before (reached : (machine lib).Reaches Allowed (.initial .empty) world)
    (grants : Grants Allowed protocol Condition) {thread : Nat} {call : Call} (called : world.Called thread call)
    {env : WireEnvelope} {more : Past lib} {action : Action lib} {answer : Action.Answer lib action}
    {done rest : List Bytes}
    (parsed : MpcEngine.parseServerEnvelopeBatch lib call.payload = .ok (env, done ++ rest)) (preludes : Preludes base)
    (split : past thread world.trace = more ++ ⟨action, answer⟩ :: MpcEngine.fed lib protocol run base task done) :
    ∃ before after, Allowed before (.run thread) ∧ before.nextAction thread = some action ∧
      before.shared.interpret thread action = .reply after answer ∧
      InRound Condition run (done ++ rest) task (.ofMessages rest) before.shared := by
  obtain ⟨later, earlier, splits, _, own⟩ := past_split split
  obtain ⟨before, owner, next, after, start, allowed, rfl, found, moved, onward⟩ := reached.event_moved splits
  obtain ⟨program, there⟩ := onward.call_stable found
  obtain rfl := World.called_unique called ⟨program, there⟩
  refine ⟨before, after, allowed, by simp [World.nextAction, found], moved, ?_⟩
  exact in_round start grants thread call _ base run task done rest env found parsed (preludes.unopened own) own

/-- Then its task's round has got as far. -/
theorem Passed.round (reached : (machine lib).Reaches Allowed (.initial .empty) world) (grants : Grants Allowed protocol Condition)
    {thread : Nat} {call : Call} (called : world.Called thread call) {env : WireEnvelope}
    (parsed : MpcEngine.parseServerEnvelopeBatch lib call.payload = .ok (env, messages)) (preludes : Preludes base)
    (passed : Passed messages run task base stage (past thread world.trace)) :
    ∃ round, Round.Runs lib.dkls.resume Condition (.begin (.spawn run) messages) round ∧ round.stage = stage := by
  generalize whole : past thread world.trace = all at passed
  cases passed with
  | returned reaches =>
      obtain ⟨more, rfl⟩ := reaches
      rw [← List.append_nil messages] at parsed
      obtain ⟨before, after, allowed, doing, moved, inRound⟩ := in_round_before reached grants called parsed preludes whole
      rw [List.append_nil] at inRound
      have collected := inRound.collected (fun relay live => grants.collect before thread task relay allowed doing live) moved
      obtain ⟨round, runs, here, _⟩ := collected
      exact ⟨round, runs, here⟩
  | refused split reaches =>
      obtain ⟨more, rfl⟩ := reaches
      subst split
      obtain ⟨before, after, allowed, doing, moved, inRound⟩ := in_round_before reached grants called parsed preludes whole
      obtain ⟨round, runs, here, _⟩ := inRound.send (fun relay => grants.inject relay _ _) moved
      exact ⟨round, runs, here⟩

private theorem preludes_append {reads routes : Past lib} {call : Call} {toEd25519 : Bool}
    (only : ∀ entry ∈ reads, entry.1.Reads) (routed : Call.Routed lib call toEd25519 routes) : Preludes (reads ++ routes) := by
  intro entry member
  rcases List.mem_append.mp member with read | looked
  · exact .inl (only entry read)
  · exact .inr (routed.looks entry looked)

private theorem Preludes.unspawned (preludes : Preludes base) :
    (⟨.spawn protocol run, task⟩ : Entry (Action lib) (Action.Answer lib)) ∉ base := by
  intro member
  rcases preludes _ member with reads | ⟨_, _, looks⟩
  · exact reads
  · cases looks

private theorem spawn_of_mem_fed {other : ProtocolType} {named : Nat} {otherRun : lib.dkls.Protocol other} {done : List Bytes}
    (more : Past lib) (quiet : ∀ entry ∈ more, entry.1.spawned = 0) (preludes : Preludes base)
    (member : ⟨.spawn protocol run, task⟩ ∈ more ++ MpcEngine.fed lib other otherRun base named done) :
    (⟨.spawn protocol run, task⟩ : Entry (Action lib) (Action.Answer lib)) = ⟨.spawn other otherRun, named⟩ := by
  rw [MpcEngine.fed, MpcEngine.sent_eq] at member
  rcases List.mem_append.mp member with late | fed
  · cases quiet _ late
  · rcases List.mem_append.mp fed with sends | before
    · simp at sends
    · rcases List.mem_cons.mp before with same | first
      · exact same
      · exact absurd first preludes.unspawned

private theorem advance_failed_unspawned {other : ProtocolType} {sessionId serverPayload : String} {earlier : Past lib}
    (preludes : Preludes base) (failed : MpcEngine.AdvanceFailed lib other sessionId serverPayload base earlier) :
    ⟨.spawn protocol run, task⟩ ∉ earlier := by
  have none : (⟨.spawn protocol run, task⟩ : Entry (Action lib) (Action.Answer lib)) ∉ base := preludes.unspawned
  cases failed with
  | absent | rejected | unreadable => simp [none]
  | refused | gone => simp [MpcEngine.sent_eq, none]
  | closed _ concludes =>
      have tail := concludes ⟨.spawn protocol run, task⟩
      have outside : (⟨.spawn protocol run, task⟩ : Entry (Action lib) (Action.Answer lib)) ∉ _ := fun member => (tail member).elim
      simp [MpcEngine.sent_eq, none, outside]

theorem first_of_spawn {call : Call} {earlier : Past lib} (step : Call.Step lib call earlier (.spawn protocol run)) :
    call.round = some 1 := by
  obtain ⟨_, _, step⟩ := step.on_secp256k1 rfl
  cases step with
  | first _ first _ => exact first
  | advance _ _ step => cases step
  | keyshare _ _ _ step => cases step

private theorem passed_of_failed {call : Call} {routes whole : Past lib} (routed : Call.Routed lib call false routes)
    (failed : Call.DklsFailed lib call routes whole) (member : ⟨.spawn protocol run, task⟩ ∈ whole) :
    ∃ base env messages stage, MpcEngine.parseServerEnvelopeBatch lib call.payload = .ok (env, messages) ∧
      Preludes base ∧ Passed messages run task base stage whole := by
  cases failed with
  | advance _ failed =>
      have preludes := @preludes_append lib [] _ call false (by simp) routed
      exact absurd member (advance_failed_unspawned preludes failed)
  | keyshare concludes =>
      have preludes := @preludes_append lib [] _ call false (by simp) routed
      rcases List.mem_append.mp member with tail | looked
      · exact (concludes _ tail).elim
      · exact absurd looked preludes.unspawned
  | first _ failed =>
      cases failed with
      | stopped only => exact absurd member (preludes_append only routed).unspawned
      | opens only parsed failed =>
          have preludes := preludes_append only routed
          cases failed with
          | abandoned abandoned =>
              cases abandoned with
              | aborted split =>
                  cases spawn_of_mem_fed [_, _, _, _] (by simp [Action.spawned]) preludes member
                  exact ⟨_, _, _, _, parsed, preludes, .refused split ⟨[_, _, _], rfl⟩⟩
              | closed =>
                  cases spawn_of_mem_fed [_, _, _] (by simp [Action.spawned]) preludes member
                  exact ⟨_, _, _, _, parsed, preludes, .returned ⟨[_, _], rfl⟩⟩
              | joined =>
                  cases spawn_of_mem_fed [_, _, _, _] (by simp [Action.spawned]) preludes member
                  exact ⟨_, _, _, _, parsed, preludes, .returned ⟨[_, _, _], rfl⟩⟩

private theorem passed_of_opened {call : Call} {routes whole : Past lib} {result : MpcRoundResult}
    (routed : Call.Routed lib call false routes) (first : call.round = some 1)
    (ended : Call.DklsEnd lib call routes whole (.ok result)) (member : ⟨.spawn protocol run, task⟩ ∈ whole) :
    ∃ base env messages sessionId batch done,
      MpcEngine.parseServerEnvelopeBatch lib call.payload = .ok (env, messages) ∧ Preludes base ∧
      Passed messages run task base (.returned (some (batch, done))) whole ∧
      call.scope = some (protocol, sessionId) ∧
      result = MpcEngine.makeInProgressBatch lib sessionId protocol env.round batch := by
  cases ended with
  | advance _ later _ => exact absurd first later
  | keyshare _ last _ _ =>
      rw [first] at last
      cases last
  | first scope _ ended =>
      cases ended with
      | opened only parsed ended =>
          have preludes := preludes_append only routed
          cases ended with
          | opened clocked owns =>
              rcases List.mem_cons.mp member with newest | member
              · cases newest
              · rcases List.mem_append.mp member with timed | member
                · cases clocked _ timed
                · cases spawn_of_mem_fed [_] (by simp [Action.spawned]) preludes member
                  exact ⟨_, _, _, _, _, _, parsed, preludes,
                    .returned (.trans (List.suffix_append _ _) (List.suffix_cons _ _)), scope, rfl⟩

/-- A call that has spawned a task and returned has been through a round. -/
theorem passed_of_returned (reached : (machine lib).Reaches Allowed (.initial .empty) world) {thread : Nat} {call : Call}
    {outcome : Except String Reply} (spawned : Performed world.trace thread (.spawn protocol run) task)
    (returned : world.Returned thread call outcome) : ∃ base env messages stage,
      MpcEngine.parseServerEnvelopeBatch lib call.payload = .ok (env, messages) ∧ Preludes base ∧
      Passed messages run task base stage (past thread world.trace) ∧ ∀ reply, outcome = .ok reply →
        ∃ sessionId batch done, call.scope = some (protocol, sessionId) ∧ stage = .returned (some (batch, done)) ∧
          reply = .round (MpcEngine.makeInProgressBatch lib sessionId protocol env.round batch) := by
  have member := mem_past.mpr spawned
  have finished : Call.Finished lib call (past thread world.trace) outcome :=
    reached.follows Call.body_finishes thread call _ returned
  cases finished with
  | elsewhere none => exact absurd rfl (none _ member)
  | @dkls _ _ _ result routed ends same =>
      obtain ⟨ended, fails⟩ := ends
      subst same
      cases result with
      | error failure =>
          obtain ⟨base, env, messages, stage, parsed, preludes, passed⟩ :=
            passed_of_failed routed (fails failure rfl) member
          exact ⟨base, env, messages, stage, parsed, preludes, passed, by rintro _ ⟨⟩⟩
      | ok result =>
          obtain ⟨owner, _, _, found, step, _⟩ := reached.performed_permitted Call.body_steps spawned
          obtain rfl := World.called_unique ⟨_, returned⟩ ⟨_, found⟩
          obtain ⟨base, env, messages, sessionId, batch, done, parsed, preludes, passed, scope, rfl⟩ :=
            passed_of_opened routed (first_of_spawn step) ended member
          refine ⟨base, env, messages, _, parsed, preludes, passed, ?_⟩
          rintro reply ⟨⟩
          exact ⟨sessionId, batch, done, scope, rfl, rfl⟩

end Rounds

/-! ## What a first round gives -/

section Results

variable {run : lib.dkls.Protocol protocol} {steps : Nat} {messages answer : List Bytes}
  {final : Task (lib.dkls.Protocol protocol) (Dkls.Output protocol)} {thread : Nat} {call : Call} {env : WireEnvelope}

/-- A collection of a task that starts finds no notification, or the task rests. -/
def Timely (world : EngineWorld lib) (move : Move Call Drift) : Prop :=
  ∀ thread protocol task relay, move = .run thread → world.nextAction thread = some (.collect protocol task task) →
    world.shared.tasks protocol task = some relay → relay.collector = none → relay.notify.permit = true →
    relay.Resting lib.dkls.resume

private theorem grants_timely (timely : ∀ world move, Allowed world move → Timely world move) (protocol : ProtocolType) :
    Grants Allowed protocol (Round.Timely lib.dkls.resume) := by
  constructor
  · intro relay message rest stage
    cases stage
  · intro world thread task relay allowed doing live _
    exact timely world (.run thread) allowed thread protocol task relay rfl doing live

private theorem grants_any : Grants Allowed protocol fun _ => True :=
  ⟨fun _ _ _ => trivial, fun _ _ _ _ _ _ _ => trivial⟩

/-- A first round whose collection is timely gives the caller the protocol's whole answer,
whatever other calls do meanwhile. -/
theorem first_round_whole (reached : (machine lib).Reaches Allowed (.initial .empty) world)
    (timely : ∀ world move, Allowed world move → Timely world move)
    (spawned : Performed world.trace thread (.spawn protocol run) task)
    (parsed : MpcEngine.parseServerEnvelopeBatch lib call.payload = .ok (env, messages))
    (responds : Responds lib.dkls.resume steps run messages answer final) (room : answer.length ≤ outputCapacity)
    {reply : Reply} (returned : world.Returned thread call (.ok reply)) :
    answer ≠ [] ∧ ∃ sessionId, call.scope = some (protocol, sessionId) ∧
      reply = .round (MpcEngine.makeInProgressBatch lib sessionId protocol env.round answer) := by
  obtain ⟨base, _, _, stage, parsedAgain, preludes, passed, results⟩ := passed_of_returned reached spawned returned
  rw [parsed] at parsedAgain
  cases parsedAgain
  obtain ⟨sessionId, batch, done, scope, rfl, rfl⟩ := results reply rfl
  obtain ⟨round, runs, here⟩ := passed.round reached (grants_timely timely protocol) ⟨_, returned⟩ parsed preludes
  have whole := (Round.whole_round (Relay.ready_spawn run) responds room runs here).messages
  by_cases silent : answer = []
  · simp [silent] at whole
  · rw [if_neg silent] at whole
    cases whole
    exact ⟨silent, sessionId, scope, rfl⟩

/-- A first round whose protocol says nothing to its messages and waits for more never
returns, on any schedule. -/
theorem first_round_waits (reached : (machine lib).Reaches Allowed (.initial .empty) world)
    (spawned : Performed world.trace thread (.spawn protocol run) task)
    (parsed : MpcEngine.parseServerEnvelopeBatch lib call.payload = .ok (env, messages)) {last : lib.dkls.Protocol protocol}
    (responds : Responds lib.dkls.resume steps run messages [] (.running last)) (outcome : Except String Reply) :
    ¬world.Returned thread call outcome := by
  intro returned
  obtain ⟨base, _, _, stage, parsedAgain, preludes, passed, results⟩ := passed_of_returned reached spawned returned
  rw [parsed] at parsedAgain
  cases parsedAgain
  obtain ⟨round, runs, here⟩ := passed.round reached grants_any ⟨_, returned⟩ parsed preludes
  apply Round.never_over (Relay.ready_spawn run) responds runs
  cases passed with
  | returned reaches => exact .inr ⟨_, here⟩
  | refused split reaches => exact .inl here

end Results

/-! ## Two keygens at once -/

/-- A check of the same. -/
private def timely (world : EngineWorld lib) : Move Call Drift → Bool
  | .run thread =>
      match world.nextAction thread with
      | some (.collect protocol receiver _) =>
          match world.shared.tasks protocol receiver with
          | some relay => relay.collector.isSome || !relay.notify.permit || decide (relay.Resting lib.dkls.resume)
          | none => true
      | _ => true
  | .start _ | .drift _ => true

private theorem timely_sound (world : EngineWorld lib) (move : Move Call Drift) (checked : timely world move = true) :
    Timely world move := by
  rintro thread protocol task relay rfl doing live idle permit
  simpa [timely, doing, live, idle, permit] using checked

def firstId : String :=
  "00112233445566778899aabbccddeeff00112233445566778899aabbccddeeff"

def secondId : String :=
  "ff112233445566778899aabbccddeeff00112233445566778899aabbccddeeff"

def firstCall (sessionId payload : String) : Call :=
  .keygen .mpcEngine sessionId 1 payload

def oneMessage : String :=
  "\x7b\"session_id\":\"s\",\"protocol\":\"dkg\",\"round\":1,\"from_id\":1,\"payload_encoding\":\"\",\"payload\":\"AQ==\"\x7d"

def noMessage : String :=
  "\x7b\"session_id\":\"s\",\"protocol\":\"dkg\",\"round\":1,\"from_id\":1,\"payload_encoding\":\"\",\"payload\":\"\",\"payloads\":[]\x7d"

/-- What both say, but for their messages. -/
def envelope (payload : String) (payloads : Option (List String)) : WireEnvelope :=
  { sessionId := "s", protocol := .dkg, round := 1, fromId := 1, toId := none, payloadEncoding := "", payload
    step := none, payloads, curve := none }

theorem oneMessage_parsed : MpcEngine.parseServerEnvelopeBatch Toy.libraries (firstCall firstId oneMessage).payload =
    .ok (envelope "AQ==" none, [[1]]) := by
  exact of_decide_eq_true (by decide +kernel)

theorem noMessage_parsed : MpcEngine.parseServerEnvelopeBatch Toy.libraries (firstCall firstId noMessage).payload =
    .ok (envelope "" (some []), []) := by
  exact of_decide_eq_true (by decide +kernel)

def twoKeygensMoves : List (Move Call Drift) :=
  .start (firstCall firstId oneMessage) :: .start (firstCall secondId oneMessage) ::
    List.replicate 4 (.run 0) ++ List.replicate 4 (.run 1) ++ List.replicate 2 (.drift (.poll .dkg 0)) ++
    List.replicate 3 (.drift (.poll .dkg 1)) ++ List.replicate 3 (.run 0) ++ List.replicate 2 (.drift (.poll .dkg 0)) ++
    List.replicate 6 (.run 0)

def twoKeygens : EngineWorld Toy.libraries :=
  (machine Toy.libraries).run twoKeygensMoves (.initial .empty)

/-- The call's messages are none, its task is polled, and the call is given time. -/
def unanswered : EngineWorld Toy.libraries :=
  (machine Toy.libraries).run (.start (firstCall firstId noMessage) :: List.replicate 3 (.run 0) ++
    .drift (.poll .dkg 0) :: List.replicate 5 (.run 0)) (.initial .empty)

private def answersTwice {Output : Type} : Toy.Run Output → Bool
  | .active { operations := [.receive, .send first, .send second, .receive], .. } => first = [1] && second = [2]
  | _ => false

private theorem answersTwice_responds {Output : Type} {run : Toy.Run Output} (checked : answersTwice run = true) :
    (∃ last, Responds Toy.Run.resume 3 run [[1]] [[1], [2]] (.running last)) ∧
      Responds Toy.Run.resume 0 run [] [] (.running run) := by
  unfold answersTwice at checked
  split at checked
  · next first second result =>
    obtain ⟨rfl, rfl⟩ : first = [1] ∧ second = [2] := by simpa using checked
    exact ⟨⟨_, .reads rfl (.sends rfl (.sends rfl (.waits rfl)))⟩, .waits rfl⟩
  · cases checked

private def opensFirst : Nat × Entry (Action Toy.libraries) (Action.Answer Toy.libraries) → Bool
  | (0, ⟨.spawn .dkg run, 0⟩) => answersTwice run
  | _ => false

private theorem spawned_of_any {world : EngineWorld Toy.libraries} (spawns : world.trace.any opensFirst = true) :
    ∃ run : Toy.Run (Dkls.Output .dkg), Performed world.trace 0 (.spawn .dkg run) 0 ∧ answersTwice run = true := by
  obtain ⟨event, member, spawned⟩ := List.any_eq_true.mp spawns
  unfold opensFirst at spawned
  split at spawned
  · next run => exact ⟨run, member, spawned⟩
  · cases spawned

theorem first_round_whole_interleaved : ∃ sessionId reply,
    twoKeygens.Returned 0 (firstCall firstId oneMessage) (.ok reply) ∧
      reply = .round (MpcEngine.makeInProgressBatch Toy.libraries sessionId .dkg 1 [[1], [2]]) := by
  have called : twoKeygens.Called 0 (firstCall firstId oneMessage) := by
    rw [World.called_iff, twoKeygens, Machine.run_calls]
    rfl
  have ended : Toy.status twoKeygens 0 = some "continue" := by decide +kernel
  obtain ⟨run, spawned, checked⟩ := @spawned_of_any twoKeygens (by decide +kernel)
  obtain ⟨⟨last, responds⟩, _⟩ := answersTwice_responds checked
  have reached : (machine Toy.libraries).Reaches Timely (.initial .empty) twoKeygens :=
    Machine.reaches_of_allowedAlong timely_sound twoKeygensMoves (.initial .empty) (by decide +kernel)
  unfold Toy.status at ended
  split at ended
  · next other reply found =>
    obtain rfl := World.called_unique called ⟨_, found⟩
    obtain ⟨_, sessionId, _, same⟩ := first_round_whole reached (fun _ _ allowed => allowed) spawned oneMessage_parsed
      responds (by decide) found
    exact ⟨sessionId, reply, found, same⟩
  · cases ended

theorem first_round_waits_unanswered : (unanswered.nextAction 0).isSome = true ∧
    ∀ outcome, ¬unanswered.Returned 0 (firstCall firstId noMessage) outcome := by
  obtain ⟨run, spawned, checked⟩ := @spawned_of_any unanswered (by decide +kernel)
  have reached : (machine Toy.libraries).Reaches Machine.Any (.initial .empty) unanswered := by
    unfold unanswered
    exact Machine.reaches_run _ _
  refine ⟨by decide +kernel, fun outcome => ?_⟩
  exact first_round_waits reached spawned noMessage_parsed (answersTwice_responds checked).2 outcome

end Delivery

end CeresMpc
