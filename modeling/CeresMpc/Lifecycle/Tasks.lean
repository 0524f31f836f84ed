import CeresMpc.Api.CallSteps
import CeresMpc.Api.Runs

/-!
# Whose task it is

A protocol task is spawned by one round 1 call and named by the session that call
inserts. A call gets a task's name by spawning it or from a session of its own id, so
it works on the tasks of its own id alone.
-/

set_option autoImplicit false

namespace CeresMpc.Lifecycle

open Encoding Interleaving Program Api

variable {lib : Libraries}

/-- Operations on a task. -/
def Names (protocol : ProtocolType) (task : Nat) : Action lib → Prop
  | .send other named _ | .join other named | .abort other named | .dropSender other named
  | .dropReceiver other named => other = protocol ∧ named = task
  | .collect other receiver signal => other = protocol ∧ (receiver = task ∨ signal = task)
  | _ => False

/-- Answers with a DKLs23 session in them. -/
inductive Finds (protocol : ProtocolType) (sessionId : String) (session : Session lib .secp256k1 protocol) :
    Entry (Action lib) (Action.Answer lib) → Prop where
  | checkout : Finds protocol sessionId session ⟨.checkout .secp256k1 protocol sessionId, .found session⟩
  | acquire : Finds protocol sessionId session ⟨.acquire protocol sessionId, some session⟩
  | remove : Finds protocol sessionId session ⟨.remove .secp256k1 protocol sessionId, some session⟩

/-- The task of a session, by either of its names. -/
def HasTask {protocol : ProtocolType} (session : Session lib .secp256k1 protocol) (task : Nat) : Prop :=
  dklsTask lib protocol session = task ∨ dklsTaskHandle lib protocol session = some task

/-- How a call knows the name of a task. -/
inductive Learned (protocol : ProtocolType) (sessionId : String) (task : Nat) (past : Past lib) : Prop where
  | spawned {run} : ⟨.spawn protocol run, task⟩ ∈ past → Learned protocol sessionId task past
  | found {session entry} : entry ∈ past → Finds protocol sessionId session entry → HasTask session task →
      Learned protocol sessionId task past

private theorem Learned.later {protocol : ProtocolType} {sessionId : String} {task : Nat}
    {past : Past lib} (learned : Learned protocol sessionId task past) (more : Past lib) :
    Learned protocol sessionId task (more ++ past) := by
  cases learned with
  | spawned member => exact .spawned (List.mem_append_right _ member)
  | found member finds has => exact .found (List.mem_append_right _ member) finds has

/-! ## Steps -/

section Steps

variable {protocol : ProtocolType} {sessionId serverPayload : String} {base past : Past lib} {action : Action lib}
  {task : Nat}

private theorem learned_fed {messages : List Bytes} {run : lib.dkls.Protocol protocol} :
    Learned protocol sessionId task (MpcEngine.fed lib protocol run base task messages) := by
  rw [MpcEngine.fed, MpcEngine.sent_eq]
  exact .spawned (List.mem_append_right _ List.mem_cons_self)

private theorem learned_injected {session : Session lib .secp256k1 protocol} {messages : List Bytes} :
    Learned protocol sessionId (dklsTask lib protocol session)
      (MpcEngine.injected lib protocol sessionId base session messages) := by
  rw [MpcEngine.injected, MpcEngine.sent_eq]
  exact .found (List.mem_append_right _ List.mem_cons_self) .checkout (.inl rfl)

private theorem advance_learned (step : MpcEngine.AdvanceStep lib protocol sessionId serverPayload base past action)
    {other : ProtocolType} (names : Names other task action) :
    other = protocol ∧ Learned protocol sessionId task past := by
  cases step with
  | checkout | acquire | releaseMissing | release | resetConsumed | remove => exact names.elim
  | send accepted split =>
      obtain ⟨rfl, rfl⟩ := names
      exact ⟨rfl, learned_injected⟩
  | collect accepted =>
      obtain ⟨rfl, rfl | rfl⟩ := names
      · exact ⟨rfl, .found List.mem_cons_self .acquire (.inl rfl)⟩
      · exact ⟨rfl, learned_injected.later [_]⟩
  | closeInput accepted =>
      obtain ⟨rfl, rfl⟩ := names
      exact ⟨rfl, .found List.mem_cons_self .remove (.inl rfl)⟩
  | closeOutput accepted =>
      obtain ⟨rfl, rfl⟩ := names
      exact ⟨rfl, .found (List.mem_cons_of_mem _ List.mem_cons_self) .remove (.inl rfl)⟩
  | join accepted handle =>
      obtain ⟨rfl, rfl⟩ := names
      exact ⟨rfl, .found (List.mem_cons_of_mem _ (List.mem_cons_of_mem _ List.mem_cons_self)) .remove (.inr handle)⟩
  | dropClone free =>
      obtain ⟨rfl, rfl⟩ := names
      exact ⟨rfl, .found (List.mem_append_right _ List.mem_cons_self) .checkout (.inl rfl)⟩

private theorem keyshare_learned (step : MpcEngine.KeyshareStep lib protocol sessionId base past action)
    {other : ProtocolType} (names : Names other task action) :
    other = protocol ∧ Learned protocol sessionId task past := by
  cases step with
  | remove => exact names.elim
  | closeInput =>
      obtain ⟨rfl, rfl⟩ := names
      exact ⟨rfl, .found List.mem_cons_self .remove (.inl rfl)⟩
  | join handle =>
      obtain ⟨rfl, rfl⟩ := names
      exact ⟨rfl, .found (List.mem_cons_of_mem _ List.mem_cons_self) .remove (.inr handle)⟩
  | closeOutput onlyJoins =>
      obtain ⟨rfl, rfl⟩ := names
      exact ⟨rfl, .found (List.mem_append_right _ (List.mem_cons_of_mem _ List.mem_cons_self)) .remove (.inl rfl)⟩

private theorem abandoned_learned {messages : List Bytes} {run : lib.dkls.Protocol protocol}
    (abandoned : MpcEngine.Abandoned lib protocol messages run base task past) :
    Learned protocol sessionId task past := by
  cases abandoned with
  | aborted split => exact learned_fed.later [_, _]
  | closed => exact learned_fed.later [_]
  | joined => exact learned_fed.later [_, _]

private theorem open_learned {messages : List Bytes} {run : lib.dkls.Protocol protocol}
    (step : MpcEngine.OpenStep lib protocol sessionId messages run base past action)
    {other : ProtocolType} (names : Names other task action) :
    other = protocol ∧ Learned protocol sessionId task past := by
  cases step with
  | spawn | now | insert => exact names.elim
  | send split =>
      obtain ⟨rfl, rfl⟩ := names
      exact ⟨rfl, learned_fed⟩
  | abort split =>
      obtain ⟨rfl, rfl⟩ := names
      exact ⟨rfl, learned_fed.later [_]⟩
  | collect =>
      obtain ⟨rfl, rfl | rfl⟩ := names
      · exact ⟨rfl, learned_fed⟩
      · exact ⟨rfl, learned_fed⟩
  | join =>
      obtain ⟨rfl, rfl⟩ := names
      exact ⟨rfl, learned_fed.later [_]⟩
  | closeInput abandoned =>
      obtain ⟨rfl, rfl⟩ := names
      exact ⟨rfl, abandoned_learned abandoned⟩
  | closeOutput abandoned =>
      obtain ⟨rfl, rfl⟩ := names
      exact ⟨rfl, (abandoned_learned abandoned).later [_]⟩

end Steps

/-- A call that works on a task has learned its name. -/
theorem learned_of_names {call : Call} {past : Past lib} {action : Action lib} {protocol : ProtocolType}
    {task : Nat} (step : Call.Step lib call past action) (names : Names protocol task action) :
    ∃ sessionId, call.scope = some (protocol, sessionId) ∧ Learned protocol sessionId task past := by
  have engine : action.OnEngine .secp256k1 := by
    cases action <;> first | exact names.elim | exact rfl
  obtain ⟨base, routed, step⟩ := step.on_secp256k1 engine
  cases step with
  | first scope first step =>
      cases step with
      | read only same reading => exact (action.reads_off_engine reading engine).elim
      | opens only parsed step =>
          obtain ⟨rfl, learned⟩ := open_learned step names
          exact ⟨_, scope, learned⟩
  | advance scope later step =>
      obtain ⟨rfl, learned⟩ := advance_learned step names
      exact ⟨_, scope, learned⟩
  | keyshare scope last other step =>
      obtain ⟨rfl, learned⟩ := keyshare_learned step names
      exact ⟨_, scope, learned⟩

/-- A session is inserted by the call that spawned its task. -/
theorem spawned_of_insert {call : Call} {past : Past lib} {protocol : ProtocolType} {sessionId : String}
    {session : Session lib .secp256k1 protocol}
    (step : Call.Step lib call past (.insert .secp256k1 protocol sessionId session)) :
    call.scope = some (protocol, sessionId) ∧ call.round = some 1 ∧
      ∃ run task, ⟨.spawn protocol run, task⟩ ∈ past ∧ MpcEngine.Owns lib protocol session task := by
  obtain ⟨base, routed, step⟩ := step.on_secp256k1 rfl
  cases step with
  | keyshare scope last other step => cases step
  | advance scope later step => cases step
  | first scope first step =>
      cases step with
      | read only same reading => exact reading.elim
      | @opens _ _ _ protocolRun _ _ only parsed step =>
          cases step with
          | @insert task batch clock session clocked owns =>
              refine ⟨scope, first, protocolRun, task, ?_, owns⟩
              rw [MpcEngine.answered, MpcEngine.fed, MpcEngine.sent_eq]
              simp

/-! ## Runs -/

/-- A call on this id has spawned the task. -/
def SpawnedFor (world : EngineWorld lib) (protocol : ProtocolType) (sessionId : String) (task : Nat) : Prop :=
  ∃ thread call run, world.Called thread call ∧ call.scope = some (protocol, sessionId) ∧
    Performed world.trace thread (.spawn protocol run) task

variable {Allowed : EngineWorld lib → Move Call Drift → Prop} {world : EngineWorld lib}

theorem hasTask_lasting {protocol : ProtocolType} {stored session : Session lib .secp256k1 protocol}
    (same : lasting .secp256k1 protocol stored = lasting .secp256k1 protocol session) {task : Nat} :
    HasTask stored task ↔ HasTask session task := by
  cases protocol with
  | dkg =>
      have same : stored = session := same
      rw [same]
  | rotation =>
      have same : stored = session := same
      rw [same]
  | dsg =>
      have onTask := congrArg SignSession.task same
      have handle := congrArg SignSession.taskHandle same
      exact Iff.or (Iff.of_eq (congrArg (· = task) onTask)) (Iff.of_eq (congrArg (· = some task) handle))

theorem owns_hasTask {protocol : ProtocolType} {session : Session lib .secp256k1 protocol} {own task : Nat}
    (owns : MpcEngine.Owns lib protocol session own) (has : HasTask session task) : task = own := by
  rcases has with onTask | handle
  · exact onTask.symm.trans owns.onTask
  · exact Option.some.inj (handle.symm.trans owns.joins)

private theorem call_of_event (reached : (machine lib).Reaches Allowed (.initial .empty) world)
    {later earlier : List (Nat × Entry (Action lib) (Action.Answer lib))} {thread : Nat}
    {entry : Entry (Action lib) (Action.Answer lib)} (split : world.trace = later ++ (thread, entry) :: earlier) :
    ∃ call, world.Called thread call ∧ Call.Step lib call (past thread earlier) entry.1 := by
  obtain ⟨call, program, found, permitted⟩ :=
    reached.event_permitted Call.body_steps later earlier thread entry split
  exact ⟨call, ⟨program, found⟩, permitted⟩

/-- An inserted session is named by a task spawned for its id. -/
theorem inserted_spawned (reached : (machine lib).Reaches Allowed (.initial .empty) world) {thread : Nat}
    {protocol : ProtocolType} {sessionId : String} {stored : Session lib .secp256k1 protocol} {task : Nat}
    (inserted : Performed world.trace thread (.insert .secp256k1 protocol sessionId stored) ())
    (has : HasTask stored task) : SpawnedFor world protocol sessionId task := by
  obtain ⟨later, earlier, split⟩ := List.append_of_mem inserted
  obtain ⟨call, called, step⟩ := call_of_event reached split
  obtain ⟨scope, _, run, own, spawned, owns⟩ := spawned_of_insert step
  cases owns_hasTask owns has
  refine ⟨thread, call, run, called, scope, ?_⟩
  rw [Performed, split]
  exact List.mem_append_right _ (List.mem_cons_of_mem _ (mem_past.mp spawned))

/-- So is a session in a table. -/
theorem session_spawned (reached : (machine lib).Reaches Allowed (.initial .empty) world)
    {protocol : ProtocolType} {sessionId : String} {session : Session lib .secp256k1 protocol} {task : Nat}
    (live : world.shared.sessions .secp256k1 protocol sessionId = some session) (has : HasTask session task) :
    SpawnedFor world protocol sessionId task := by
  obtain ⟨thread, stored, inserted, same⟩ := inserted_of_session reached live
  exact inserted_spawned reached inserted ((hasTask_lasting same).mpr has)

theorem found_live {thread : Nat} {protocol : ProtocolType} {sessionId : String}
    {session : Session lib .secp256k1 protocol} {action : Action lib} {answer : Action.Answer lib action}
    {engine after : Engine lib} (finds : Finds protocol sessionId session ⟨action, answer⟩)
    (moved : engine.interpret thread action = .reply after answer) :
    engine.sessions .secp256k1 protocol sessionId = some session := by
  cases finds with
  | checkout => exact Engine.checkout_answer moved
  | acquire => exact Engine.acquire_answer moved
  | remove => exact Engine.remove_answer moved

/-- A task whose name a call has learned was spawned for the call's id. -/
theorem learned_spawned (reached : (machine lib).Reaches Allowed (.initial .empty) world) {thread : Nat}
    {call : Call} {protocol : ProtocolType} {sessionId : String} {task : Nat} (called : world.Called thread call)
    (names : call.scope = some (protocol, sessionId))
    (learned : Learned protocol sessionId task (past thread world.trace)) :
    SpawnedFor world protocol sessionId task := by
  cases learned with
  | @spawned run member => exact ⟨thread, call, run, called, names, mem_past.mp member⟩
  | @found session entry member finds has =>
      obtain ⟨action, answer⟩ := entry
      obtain ⟨later, earlier, split⟩ := List.append_of_mem (mem_past.mp member)
      obtain ⟨before, owner, next, after, start, _, same, _, moved, onward⟩ := reached.event_moved split
      have moved : before.shared.interpret thread action = .reply after answer := moved
      obtain ⟨spawner, opener, run, ⟨program, here⟩, scope, performed⟩ :=
        session_spawned start (found_live finds moved) has
      obtain ⟨last, there⟩ := onward.call_stable here
      refine ⟨spawner, opener, run, ⟨last, there⟩, scope, ?_⟩
      rw [same] at performed
      rw [Performed, split]
      exact List.mem_append_right _ (List.mem_cons_of_mem _ performed)

/-- The task a call is about to work on was spawned for the call's id. -/
theorem named_spawned (reached : (machine lib).Reaches Allowed (.initial .empty) world) {thread : Nat}
    {call : Call} {action : Action lib} {next : Action.Answer lib action → EngineM lib Reply}
    (found : world.threads[thread]? = some (call, .perform action next)) {protocol : ProtocolType} {task : Nat}
    (names : Names protocol task action) :
    ∃ sessionId, call.scope = some (protocol, sessionId) ∧ SpawnedFor world protocol sessionId task := by
  have step := (reached.follows Call.body_steps thread call _ found).1
  obtain ⟨sessionId, scope, learned⟩ := learned_of_names step names
  exact ⟨sessionId, scope, learned_spawned reached ⟨_, found⟩ scope learned⟩

/-- Names of tasks are given once. -/
private structure Numbered (world : EngineWorld lib) : Prop where
  used : ∀ thread protocol run (task : Nat), Performed world.trace thread (.spawn protocol run) task →
    task < world.shared.nextTask
  once : ∀ thread protocol run other otherProtocol otherRun (task : Nat),
    Performed world.trace thread (.spawn protocol run) task →
      Performed world.trace other (.spawn otherProtocol otherRun) task → thread = other ∧ protocol = otherProtocol

private theorem numbered (reached : (machine lib).Reaches Allowed (.initial .empty) world) : Numbered world := by
  refine reached.invariant Numbered ?_ ?_ ?_ ?_ ?_
  · constructor
    · intro thread protocol run task performed
      cases performed
    · intro thread protocol run other otherProtocol otherRun task performed
      cases performed
  · intro world call _ numbered _
    exact ⟨numbered.used, numbered.once⟩
  · intro world thread call action next state answer _ numbered _ _ moved
    have moved : world.shared.interpret thread action = .reply state answer := moved
    have counted : state.nextTask = world.shared.nextTask + action.spawned :=
      (Engine.interpret_registers moved).2.2.2
    have fresh {spawner : Nat} {protocol : ProtocolType} {run : lib.dkls.Protocol protocol} {task : Nat}
        (newest : (spawner, (⟨.spawn protocol run, task⟩ : Entry (Action lib) (Action.Answer lib))) =
          (thread, ⟨action, answer⟩)) : task = world.shared.nextTask ∧ action.spawned = 1 := by
      cases newest
      cases moved
      exact ⟨rfl, rfl⟩
    constructor
    · intro spawner protocol run task performed
      change task < state.nextTask
      rcases List.mem_cons.mp performed with newest | before
      · obtain ⟨rfl, one⟩ := fresh newest
        omega
      · have older := numbered.used spawner protocol run task before
        omega
    · intro spawner protocol run other otherProtocol otherRun task performed again
      rcases List.mem_cons.mp performed with newest | before
      · rcases List.mem_cons.mp again with newestAgain | beforeAgain
        · cases newest
          cases newestAgain
          exact ⟨rfl, rfl⟩
        · obtain ⟨rfl, _⟩ := fresh newest
          exact absurd (numbered.used other otherProtocol otherRun _ beforeAgain) (Nat.lt_irrefl _)
      · rcases List.mem_cons.mp again with newestAgain | beforeAgain
        · obtain ⟨rfl, _⟩ := fresh newestAgain
          exact absurd (numbered.used spawner protocol run _ before) (Nat.lt_irrefl _)
        · exact numbered.once spawner protocol run other otherProtocol otherRun task before beforeAgain
  · intro world thread call action next state _ numbered _ _ moved
    obtain ⟨tasks, rfl⟩ := Engine.interpret_pending moved
    exact ⟨numbered.used, numbered.once⟩
  · intro world change _ numbered _
    refine ⟨fun thread protocol run task performed => ?_, numbered.once⟩
    have counted : (Engine.drift lib change world.shared).nextTask = world.shared.nextTask := by
      cases change with
      | tick elapsed => rfl
      | poll protocol task => rw [Engine.drift, Engine.mapTask_frame]
    change task < (Engine.drift lib change world.shared).nextTask
    rw [counted]
    exact numbered.used thread protocol run task performed

theorem spawned_lt (reached : (machine lib).Reaches Allowed (.initial .empty) world) {protocol : ProtocolType}
    {sessionId : String} {task : Nat} (spawned : SpawnedFor world protocol sessionId task) :
    task < world.shared.nextTask := by
  obtain ⟨thread, call, run, called, scope, performed⟩ := spawned
  exact (numbered reached).used thread protocol run task performed

/-- A task is spawned by one thread. -/
theorem spawner_unique (reached : (machine lib).Reaches Allowed (.initial .empty) world) {thread other : Nat}
    {protocol : ProtocolType} {run again : lib.dkls.Protocol protocol} {task : Nat}
    (performed : Performed world.trace thread (.spawn protocol run) task)
    (performedAgain : Performed world.trace other (.spawn protocol again) task) : thread = other :=
  ((numbered reached).once _ _ _ _ _ _ task performed performedAgain).1

/-- A task is spawned for one id. -/
theorem spawned_once (reached : (machine lib).Reaches Allowed (.initial .empty) world)
    {protocol other : ProtocolType} {sessionId otherId : String} {task : Nat}
    (spawned : SpawnedFor world protocol sessionId task) (again : SpawnedFor world other otherId task) :
    protocol = other ∧ sessionId = otherId := by
  obtain ⟨thread, call, run, ⟨program, found⟩, scope, performed⟩ := spawned
  obtain ⟨second, copy, otherRun, ⟨otherProgram, there⟩, otherScope, performedAgain⟩ := again
  obtain ⟨rfl, rfl⟩ := (numbered reached).once _ _ _ _ _ _ task performed performedAgain
  rw [found] at there
  cases there
  rw [scope] at otherScope
  cases otherScope
  exact ⟨rfl, rfl⟩

end CeresMpc.Lifecycle
