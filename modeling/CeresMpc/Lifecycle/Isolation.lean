import CeresMpc.Lifecycle.Tasks

/-!
# Sessions do not interfere

A call leaves the entries and the tasks of other ids as they are, and what it finds
under its own id and in the registry of exported keys is all its result depends on.
-/

set_option autoImplicit false

namespace CeresMpc.Lifecycle

open Encoding Interleaving Program Api

variable {lib : Libraries}

/-! ## Tasks an operation touches -/

/-- The operation works on the task, or on a session of the task. -/
def Touched (protocol : ProtocolType) (task : Nat) (engine : Engine lib) (action : Action lib) : Prop :=
  Names protocol task action ∨ ∃ sessionId session, action.OnEntry protocol sessionId ∧
    engine.sessions .secp256k1 protocol sessionId = some session ∧ dklsTask lib protocol session = task

theorem mapTask_tasks (engine : Engine lib) (protocol other : ProtocolType) (task named : Nat)
    (change : EngineRelay lib protocol → EngineRelay lib protocol) :
    (engine.mapTask protocol task change).tasks other named = engine.tasks other named ∨
      engine.tasks other named ≠ none ∧ protocol = other ∧ task = named := by
  unfold Engine.mapTask
  split
  · next relay live =>
    by_cases same : other = protocol
    · subst same
      by_cases here : named = task
      · subst here
        exact .inr ⟨by simp [live], rfl, rfl⟩
      · exact .inl (by simp [Engine.setTask, here])
    · exact .inl (by simp [Engine.setTask, same])
  · exact .inl rfl

/-- An operation leaves a task alone that it neither touches nor spawns. -/
def Kept (protocol : ProtocolType) (task : Nat) (engine : Engine lib) (action : Action lib)
    (after : Engine lib) : Prop :=
  after.tasks protocol task = engine.tasks protocol task ∨
    engine.tasks protocol task ≠ none ∧ Touched protocol task engine action ∨
    (∃ run, action = .spawn protocol run) ∧ task = engine.nextTask

private theorem Kept.mapTask {protocol other : ProtocolType} {task named : Nat} {engine after : Engine lib}
    {action : Action lib} {change : EngineRelay lib other → EngineRelay lib other}
    (kept : Kept protocol task engine action after)
    (touched : other = protocol ∧ named = task → Touched protocol task engine action) :
    Kept protocol task engine action (after.mapTask other named change) := by
  rcases kept with same | others
  · rcases mapTask_tasks after other protocol named task change with unchanged | ⟨live, here⟩
    · exact .inl (unchanged.trans same)
    · rw [same] at live
      exact .inr (.inl ⟨live, touched here⟩)
  · exact .inr others

private theorem Kept.setTask {protocol other : ProtocolType} {task named : Nat} {engine : Engine lib}
    {action : Action lib} {relay changed : EngineRelay lib other} (live : engine.tasks other named = some relay)
    (touched : other = protocol ∧ named = task → Touched protocol task engine action) :
    Kept protocol task engine action (engine.setTask other named changed) := by
  by_cases same : protocol = other
  · subst same
    by_cases here : task = named
    · subst here
      exact .inr (.inl ⟨by simp [live], touched ⟨rfl, rfl⟩⟩)
    · exact .inl (by simp [Engine.setTask, here])
  · exact .inl (by simp [Engine.setTask, same])

theorem interpret_tasks {thread : Nat} {action : Action lib} {answer : Action.Answer lib action}
    {engine after : Engine lib} (moved : engine.interpret thread action = .reply after answer)
    (protocol : ProtocolType) (task : Nat) : Kept protocol task engine action after := by
  cases action with
  | now | random | exportedContains _ | exportedInsert _ | roundSign _ _ _ | release _ =>
      cases moved
      exact .inl rfl
  | contains _ _ _ | remove _ _ _ =>
      simp only [Engine.interpret] at moved
      split at moved <;> cases moved
      exact .inl rfl
  | acquire _ _ | resetConsumed _ =>
      simp only [Engine.interpret] at moved
      split at moved
      · cases moved
      · split at moved <;> cases moved <;> exact .inl rfl
  | join _ _ =>
      simp only [Engine.interpret] at moved
      split at moved
      · split at moved <;> cases moved
        exact .inl rfl
      · cases moved
  | abort _ _ | dropSender _ _ | dropReceiver _ _ =>
      cases moved
      exact Kept.mapTask (.inl rfl) .inl
  | spawn other run =>
      cases moved
      by_cases same : protocol = other
      · subst same
        by_cases here : task = engine.nextTask
        · exact .inr (.inr ⟨⟨run, rfl⟩, here⟩)
        · exact .inl (by simp [Engine.setTask, here])
      · exact .inl (by simp [Engine.setTask, same])
  | send other named message =>
      simp only [Engine.interpret] at moved
      split at moved
      · cases moved
      · next relay live =>
        split at moved <;> cases moved
        exact Kept.setTask live .inl
  | collect other receiver signal =>
      simp only [Engine.interpret, Engine.collect] at moved
      split at moved
      · split at moved
        · cases moved
        · split at moved <;> cases moved
          refine Kept.mapTask (Kept.mapTask (.inl rfl) ?_) ?_
          · exact fun here => .inl ⟨here.1, .inr here.2⟩
          · exact fun here => .inl ⟨here.1, .inl here.2⟩
      · cases moved
  | insert curve other sessionId session =>
      simp only [Engine.interpret] at moved
      split at moved <;> cases moved
      cases curve with
      | ed25519 => exact .inl rfl
      | secp256k1 =>
          cases live : engine.sessions .secp256k1 other sessionId with
          | none => exact .inl rfl
          | some held =>
              have kept : Kept protocol task engine (.insert .secp256k1 other sessionId session)
                  (engine.dropSession .secp256k1 other (some held)) := by
                refine Kept.mapTask (.inl rfl) ?_
                rintro ⟨rfl, here⟩
                exact .inr ⟨sessionId, held, ⟨rfl, rfl⟩, live, here⟩
              exact kept
  | checkout curve other sessionId =>
      simp only [Engine.interpret] at moved
      split at moved <;> cases moved
      unfold Engine.checkout
      split
      · exact .inl rfl
      · next held live =>
        cases curve with
        | ed25519 =>
            dsimp only
            split <;> exact .inl rfl
        | secp256k1 =>
            have touched (here : other = protocol ∧ dklsTask lib other held = task) :
                Touched protocol task engine (.checkout .secp256k1 other sessionId) := by
              obtain ⟨rfl, here⟩ := here
              exact .inr ⟨sessionId, held, ⟨rfl, rfl⟩, live, here⟩
            dsimp only
            split
            · exact Kept.mapTask (Kept.mapTask (.inl rfl) touched) touched
            · split
              · exact .inl rfl
              · exact Kept.mapTask (.inl rfl) touched

theorem interpret_tasks_pending {thread : Nat} {action : Action lib} {engine after : Engine lib}
    (moved : engine.interpret thread action = .pending after) (protocol : ProtocolType) (task : Nat) :
    Kept protocol task engine action after := by
  rcases Engine.pending_channel moved with ⟨other, named, message, rfl⟩ | ⟨other, receiver, signal, rfl⟩
  · simp only [Engine.interpret] at moved
    split at moved
    · cases moved
    · next relay live =>
      split at moved <;> cases moved
      exact Kept.setTask live .inl
  · simp only [Engine.interpret, Engine.collect] at moved
    split at moved
    · split at moved
      · cases moved
        refine Kept.mapTask (Kept.mapTask (.inl rfl) ?_) ?_
        · exact fun here => .inl ⟨here.1, .inr here.2⟩
        · exact fun here => .inl ⟨here.1, .inl here.2⟩
      · split at moved <;> cases moved
        exact Kept.mapTask (.inl rfl) fun here => .inl ⟨here.1, .inl here.2⟩
    · cases moved

/-! ## Other ids -/

variable {Allowed : EngineWorld lib → Move Call Drift → Prop} {world : EngineWorld lib}

private theorem foreign_task (reached : (machine lib).Reaches Allowed (.initial .empty) world) {thread : Nat}
    {call : Call} {action : Action lib} {next : Action.Answer lib action → EngineM lib Reply}
    (found : world.threads[thread]? = some (call, .perform action next)) {protocol other : ProtocolType}
    {sessionId otherId : String} (names : call.scope = some (protocol, sessionId)) (different : otherId ≠ sessionId)
    {task : Nat} (spawned : SpawnedFor world other otherId task) {after : Engine lib}
    (kept : Kept other task world.shared action after) : after.tasks other task = world.shared.tasks other task := by
  rcases kept with same | ⟨_, touched⟩ | ⟨_, newest⟩
  · exact same
  · exfalso
    rcases touched with named | ⟨onId, session, entry, live, here⟩
    · obtain ⟨own, scope, ownSpawned⟩ := named_spawned reached found named
      rw [names] at scope
      cases scope
      exact different (spawned_once reached spawned ownSpawned).2
    · have touches := (reached.follows Call.body_stays thread call _ found).1
      obtain ⟨rfl, rfl⟩ := touches.entry names entry
      exact different (spawned_once reached spawned (session_spawned reached live (.inl here))).2
  · exact absurd (spawned_lt reached spawned) (by omega)

private theorem frame (reached : (machine lib).Reaches Allowed (.initial .empty) world) {thread : Nat} {call : Call}
    (called : world.Called thread call) {protocol : ProtocolType} {sessionId otherId : String}
    (names : call.scope = some (protocol, sessionId)) (different : otherId ≠ sessionId) :
    (∀ curve other, ((machine lib).step world (.run thread)).shared.sessions curve other otherId =
        world.shared.sessions curve other otherId) ∧
      ∀ other task, SpawnedFor world other otherId task →
        ((machine lib).step world (.run thread)).shared.tasks other task = world.shared.tasks other task := by
  obtain ⟨program, found⟩ := called
  cases program with
  | done outcome => simp [Machine.step, found]
  | perform action next =>
      simp only [Machine.step, found]
      split
      · exact ⟨fun _ _ => rfl, fun _ _ _ => rfl⟩
      · next state moved =>
        have moved : world.shared.interpret thread action = .pending state := moved
        constructor
        · obtain ⟨tasks, rfl⟩ := Engine.interpret_pending moved
          exact fun _ _ => rfl
        · intro other task spawned
          exact foreign_task reached found names different spawned (interpret_tasks_pending moved other task)
      · next state answer moved =>
        have moved : world.shared.interpret thread action = .reply state answer := moved
        constructor
        · intro curve other
          refine entry_kept reached moved fun entry => different ?_
          have touches := (reached.follows Call.body_stays thread call _ found).1
          exact (touches.entry names entry).2
        · intro other task spawned
          exact foreign_task reached found names different spawned (interpret_tasks moved other task)

/-! ## Two states -/

/-- The engines agree on what a call on the id can see. `known` are the tasks whose
names it can come to know. -/
structure Agree (sessionId : String) (known : ProtocolType → Nat → Prop) (left right : Engine lib) : Prop where
  clock : left.clock = right.clock
  draws : left.draws = right.draws
  nextTask : left.nextTask = right.nextTask
  exportedKeys : left.exportedKeys = right.exportedKeys
  locks : ∀ protocol, (left.locks protocol).isSome = (right.locks protocol).isSome
  sessions : ∀ curve protocol, left.sessions curve protocol sessionId = right.sessions curve protocol sessionId
  tasks : ∀ protocol task, known protocol task → left.tasks protocol task = right.tasks protocol task
  owned : ∀ protocol session task, left.sessions .secp256k1 protocol sessionId = some session →
    HasTask session task → known protocol task
  fresh : ∀ protocol task, left.nextTask ≤ task → known protocol task

namespace Agree

variable {sessionId : String} {known : ProtocolType → Nat → Prop} {left right : Engine lib}

theorem locked (agree : Agree sessionId known left right) (curve : Curve) (protocol : ProtocolType) :
    left.locked curve protocol = right.locked curve protocol := by
  cases curve with
  | secp256k1 => exact agree.locks protocol
  | ed25519 => rfl

theorem setTask (agree : Agree sessionId known left right) (protocol : ProtocolType) (task : Nat)
    (relay : EngineRelay lib protocol) :
    Agree sessionId known (left.setTask protocol task relay) (right.setTask protocol task relay) := by
  refine { agree with tasks := fun other named knows => ?_ }
  by_cases same : other = protocol
  · subst same
    by_cases here : named = task
    · simp [Engine.setTask, here]
    · simpa [Engine.setTask, here] using agree.tasks other named knows
  · simpa [Engine.setTask, same] using agree.tasks other named knows

theorem mapTask (agree : Agree sessionId known left right) (protocol : ProtocolType) (task : Nat)
    (change : EngineRelay lib protocol → EngineRelay lib protocol) :
    Agree sessionId known (left.mapTask protocol task change) (right.mapTask protocol task change) := by
  have same (other : ProtocolType) (named : Nat) (knows : known other named) :
      (left.mapTask protocol task change).tasks other named =
        (right.mapTask protocol task change).tasks other named := by
    have before := agree.tasks other named knows
    by_cases here : protocol = other ∧ task = named
    · obtain ⟨rfl, rfl⟩ := here
      unfold Engine.mapTask
      rw [before]
      cases live : right.tasks protocol task with
      | none => simp [before, live]
      | some relay => simp [Engine.setTask]
    · rcases mapTask_tasks left protocol other task named change with kept | ⟨_, impossible⟩
      · rcases mapTask_tasks right protocol other task named change with keptRight | ⟨_, impossible⟩
        · rw [kept, keptRight, before]
        · exact absurd impossible here
      · exact absurd impossible here
  rw [Engine.mapTask_frame left, Engine.mapTask_frame right]
  exact { agree with tasks := same }

theorem setSession (agree : Agree sessionId known left right) (curve : Curve) (protocol : ProtocolType)
    {session : Option (Session lib curve protocol)}
    (owned : ∀ (secp : curve = .secp256k1) held task, secp ▸ session = some held → HasTask held task →
      known protocol task) :
    Agree sessionId known (left.setSession curve protocol sessionId session)
      (right.setSession curve protocol sessionId session) := by
  refine { agree with sessions := fun other otherProtocol => ?_, owned := fun other held task live has => ?_ }
  · by_cases same : (curve, protocol) = (other, otherProtocol)
    · cases same
      simp
    · rw [Engine.setSession_sessions_of_ne _ _ _ _ _ same, Engine.setSession_sessions_of_ne _ _ _ _ _ same]
      exact agree.sessions other otherProtocol
  · by_cases same : (curve, protocol) = (.secp256k1, other)
    · cases same
      simp only [Engine.setSession_sessions_self, Function.update_self] at live
      exact owned rfl held task live has
    · rw [Engine.setSession_sessions_of_ne _ _ _ _ _ same] at live
      exact agree.owned other held task live has

theorem dropSession (agree : Agree sessionId known left right) (curve : Curve) (protocol : ProtocolType)
    (session : Option (Session lib curve protocol)) :
    Agree sessionId known (left.dropSession curve protocol session) (right.dropSession curve protocol session) := by
  cases curve with
  | ed25519 => exact agree
  | secp256k1 =>
      cases session with
      | none => exact agree
      | some held => exact agree.mapTask protocol _ _

end Agree

/-- Both engines react alike. -/
inductive Alike (sessionId : String) (known : ProtocolType → Nat → Prop) {Answer : Type} :
    Reaction (Engine lib) Answer → Reaction (Engine lib) Answer → Prop where
  | blocked : Alike sessionId known .blocked .blocked
  | pending {left right} : Agree sessionId known left right → Alike sessionId known (.pending left) (.pending right)
  | reply {left right answer} : Agree sessionId known left right →
      Alike sessionId known (.reply left answer) (.reply right answer)

/-- The operation stays with the id and the tasks that are known. -/
structure StaysOn (sessionId : String) (known : ProtocolType → Nat → Prop) (action : Action lib) : Prop where
  entry : ∀ protocol otherId, action.OnEntry protocol otherId → otherId = sessionId
  looks : ∀ curve protocol otherId, action = .contains curve protocol otherId → otherId = sessionId
  tasks : ∀ protocol task, Names protocol task action → known protocol task
  owns : ∀ protocol otherId session task, action = .insert .secp256k1 protocol otherId session →
    HasTask session task → known protocol task

variable {sessionId : String} {known : ProtocolType → Nat → Prop}

/-- Tasks whose names an answer tells are known. -/
theorem learned_known {thread : Nat} {action : Action lib} {answer : Action.Answer lib action}
    {left right after : Engine lib} (agree : Agree sessionId known left right)
    (moved : left.interpret thread action = .reply after answer) {protocol : ProtocolType} {task : Nat}
    (learned : Learned protocol sessionId task [⟨action, answer⟩]) : known protocol task := by
  cases learned with
  | spawned member =>
      cases List.mem_singleton.mp member
      cases moved
      exact agree.fresh protocol _ (Nat.le_refl _)
  | found member finds has =>
      cases List.mem_singleton.mp member
      exact agree.owned protocol _ task (found_live finds moved) has

private theorem checkout_alike {left right : Engine lib} (agree : Agree sessionId known left right) (curve : Curve)
    (protocol : ProtocolType) :
    (left.checkout curve protocol sessionId).2 = (right.checkout curve protocol sessionId).2 ∧
      Agree sessionId known (left.checkout curve protocol sessionId).1 (right.checkout curve protocol sessionId).1 := by
  unfold Engine.checkout
  rw [agree.sessions curve protocol, agree.clock]
  split
  · exact ⟨rfl, agree⟩
  · next session live =>
    have evicted : Agree sessionId known (left.setSession curve protocol sessionId none)
        (right.setSession curve protocol sessionId none) :=
      agree.setSession curve protocol fun secp held task impossible => by cases secp; cases impossible
    cases curve with
    | ed25519 =>
        dsimp only
        split
        · exact ⟨rfl, evicted⟩
        · exact ⟨rfl, agree⟩
    | secp256k1 =>
        dsimp only
        split
        · exact ⟨rfl, (evicted.mapTask protocol _ _).dropSession .secp256k1 protocol (some session)⟩
        · split
          · exact ⟨rfl, agree⟩
          · exact ⟨rfl, agree.mapTask protocol _ _⟩

private theorem collect_alike {left right : Engine lib} (agree : Agree sessionId known left right)
    {protocol : ProtocolType} {receiver signal : Nat} (receives : known protocol receiver)
    (signals : known protocol signal) :
    Alike sessionId known (left.collect protocol receiver signal) (right.collect protocol receiver signal) := by
  unfold Engine.collect
  rw [agree.tasks protocol receiver receives, agree.tasks protocol signal signals]
  split
  · split
    · exact .pending ((agree.mapTask protocol signal _).mapTask protocol receiver _)
    · dsimp only
      split
      · exact .blocked
      · exact .pending (agree.mapTask protocol receiver _)
      · exact .reply ((agree.mapTask protocol signal _).mapTask protocol receiver _)
  · exact .blocked

theorem interpret_alike {left right : Engine lib} (agree : Agree sessionId known left right) {action : Action lib}
    (stays : StaysOn sessionId known action) (thread other : Nat) :
    Alike sessionId known (left.interpret thread action) (right.interpret other action) := by
  cases action with
  | now =>
      simp only [Engine.interpret]
      rw [agree.clock]
      exact .reply agree
  | random =>
      simp only [Engine.interpret]
      rw [agree.draws]
      exact .reply { agree with draws := rfl }
  | contains curve protocol otherId =>
      obtain rfl := stays.looks curve protocol otherId rfl
      simp only [Engine.interpret]
      rw [agree.locked, agree.sessions]
      split
      · exact .blocked
      · exact .reply agree
  | insert curve protocol otherId session =>
      obtain rfl := stays.entry protocol otherId ⟨rfl, rfl⟩
      simp only [Engine.interpret]
      rw [agree.locked, agree.sessions]
      split
      · exact .blocked
      · refine .reply ((agree.dropSession curve protocol _).setSession curve protocol ?_)
        intro secp held task same has
        cases secp
        cases same
        exact stays.owns protocol otherId _ task rfl has
  | remove curve protocol otherId =>
      obtain rfl := stays.entry protocol otherId ⟨rfl, rfl⟩
      simp only [Engine.interpret]
      rw [agree.locked, agree.sessions]
      split
      · exact .blocked
      · refine .reply (agree.setSession curve protocol ?_)
        intro secp held task impossible
        cases secp
        cases impossible
  | checkout curve protocol otherId =>
      obtain rfl := stays.entry protocol otherId ⟨rfl, rfl⟩
      obtain ⟨same, after⟩ := checkout_alike agree curve protocol
      simp only [Engine.interpret]
      rw [agree.locked, same]
      split
      · exact .blocked
      · exact .reply after
  | acquire protocol otherId =>
      obtain rfl := stays.entry protocol otherId ⟨rfl, rfl⟩
      have held : Agree otherId known
          { left with locks := Function.update left.locks protocol (some thread) }
          { right with locks := Function.update right.locks protocol (some other) } := by
        refine { agree with locks := fun locked => ?_ }
        by_cases same : locked = protocol
        · simp [same]
        · simpa [same] using agree.locks locked
      simp only [Engine.interpret]
      rw [agree.locked, agree.sessions]
      split
      · exact .blocked
      split
      · next session live =>
        refine .reply (held.setSession .secp256k1 protocol ?_)
        intro secp marked task same has
        cases same
        refine agree.owned protocol session task ((agree.sessions _ _).trans live) ?_
        exact (hasTask_lasting (markConsumed_mark lib false true .secp256k1 protocol session)).mp has
      · exact .reply held
  | release protocol =>
      refine .reply { agree with locks := fun locked => ?_ }
      by_cases same : locked = protocol
      · simp [same]
      · simpa [same] using agree.locks locked
  | resetConsumed otherId =>
      obtain rfl := stays.entry .dsg otherId ⟨rfl, rfl⟩
      simp only [Engine.interpret]
      rw [agree.locked, agree.sessions]
      split
      · exact .blocked
      split
      · next session live =>
        refine .reply (agree.setSession .secp256k1 .dsg ?_)
        intro secp marked task same has
        cases same
        refine agree.owned .dsg session task ((agree.sessions _ _).trans live) ?_
        exact (hasTask_lasting (markConsumed_mark lib false false .secp256k1 .dsg session)).mp has
      · exact .reply agree
  | exportedContains key =>
      simp only [Engine.interpret]
      rw [agree.exportedKeys]
      exact .reply agree
  | exportedInsert key => exact .reply { agree with exportedKeys := congrArg (key :: ·) agree.exportedKeys }
  | roundSign package nonces keyPackage => exact .reply agree
  | spawn protocol run =>
      simp only [Engine.interpret]
      rw [agree.nextTask]
      have counted : Agree sessionId known { left with nextTask := right.nextTask + 1 }
          { right with nextTask := right.nextTask + 1 } := by
        refine { agree with nextTask := rfl, fresh := fun other task beyond => ?_ }
        have before := agree.nextTask
        exact agree.fresh other task (by dsimp only at beyond; omega)
      exact .reply (counted.setTask protocol right.nextTask _)
  | send protocol task message =>
      simp only [Engine.interpret]
      rw [agree.tasks protocol task (stays.tasks protocol task ⟨rfl, rfl⟩)]
      split
      · exact .blocked
      split
      · exact .blocked
      · exact .pending (agree.setTask protocol task _)
      · exact .reply (agree.setTask protocol task _)
  | collect protocol receiver signal =>
      exact collect_alike agree (stays.tasks protocol receiver ⟨rfl, .inl rfl⟩)
        (stays.tasks protocol signal ⟨rfl, .inr rfl⟩)
  | join protocol task =>
      simp only [Engine.interpret]
      rw [agree.tasks protocol task (stays.tasks protocol task ⟨rfl, rfl⟩)]
      split
      · split
        · exact .reply agree
        · exact .blocked
      · exact .blocked
  | abort protocol task => exact .reply (agree.mapTask protocol task _)
  | dropSender protocol task => exact .reply (agree.mapTask protocol task _)
  | dropReceiver protocol task => exact .reply (agree.mapTask protocol task _)

/-! ## Two runs -/

private theorem staysOn (reached : (machine lib).Reaches Allowed (.initial .empty) world) {thread : Nat}
    {call : Call} {action : Action lib} {next : Action.Answer lib action → EngineM lib Reply}
    (found : world.threads[thread]? = some (call, .perform action next)) {protocol : ProtocolType}
    (names : call.scope = some (protocol, sessionId))
    (learned : ∀ entry ∈ past thread world.trace, ∀ protocol task, Learned protocol sessionId task [entry] →
      known protocol task) : StaysOn sessionId known action := by
  have step := (reached.follows Call.body_steps thread call _ found).1
  have touches := (reached.follows Call.body_stays thread call _ found).1
  constructor
  · intro other otherId entry
    exact (touches.entry names entry).2
  · rintro curve other otherId rfl
    rw [Call.Touches, names] at touches
    rcases touches with same | ⟨_, within⟩
    · cases same
      rfl
    · exact within.elim
  · intro other task named
    obtain ⟨own, scope, learnt⟩ := learned_of_names step named
    rw [names] at scope
    cases scope
    cases learnt with
    | spawned member => exact learned _ member _ task (.spawned List.mem_cons_self)
    | found member finds has => exact learned _ member _ task (.found List.mem_cons_self finds has)
  · rintro other otherId session task rfl has
    obtain ⟨_, _, run, own, spawned, owns⟩ := spawned_of_insert step
    obtain rfl := owns_hasTask owns has
    exact learned _ spawned other task (.spawned List.mem_cons_self)

/-- What happens while a call runs alone. -/
inductive Beat where
  | own
  | tick (elapsed : Nat)
  | poll (protocol : ProtocolType) (task : Nat)

def Beat.move (thread : Nat) : Beat → Move Call Drift
  | .own => .run thread
  | .tick elapsed => .drift (.tick elapsed)
  | .poll protocol task => .drift (.poll protocol task)

/-- Make a call and let it run. -/
def perform (call : Call) (beats : List Beat) (world : EngineWorld lib) : EngineWorld lib :=
  (machine lib).run (beats.map (Beat.move world.threads.length)) ((machine lib).step world (.start call))

/-- Two runs of one call in step. -/
private structure Paired (sessionId : String) (known : ProtocolType → Nat → Prop) (call : Call) (thread other : Nat)
    (left right : EngineWorld lib) : Prop where
  reached : (machine lib).Reaches Machine.Any (.initial .empty) left
  program : ∃ program, left.threads[thread]? = some (call, program) ∧ right.threads[other]? = some (call, program)
  learned : ∀ entry ∈ past thread left.trace, ∀ protocol task, Learned protocol sessionId task [entry] →
    known protocol task
  agree : Agree sessionId known left.shared right.shared

private theorem Paired.step {call : Call} {thread other : Nat} {left right : EngineWorld lib}
    (paired : Paired sessionId known call thread other left right) {protocol : ProtocolType}
    (names : call.scope = some (protocol, sessionId)) (beat : Beat) :
    Paired sessionId known call thread other ((machine lib).step left (beat.move thread))
      ((machine lib).step right (beat.move other)) := by
  obtain ⟨reached, ⟨program, found, copy⟩, learned, agree⟩ := paired
  have onward : (machine lib).Reaches Machine.Any (.initial .empty) ((machine lib).step left (beat.move thread)) :=
    .step _ reached trivial
  cases beat with
  | tick elapsed =>
      refine ⟨onward, ⟨program, found, copy⟩, learned, ?_⟩
      exact { agree with clock := congrArg (· + elapsed) agree.clock }
  | poll other task => exact ⟨onward, ⟨program, found, copy⟩, learned, agree.mapTask other task _⟩
  | own =>
      cases program with
      | done outcome =>
          simp only [Beat.move, Machine.step, found, copy] at onward ⊢
          exact ⟨onward, ⟨_, found, copy⟩, learned, agree⟩
      | perform action next =>
          have alike := interpret_alike agree (staysOn reached found names learned) thread other
          simp only [Beat.move, Machine.step, found, copy] at onward ⊢
          change Alike sessionId known ((machine lib).interpret thread action left.shared)
            ((machine lib).interpret other action right.shared) at alike
          revert onward
          generalize reaction : (machine lib).interpret thread action left.shared = first at alike
          generalize (machine lib).interpret other action right.shared = second at alike
          intro onward
          cases alike with
          | blocked => exact ⟨onward, ⟨_, found, copy⟩, learned, agree⟩
          | pending after => exact ⟨onward, ⟨_, found, copy⟩, learned, after⟩
          | @reply _ _ answer after =>
              refine ⟨onward, ⟨next answer, ?_, ?_⟩, ?_, after⟩
              · exact List.getElem?_set_self (List.getElem?_eq_some_iff.mp found).1
              · exact List.getElem?_set_self (List.getElem?_eq_some_iff.mp copy).1
              · intro entry member protocol task learnt
                rw [past_cons_self] at member
                rcases List.mem_cons.mp member with rfl | before
                · exact learned_known agree reaction learnt
                · exact learned entry before protocol task learnt

/-- The states agree on what is under the id, on the registry, and on what a call gets
from its surroundings. -/
structure AgreeOn (sessionId : String) (left right : Engine lib) : Prop where
  sessions : ∀ curve protocol, left.sessions curve protocol sessionId = right.sessions curve protocol sessionId
  tasks : ∀ protocol session task, left.sessions .secp256k1 protocol sessionId = some session →
    HasTask session task → left.tasks protocol task = right.tasks protocol task
  exportedKeys : left.exportedKeys = right.exportedKeys
  clock : left.clock = right.clock
  draws : left.draws = right.draws
  nextTask : left.nextTask = right.nextTask
  locks : ∀ protocol, (left.locks protocol).isSome = (right.locks protocol).isSome

/-- No task has a name that is still to be given. -/
theorem unspawned (reached : (machine lib).Reaches Allowed (.initial .empty) world) :
    ∀ protocol task, world.shared.nextTask ≤ task → world.shared.tasks protocol task = none := by
  refine reached.invariant (fun world => ∀ protocol task, world.shared.nextTask ≤ task →
    world.shared.tasks protocol task = none) ?_ ?_ ?_ ?_ ?_
  · intro protocol task _
    rfl
  · intro world call _ unspawned _
    exact unspawned
  · intro world thread call action next state answer _ unspawned _ _ moved protocol task beyond
    have moved : world.shared.interpret thread action = .reply state answer := moved
    have counted : state.nextTask = world.shared.nextTask + action.spawned :=
      (Engine.interpret_registers moved).2.2.2
    change state.nextTask ≤ task at beyond
    have before := unspawned protocol task (by omega)
    rcases interpret_tasks moved protocol task with same | ⟨live, _⟩ | ⟨⟨run, rfl⟩, newest⟩
    · exact same.trans before
    · exact absurd before live
    · simp only [Action.spawned] at counted
      omega
  · intro world thread call action next state _ unspawned _ _ moved protocol task beyond
    have moved : world.shared.interpret thread action = .pending state := moved
    have kept := interpret_tasks_pending moved protocol task
    obtain ⟨tasks, rfl⟩ := Engine.interpret_pending moved
    have before := unspawned protocol task beyond
    rcases kept with same | ⟨live, _⟩ | ⟨⟨run, rfl⟩, _⟩
    · exact same.trans before
    · exact absurd before live
    · cases moved
  · intro world change _ unspawned _ protocol task beyond
    cases change with
    | tick elapsed => exact unspawned protocol task beyond
    | poll other named =>
        change (world.shared.mapTask other named _).nextTask ≤ task at beyond
        rw [Engine.mapTask_frame] at beyond
        have before := unspawned protocol task beyond
        rcases mapTask_tasks world.shared other protocol named task (Relay.poll lib.dkls.resume) with same | ⟨live, _⟩
        · exact same.trans before
        · exact absurd before live

private theorem perform_alike {left right : EngineWorld lib}
    (reached : (machine lib).Reaches Machine.Any (.initial .empty) left)
    (copy : (machine lib).Reaches Machine.Any (.initial .empty) right) {call : Call} {protocol : ProtocolType}
    (names : call.scope = some (protocol, sessionId)) (agree : AgreeOn sessionId left.shared right.shared)
    (beats : List Beat) :
    ∃ known, Paired sessionId known call left.threads.length right.threads.length (perform call beats left)
      (perform call beats right) := by
  let known (protocol : ProtocolType) (task : Nat) : Prop := left.shared.nextTask ≤ task ∨
    ∃ session, left.shared.sessions .secp256k1 protocol sessionId = some session ∧ HasTask session task
  refine ⟨known, ?_⟩
  have start : Paired sessionId known call left.threads.length right.threads.length
      ((machine lib).step left (.start call)) ((machine lib).step right (.start call)) := by
    refine ⟨.step _ reached trivial, ⟨call.body lib, by simp [Machine.step, machine], by simp [Machine.step, machine]⟩,
      ?_, ?_⟩
    · intro entry member
      have unseen : past left.threads.length left.trace = [] := past_eq_nil_of_fresh reached.trace_lt
      change entry ∈ past left.threads.length left.trace at member
      rw [unseen] at member
      cases member
    · refine ⟨agree.clock, agree.draws, agree.nextTask, agree.exportedKeys, agree.locks, agree.sessions, ?_, ?_, ?_⟩
      · rintro other task (beyond | ⟨session, live, has⟩)
        · have beyondCopy : right.shared.nextTask ≤ task := agree.nextTask ▸ beyond
          exact (unspawned reached other task beyond).trans (unspawned copy other task beyondCopy).symm
        · exact agree.tasks other session task live has
      · intro other session task live has
        exact .inr ⟨session, live, has⟩
      · intro other task beyond
        exact .inl beyond
  unfold perform Machine.run
  generalize (machine lib).step left (.start call) = first at start
  generalize (machine lib).step right (.start call) = second at start
  induction beats generalizing first second with
  | nil => exact start
  | cons beat rest ih => exact ih _ _ (start.step names beat)

/-- A call does nothing to other ids, and depends on nothing of theirs. -/
structure SessionsApart (lib : Libraries) : Prop where
  frame : ∀ world : EngineWorld lib, (machine lib).Reaches Machine.Any (.initial .empty) world →
    ∀ thread call protocol sessionId otherId, world.Called thread call → call.scope = some (protocol, sessionId) →
      otherId ≠ sessionId →
      (∀ curve other, ((machine lib).step world (.run thread)).shared.sessions curve other otherId =
          world.shared.sessions curve other otherId) ∧
        ∀ other task, SpawnedFor world other otherId task →
          ((machine lib).step world (.run thread)).shared.tasks other task = world.shared.tasks other task
  owned : ∀ world : EngineWorld lib, (machine lib).Reaches Machine.Any (.initial .empty) world →
    ∀ protocol sessionId session, world.shared.sessions .secp256k1 protocol sessionId = some session →
      SpawnedFor world protocol sessionId (dklsTask lib protocol session)
  alike : ∀ left right : EngineWorld lib, (machine lib).Reaches Machine.Any (.initial .empty) left →
    (machine lib).Reaches Machine.Any (.initial .empty) right → ∀ call protocol sessionId,
      call.scope = some (protocol, sessionId) → AgreeOn sessionId left.shared right.shared → ∀ beats,
        (∀ outcome, (perform call beats left).Returned left.threads.length call outcome ↔
          (perform call beats right).Returned right.threads.length call outcome) ∧
        ∀ curve other, (perform call beats left).shared.sessions curve other sessionId =
          (perform call beats right).shared.sessions curve other sessionId

end CeresMpc.Lifecycle
