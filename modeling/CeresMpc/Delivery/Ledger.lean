import CeresMpc.Interleaving.Records
import CeresMpc.Lifecycle.Isolation

/-!
# Accounts of a task's channels

A message the caller has put in is read or still in the input channel; a message the
task has put out is in a returned batch, in the batch being collected, or still in the
output channel. Nothing else happens to messages, and their order stays.
-/

set_option autoImplicit false

namespace CeresMpc

open Encoding Interleaving Api

/-! ## A relay -/

/-- What a protocol task does at its end of the channels. -/
inductive Passage where
  | wrote (message : Bytes)
  | took (message : Bytes)
  deriving DecidableEq

namespace Passage

def written : Passage → List Bytes
  | .wrote message => [message]
  | .took _ => []

def taken : Passage → List Bytes
  | .wrote _ => []
  | .took message => [message]

end Passage

namespace Relay

variable {Protocol Output : Type}

/-- The message that passes when the task is polled. -/
def passages (resume : Protocol → ProtocolStep Protocol Output) (relay : Relay Protocol Output) : List Passage :=
  match relay.task with
  | .ended _ => []
  | .running protocol =>
      match resume protocol with
      | .finish _ => []
      | .send message _ =>
          if relay.receiver ∧ relay.output.length < outputCapacity then [.wrote message] else []
      | .receive _ =>
          match relay.input with
          | message :: _ => [.took message]
          | [] => []

/-- Messages of the task no caller has got yet, in their order. -/
def pending (relay : Relay Protocol Output) : List Bytes :=
  match relay.collector with
  | some collector => collector.messages ++ relay.output
  | none => relay.output

/-- A batch is empty until its first message has come. -/
def Fresh (relay : Relay Protocol Output) : Prop :=
  ∀ collector, relay.collector = some collector → collector.phase = .first → collector.messages = []

/-- Nothing passes through the channels, and a task that has ended stays so. -/
structure Rests (before after : Relay Protocol Output) : Prop where
  input : after.input = before.input
  output : after.output = before.output
  collector : after.collector = before.collector
  closed : before.closed = true → after.closed = true

theorem Rests.pending {before after : Relay Protocol Output} (rests : Rests before after) :
    after.pending = before.pending := by
  simp only [Relay.pending, rests.collector, rests.output]

theorem Rests.fresh {before after : Relay Protocol Output} (rests : Rests before after) (fresh : before.Fresh) :
    after.Fresh := by
  intro collector underway
  rw [rests.collector] at underway
  exact fresh collector underway

theorem Rests.trans {before between after : Relay Protocol Output} (first : Rests before between)
    (second : Rests between after) : Rests before after :=
  ⟨second.input.trans first.input, second.output.trans first.output, second.collector.trans first.collector,
    fun ended => second.closed (first.closed ended)⟩

theorem rests_cancel (relay : Relay Protocol Output) : Rests relay relay.cancel := by
  unfold cancel
  split
  · exact ⟨rfl, rfl, rfl, fun _ => rfl⟩
  · exact ⟨rfl, rfl, rfl, id⟩

variable (resume : Protocol → ProtocolStep Protocol Output) (relay : Relay Protocol Output)

theorem poll_collector : (relay.poll resume).collector = relay.collector := by
  unfold poll
  repeat' split
  all_goals rfl

theorem poll_closed (ended : relay.closed = true) : relay.poll resume = relay := by
  unfold closed at ended
  unfold poll
  split
  · rfl
  · next protocol running =>
    simp [running] at ended

/-- What is polled in comes from the head of the input, what is polled out goes to the end of the output. -/
theorem poll_exchange :
    relay.input = (relay.passages resume).flatMap Passage.taken ++ (relay.poll resume).input ∧
      (relay.poll resume).output = relay.output ++ (relay.passages resume).flatMap Passage.written := by
  cases state : relay.task with
  | ended result => simp [poll, passages, state]
  | running protocol =>
      cases reply : resume protocol with
      | finish outcome => simp [poll, passages, state, reply]
      | send message next =>
          by_cases room : relay.receiver ∧ relay.output.length < outputCapacity
          · simp [poll, passages, state, reply, room, Passage.taken, Passage.written]
          · simp [poll, passages, state, reply, room]
      | receive next =>
          cases queued : relay.input with
          | cons message rest => simp [poll, passages, state, reply, queued, Passage.taken, Passage.written]
          | nil =>
              by_cases gone : relay.senders = 0
              · simp [poll, passages, state, reply, queued, gone]
              · simp [poll, passages, state, reply, queued, gone]

theorem poll_pending :
    (relay.poll resume).pending = relay.pending ++ (relay.passages resume).flatMap Passage.written := by
  unfold pending
  rw [poll_collector, (poll_exchange resume relay).2]
  split
  · rw [List.append_assoc]
  · rfl

end Relay

/-! ## A batch -/

namespace Collector

variable {collector : Collector} {woken closed : Bool} {output : List Bytes}

theorem advance_continue {next : Collector} {rest : List Bytes}
    (moved : collector.advance woken closed output = .continue next rest)
    (fresh : collector.phase = .first → collector.messages = []) :
    next.messages ++ rest = collector.messages ++ output ∧ next.phase ≠ .first := by
  unfold advance at moved
  split at moved
  · next message later phase =>
    cases moved
    simp [fresh phase]
  · split at moved <;> cases moved
  · split at moved
    · cases moved
      simp
    · split at moved
      · next phase _ _ _ _ =>
        cases moved
        simp [phase]
      · split at moved
        · cases moved
          simp
        · cases moved
  · next message later phase =>
    cases moved
    simp [phase]
  · cases moved

theorem advance_return {observed : Bool} {batch : Option (List Bytes × Bool)}
    (moved : collector.advance woken closed output = .return observed batch)
    (fresh : collector.phase = .first → collector.messages = []) :
    output = [] ∧ collector.messages = (batch.map Prod.fst).getD [] ∧ (batch = none → closed = true) := by
  unfold advance at moved
  split at moved
  · cases moved
  · next phase =>
    split at moved
    · next ended =>
      cases moved
      exact ⟨rfl, fresh phase, fun _ => ended⟩
    · cases moved
  · split at moved
    · cases moved
    · split at moved
      · cases moved
      · split at moved <;> cases moved
  · cases moved
  · cases moved
    exact ⟨rfl, rfl, fun absent => by cases absent⟩

end Collector

/-! ## Operations -/

variable {lib : Libraries}

/-- What an operation has put into a task's input. -/
def accepts (protocol : ProtocolType) (task : Nat) : Entry (Action lib) (Action.Answer lib) → List Bytes
  | ⟨.send other named message, true⟩ => if other = protocol ∧ named = task then [message] else []
  | _ => []

/-- What an operation has got out of a task's output. -/
def gathers (protocol : ProtocolType) (task : Nat) : Entry (Action lib) (Action.Answer lib) → List Bytes
  | ⟨.collect other receiver _, some (batch, _)⟩ => if other = protocol ∧ receiver = task then batch else []
  | _ => []

/-- How an operation that is answered changes a task's channels. -/
structure Accounts (protocol : ProtocolType) (task : Nat) (entry : Entry (Action lib) (Action.Answer lib))
    (before after : EngineRelay lib protocol) : Prop where
  input : after.input = before.input ++ accepts protocol task entry
  pending : before.pending = gathers protocol task entry ++ after.pending
  fresh : after.Fresh
  closed : before.closed = true → after.closed = true ∧ accepts protocol task entry = []
  refused : ∀ message, entry = ⟨.send protocol task message, false⟩ → before.closed = true
  emptied : ∀ signal, entry = ⟨.collect protocol task signal, none⟩ → before.closed = true ∧ before.pending = []

theorem Relay.Rests.accounts {protocol : ProtocolType} {task : Nat} {entry : Entry (Action lib) (Action.Answer lib)}
    {before after : EngineRelay lib protocol} (rests : Relay.Rests before after) (fresh : before.Fresh)
    (still : accepts protocol task entry = [] ∧ gathers protocol task entry = [])
    (noRefusal : ∀ message, entry ≠ ⟨.send protocol task message, false⟩)
    (noEnd : ∀ signal, entry ≠ ⟨.collect protocol task signal, none⟩) : Accounts protocol task entry before after :=
  { input := by rw [still.1, rests.input, List.append_nil]
    pending := by rw [still.2, rests.pending, List.nil_append]
    fresh := rests.fresh fresh
    closed := fun ended => ⟨rests.closed ended, still.1⟩
    refused := fun message same => absurd same (noRefusal message)
    emptied := fun signal same => absurd same (noEnd signal) }

namespace Engine

/-- Whatever became of the other tasks, this one rests. -/
def TaskRests (protocol : ProtocolType) (task : Nat) (engine after : Engine lib) : Prop :=
  ∀ relay, engine.tasks protocol task = some relay →
    ∃ later, after.tasks protocol task = some later ∧ Relay.Rests relay later

variable {protocol : ProtocolType} {task : Nat} {engine after : Engine lib}

theorem taskRests_of_same (same : after.tasks protocol task = engine.tasks protocol task) :
    TaskRests protocol task engine after :=
  fun relay live => ⟨relay, same.trans live, rfl, rfl, rfl, id⟩

theorem TaskRests.mapTask (rests : TaskRests protocol task engine after) {other : ProtocolType} {named : Nat}
    {change : EngineRelay lib other → EngineRelay lib other}
    (idle : other = protocol ∧ named = task → ∀ relay, Relay.Rests relay (change relay)) :
    TaskRests protocol task engine (after.mapTask other named change) := by
  intro relay live
  obtain ⟨later, still, rested⟩ := rests relay live
  unfold Engine.mapTask
  split
  · next target found =>
    by_cases here : other = protocol ∧ named = task
    · obtain ⟨rfl, rfl⟩ := here
      rw [found] at still
      cases still
      exact ⟨change target, by simp [Engine.setTask], rested.trans (idle ⟨rfl, rfl⟩ target)⟩
    · refine ⟨later, ?_, rested⟩
      rw [← still]
      by_cases same : protocol = other
      · subst same
        have elsewhere : task ≠ named := fun same => here ⟨rfl, same.symm⟩
        simp [Engine.setTask, elsewhere]
      · simp [Engine.setTask, same]
  · exact ⟨later, still, rested⟩

theorem TaskRests.dropSession (rests : TaskRests protocol task engine after) (curve : Curve) (other : ProtocolType)
    (session : Option (Session lib curve other)) :
    TaskRests protocol task engine (after.dropSession curve other session) := by
  unfold Engine.dropSession
  split
  · exact rests.mapTask fun _ _ => ⟨rfl, rfl, rfl, id⟩
  · exact rests

theorem checkout_rests (curve : Curve) (other : ProtocolType) (sessionId : String) :
    TaskRests protocol task engine (engine.checkout curve other sessionId).1 := by
  have same : TaskRests protocol task engine engine := taskRests_of_same rfl
  unfold Engine.checkout
  split
  · exact same
  · next session live =>
    cases curve with
    | ed25519 =>
        dsimp only
        split
        · exact taskRests_of_same rfl
        · exact same
    | secp256k1 =>
        dsimp only
        split
        · have evicted : TaskRests protocol task engine (engine.setSession .secp256k1 other sessionId none) :=
            taskRests_of_same rfl
          exact (evicted.mapTask fun _ relay => relay.rests_cancel).dropSession _ _ _
        · split
          · exact same
          · exact same.mapTask fun _ _ => ⟨rfl, rfl, rfl, id⟩

theorem mapTask_self {change : EngineRelay lib protocol → EngineRelay lib protocol} {relay : EngineRelay lib protocol}
    (live : engine.tasks protocol task = some relay) :
    (engine.mapTask protocol task change).tasks protocol task = some (change relay) := by
  simp [Engine.mapTask, live, Engine.setTask]

theorem setTask_rests {other : ProtocolType} {target : Nat} (elsewhere : ¬(other = protocol ∧ target = task))
    (relay : EngineRelay lib other) : TaskRests protocol task engine (engine.setTask other target relay) := by
  apply taskRests_of_same
  by_cases same : protocol = other
  · subst same
    have different : task ≠ target := fun same => elsewhere ⟨rfl, same.symm⟩
    simp [setTask, different]
  · simp [setTask, same]

private theorem send_accounts {message : Bytes} {relay later : EngineRelay lib protocol} {sent : Bool}
    (moved : relay.send message = .reply later sent) (fresh : relay.Fresh) :
    Accounts protocol task ⟨.send protocol task message, sent⟩ relay later := by
  unfold Relay.send at moved
  split at moved
  · next ended =>
    cases moved
    exact ⟨by simp [accepts], rfl, fresh, fun closed => ⟨closed, rfl⟩, fun _ _ => ended, by rintro _ ⟨⟩⟩
  · next running =>
    split at moved
    · cases moved
      refine ⟨by simp [accepts], rfl, fresh, ?_, by rintro _ ⟨⟩, by rintro _ ⟨⟩⟩
      exact fun closed => absurd closed running
    · cases moved

/-- `later` is the relay after the notification has been released. -/
private theorem collect_accounts {signal : Nat} {collector : Collector} {woken observed : Bool}
    {batch : Option (List Bytes × Bool)} {relay later : EngineRelay lib protocol}
    (underway : relay.collector = some collector)
    (returned : collector.advance woken relay.closed relay.output = .return observed batch) (fresh : relay.Fresh)
    (rested : Relay.Rests relay later) :
    Accounts protocol task ⟨.collect protocol task signal, batch⟩ relay { later with collector := none } := by
  obtain ⟨empty, gathered, ended⟩ := Collector.advance_return returned (fresh collector underway)
  have held : relay.pending = (batch.map Prod.fst).getD [] := by
    simp [Relay.pending, underway, empty, gathered]
  have drained : later.output = [] := rested.output.trans empty
  constructor
  · simp [accepts, rested.input]
  · rw [held]
    cases batch <;> simp [gathers, Relay.pending, drained]
  · rintro collector ⟨⟩
  · exact fun closed => ⟨rested.closed closed, rfl⟩
  · rintro message ⟨⟩
  · rintro signal ⟨⟩
    exact ⟨ended rfl, held⟩

theorem interpret_accounts {thread : Nat} {action : Action lib} {answer : Action.Answer lib action}
    (moved : engine.interpret thread action = .reply after answer) {relay : EngineRelay lib protocol}
    (live : engine.tasks protocol task = some relay) (fresh : relay.Fresh) (named : task < engine.nextTask) :
    ∃ later, after.tasks protocol task = some later ∧ Accounts protocol task ⟨action, answer⟩ relay later := by
  have resting (rests : TaskRests protocol task engine after)
      (still : accepts protocol task (⟨action, answer⟩ : Entry (Action lib) (Action.Answer lib)) = [] ∧
        gathers protocol task (⟨action, answer⟩ : Entry (Action lib) (Action.Answer lib)) = [])
      (noRefusal : ∀ message, (⟨action, answer⟩ : Entry (Action lib) (Action.Answer lib)) ≠
        ⟨.send protocol task message, false⟩)
      (noEnd : ∀ signal, (⟨action, answer⟩ : Entry (Action lib) (Action.Answer lib)) ≠
        ⟨.collect protocol task signal, none⟩) :
      ∃ later, after.tasks protocol task = some later ∧ Accounts protocol task ⟨action, answer⟩ relay later := by
    obtain ⟨later, there, rested⟩ := rests relay live
    exact ⟨later, there, rested.accounts fresh still noRefusal noEnd⟩
  have same : TaskRests protocol task engine engine := taskRests_of_same rfl
  cases action with
  | now | random | exportedContains _ | exportedInsert _ | roundSign _ _ _ | release _ =>
      cases moved
      exact resting (taskRests_of_same rfl) ⟨rfl, rfl⟩ (by rintro _ ⟨⟩) (by rintro _ ⟨⟩)
  | contains _ _ _ | remove _ _ _ =>
      simp only [interpret] at moved
      split at moved <;> cases moved
      exact resting (taskRests_of_same rfl) ⟨rfl, rfl⟩ (by rintro _ ⟨⟩) (by rintro _ ⟨⟩)
  | acquire _ _ | resetConsumed _ =>
      simp only [interpret] at moved
      split at moved
      · cases moved
      · split at moved <;> cases moved <;>
          exact resting (taskRests_of_same rfl) ⟨rfl, rfl⟩ (by rintro _ ⟨⟩) (by rintro _ ⟨⟩)
  | join _ _ =>
      simp only [interpret] at moved
      split at moved
      · split at moved <;> cases moved
        exact resting (taskRests_of_same rfl) ⟨rfl, rfl⟩ (by rintro _ ⟨⟩) (by rintro _ ⟨⟩)
      · cases moved
  | abort _ _ =>
      cases moved
      exact resting (same.mapTask fun _ relay => relay.rests_cancel) ⟨rfl, rfl⟩ (by rintro _ ⟨⟩) (by rintro _ ⟨⟩)
  | dropSender _ _ | dropReceiver _ _ =>
      cases moved
      exact resting (same.mapTask fun _ _ => ⟨rfl, rfl, rfl, id⟩) ⟨rfl, rfl⟩ (by rintro _ ⟨⟩) (by rintro _ ⟨⟩)
  | spawn other run =>
      cases moved
      have elsewhere : ¬(other = protocol ∧ engine.nextTask = task) := fun here => Nat.ne_of_gt named here.2
      have kept : TaskRests protocol task engine ({ engine with nextTask := engine.nextTask + 1 }.setTask other
          engine.nextTask (.spawn run)) := fun relay live => setTask_rests elsewhere _ relay live
      exact resting kept ⟨rfl, rfl⟩ (by rintro _ ⟨⟩) (by rintro _ ⟨⟩)
  | insert curve other sessionId session =>
      simp only [interpret] at moved
      split at moved <;> cases moved
      have dropped := same.dropSession curve other (engine.sessions curve other sessionId)
      exact resting dropped ⟨rfl, rfl⟩ (by rintro _ ⟨⟩) (by rintro _ ⟨⟩)
  | checkout curve other sessionId =>
      simp only [interpret] at moved
      split at moved <;> cases moved
      exact resting (checkout_rests curve other sessionId) ⟨rfl, rfl⟩ (by rintro _ ⟨⟩) (by rintro _ ⟨⟩)
  | send other target message =>
      simp only [interpret] at moved
      split at moved
      · cases moved
      · next receiver found =>
        split at moved
        · cases moved
        · cases moved
        · next later sent answered =>
          cases moved
          by_cases here : other = protocol ∧ target = task
          · obtain ⟨rfl, rfl⟩ := here
            obtain rfl : relay = receiver := Option.some.inj (live.symm.trans found)
            exact ⟨later, by simp [setTask], send_accounts answered fresh⟩
          · refine resting (setTask_rests here later) ⟨?_, rfl⟩ ?_ (by rintro _ ⟨⟩)
            · cases answer <;> simp [accepts, here]
            · rintro again ⟨⟩
              exact here ⟨rfl, rfl⟩
  | collect other receiver signal =>
      simp only [interpret, collect] at moved
      split at moved
      · next relayed source found signalled =>
        split at moved
        · cases moved
        · next collector underway =>
          split at moved
          · cases moved
          · cases moved
          · next observed batch returned =>
            cases moved
            have released : TaskRests protocol task engine (engine.mapTask other signal fun source =>
                { source with notify := source.notify.release observed }) :=
              same.mapTask fun _ _ => ⟨rfl, rfl, rfl, id⟩
            by_cases here : other = protocol ∧ receiver = task
            · obtain ⟨rfl, rfl⟩ := here
              obtain rfl : relay = relayed := Option.some.inj (live.symm.trans found)
              obtain ⟨later, there, rested⟩ := released relay live
              exact ⟨{ later with collector := none }, mapTask_self there,
                collect_accounts underway returned fresh rested⟩
            · refine resting (released.mapTask fun same => absurd same here) ⟨rfl, ?_⟩ (by rintro _ ⟨⟩) ?_
              · cases answer <;> simp [gathers, here]
              · rintro _ ⟨⟩
                exact here ⟨rfl, rfl⟩
      · cases moved

theorem interpret_underway {thread : Nat} {action : Action lib} (moved : engine.interpret thread action = .pending after)
    {relay : EngineRelay lib protocol} (live : engine.tasks protocol task = some relay) (fresh : relay.Fresh) :
    ∃ later, after.tasks protocol task = some later ∧ later.input = relay.input ∧ later.pending = relay.pending ∧
      later.Fresh ∧ (relay.closed = true → later.closed = true) := by
  rcases pending_channel moved with ⟨other, target, message, rfl⟩ | ⟨other, receiver, signal, rfl⟩
  · simp only [interpret] at moved
    split at moved
    · cases moved
    · split at moved
      · cases moved
      · next answered =>
        unfold Relay.send at answered
        split at answered
        · cases answered
        · split at answered <;> cases answered
      · cases moved
  · have same : TaskRests protocol task engine engine := taskRests_of_same rfl
    simp only [interpret, collect] at moved
    split at moved
    · next relayed source found signalled =>
      split at moved
      · next idle =>
        cases moved
        have enabled : TaskRests protocol task engine (engine.mapTask other signal fun target =>
            { target with notify := source.notify.enable.2 }) := same.mapTask fun _ _ => ⟨rfl, rfl, rfl, id⟩
        by_cases here : other = protocol ∧ receiver = task
        · obtain ⟨rfl, rfl⟩ := here
          obtain rfl : relay = relayed := Option.some.inj (live.symm.trans found)
          obtain ⟨later, there, rested⟩ := enabled relay live
          refine ⟨_, mapTask_self there, rested.input, ?_, ?_, rested.closed⟩
          · simp [Relay.pending, Collector.start, idle, rested.output]
          · rintro collector ⟨⟩ _
            rfl
        · obtain ⟨later, there, rested⟩ := (enabled.mapTask fun same => absurd same here) relay live
          exact ⟨later, there, rested.input, rested.pending, rested.fresh fresh, rested.closed⟩
      · next collector underway =>
        split at moved
        · cases moved
        · next next rest continued =>
          cases moved
          by_cases here : other = protocol ∧ receiver = task
          · obtain ⟨rfl, rfl⟩ := here
            obtain rfl : relay = relayed := Option.some.inj (live.symm.trans found)
            obtain ⟨kept, begun⟩ := Collector.advance_continue continued (fresh collector underway)
            refine ⟨_, mapTask_self live, rfl, ?_, ?_, id⟩
            · simp [Relay.pending, underway, kept]
            · rintro collector ⟨⟩ first
              exact absurd first begun
          · obtain ⟨later, there, rested⟩ := (same.mapTask fun same => absurd same here) relay live
            exact ⟨later, there, rested.input, rested.pending, rested.fresh fresh, rested.closed⟩
        · cases moved
    · cases moved

/-- Nothing passes through channels that do not exist. -/
theorem idle_of_unspawned {thread : Nat} {action : Action lib} {answer : Action.Answer lib action}
    (moved : engine.interpret thread action = .reply after answer) (unspawned : engine.tasks protocol task = none) :
    accepts protocol task (⟨action, answer⟩ : Entry (Action lib) (Action.Answer lib)) = [] ∧
      gathers protocol task (⟨action, answer⟩ : Entry (Action lib) (Action.Answer lib)) = [] := by
  cases action with
  | send other target message =>
      refine ⟨?_, rfl⟩
      have elsewhere : ¬(other = protocol ∧ target = task) := by
        rintro ⟨rfl, rfl⟩
        simp [interpret, unspawned] at moved
      cases answer <;> simp [accepts, elsewhere]
  | collect other receiver signal =>
      refine ⟨rfl, ?_⟩
      have elsewhere : ¬(other = protocol ∧ receiver = task) := by
        rintro ⟨rfl, rfl⟩
        simp [interpret, collect, unspawned] at moved
      cases answer <;> simp [gathers, elsewhere]
  | _ => exact ⟨rfl, rfl⟩

end Engine

/-! ## Runs -/

variable (lib) in
/-- The messages that pass at one task's end of its channels in a move. -/
def passages (protocol : ProtocolType) (task : Nat) (world : EngineWorld lib) : Move Call Drift → List Passage
  | .drift (.poll other named) =>
      if other = protocol ∧ named = task then
        match world.shared.tasks protocol task with
        | some relay => relay.passages lib.dkls.resume
        | none => []
      else []
  | .drift (.tick _) | .start _ | .run _ => []

/-- The messages calls have put into a task's input. -/
def accepted (world : EngineWorld lib) (protocol : ProtocolType) (task : Nat) : List Bytes :=
  yields (accepts protocol task) (world.trace.map Prod.snd)

/-- The messages calls have got out of a task's output. -/
def gathered (world : EngineWorld lib) (protocol : ProtocolType) (task : Nat) : List Bytes :=
  yields (gathers protocol task) (world.trace.map Prod.snd)

theorem accepted_cons {world after : EngineWorld lib} {thread : Nat} {entry : Entry (Action lib) (Action.Answer lib)}
    (added : after.trace = (thread, entry) :: world.trace) (protocol : ProtocolType) (task : Nat) :
    accepted after protocol task = accepted world protocol task ++ accepts protocol task entry := by
  rw [accepted, added, List.map_cons, yields_cons, accepted]

theorem gathered_cons {world after : EngineWorld lib} {thread : Nat} {entry : Entry (Action lib) (Action.Answer lib)}
    (added : after.trace = (thread, entry) :: world.trace) (protocol : ProtocolType) (task : Nat) :
    gathered after protocol task = gathered world protocol task ++ gathers protocol task entry := by
  rw [gathered, added, List.map_cons, yields_cons, gathered]

inductive Ledger (world : EngineWorld lib) (protocol : ProtocolType) (task : Nat) (seen : List Passage) : Prop where
  | unspawned : world.shared.tasks protocol task = none → accepted world protocol task = [] →
      gathered world protocol task = [] → seen = [] → Ledger world protocol task seen
  | kept {relay} : world.shared.tasks protocol task = some relay → relay.Fresh →
      accepted world protocol task = seen.flatMap Passage.taken ++ relay.input →
      seen.flatMap Passage.written = gathered world protocol task ++ relay.pending → Ledger world protocol task seen

variable {Allowed : EngineWorld lib → Move Call Drift → Prop} {world : EngineWorld lib} {protocol : ProtocolType}
  {task : Nat} {seen : List Passage}

private theorem Ledger.unchanged {after : EngineWorld lib} (ledger : Ledger world protocol task seen)
    (tasks : after.shared.tasks protocol task = world.shared.tasks protocol task) (trace : after.trace = world.trace) :
    Ledger after protocol task seen := by
  cases ledger with
  | unspawned absent accepts gathers nothing =>
      rw [accepted, ← trace] at accepts
      rw [gathered, ← trace] at gathers
      exact .unspawned (tasks.trans absent) accepts gathers nothing
  | kept live fresh input output =>
      rw [accepted, ← trace] at input
      rw [gathered, ← trace] at output
      exact .kept (tasks.trans live) fresh input output

private theorem Ledger.poll (ledger : Ledger world protocol task seen) (other : ProtocolType) (named : Nat) :
    Ledger ((machine lib).step world (.drift (.poll other named))) protocol task
      (seen ++ passages lib protocol task world (.drift (.poll other named))) := by
  by_cases here : other = protocol ∧ named = task
  · obtain ⟨rfl, rfl⟩ := here
    cases ledger with
    | unspawned absent accepts gathers nothing =>
        refine .unspawned ?_ accepts gathers ?_
        · simp [Machine.step, machine, Engine.drift, Engine.mapTask, absent]
        · simp [nothing, passages, absent]
    | @kept relay live fresh input output =>
        have polled : ((machine lib).step world (.drift (.poll other named))).shared.tasks other named =
            some (relay.poll lib.dkls.resume) := Engine.mapTask_self live
        refine .kept polled ?_ ?_ ?_
        · intro collector underway
          rw [Relay.poll_collector] at underway
          exact fresh collector underway
        · change accepted world other named = _
          rw [input, (Relay.poll_exchange lib.dkls.resume relay).1]
          simp [passages, live]
        · change _ = gathered world other named ++ _
          rw [Relay.poll_pending]
          simp [passages, live, output]
  · have nothing : passages lib protocol task world (.drift (.poll other named)) = [] := if_neg here
    rw [nothing, List.append_nil]
    refine ledger.unchanged ?_ rfl
    rcases Lifecycle.mapTask_tasks world.shared other protocol named task (Relay.poll lib.dkls.resume) with same | ⟨_, same⟩
    · exact same
    · exact absurd same here

private theorem Ledger.reply {after : EngineWorld lib} (ledger : Ledger world protocol task seen) {thread : Nat}
    {action : Action lib} {answer : Action.Answer lib action}
    (unborn : ∀ task, world.shared.nextTask ≤ task → world.shared.tasks protocol task = none)
    (moved : world.shared.interpret thread action = .reply after.shared answer)
    (added : after.trace = (thread, ⟨action, answer⟩) :: world.trace) : Ledger after protocol task seen := by
  have acceptedNow := accepted_cons added protocol task
  have gatheredNow := gathered_cons added protocol task
  cases ledger with
  | unspawned absent accepts gathers nothing =>
      obtain ⟨idleIn, idleOut⟩ := Engine.idle_of_unspawned moved absent
      rw [accepts, idleIn, List.append_nil] at acceptedNow
      rw [gathers, idleOut, List.append_nil] at gatheredNow
      rcases Lifecycle.interpret_tasks moved protocol task with same | ⟨live, _⟩ | ⟨⟨run, rfl⟩, rfl⟩
      · exact .unspawned (same.trans absent) acceptedNow gatheredNow nothing
      · exact absurd absent live
      · have spawned : after.shared.tasks protocol world.shared.nextTask = some (.spawn run) := by
          rw [← (Reaction.reply.inj moved).1]
          simp [Engine.setTask]
        refine .kept spawned ?_ ?_ ?_
        · rintro collector ⟨⟩
        · rw [acceptedNow, nothing]
          rfl
        · rw [gatheredNow, nothing]
          rfl
  | @kept relay live fresh input output =>
      have named : task < world.shared.nextTask := by
        by_contra beyond
        rw [unborn task (Nat.le_of_not_lt beyond)] at live
        cases live
      obtain ⟨later, there, accounts⟩ := Engine.interpret_accounts moved live fresh named
      refine .kept there accounts.fresh ?_ ?_
      · rw [acceptedNow, accounts.input, ← List.append_assoc, ← input]
      · rw [gatheredNow, List.append_assoc, ← accounts.pending, output]

/-- The books of every task are in balance. -/
theorem balanced (records : (machine lib).Records (passages lib protocol task) Allowed (.initial .empty) world seen) :
    Ledger world protocol task seen := by
  induction records with
  | refl => exact .unspawned rfl rfl rfl rfl
  | @step world seen move records allowed ledger =>
      have reached := records.reaches
      cases move with
      | start call =>
          rw [passages, List.append_nil]
          exact ledger.unchanged rfl rfl
      | drift change =>
          cases change with
          | tick elapsed =>
              rw [passages, List.append_nil]
              exact ledger.unchanged rfl rfl
          | poll other named => exact ledger.poll other named
      | run thread =>
          rw [passages, List.append_nil]
          simp only [Machine.step]
          split
          · next call action next found =>
            split
            · exact ledger
            · next state moved =>
              have moved : world.shared.interpret thread action = .pending state := moved
              cases ledger with
              | unspawned absent accepts gathers nothing =>
                  rcases Lifecycle.interpret_tasks_pending moved protocol task with same | ⟨live, _⟩ | ⟨⟨run, rfl⟩, _⟩
                  · exact .unspawned (same.trans absent) accepts gathers nothing
                  · exact absurd absent live
                  · cases moved
              | kept live fresh input output =>
                  obtain ⟨later, there, sameInput, samePending, stillFresh, _⟩ :=
                    Engine.interpret_underway moved live fresh
                  exact .kept there stillFresh (by rw [sameInput]; exact input) (by rw [samePending]; exact output)
            · next state answer moved =>
              exact ledger.reply (Lifecycle.unspawned reached protocol) moved rfl
          · exact ledger

/-! ## A task that has ended -/

/-- An input that has refused a message takes none any more, and an output that has been
found closed holds nothing any more. -/
structure Settled (world : EngineWorld lib) (protocol : ProtocolType) (task : Nat) : Prop where
  refused : ∀ thread message, Performed world.trace thread (.send protocol task message) false →
    ∃ relay, world.shared.tasks protocol task = some relay ∧ relay.closed = true
  emptied : ∀ thread signal, Performed world.trace thread (.collect protocol task signal) none →
    ∃ relay, world.shared.tasks protocol task = some relay ∧ relay.closed = true ∧ relay.pending = []
  afterRefusal : world.trace.Pairwise fun newer older =>
    (∃ message, older.2 = ⟨.send protocol task message, false⟩) → accepts protocol task newer.2 = []
  afterEnd : world.trace.Pairwise fun newer older =>
    (∃ signal, older.2 = ⟨.collect protocol task signal, none⟩) → gathers protocol task newer.2 = []

theorem fresh_of_reached (reached : (machine lib).Reaches Allowed (.initial .empty) world)
    {relay : EngineRelay lib protocol} (live : world.shared.tasks protocol task = some relay) : relay.Fresh := by
  obtain ⟨seen, records⟩ : ∃ seen, (machine lib).Records (passages lib protocol task) Allowed (.initial .empty) world seen :=
    reached.records
  cases balanced records with
  | unspawned absent =>
      rw [absent] at live
      cases live
  | kept there fresh =>
      rw [there] at live
      cases live
      exact fresh

private theorem Settled.onward {after : EngineWorld lib} (settled : Settled world protocol task)
    (trace : after.trace = world.trace)
    (kept : ∀ relay, world.shared.tasks protocol task = some relay → ∃ later,
      after.shared.tasks protocol task = some later ∧ (relay.closed = true → later.closed = true) ∧
        (relay.closed = true → relay.pending = [] → later.pending = [])) : Settled after protocol task := by
  constructor
  · intro thread message performed
    rw [trace] at performed
    obtain ⟨relay, live, closed⟩ := settled.refused thread message performed
    obtain ⟨later, there, stays, _⟩ := kept relay live
    exact ⟨later, there, stays closed⟩
  · intro thread signal performed
    rw [trace] at performed
    obtain ⟨relay, live, closed, empty⟩ := settled.emptied thread signal performed
    obtain ⟨later, there, stays, still⟩ := kept relay live
    exact ⟨later, there, stays closed, still closed empty⟩
  · rw [trace]
    exact settled.afterRefusal
  · rw [trace]
    exact settled.afterEnd

private theorem Settled.reply {after : EngineWorld lib} (settled : Settled world protocol task) {thread : Nat}
    {action : Action lib} {answer : Action.Answer lib action}
    (unborn : ∀ task, world.shared.nextTask ≤ task → world.shared.tasks protocol task = none)
    (fresh : ∀ relay, world.shared.tasks protocol task = some relay → relay.Fresh)
    (moved : world.shared.interpret thread action = .reply after.shared answer)
    (added : after.trace = (thread, ⟨action, answer⟩) :: world.trace) : Settled after protocol task := by
  have accounted {relay : EngineRelay lib protocol} (live : world.shared.tasks protocol task = some relay) :
      ∃ later, after.shared.tasks protocol task = some later ∧ Accounts protocol task ⟨action, answer⟩ relay later := by
    refine Engine.interpret_accounts moved live (fresh relay live) ?_
    by_contra beyond
    rw [unborn task (Nat.le_of_not_lt beyond)] at live
    cases live
  constructor
  · intro sender message performed
    rw [added] at performed
    rcases List.mem_cons.mp performed with newest | before
    · cases newest
      cases live : world.shared.tasks protocol task with
      | none => simp [Engine.interpret, live] at moved
      | some relay =>
          obtain ⟨later, there, accounts⟩ := accounted live
          exact ⟨later, there, (accounts.closed (accounts.refused message rfl)).1⟩
    · obtain ⟨relay, live, closed⟩ := settled.refused sender message before
      obtain ⟨later, there, accounts⟩ := accounted live
      exact ⟨later, there, (accounts.closed closed).1⟩
  · intro collector signal performed
    rw [added] at performed
    rcases List.mem_cons.mp performed with newest | before
    · cases newest
      cases live : world.shared.tasks protocol task with
      | none => simp [Engine.interpret, Engine.collect, live] at moved
      | some relay =>
          obtain ⟨later, there, accounts⟩ := accounted live
          obtain ⟨closed, empty⟩ := accounts.emptied signal rfl
          refine ⟨later, there, (accounts.closed closed).1, ?_⟩
          have whole := accounts.pending
          rw [empty] at whole
          exact (List.append_eq_nil_iff.mp whole.symm).2
    · obtain ⟨relay, live, closed, empty⟩ := settled.emptied collector signal before
      obtain ⟨later, there, accounts⟩ := accounted live
      refine ⟨later, there, (accounts.closed closed).1, ?_⟩
      have whole := accounts.pending
      rw [empty] at whole
      exact (List.append_eq_nil_iff.mp whole.symm).2
  · rw [added]
    refine List.pairwise_cons.mpr ⟨?_, settled.afterRefusal⟩
    rintro ⟨sender, entry⟩ member ⟨message, rfl⟩
    obtain ⟨relay, live, closed⟩ := settled.refused sender message member
    obtain ⟨later, there, accounts⟩ := accounted live
    exact (accounts.closed closed).2
  · rw [added]
    refine List.pairwise_cons.mpr ⟨?_, settled.afterEnd⟩
    rintro ⟨collector, entry⟩ member ⟨signal, rfl⟩
    obtain ⟨relay, live, closed, empty⟩ := settled.emptied collector signal member
    obtain ⟨later, there, accounts⟩ := accounted live
    have whole := accounts.pending
    rw [empty] at whole
    exact (List.append_eq_nil_iff.mp whole.symm).1

theorem settled (reached : (machine lib).Reaches Allowed (.initial .empty) world) (protocol : ProtocolType) (task : Nat) :
    Settled world protocol task := by
  refine reached.invariant (fun world => Settled world protocol task) ?_ ?_ ?_ ?_ ?_
  · exact ⟨by rintro _ _ ⟨⟩, by rintro _ _ ⟨⟩, List.Pairwise.nil, List.Pairwise.nil⟩
  · intro world call _ settled _
    exact settled.onward rfl fun relay live => ⟨relay, live, id, fun _ => id⟩
  · intro world thread call action next state answer reached settled _ _ moved
    exact settled.reply (Lifecycle.unspawned reached protocol) (fun relay => fresh_of_reached reached) moved rfl
  · intro world thread call action next state reached settled _ _ moved
    refine settled.onward rfl fun relay live => ?_
    obtain ⟨later, there, _, pending, _, closed⟩ := Engine.interpret_underway moved live (fresh_of_reached reached live)
    exact ⟨later, there, closed, fun _ empty => pending.trans empty⟩
  · intro world change _ settled _
    refine settled.onward rfl fun relay live => ?_
    cases change with
    | tick elapsed => exact ⟨relay, live, id, fun _ => id⟩
    | poll other named =>
        rcases Lifecycle.mapTask_tasks world.shared other protocol named task (Relay.poll lib.dkls.resume) with
          same | ⟨_, rfl, rfl⟩
        · exact ⟨relay, same.trans live, id, fun _ => id⟩
        · refine ⟨relay.poll lib.dkls.resume, Engine.mapTask_self live, fun closed => ?_, fun closed empty => ?_⟩
          · rwa [Relay.poll_closed _ _ closed]
          · rwa [Relay.poll_closed _ _ closed]

end CeresMpc
