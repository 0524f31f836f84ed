import CeresMpc.Delivery.Ledger
import CeresMpc.Toy

/-!
# Rounds of a protocol task

In a round the caller puts messages into the input channel and then collects a batch, while
the task runs on its own. A task that can do nothing before it gets more input rests. A
round whose collection does not find an old notification returns all that the protocol has
to say to the messages, on every schedule.
-/

set_option autoImplicit false

namespace CeresMpc

open Encoding Interleaving

variable {Protocol Output : Type} {resume : Protocol → ProtocolStep Protocol Output}

/-! ## What a protocol answers -/

section

variable (resume)

/-- Given this input, a protocol sends this output in so many steps, and then waits for
more or has ended. -/
inductive Responds : Nat → Protocol → List Bytes → List Bytes → Task Protocol Output → Prop where
  | waits {protocol next} : resume protocol = .receive next → Responds 0 protocol [] [] (.running protocol)
  | finishes {protocol input outcome} : resume protocol = .finish outcome →
      Responds 1 protocol input [] (.ended (.ok outcome))
  | reads {steps protocol next message input output final} : resume protocol = .receive next →
      Responds steps (next (some message)) input output final →
      Responds (steps + 1) protocol (message :: input) output final
  | sends {steps protocol next message input output final} : resume protocol = .send message next →
      Responds steps (next true) input output final → Responds (steps + 1) protocol input (message :: output) final

/-- The same for a task, which may have ended already. -/
inductive Onward : Nat → Task Protocol Output → List Bytes → List Bytes → Task Protocol Output → Prop where
  | running {steps protocol input output final} : Responds resume steps protocol input output final →
      Onward steps (.running protocol) input output final
  | ended {result input} : Onward 0 (.ended result) input [] (.ended result)

end

section

variable {steps : Nat} {protocol : Protocol} {input output : List Bytes} {final : Task Protocol Output}

theorem Responds.of_finish {outcome : Except String Output} (responds : Responds resume steps protocol input output final)
    (finishes : resume protocol = .finish outcome) : steps = 1 ∧ output = [] ∧ final = .ended (.ok outcome) := by
  cases responds with
  | finishes same =>
      rw [finishes] at same
      cases same
      exact ⟨rfl, rfl, rfl⟩
  | waits receives => simp [finishes] at receives
  | reads receives _ => simp [finishes] at receives
  | sends sends _ => simp [finishes] at sends

theorem Responds.of_send {message : Bytes} {next : Bool → Protocol}
    (responds : Responds resume steps protocol input output final) (sends : resume protocol = .send message next) :
    ∃ fewer rest, steps = fewer + 1 ∧ output = message :: rest ∧
      Responds resume fewer (next true) input rest final := by
  cases responds with
  | sends same onward =>
      rw [sends] at same
      cases same
      exact ⟨_, _, rfl, rfl, onward⟩
  | waits receives => simp [sends] at receives
  | reads receives _ => simp [sends] at receives
  | finishes finishes => simp [sends] at finishes

theorem Responds.of_receive {next : Option Bytes → Protocol} (responds : Responds resume steps protocol input output final)
    (receives : resume protocol = .receive next) :
    (input = [] ∧ steps = 0 ∧ output = [] ∧ final = .running protocol) ∨
      ∃ fewer message rest, input = message :: rest ∧ steps = fewer + 1 ∧
        Responds resume fewer (next (some message)) rest output final := by
  cases responds with
  | waits _ => exact .inl ⟨rfl, rfl, rfl, rfl⟩
  | reads same onward =>
      rw [receives] at same
      cases same
      exact .inr ⟨_, _, _, rfl, rfl, onward⟩
  | finishes finishes => simp [receives] at finishes
  | sends sends _ => simp [receives] at sends

theorem Onward.of_running {task : Task Protocol Output} (onward : Onward resume steps task input output final)
    (running : task = .running protocol) : Responds resume steps protocol input output final := by
  cases onward with
  | running responds =>
      cases running
      exact responds
  | ended => cases running

/-- A task that has ended does nothing with its input. -/
theorem Onward.of_ended {task : Task Protocol Output} (onward : Onward resume steps task input output final)
    {result : Except String (Except String Output)} (ended : task = .ended result) :
    steps = 0 ∧ output = [] ∧ final = .ended result := by
  cases onward with
  | running => cases ended
  | ended =>
      cases ended
      exact ⟨rfl, rfl, rfl⟩

end

namespace Relay

theorem closed_iff {relay : Relay Protocol Output} : relay.closed = true ↔ ∃ result, relay.task = .ended result := by
  unfold closed
  split
  · next running => simp [running]
  · next ended => simp [ended]

variable (resume) in
/-- The task can do nothing before it gets more input, or has ended. -/
def Resting (relay : Relay Protocol Output) : Prop :=
  relay.closed = true ∨
    ∃ protocol next, relay.task = .running protocol ∧ resume protocol = .receive next ∧ relay.input = []

instance (relay : Relay Protocol Output) : Decidable (relay.Resting resume) :=
  match task : relay.task with
  | .ended result => .isTrue (.inl (closed_iff.mpr ⟨result, task⟩))
  | .running protocol =>
      match step : resume protocol with
      | .receive next =>
          if input : relay.input = [] then .isTrue (.inr ⟨protocol, next, task, step, input⟩)
          else .isFalse (by simp [Resting, closed, task, input])
      | .finish outcome => .isFalse (by simp [Resting, closed, task, step])
      | .send message next => .isFalse (by simp [Resting, closed, task, step])

/-- What a poll does, case by case. -/
inductive Polled (resume : Protocol → ProtocolStep Protocol Output) (relay : Relay Protocol Output) :
    Relay Protocol Output → Prop where
  | ended : relay.closed = true → Polled resume relay relay
  | finishes {protocol outcome} : relay.task = .running protocol → resume protocol = .finish outcome →
      Polled resume relay { relay with task := .ended (.ok outcome) }
  | sends {protocol message next} : relay.task = .running protocol → resume protocol = .send message next →
      relay.receiver = true ∧ relay.output.length < outputCapacity →
      Polled resume relay { relay with task := .running (next true), output := relay.output ++ [message] }
  | loses {protocol message next} : relay.task = .running protocol → resume protocol = .send message next →
      ¬(relay.receiver = true ∧ relay.output.length < outputCapacity) →
      Polled resume relay { relay with task := .running (next false) }
  | reads {protocol next message rest} : relay.task = .running protocol → resume protocol = .receive next →
      relay.input = message :: rest →
      Polled resume relay { relay with task := .running (next (some message)), input := rest }
  | shut {protocol next} : relay.task = .running protocol → resume protocol = .receive next → relay.input = [] →
      relay.senders = 0 → Polled resume relay { relay with task := .running (next none) }
  | rests {protocol next} : relay.task = .running protocol → resume protocol = .receive next → relay.input = [] →
      relay.senders ≠ 0 → Polled resume relay { relay with notify := relay.notify.notifyOne }

theorem polled (relay : Relay Protocol Output) : Polled resume relay (relay.poll resume) := by
  unfold poll
  split
  · next result ended => exact .ended (by simp [closed, ended])
  · next protocol running =>
    split
    · next outcome step => exact .finishes running step
    · next message next step =>
      split
      · next room => exact .sends running step room
      · next full => exact .loses running step full
    · next next step =>
      split
      · next message rest input => exact .reads running step input
      · next input =>
        split
        · next shut => exact .shut running step input shut
        · next live => exact .rests running step input live

/-- A task that rests stays as it is. -/
theorem Resting.polled {relay later : Relay Protocol Output} (resting : relay.Resting resume) (senders : relay.senders ≠ 0)
    (polled : relay.Polled resume later) : later.Resting resume ∧ later.output = relay.output := by
  have busy {protocol : Protocol} (running : relay.task = .running protocol)
      (works : ∀ next, resume protocol = .receive next → relay.input ≠ []) : False := by
    rcases resting with ended | ⟨other, next, same, receives, empty⟩
    · obtain ⟨result, ended⟩ := closed_iff.mp ended
      cases running.symm.trans ended
    · cases running.symm.trans same
      exact works next receives empty
  cases polled with
  | ended => exact ⟨resting, rfl⟩
  | finishes running finishes => exact (busy running fun _ receives => by simp [finishes] at receives).elim
  | sends running sends _ => exact (busy running fun _ receives => by simp [sends] at receives).elim
  | loses running sends _ => exact (busy running fun _ receives => by simp [sends] at receives).elim
  | reads running _ input => exact (busy running fun _ _ => by simp [input]).elim
  | shut _ _ _ shut => exact absurd shut senders
  | rests => exact ⟨resting, rfl⟩

/-- A relay at the start of a round. -/
structure Ready (protocol : Protocol) (relay : Relay Protocol Output) : Prop where
  task : relay.task = .running protocol
  input : relay.input = []
  output : relay.output = []
  receiver : relay.receiver = true
  senders : relay.senders ≠ 0
  collector : relay.collector = none
  waiter : relay.notify.waiter = .absent

/-- The relay of a new task is ready, whatever its protocol does first. -/
theorem ready_spawn (protocol : Protocol) : (spawn protocol : Relay Protocol Output).Ready protocol :=
  ⟨rfl, rfl, rfl, rfl, Nat.one_ne_zero, rfl, rfl⟩

end Relay

/-- What a step of a collection does, case by case. -/
inductive Collector.Goes (collector : Collector) (woken closed : Bool) (output : List Bytes) : Collector.Progress → Prop where
  | waits : collector.phase = .first ∨ collector.phase = .gather ∧ woken = false → output = [] → closed = false →
      Goes collector woken closed output .wait
  | first {message rest} : collector.phase = .first → output = message :: rest →
      Goes collector woken closed output (.continue { collector with phase := .gather, messages := [message] } rest)
  | ended : collector.phase = .first → output = [] → closed = true →
      Goes collector woken closed output (.return collector.ready none)
  | wakes : collector.phase = .gather → woken = true →
      Goes collector woken closed output (.continue { collector with phase := .drain } output)
  | takes {message rest} : collector.phase ≠ .first → output = message :: rest →
      Goes collector woken closed output
        (.continue { collector with messages := collector.messages ++ [message] } rest)
  | closes : collector.phase = .gather → output = [] → closed = true →
      Goes collector woken closed output (.continue { collector with phase := .drain, protocolDone := true } [])
  | returns : collector.phase = .drain → output = [] → Goes collector woken closed output
      (.return (!collector.protocolDone) (some (collector.messages, collector.protocolDone)))

theorem Collector.goes (collector : Collector) (woken closed : Bool) (output : List Bytes) :
    collector.Goes woken closed output (collector.advance woken closed output) := by
  cases phase : collector.phase with
  | first =>
      cases output with
      | nil =>
          cases closed with
          | true => simpa only [advance, phase] using .ended phase rfl rfl
          | false => simpa only [advance, phase] using .waits (.inl phase) rfl rfl
      | cons message rest => simpa only [advance, phase] using .first phase rfl
  | gather =>
      have later : collector.phase ≠ .first := by simp [phase]
      cases woken with
      | true => simpa only [advance, phase] using .wakes phase rfl
      | false =>
          cases output with
          | nil =>
              cases closed with
              | true => simpa only [advance, phase] using .closes phase rfl rfl
              | false => simpa only [advance, phase] using .waits (.inr ⟨phase, rfl⟩) rfl rfl
          | cons message rest =>
              have takes := @Goes.takes collector false closed _ message rest later rfl
              simpa only [advance, phase, Bool.false_eq_true, if_false] using takes
  | drain =>
      cases output with
      | nil => simpa only [advance, phase] using .returns phase rfl
      | cons message rest =>
          have takes := @Goes.takes collector woken closed _ message rest (by simp [phase]) rfl
          simpa only [advance, phase] using takes

/-! ## A round -/

/-- Where the caller is. -/
inductive Stage where
  | inject (message : Bytes) (rest : List Bytes)
  | collect
  | refused
  | returned (batch : Option (List Bytes × Bool))

namespace Stage

/-- The caller has these messages still to inject. -/
def ofMessages : List Bytes → Stage
  | [] => .collect
  | message :: rest => .inject message rest

def toInject : Stage → List Bytes
  | .inject message rest => message :: rest
  | .collect | .refused | .returned _ => []

@[simp] theorem toInject_ofMessages (messages : List Bytes) : (ofMessages messages).toInject = messages := by
  cases messages <;> rfl

end Stage

structure Round (Protocol Output : Type) where
  relay : Relay Protocol Output
  stage : Stage

namespace Round

/-- The caller's next step, or none while it waits. -/
def caller (round : Round Protocol Output) : Option (Round Protocol Output) :=
  match round.stage with
  | .inject message rest =>
      match round.relay.send message with
      | .blocked => none
      | .pending relay => some { round with relay }
      | .reply relay true => some { relay, stage := .ofMessages rest }
      | .reply relay false => some { relay, stage := .refused }
  | .collect =>
      match round.relay.collect with
      | .blocked => none
      | .pending relay => some { round with relay }
      | .reply relay batch => some { relay, stage := .returned batch }
  | .refused | .returned _ => none

variable (resume) in
/-- The task is polled. -/
def task (round : Round Protocol Output) : Round Protocol Output :=
  { round with relay := round.relay.poll resume }

variable (resume) in
/-- All schedules of a round, with a condition on the caller's steps. -/
inductive Runs (Allowed : Round Protocol Output → Prop) (start : Round Protocol Output) :
    Round Protocol Output → Prop where
  | refl : Runs Allowed start start
  | task {round} : Runs Allowed start round → Runs Allowed start (round.task resume)
  | caller {round after} : Runs Allowed start round → Allowed round → round.caller = some after →
      Runs Allowed start after

variable (resume) in
/-- A collection that starts finds no notification, or one that is true. -/
def Timely (round : Round Protocol Output) : Prop :=
  round.stage = .collect → round.relay.collector = none → round.relay.notify.permit = true → round.relay.Resting resume

/-- A schedule given as a list: the caller's turns, and polls of the task. -/
def play (resume : Protocol → ProtocolStep Protocol Output) (check : Round Protocol Output → Bool) :
    List Bool → Round Protocol Output → Option (Round Protocol Output)
  | [], round => some round
  | true :: rest, round => if check round then round.caller.bind (play resume check rest) else none
  | false :: rest, round => play resume check rest (round.task resume)

theorem runs_of_play {Allowed : Round Protocol Output → Prop} {check : Round Protocol Output → Bool}
    {start round after : Round Protocol Output} (sound : ∀ round, check round = true → Allowed round)
    {schedule : List Bool} (runs : Runs resume Allowed start round)
    (played : play resume check schedule round = some after) : Runs resume Allowed start after := by
  induction schedule generalizing round with
  | nil =>
      cases played
      exact runs
  | cons turn rest ih =>
      cases turn with
      | false => exact ih runs.task played
      | true =>
          simp only [play] at played
          split at played
          · next allowed =>
            obtain ⟨next, moved, onward⟩ := Option.bind_eq_some_iff.mp played
            exact ih (runs.caller (sound round allowed) moved) onward
          · cases played

/-- A check of whether the caller's step is timely. -/
def timely (resume : Protocol → ProtocolStep Protocol Output) (round : Round Protocol Output) : Bool :=
  round.relay.collector.isSome || !round.relay.notify.permit || decide (round.relay.Resting resume)

theorem timely_sound (round : Round Protocol Output) (checked : timely resume round = true) : round.Timely resume := by
  intro _ idle permit
  simpa [timely, idle, permit] using checked

/-- The messages the caller has got. -/
def got (round : Round Protocol Output) : List Bytes :=
  match round.stage with
  | .returned batch => (batch.map Prod.fst).getD []
  | _ => (round.relay.collector.map Collector.messages).getD []

/-- What the caller's step does, case by case. -/
inductive Advances (round : Round Protocol Output) : Round Protocol Output → Prop where
  | sent {message rest} : round.stage = .inject message rest → round.relay.closed = false →
      Advances round { relay := { round.relay with input := round.relay.input ++ [message] }, stage := .ofMessages rest }
  | refused {message rest} : round.stage = .inject message rest → round.relay.closed = true →
      Advances round { round with stage := .refused }
  | begins {ready notify} : round.stage = .collect → round.relay.collector = none →
      round.relay.notify.enable = (ready, notify) →
      Advances round { round with relay := { round.relay with notify, collector := some (.start ready) } }
  | first {collector message rest} : round.stage = .collect → round.relay.collector = some collector →
      collector.phase = .first → round.relay.output = message :: rest →
      Advances round { round with relay :=
        { round.relay with
          collector := some { collector with phase := .gather, messages := [message] }, output := rest } }
  | ended {collector} : round.stage = .collect → round.relay.collector = some collector →
      collector.phase = .first → round.relay.output = [] → round.relay.closed = true →
      Advances round
        { relay := { round.relay with collector := none, notify := round.relay.notify.release collector.ready }
          stage := .returned none }
  | wakes {collector} : round.stage = .collect → round.relay.collector = some collector →
      collector.phase = .gather → (collector.ready = true ∨ round.relay.notify.waiter = .notified) →
      Advances round { round with relay := { round.relay with collector := some { collector with phase := .drain } } }
  | takes {collector message rest} : round.stage = .collect → round.relay.collector = some collector →
      collector.phase ≠ .first → round.relay.output = message :: rest →
      Advances round { round with relay :=
        { round.relay with
          collector := some { collector with messages := collector.messages ++ [message] }, output := rest } }
  | closes {collector} : round.stage = .collect → round.relay.collector = some collector →
      collector.phase = .gather → round.relay.output = [] → round.relay.closed = true →
      Advances round { round with relay :=
        { round.relay with collector := some { collector with phase := .drain, protocolDone := true } } }
  | returns {collector} : round.stage = .collect → round.relay.collector = some collector →
      collector.phase = .drain → round.relay.output = [] →
      Advances round
        { relay := { round.relay with collector := none, notify := round.relay.notify.release !collector.protocolDone }
          stage := .returned (some (collector.messages, collector.protocolDone)) }

theorem advances {round after : Round Protocol Output} (moved : round.caller = some after) : Advances round after := by
  obtain ⟨relay, stage⟩ := round
  cases stage with
  | inject message rest =>
      simp only [caller, Relay.send] at moved
      cases closed : relay.closed with
      | true =>
          simp only [closed, if_true, Option.some.injEq] at moved
          subst moved
          exact .refused rfl closed
      | false =>
          simp only [closed, Bool.false_eq_true, if_false] at moved
          by_cases room : relay.input.length < inputCapacity
          · simp only [room, if_true, Option.some.injEq] at moved
            subst moved
            exact .sent rfl closed
          · simp [room] at moved
  | collect =>
      simp only [caller, Relay.collect] at moved
      cases found : relay.collector with
      | none =>
          simp only [found, Option.some.injEq] at moved
          subst moved
          exact .begins rfl found rfl
      | some collector =>
          simp only [found] at moved
          have goes := collector.goes (collector.ready || relay.notify.waiter = .notified) relay.closed relay.output
          revert moved
          generalize collector.advance _ _ _ = progress at goes
          cases goes with
          | waits => exact fun moved => nomatch moved
          | first phase output =>
              rintro ⟨⟩
              exact .first rfl found phase output
          | ended phase output closed =>
              rintro ⟨⟩
              exact .ended rfl found phase output closed
          | wakes phase woken =>
              rintro ⟨⟩
              exact .wakes rfl found phase (by simpa using woken)
          | takes phase output =>
              rintro ⟨⟩
              exact .takes rfl found phase output
          | closes phase output closed =>
              rintro ⟨⟩
              rw [← output]
              exact .closes rfl found phase output closed
          | returns phase output =>
              rintro ⟨⟩
              exact .returns rfl found phase output
  | refused => cases moved
  | returned batch => cases moved

/-- A caller waits for room, for a first message, or for the task to rest. -/
theorem waits {round : Round Protocol Output} (still : round.caller = none) :
    (∃ batch, round.stage = .returned batch) ∨ round.stage = .refused ∨ round.relay.closed = false ∧
      ((∃ message rest, round.stage = .inject message rest ∧ round.relay.input ≠ []) ∨
        ∃ collector, round.stage = .collect ∧ round.relay.collector = some collector ∧ round.relay.output = [] ∧
          (collector.phase = .first ∨
            collector.phase = .gather ∧ collector.ready = false ∧ round.relay.notify.waiter ≠ .notified)) := by
  obtain ⟨relay, stage⟩ := round
  cases stage with
  | returned batch => exact .inl ⟨batch, rfl⟩
  | refused => exact .inr (.inl rfl)
  | inject message rest =>
      simp only [caller, Relay.send] at still
      cases closed : relay.closed with
      | true => simp [closed] at still
      | false =>
          refine .inr (.inr ⟨rfl, .inl ⟨message, rest, rfl, fun empty => ?_⟩⟩)
          have empty : relay.input = [] := empty
          simp [closed, empty, inputCapacity] at still
  | collect =>
      simp only [caller, Relay.collect] at still
      cases found : relay.collector with
      | none => simp [found] at still
      | some collector =>
          simp only [found] at still
          have goes := collector.goes (collector.ready || relay.notify.waiter = .notified) relay.closed relay.output
          revert still
          generalize collector.advance _ _ _ = progress at goes
          cases goes with
          | waits phase output closed =>
              intro _
              refine .inr (.inr ⟨closed, .inr ⟨collector, rfl, rfl, output, ?_⟩⟩)
              simpa using phase
          | _ => exact fun still => nomatch still

/-! ## What every round keeps -/

/-- A collection belongs to its stage, and its task is not cut off. -/
structure Shaped (round : Round Protocol Output) : Prop where
  receiver : round.relay.receiver = true
  senders : round.relay.senders ≠ 0
  idle : round.stage ≠ .collect → round.relay.collector = none
  absent : round.relay.collector = none → round.relay.notify.waiter = .absent
  messages : ∀ collector, round.relay.collector = some collector → (collector.messages = [] ↔ collector.phase = .first)
  subscribed : ∀ collector, round.relay.collector = some collector → collector.ready = true ∨
    round.relay.notify.waiter ≠ .absent
  returned : ∀ messages done, round.stage = .returned (some (messages, done)) → messages ≠ []
  ended : round.stage = .refused ∨ round.stage = .returned none → round.relay.closed = true

variable {Allowed : Round Protocol Output → Prop} {start round after : Round Protocol Output}

private theorem Shaped.polled (shaped : round.Shaped) {relay : Relay Protocol Output}
    (polled : round.relay.Polled resume relay) : { round with relay }.Shaped := by
  have busy {protocol : Protocol} (running : round.relay.task = .running protocol) {Goal : Prop}
      (stage : round.stage = .refused ∨ round.stage = .returned none) : Goal := by
    obtain ⟨result, ended⟩ := Relay.closed_iff.mp (shaped.ended stage)
    cases running.symm.trans ended
  cases polled with
  | ended => exact shaped
  | finishes running | sends running | loses running | reads running | shut running =>
      exact ⟨shaped.receiver, shaped.senders, shaped.idle, shaped.absent, shaped.messages, shaped.subscribed,
        shaped.returned, busy running⟩
  | rests running =>
      refine ⟨shaped.receiver, shaped.senders, shaped.idle, fun idle => ?_, shaped.messages, fun collector found => ?_,
        shaped.returned, busy running⟩
      · have absent := shaped.absent idle
        simp [Notify.notifyOne, absent]
      · refine (shaped.subscribed collector found).imp_right fun subscribed => ?_
        show round.relay.notify.notifyOne.waiter ≠ .absent
        unfold Notify.notifyOne
        split
        · simp
        · exact subscribed

private theorem release_absent (observed : Bool) (notify : Notify) : (notify.release observed).waiter = .absent := by
  unfold Notify.release
  split
  · rfl
  · split <;> rfl

private theorem ofMessages_ne_returned {rest : List Bytes} {batch : Option (List Bytes × Bool)} :
    Stage.ofMessages rest ≠ .returned batch := by
  cases rest <;> exact Stage.noConfusion

private theorem ofMessages_ne_over {rest : List Bytes} {Goal : Prop} :
    Stage.ofMessages rest = .refused ∨ Stage.ofMessages rest = .returned none → Goal := by
  cases rest <;> rintro (⟨⟨⟩⟩ | ⟨⟨⟩⟩)

private theorem Shaped.goesOn (shaped : round.Shaped) (stage : round.stage = .collect) {collector later : Collector}
    (found : round.relay.collector = some collector) (ready : later.ready = collector.ready)
    (messages : later.messages = [] ↔ later.phase = .first) {output : List Bytes} :
    { round with relay := { round.relay with collector := some later, output } }.Shaped := by
  refine ⟨shaped.receiver, shaped.senders, fun other => absurd stage other, nofun, ?_, ?_, ?_, ?_⟩
  · rintro _ ⟨⟩
    exact messages
  · rintro _ ⟨⟩
    rw [ready]
    exact shaped.subscribed collector found
  · exact fun messages done returned => absurd (stage.symm.trans returned) nofun
  · simp [stage]

private theorem Shaped.caller (shaped : round.Shaped) (advances : round.Advances after) : after.Shaped := by
  cases advances with
  | sent stage _ =>
      have idle := shaped.idle (by simp [stage])
      refine ⟨shaped.receiver, shaped.senders, fun _ => idle, shaped.absent, shaped.messages, shaped.subscribed, ?_,
        ofMessages_ne_over⟩
      exact fun messages done returned => absurd returned ofMessages_ne_returned
  | refused stage closed =>
      have idle := shaped.idle (by simp [stage])
      exact ⟨shaped.receiver, shaped.senders, fun _ => idle, shaped.absent, shaped.messages, shaped.subscribed, by simp,
        fun _ => closed⟩
  | @begins ready notify stage _ enabled =>
      refine ⟨shaped.receiver, shaped.senders, fun other => absurd stage other, by simp, ?_, ?_, ?_, by simp [stage]⟩
      · rintro collector ⟨⟩
        simp [Collector.start]
      · rintro collector ⟨⟩
        unfold Notify.enable at enabled
        split at enabled
        · cases enabled
          exact .inl rfl
        · cases enabled
          exact .inr (by simp)
      · exact fun messages done returned => absurd (stage.symm.trans returned) (by simp)
  | first stage found _ _ =>
      apply shaped.goesOn stage found
      · rfl
      · simp
  | wakes stage found phase _ =>
      apply shaped.goesOn stage found
      · rfl
      · simpa [phase] using shaped.messages _ found
  | takes stage found phase _ =>
      apply shaped.goesOn stage found
      · rfl
      · simp [phase]
  | closes stage found phase _ _ =>
      apply shaped.goesOn stage found
      · rfl
      · simpa [phase] using shaped.messages _ found
  | ended _ _ _ _ closed =>
      exact ⟨shaped.receiver, shaped.senders, fun _ => rfl, fun _ => release_absent _ _, by simp, by simp, by simp, fun _ => closed⟩
  | @returns collector stage found phase _ =>
      refine ⟨shaped.receiver, shaped.senders, fun _ => rfl, fun _ => release_absent _ _, by simp, by simp, ?_, by simp⟩
      rintro messages done ⟨⟩ empty
      have first := (shaped.messages collector found).mp empty
      cases phase.symm.trans first

theorem Runs.shaped (runs : Runs resume Allowed start round) (shaped : start.Shaped) : round.Shaped := by
  induction runs with
  | refl => exact shaped
  | task _ ih => exact ih.polled (Relay.polled _)
  | caller _ _ moved ih => exact ih.caller (advances moved)

variable (resume) in
/-- What the caller has got, what is under way and what the protocol still has to send make
up its answer. -/
structure Owes (answer : List Bytes) (final : Task Protocol Output) (steps : Nat) (rest : List Bytes)
    (round : Round Protocol Output) : Prop where
  onward : Onward resume steps round.relay.task (round.relay.input ++ round.stage.toInject) rest final
  whole : round.got ++ round.relay.output ++ rest = answer

private theorem got_collecting {relay : Relay Protocol Output} {collector : Collector}
    (found : relay.collector = some collector) : (Round.mk relay .collect).got = collector.messages := by
  simp [got, found]

private theorem got_idle {relay : Relay Protocol Output} {stage : Stage} (idle : relay.collector = none)
    (unreturned : ∀ batch, stage ≠ .returned batch) : (Round.mk relay stage).got = [] := by
  unfold got
  split
  · next batch here => exact absurd here (unreturned batch)
  · simp [idle]

section Owes

variable {answer rest : List Bytes} {final : Task Protocol Output} {steps : Nat}

private theorem Owes.polled (owes : Owes resume answer final steps rest round) (shaped : round.Shaped)
    (room : answer.length ≤ outputCapacity) {relay : Relay Protocol Output} (polled : round.relay.Polled resume relay) :
    ∃ fewer left, Owes resume answer final fewer left { round with relay } ∧
      (round.relay.Resting resume ∨
        fewer + relay.output.length + left.length < steps + round.relay.output.length + rest.length) := by
  obtain ⟨onward, whole⟩ := owes
  cases polled with
  | ended closed => exact ⟨steps, rest, ⟨onward, whole⟩, .inl (.inl closed)⟩
  | finishes running finishes =>
      obtain ⟨rfl, rfl, rfl⟩ := (onward.of_running running).of_finish finishes
      exact ⟨0, [], ⟨.ended, whole⟩, .inr (by simp)⟩
  | @sends _ message _ running sends _ =>
      obtain ⟨fewer, rest, rfl, rfl, responds⟩ := (onward.of_running running).of_send sends
      have further : round.got ++ (round.relay.output ++ [message]) ++ rest = answer := by
        rw [← whole]
        simp
      refine ⟨fewer, rest, ⟨.running responds, further⟩, .inr ?_⟩
      simp only [List.length_append, List.length_cons, List.length_nil]
      omega
  | loses running sends full =>
      obtain ⟨_, rest, _, rfl, _⟩ := (onward.of_running running).of_send sends
      -- the whole answer fits into the channel
      have length := congrArg List.length whole
      simp only [List.length_append, List.length_cons] at length
      exact absurd ⟨shaped.receiver, by omega⟩ full
  | reads running receives input =>
      rcases (onward.of_running running).of_receive receives with ⟨empty, _⟩ | ⟨fewer, _, _, same, rfl, responds⟩
      · simp [input] at empty
      · rw [input, List.cons_append] at same
        cases same
        refine ⟨fewer, rest, ⟨.running responds, whole⟩, .inr ?_⟩
        show fewer + round.relay.output.length + rest.length < _
        omega
  | shut _ _ _ shut => exact absurd shut shaped.senders
  | rests running receives input _ =>
      exact ⟨steps, rest, ⟨onward, whole⟩, .inl (.inr ⟨_, _, running, receives, input⟩)⟩

private theorem Owes.caller (owes : Owes resume answer final steps rest round) (shaped : round.Shaped)
    (advances : round.Advances after) : Owes resume answer final steps rest after := by
  obtain ⟨onward, whole⟩ := owes
  obtain ⟨relay, stage⟩ := round
  cases advances with
  | @sent message left inject _ =>
      obtain rfl : stage = .inject message left := inject
      have idle : relay.collector = none := shaped.idle nofun
      have nothing : (Round.mk relay (.inject message left)).got = [] := got_idle idle nofun
      rw [nothing] at whole
      constructor
      · show Onward resume steps relay.task (relay.input ++ [message] ++ (Stage.ofMessages left).toInject) rest final
        rw [Stage.toInject_ofMessages, List.append_assoc]
        exact onward
      · rw [got_idle (by exact idle) fun _ => ofMessages_ne_returned]
        exact whole
  | @refused message left inject closed =>
      obtain rfl : stage = .inject message left := inject
      have idle : relay.collector = none := shaped.idle nofun
      have nothing : (Round.mk relay (.inject message left)).got = [] := got_idle idle nofun
      rw [nothing] at whole
      obtain ⟨result, ended⟩ := Relay.closed_iff.mp closed
      obtain ⟨rfl, rfl, rfl⟩ := onward.of_ended ended
      constructor
      · show Onward resume 0 relay.task _ _ _
        rw [ended]
        exact .ended
      · have still : (Round.mk relay .refused).got = [] := got_idle idle nofun
        rw [still]
        exact whole
  | begins collect idle _ =>
      obtain rfl : stage = .collect := collect
      have nothing : (Round.mk relay .collect).got = [] := got_idle idle nofun
      rw [nothing] at whole
      exact ⟨onward, whole⟩
  | first collect found phase output =>
      obtain rfl : stage = .collect := collect
      rw [got_collecting found, (shaped.messages _ found).mpr phase] at whole
      have output : relay.output = _ :: _ := output
      simp only [output] at whole
      exact ⟨onward, whole⟩
  | ended collect found phase output _ =>
      obtain rfl : stage = .collect := collect
      rw [got_collecting found, (shaped.messages _ found).mpr phase] at whole
      exact ⟨onward, whole⟩
  | wakes collect found _ _ =>
      obtain rfl : stage = .collect := collect
      rw [got_collecting found] at whole
      exact ⟨onward, whole⟩
  | takes collect found _ output =>
      obtain rfl : stage = .collect := collect
      have output : relay.output = _ :: _ := output
      simp only [got_collecting found, output] at whole
      refine ⟨onward, ?_⟩
      rw [got_collecting rfl, ← whole]
      simp
  | closes collect found _ _ _ =>
      obtain rfl : stage = .collect := collect
      rw [got_collecting found] at whole
      exact ⟨onward, whole⟩
  | returns collect found _ output =>
      obtain rfl : stage = .collect := collect
      rw [got_collecting found] at whole
      exact ⟨onward, whole⟩

/-- The books of a round are in balance on every schedule. -/
theorem Runs.owes (runs : Runs resume Allowed start round) (shaped : start.Shaped)
    (room : answer.length ≤ outputCapacity) (owes : Owes resume answer final steps rest start) :
    ∃ steps rest, Owes resume answer final steps rest round := by
  induction runs with
  | refl => exact ⟨steps, rest, owes⟩
  | task runs ih =>
      obtain ⟨_, _, before⟩ := ih
      obtain ⟨fewer, left, after, _⟩ := before.polled (runs.shaped shaped) room (Relay.polled _)
      exact ⟨fewer, left, after⟩
  | caller runs _ moved ih =>
      obtain ⟨steps, rest, before⟩ := ih
      exact ⟨steps, rest, before.caller (runs.shaped shaped) (advances moved)⟩

/-- A task that rests owes nothing once everything has been injected. -/
theorem Owes.rest_eq_nil (owes : Owes resume answer final steps rest round) (resting : round.relay.Resting resume)
    (injected : round.stage.toInject = []) : rest = [] ∧ final = round.relay.task := by
  rcases resting with closed | ⟨protocol, next, running, receives, empty⟩
  · obtain ⟨result, ended⟩ := Relay.closed_iff.mp closed
    obtain ⟨_, none, same⟩ := owes.onward.of_ended ended
    exact ⟨none, same.trans ended.symm⟩
  · rcases (owes.onward.of_running running).of_receive receives with ⟨_, _, none, same⟩ | ⟨_, _, _, some, _⟩
    · exact ⟨none, same.trans running.symm⟩
    · simp [empty, injected] at some

end Owes

variable (resume) in
/-- Whoever was told that the task rests was told the truth, and has taken all there is. -/
structure Settles (round : Round Protocol Output) : Prop where
  notified : round.relay.notify.waiter = .notified → round.relay.Resting resume
  collecting : ∀ collector, round.relay.collector = some collector → collector.ready = true ∨ collector.phase = .drain →
    round.relay.Resting resume
  returned : ∀ batch, round.stage = .returned batch → round.relay.Resting resume ∧ round.relay.output = []

private theorem Settles.polled (settles : Settles resume round) (shaped : round.Shaped)
    {relay : Relay Protocol Output} (polled : round.relay.Polled resume relay) :
    Settles resume { round with relay } := by
  have onward (resting : round.relay.Resting resume) := resting.polled shaped.senders polled
  have collector : relay.collector = round.relay.collector := by cases polled <;> rfl
  constructor
  · intro notified
    cases polled with
    | rests running receives input _ => exact .inr ⟨_, _, running, receives, input⟩
    | ended | finishes | sends | loses | reads | shut => exact (onward (settles.notified notified)).1
  · intro underway found phase
    have found : relay.collector = some underway := found
    rw [collector] at found
    exact (onward (settles.collecting underway found phase)).1
  · intro batch stage
    obtain ⟨resting, output⟩ := settles.returned batch stage
    obtain ⟨still, same⟩ := onward resting
    exact ⟨still, same.trans output⟩

private theorem Settles.caller (settles : Settles resume round) (shaped : round.Shaped) (timely : round.Timely resume)
    (advances : round.Advances after) : Settles resume after := by
  have next : after.Shaped := shaped.caller advances
  cases advances with
  | sent stage _ =>
      have idle := shaped.idle (by simp [stage])
      constructor
      · intro notified
        have absent : round.relay.notify.waiter = .absent := shaped.absent idle
        exact absurd (absent.symm.trans notified) nofun
      · exact fun collector found => absurd (found.symm.trans idle) (Option.some_ne_none collector)
      · exact fun batch returned => absurd returned ofMessages_ne_returned
  | refused stage _ =>
      have idle := shaped.idle (by simp [stage])
      exact ⟨settles.notified, settles.collecting, nofun⟩
  | @begins ready notify stage idle enabled =>
      have absent := shaped.absent idle
      have found : round.relay.notify.permit = ready ∧ notify.waiter ≠ .notified := by
        unfold Notify.enable at enabled
        split at enabled
        · next permit =>
          cases enabled
          exact ⟨permit, by simp [absent]⟩
        · next none =>
          cases enabled
          exact ⟨by simpa using none, by simp⟩
      constructor
      · exact fun notified => absurd notified found.2
      · rintro collector ⟨⟩ (permit | drain)
        · exact timely stage idle (found.1.trans permit)
        · cases drain
      · exact fun batch returned => absurd (stage.symm.trans returned) nofun
  | @first collector _ _ stage underway phase _ =>
      constructor
      · exact settles.notified
      · rintro later ⟨⟩ (ready | drain)
        · exact settles.collecting collector underway (.inl ready)
        · cases drain
      · exact fun batch returned => absurd (stage.symm.trans returned) nofun
  | @ended collector stage underway phase output closed =>
      refine ⟨fun notified => ?_, nofun, fun batch _ => ⟨.inl closed, output⟩⟩
      exact absurd ((next.absent rfl).symm.trans notified) nofun
  | @wakes collector stage underway phase woken =>
      constructor
      · exact settles.notified
      · rintro later ⟨⟩ _
        rcases woken with ready | notified
        · exact settles.collecting collector underway (.inl ready)
        · exact settles.notified notified
      · exact fun batch returned => absurd (stage.symm.trans returned) nofun
  | @takes collector _ _ stage underway phase _ =>
      constructor
      · exact settles.notified
      · rintro later ⟨⟩ known
        exact settles.collecting collector underway known
      · exact fun batch returned => absurd (stage.symm.trans returned) nofun
  | @closes collector stage underway phase output closed =>
      refine ⟨settles.notified, fun _ _ _ => .inl closed, fun batch returned => ?_⟩
      exact absurd (stage.symm.trans returned) nofun
  | @returns collector stage underway phase output =>
      refine ⟨fun notified => ?_, nofun, fun batch _ => ?_⟩
      · exact absurd ((next.absent rfl).symm.trans notified) nofun
      · exact ⟨settles.collecting collector underway (.inr phase), output⟩

theorem Runs.settles (runs : Runs resume (Timely resume) start round) (shaped : start.Shaped)
    (settles : Settles resume start) : Settles resume round := by
  induction runs with
  | refl => exact settles
  | task runs ih => exact ih.polled (runs.shaped shaped) (Relay.polled _)
  | caller runs timely moved ih => exact ih.caller (runs.shaped shaped) timely (advances moved)

/-! ## Whole rounds -/

/-- The caller is about to inject the messages. -/
def begin (relay : Relay Protocol Output) (messages : List Bytes) : Round Protocol Output :=
  { relay, stage := .ofMessages messages }

section

variable {protocol : Protocol} {relay : Relay Protocol Output} {messages answer : List Bytes}
  {final : Task Protocol Output} {steps : Nat}

theorem shaped_begin (ready : relay.Ready protocol) (messages : List Bytes) : (begin relay messages).Shaped := by
  refine ⟨ready.receiver, ready.senders, fun _ => ready.collector, fun _ => ready.waiter, ?_, ?_, ?_, ofMessages_ne_over⟩
  · exact fun collector found => absurd (found.symm.trans ready.collector) nofun
  · exact fun collector found => absurd (found.symm.trans ready.collector) nofun
  · exact fun messages done returned => absurd returned ofMessages_ne_returned

theorem settles_begin (ready : relay.Ready protocol) (messages : List Bytes) : Settles resume (begin relay messages) := by
  constructor
  · exact fun notified => absurd (ready.waiter.symm.trans notified) nofun
  · exact fun collector found => absurd (found.symm.trans ready.collector) nofun
  · exact fun batch returned => absurd returned ofMessages_ne_returned

theorem owes_begin (ready : relay.Ready protocol) (responds : Responds resume steps protocol messages answer final) :
    Owes resume answer final steps answer (begin relay messages) := by
  constructor
  · show Onward resume steps relay.task (relay.input ++ (Stage.ofMessages messages).toInject) answer final
    rw [ready.task, ready.input, List.nil_append, Stage.toInject_ofMessages]
    exact .running responds
  · have nothing : (begin relay messages).got = [] := got_idle ready.collector fun _ => ofMessages_ne_returned
    rw [nothing]
    show [] ++ relay.output ++ answer = answer
    rw [ready.output]
    rfl

variable (resume) in
/-- A round that has given the caller the protocol's whole answer. -/
structure Whole (answer : List Bytes) (final : Task Protocol Output) (batch : Option (List Bytes × Bool))
    (relay : Relay Protocol Output) : Prop where
  messages : batch.map Prod.fst = if answer = [] then none else some answer
  resting : relay.Resting resume
  output : relay.output = []
  task : relay.task = final
  /-- The next round can begin. -/
  ready : ∀ protocol, final = .running protocol → relay.Ready protocol

/-- On every schedule in which a collection finds no old notification, the batch is the
protocol's answer to the injected messages, and nothing is left in the channels. -/
theorem whole_round (ready : relay.Ready protocol) (responds : Responds resume steps protocol messages answer final)
    (room : answer.length ≤ outputCapacity) (runs : Runs resume (Timely resume) (begin relay messages) round)
    {batch : Option (List Bytes × Bool)} (returned : round.stage = .returned batch) :
    Whole resume answer final batch round.relay := by
  have shaped := runs.shaped (shaped_begin ready messages)
  obtain ⟨resting, output⟩ := (runs.settles (shaped_begin ready messages) (settles_begin ready messages)).returned batch returned
  obtain ⟨left, rest, owes⟩ := runs.owes (shaped_begin ready messages) room (owes_begin ready responds)
  have injected : round.stage.toInject = [] := by simp [returned, Stage.toInject]
  obtain ⟨rfl, last⟩ := owes.rest_eq_nil resting injected
  have whole := owes.whole
  simp only [output, List.append_nil, got, returned] at whole
  refine ⟨?_, resting, output, last.symm, fun protocol running => ?_⟩
  · cases batch with
    | none => simp [← whole]
    | some pair =>
        obtain ⟨messages, done⟩ := pair
        have some : messages ≠ [] := shaped.returned messages done returned
        have same : messages = answer := whole
        simp [← same, some]
  · have idle := shaped.idle (by simp [returned])
    refine ⟨last.symm.trans running, ?_, output, shaped.receiver, shaped.senders, idle, shaped.absent idle⟩
    rcases resting with closed | ⟨_, _, _, _, empty⟩
    · obtain ⟨result, ended⟩ := Relay.closed_iff.mp closed
      cases running.symm.trans (last.trans ended)
    · exact empty

/-! ## Rounds that end, and rounds that never do -/

/-- The caller has its batch, or could not inject a message. -/
def Over (round : Round Protocol Output) : Prop :=
  round.stage = .refused ∨ ∃ batch, round.stage = .returned batch

/-- What the caller still has to do. -/
def pending (round : Round Protocol Output) : Nat :=
  match round.stage with
  | .inject _ rest => rest.length + 6
  | .collect =>
      match round.relay.collector with
      | none => 5
      | some collector =>
          match collector.phase with
          | .first => 4
          | .gather => if round.relay.notify.waiter = .notified then 2 else 3
          | .drain => 1
  | .refused | .returned _ => 0

/-- What is left to do by the task and the caller. -/
def effort (steps : Nat) (rest : List Bytes) (round : Round Protocol Output) : Nat :=
  steps + round.relay.output.length + rest.length + round.pending

private theorem pending_collect {relay : Relay Protocol Output} : (Round.mk relay .collect).pending ≤ 5 := by
  simp only [pending]
  split
  · exact le_rfl
  · split
    · decide
    · split <;> decide
    · decide

private theorem effort_caller {rest : List Bytes} (advances : round.Advances after) :
    after.effort steps rest < round.effort steps rest := by
  obtain ⟨relay, stage⟩ := round
  cases advances with
  | @sent message left inject _ =>
      obtain rfl : stage = .inject message left := inject
      cases left with
      | nil =>
          have few := @pending_collect _ _ { relay with input := relay.input ++ [message] }
          simp only [effort, Stage.ofMessages, pending] at few ⊢
          simp only [List.length_nil]
          omega
      | cons another left =>
          simp only [effort, Stage.ofMessages, pending, List.length_cons]
          omega
  | @refused message left inject _ =>
      obtain rfl : stage = .inject message left := inject
      simp only [effort, pending]
      omega
  | begins collect idle _ =>
      obtain rfl : stage = .collect := collect
      have idle : relay.collector = none := idle
      simp only [effort, pending, idle, Collector.start]
      omega
  | first collect found phase output =>
      obtain rfl : stage = .collect := collect
      have found : relay.collector = some _ := found
      have output : relay.output = _ :: _ := output
      simp only [effort, pending, found, phase, output, List.length_cons]
      split <;> omega
  | ended collect found phase output _ =>
      obtain rfl : stage = .collect := collect
      have found : relay.collector = some _ := found
      simp only [effort, pending, found, phase]
      omega
  | wakes collect found phase _ =>
      obtain rfl : stage = .collect := collect
      have found : relay.collector = some _ := found
      simp only [effort, pending, found, phase]
      split <;> omega
  | takes collect found _ output =>
      obtain rfl : stage = .collect := collect
      have found : relay.collector = some _ := found
      have output : relay.output = _ :: _ := output
      simp only [effort, pending, found, output, List.length_cons]
      omega
  | closes collect found phase output _ =>
      obtain rfl : stage = .collect := collect
      have found : relay.collector = some _ := found
      simp only [effort, pending, found, phase]
      split <;> omega
  | returns collect found phase output =>
      obtain rfl : stage = .collect := collect
      have found : relay.collector = some _ := found
      simp only [effort, pending, found, phase]
      omega

private theorem pending_polled {later : Relay Protocol Output} (polled : round.relay.Polled resume later) :
    { round with relay := later }.pending ≤ round.pending := by
  cases polled with
  | ended | finishes | sends | loses | reads | shut => exact le_rfl
  | rests =>
      obtain ⟨relay, stage⟩ := round
      cases stage with
      | collect =>
          simp only [pending]
          split
          · exact le_rfl
          · split
            · exact le_rfl
            · by_cases notified : relay.notify.waiter = .notified
              · simp [Notify.notifyOne, notified]
              · rw [if_neg notified]
                split <;> decide
            · exact le_rfl
      | inject _ _ | refused | returned _ => exact le_rfl

private theorem effort_task {rest : List Bytes} (owes : Owes resume answer final steps rest round) (shaped : round.Shaped)
    (room : answer.length ≤ outputCapacity) (busy : ¬round.relay.Resting resume) :
    ∃ fewer left, Owes resume answer final fewer left (round.task resume) ∧
      (round.task resume).effort fewer left < round.effort steps rest := by
  have polled := @Relay.polled _ _ resume round.relay
  obtain ⟨fewer, left, after, resting | less⟩ := owes.polled shaped room polled
  · exact absurd resting busy
  · have pending := pending_polled polled
    refine ⟨fewer, left, after, ?_⟩
    show fewer + (round.relay.poll resume).output.length + left.length + _ < steps + round.relay.output.length + rest.length + _
    have same : (round.task resume).pending = ({ round with relay := round.relay.poll resume }).pending := rfl
    omega

private theorem effort_rests {rest : List Bytes} (owes : Owes resume answer final steps rest round)
    (resting : round.relay.Resting resume) (running : round.relay.closed = false) (senders : round.relay.senders ≠ 0)
    {collector : Collector} (stage : round.stage = .collect) (found : round.relay.collector = some collector)
    (gather : collector.phase = .gather) (waiting : round.relay.notify.waiter = .waiting) :
    Owes resume answer final steps rest (round.task resume) ∧
      (round.task resume).effort steps rest < round.effort steps rest := by
  have polled : round.relay.poll resume = { round.relay with notify := round.relay.notify.notifyOne } := by
    rcases resting with closed | ⟨protocol, next, task, receives, empty⟩
    · rw [closed] at running
      cases running
    · simp [Relay.poll, task, receives, empty, senders]
  unfold Round.task
  rw [polled]
  obtain ⟨relay, current⟩ := round
  obtain rfl : current = .collect := stage
  have found : relay.collector = some collector := found
  have waiting : relay.notify.waiter = .waiting := waiting
  refine ⟨⟨owes.onward, owes.whole⟩, ?_⟩
  simp only [effort, pending, found, gather, Notify.notifyOne, waiting]
  simp

/-- As long as the protocol answers, a round can end from wherever its schedule has got to. -/
theorem can_end (answered : answer ≠ [] ∨ ∃ result, final = .ended result) (room : answer.length ≤ outputCapacity)
    (shapedStart : start.Shaped) {rest : List Bytes} (runs : Runs resume (Timely resume) start round)
    (owes : Owes resume answer final steps rest round) : ∃ later, Runs resume (Timely resume) start later ∧ later.Over := by
  induction left : round.effort steps rest using Nat.strong_induction_on generalizing round steps rest with
  | h effort ih =>
      subst left
      have shaped := runs.shaped shapedStart
      have polls (busy : ¬round.relay.Resting resume) : ∃ later, Runs resume (Timely resume) start later ∧ later.Over := by
        obtain ⟨fewer, left, after, less⟩ := effort_task owes shaped room busy
        exact ih _ less runs.task after rfl
      cases moved : round.caller with
      | some after =>
          by_cases timely : round.Timely resume
          · have advances := advances moved
            exact ih _ (effort_caller advances) (runs.caller timely moved) (owes.caller shaped advances) rfl
          · apply polls
            intro resting
            exact timely fun _ _ _ => resting
      | none =>
          rcases waits moved with returned | refused | ⟨running, ⟨message, others, stage, some⟩ | ⟨collector, stage, found, output, phase⟩⟩
          · exact ⟨round, runs, .inr returned⟩
          · exact ⟨round, runs, .inl refused⟩
          · apply polls
            rintro (closed | ⟨_, _, _, _, empty⟩)
            · rw [closed] at running
              cases running
            · exact some empty
          · by_cases resting : round.relay.Resting resume
            · rcases phase with first | ⟨gather, unready, unnotified⟩
              · -- nothing has been sent, and nothing will be
                obtain ⟨rfl, rfl⟩ := owes.rest_eq_nil resting (by simp [stage, Stage.toInject])
                have whole := owes.whole
                obtain ⟨relay, current⟩ := round
                obtain rfl : current = .collect := stage
                have output : relay.output = [] := output
                rw [got_collecting found, (shaped.messages _ found).mpr first] at whole
                simp only [output] at whole
                rcases answered with some | ⟨result, ended⟩
                · exact absurd whole.symm some
                · have closed := Relay.closed_iff.mpr ⟨result, ended⟩
                  rw [closed] at running
                  cases running
              · have waiting : round.relay.notify.waiter = .waiting := by
                  have subscribed := (shaped.subscribed collector found).resolve_left (by simp [unready])
                  cases waiter : round.relay.notify.waiter with
                  | absent => exact absurd waiter subscribed
                  | waiting => rfl
                  | notified => exact absurd waiter unnotified
                obtain ⟨after, less⟩ := effort_rests owes resting running shaped.senders stage found gather waiting
                exact ih _ less runs.task after rfl
            · exact polls resting

/-- A protocol that says nothing and waits for more keeps the caller waiting on every
schedule. -/
theorem never_over (ready : relay.Ready protocol) {last : Protocol}
    (responds : Responds resume steps protocol messages [] (.running last))
    (runs : Runs resume Allowed (begin relay messages) round) : ¬round.Over := by
  have shaped := runs.shaped (shaped_begin ready messages)
  obtain ⟨left, rest, owes⟩ := runs.owes (shaped_begin ready messages) (Nat.zero_le _) (owes_begin ready responds)
  have unended (closed : round.relay.closed = true) : False := by
    obtain ⟨result, ended⟩ := Relay.closed_iff.mp closed
    obtain ⟨_, _, same⟩ := owes.onward.of_ended ended
    cases same
  rintro (refused | ⟨batch, returned⟩)
  · exact unended (shaped.ended (.inl refused))
  · cases batch with
    | none => exact unended (shaped.ended (.inr returned))
    | some pair =>
        obtain ⟨messages, done⟩ := pair
        have whole := owes.whole
        simp only [got, returned, Option.map_some, Option.getD_some, List.append_eq_nil_iff] at whole
        exact shaped.returned messages done returned whole.1.1

/-- Rounds end exactly when the protocol answers. -/
structure Ends (resume : Protocol → ProtocolStep Protocol Output) (relay : Relay Protocol Output) (messages answer : List Bytes)
    (final : Task Protocol Output) : Prop where
  /-- From wherever a schedule has got to, a timely one leads to the end. -/
  answered : answer ≠ [] ∨ (∃ result, final = .ended result) → ∀ Allowed round,
    Runs resume Allowed (begin relay messages) round → ∃ later, Runs resume (Timely resume) round later ∧ later.Over
  /-- No schedule comes to an end. -/
  silent : answer = [] → (∃ last, final = .running last) → ∀ Allowed round,
    Runs resume Allowed (begin relay messages) round → ¬round.Over

theorem round_ends (ready : relay.Ready protocol) (responds : Responds resume steps protocol messages answer final)
    (room : answer.length ≤ outputCapacity) : Ends resume relay messages answer final := by
  constructor
  · intro answered Allowed round runs
    have shaped := runs.shaped (shaped_begin ready messages)
    obtain ⟨left, rest, owes⟩ := runs.owes (shaped_begin ready messages) room (owes_begin ready responds)
    exact can_end answered room shaped .refl owes
  · rintro rfl ⟨last, rfl⟩ Allowed round runs
    exact never_over ready responds runs

theorem round_ends_script : Ends Toy.Run.resume (.spawn (Toy.twoRounds ())) [[1]] [[1], [2]]
    (.running (.active { operations := [.receive], result := () })) := by
  apply round_ends (Relay.ready_spawn _)
  · exact .reads rfl (.sends rfl (.sends rfl (.waits rfl)))
  · decide

/-! ## Conversations -/

variable (resume) in
/-- What a protocol answers to one list of messages after another. -/
inductive Answers : Protocol → List (List Bytes) → List (List Bytes) → Prop where
  | nil (first : Protocol) : Answers first [] []
  | round {first next : Protocol} {count : Nat} {given sent : List Bytes} {rounds answers : List (List Bytes)} :
      Responds resume count first given sent (.running next) → sent.length ≤ outputCapacity →
      Answers next rounds answers → Answers first (given :: rounds) (sent :: answers)
  | last {first : Protocol} {count : Nat} {given sent : List Bytes} {result : Except String (Except String Output)} :
      Responds resume count first given sent (.ended result) → sent.length ≤ outputCapacity → Answers first [given] [sent]

variable (resume) in
/-- Rounds one after another on one relay, each on a schedule of its own; the task may be
polled between them. -/
inductive Conversation : Relay Protocol Output → List (List Bytes) → List (Option (List Bytes)) → Prop where
  | nil (before : Relay Protocol Output) : Conversation before [] []
  | round {before : Relay Protocol Output} {round : Round Protocol Output} {given : List Bytes}
      {batch : Option (List Bytes × Bool)} {rounds : List (List Bytes)} {batches : List (Option (List Bytes))} :
      Runs resume (Timely resume) (begin before given) round → round.stage = .returned batch →
      Conversation round.relay rounds batches → Conversation before (given :: rounds) (batch.map Prod.fst :: batches)

/-- The batches are the protocol's answers, however the rounds were scheduled. -/
theorem conversation_answers (ready : relay.Ready protocol) {rounds answers : List (List Bytes)}
    (known : Answers resume protocol rounds answers) {batches : List (Option (List Bytes))}
    (held : Conversation resume relay rounds batches) :
    batches = answers.map fun answer => if answer = [] then none else some answer := by
  induction known generalizing relay batches with
  | nil =>
      cases held
      rfl
  | round responds room _ ih =>
      cases held with
      | round runs returned later =>
          have whole := whole_round ready responds room runs returned
          rw [whole.messages, ih (whole.ready _ rfl) later, List.map_cons]
  | last responds room =>
      cases held with
      | round runs returned later =>
          have whole := whole_round ready responds room runs returned
          cases later
          rw [whole.messages]
          rfl

/-- Two rounds of a script, with other schedules for each. -/
theorem conversation_answers_script : ∃ batches,
    Conversation Toy.Run.resume (.spawn (Toy.twoRounds ())) [[[1]], [[9]]] batches ∧ batches = [some [[1], [2]], none] := by
  obtain ⟨first, played, got⟩ : ∃ first, play Toy.Run.resume (timely Toy.Run.resume)
      [true, true, false, false, false, false, true, true, true, true] (begin (.spawn (Toy.twoRounds ())) [[1]]) =
        some first ∧ first.stage = .returned (some ([[1], [2]], false)) := ⟨_, rfl, rfl⟩
  obtain ⟨second, playedAgain, gotAgain⟩ : ∃ second, play Toy.Run.resume (timely Toy.Run.resume)
      [true, true, false, false, true] (begin first.relay [[9]]) =
        some second ∧ second.stage = .returned none := by
    cases played
    exact ⟨_, rfl, rfl⟩
  have runs := runs_of_play timely_sound .refl played
  have runsAgain := runs_of_play timely_sound .refl playedAgain
  have held := Conversation.round runs got (.round runsAgain gotAgain (.nil _))
  have known : Answers Toy.Run.resume (Toy.twoRounds ()) [[[1]], [[9]]] [[[1], [2]], []] := by
    apply Answers.round
    · exact .reads rfl (.sends rfl (.sends rfl (.waits rfl)))
    · decide
    · apply Answers.last
      · exact .reads rfl (.finishes rfl)
      · decide
  exact ⟨_, held, conversation_answers (Relay.ready_spawn _) known held⟩

/-! ## A notification from before -/

private theorem drains (free : ∀ round, round.relay.collector ≠ none → Allowed round) {queue : List Bytes}
    (queued : relay.output = queue) {collector : Collector} (found : relay.collector = some collector)
    (phase : collector.phase = .drain) (runs : Runs resume Allowed start ⟨relay, .collect⟩) :
    ∃ later, Runs resume Allowed start later ∧
      later.stage = .returned (some (collector.messages ++ queue, collector.protocolDone)) ∧
      later.relay.task = relay.task ∧ later.relay.input = relay.input := by
  have underway : relay.collector ≠ none := by simp [found]
  induction queue generalizing relay collector with
  | nil =>
      have moved : caller ⟨relay, .collect⟩ = some
          { relay := { relay with collector := none, notify := relay.notify.release !collector.protocolDone }
            stage := .returned (some (collector.messages, collector.protocolDone)) } := by
        simp [caller, Relay.collect, found, Collector.advance, phase, queued]
      exact ⟨_, runs.caller (free _ underway) moved, by simp, rfl, rfl⟩
  | cons message rest ih =>
      have moved : caller ⟨relay, .collect⟩ =
          some ⟨{ relay with
            collector := some { collector with messages := collector.messages ++ [message] }, output := rest }, .collect⟩ := by
        simp [caller, Relay.collect, found, Collector.advance, phase, queued]
      have still : { collector with messages := collector.messages ++ [message] }.phase = .drain := phase
      obtain ⟨later, reached, returned, task, input⟩ := ih rfl rfl still (runs.caller (free _ underway) moved) nofun
      refine ⟨later, reached, ?_, task, input⟩
      rw [returned]
      simp

/-- A collection that finds an old notification can return what is in the output channel at
that moment, however much the task has still to do. -/
theorem cut_short (stage : round.stage = .collect) (idle : round.relay.collector = none)
    (permit : round.relay.notify.permit = true) {message : Bytes} {queue : List Bytes}
    (queued : round.relay.output = message :: queue) (runs : Runs resume (fun _ => True) start round) :
    ∃ later, Runs resume (fun _ => True) start later ∧ later.stage = .returned (some (message :: queue, false)) ∧
      later.relay.task = round.relay.task ∧ later.relay.input = round.relay.input := by
  obtain ⟨relay, current⟩ := round
  obtain rfl : current = .collect := stage
  have idle : relay.collector = none := idle
  have permit : relay.notify.permit = true := permit
  have queued : relay.output = message :: queue := queued
  let told : Relay Protocol Output := { relay with notify := { relay.notify with permit := false } }
  let started : Collector := .start true
  let gathering : Collector := { started with phase := .gather, messages := [message] }
  let draining : Collector := { gathering with phase := .drain }
  have begins : caller ⟨relay, .collect⟩ = some ⟨{ told with collector := some started }, .collect⟩ := by
    simp [caller, Relay.collect, idle, Notify.enable, permit, told, started]
  have first : caller ⟨{ told with collector := some started }, .collect⟩ =
      some ⟨{ told with collector := some gathering, output := queue }, .collect⟩ := by
    simp [caller, Relay.collect, Collector.advance, told, started, gathering, Collector.start, queued]
  have wakes : caller ⟨{ told with collector := some gathering, output := queue }, .collect⟩ =
      some ⟨{ told with collector := some draining, output := queue }, .collect⟩ := by
    simp [caller, Relay.collect, Collector.advance, told, started, gathering, draining, Collector.start]
  have reached := ((runs.caller trivial begins).caller trivial first).caller trivial wakes
  exact drains (fun _ _ => trivial) rfl rfl rfl reached

/-- The script is polled before its message comes, and its second message is left behind. -/
theorem cut_short_script : ∃ later, Runs Toy.Run.resume (fun _ => True) (begin (.spawn (Toy.twoRounds ())) [[1]]) later ∧
    later.stage = .returned (some ([[1]], false)) := by
  obtain ⟨round, played, stage, idle, permit, queued⟩ : ∃ round, play Toy.Run.resume (fun _ => true)
      [false, true, false, false] (begin (.spawn (Toy.twoRounds ())) [[1]]) = some round ∧ round.stage = .collect ∧
        round.relay.collector = none ∧ round.relay.notify.permit = true ∧ round.relay.output = [[1]] :=
    ⟨_, rfl, rfl, rfl, rfl, rfl⟩
  have runs : Runs Toy.Run.resume (fun _ => True) (begin (.spawn (Toy.twoRounds ())) [[1]]) round :=
    runs_of_play (fun _ _ => trivial) .refl played
  obtain ⟨later, reached, returned, _, _⟩ := cut_short stage idle permit queued runs
  exact ⟨later, reached, returned⟩

end

end Round

end CeresMpc
