import Mathlib.Data.List.Basic
import CeresMpc.Encoding.Json
import CeresMpc.Interleaving.System

/-!
# The relay between the FFI and a protocol task

A protocol task talks to the caller through two bounded channels. `Notify` is
raised at every poll of an empty input channel; `collectBatch` waits for it to
decide that a round is over.
-/

set_option autoImplicit false

namespace CeresMpc

open Encoding Interleaving

/-- What a protocol run does next. A failed send is reported back to it, and a
receive on a closed channel gets `none`. -/
inductive ProtocolStep (Protocol Output : Type) where
  | send (message : Bytes) (next : Bool → Protocol)
  | receive (next : Option Bytes → Protocol)
  | finish (outcome : Except String Output)

/-! ## Notify -/

/-- The `Notified` future of the caller waiting, if there is one. -/
inductive Waiter where
  | absent
  | waiting
  | notified
  deriving DecidableEq

structure Notify where
  permit : Bool
  waiter : Waiter
  deriving DecidableEq

namespace Notify

def new : Notify := { permit := false, waiter := .absent }

/-- A waiting caller is woken; otherwise one permit is kept, however often this
is called. -/
def notifyOne (notify : Notify) : Notify :=
  match notify.waiter with
  | .waiting => { notify with waiter := .notified }
  | _ => { notify with permit := true }

/-- `notified()` followed by `enable()`. A stored permit completes the future at
once and is consumed. -/
def enable (notify : Notify) : Bool × Notify :=
  if notify.permit then (true, { notify with permit := false })
  else (false, { notify with waiter := .waiting })

/-- Dropping the `Notified` future. A notification nobody observed is passed on. -/
def release (observed : Bool) (notify : Notify) : Notify :=
  if observed then { notify with waiter := .absent }
  else match notify.waiter with
    | .notified => { permit := true, waiter := .absent }
    | _ => { notify with waiter := .absent }

end Notify

/-! ## Collecting a batch -/

inductive Phase where
  | first
  | gather
  | drain
  deriving DecidableEq

/-- The locals of a running `collect_batch`. -/
structure Collector where
  phase : Phase
  /-- The `Notified` future was completed by a permit stored earlier. -/
  ready : Bool
  messages : List Bytes
  protocolDone : Bool
  deriving DecidableEq

namespace Collector

def start (ready : Bool) : Collector :=
  { phase := .first, ready, messages := [], protocolDone := false }

inductive Progress where
  | wait
  | continue (collector : Collector) (output : List Bytes)
  | return (observed : Bool) (batch : Option (List Bytes × Bool))

/-- One step on the output channel; `woken` is the state of the `Notified`
future, `closed` says that the protocol task has dropped its sender. -/
def advance (collector : Collector) (woken closed : Bool) (output : List Bytes) : Progress :=
  match collector.phase, output with
  | .first, message :: rest =>
      .continue { collector with phase := .gather, messages := [message] } rest
  | .first, [] => if closed then .return collector.ready none else .wait
  | .gather, output =>
      -- the select is biased: the notification is looked at before the channel
      if woken then .continue { collector with phase := .drain } output
      else match output with
        | message :: rest =>
            .continue { collector with messages := collector.messages ++ [message] } rest
        | [] =>
            if closed then .continue { collector with phase := .drain, protocolDone := true } []
            else .wait
  | .drain, message :: rest =>
      .continue { collector with messages := collector.messages ++ [message] } rest
  | .drain, [] =>
      .return (!collector.protocolDone) (some (collector.messages, collector.protocolDone))

end Collector

/-! ## Task and channels -/

inductive Task (Protocol Output : Type) where
  | running (protocol : Protocol)
  /-- The join handle's result; the outer error is a cancelled task. -/
  | ended (result : Except String (Except String Output))

structure Relay (Protocol Output : Type) where
  task : Task Protocol Output
  input : List Bytes
  /-- Live senders of the input channel. -/
  senders : Nat
  output : List Bytes
  /-- The receiver of the output channel is alive. -/
  receiver : Bool
  notify : Notify
  collector : Option Collector

/-- Capacity of the channel from the caller to the task. -/
def inputCapacity : Nat := 16

/-- Capacity of the channel from the task to the caller. -/
def outputCapacity : Nat := 64

namespace Relay

variable {Protocol Output : Type}

def spawn (protocol : Protocol) : Relay Protocol Output :=
  { task := .running protocol, input := [], senders := 1, output := [], receiver := true
    notify := .new, collector := none }

/-- The task has dropped its `ChannelRelayConn`. -/
def closed (relay : Relay Protocol Output) : Bool :=
  match relay.task with
  | .running _ => false
  | .ended _ => true

/-- `JoinHandle::abort`; a task that has ended keeps its result. -/
def cancel (relay : Relay Protocol Output) : Relay Protocol Output :=
  match relay.task with
  | .running _ => { relay with task := .ended (.error "task was cancelled") }
  | .ended _ => relay

/-- One step of the protocol task (`poll_next` and `start_send`). -/
def poll (resume : Protocol → ProtocolStep Protocol Output) (relay : Relay Protocol Output) :
    Relay Protocol Output :=
  match relay.task with
  | .ended _ => relay
  | .running protocol =>
      match resume protocol with
      | .finish outcome => { relay with task := .ended (.ok outcome) }
      | .send message next =>
          if relay.receiver ∧ relay.output.length < outputCapacity then
            { relay with task := .running (next true), output := relay.output ++ [message] }
          else { relay with task := .running (next false) }
      | .receive next =>
          match relay.input with
          | message :: rest => { relay with task := .running (next (some message)), input := rest }
          | [] =>
              if relay.senders = 0 then { relay with task := .running (next none) }
              else { relay with notify := relay.notify.notifyOne }

/-- `tx.send(msg)`: waits for capacity, fails when the task is gone. -/
def send (message : Bytes) (relay : Relay Protocol Output) :
    Reaction (Relay Protocol Output) Bool :=
  if relay.closed then .reply relay false
  else if relay.input.length < inputCapacity then
    .reply { relay with input := relay.input ++ [message] } true
  else .blocked

/-- `collect_batch` on this relay's own channel and notification. -/
def collect (relay : Relay Protocol Output) :
    Reaction (Relay Protocol Output) (Option (List Bytes × Bool)) :=
  match relay.collector with
  | none =>
      let (ready, notify) := relay.notify.enable
      .pending { relay with notify, collector := some (.start ready) }
  | some collector =>
      let woken := collector.ready || relay.notify.waiter = .notified
      match collector.advance woken relay.closed relay.output with
      | .wait => .blocked
      | .continue collector output => .pending { relay with collector := some collector, output }
      | .return observed batch =>
          .reply { relay with collector := none, notify := relay.notify.release observed } batch

end Relay

end CeresMpc
