import CeresMpc.Delivery.Ledger
import CeresMpc.Interleaving.WaitFree
import CeresMpc.Lifecycle.Completion
import CeresMpc.Lifecycle.Locks
import CeresMpc.Toy

/-!
# What calls wait for

A call waits for the lock of a DKLs23 table or for a protocol task. Who holds a lock waits
for no other lock, so calls never wait for each other in a circle.
-/

set_option autoImplicit false

namespace CeresMpc.Lifecycle

open Encoding Interleaving Program Api

variable {lib : Libraries}

/-! ## Waiting -/

/-- Operations that need the lock of a DKLs23 table. -/
def Needs (protocol : ProtocolType) : Action lib → Prop
  | .contains .secp256k1 other _ | .insert .secp256k1 other _ _ | .remove .secp256k1 other _
  | .checkout .secp256k1 other _ | .acquire other _ => other = protocol
  | .resetConsumed _ => ProtocolType.dsg = protocol
  | _ => False

/-- The operation works on a task that has not ended. -/
def AwaitsTask (engine : Engine lib) (action : Action lib) : Prop :=
  ∃ protocol task relay, Names protocol task action ∧ engine.tasks protocol task = some relay ∧ relay.closed = false

section Blocked

variable {protocol : ProtocolType} {engine after : Engine lib} {thread : Nat} {action : Action lib}

private theorem locked_secp256k1 : engine.locked .secp256k1 protocol = false ↔ engine.locks protocol = none := by
  simp [Engine.locked]

theorem needs_free {answer : Action.Answer lib action} (moved : engine.interpret thread action = .reply after answer)
    (needs : Needs protocol action) : engine.locks protocol = none := by
  rw [← locked_secp256k1]
  cases action with
  | contains curve _ _ | insert curve _ _ _ | remove curve _ _ | checkout curve _ _ =>
      cases curve with
      | ed25519 => exact needs.elim
      | secp256k1 =>
          obtain rfl := needs
          simp only [Engine.interpret] at moved
          split at moved
          · cases moved
          · next free => exact Bool.eq_false_iff.mpr free
  | acquire _ _ | resetConsumed _ =>
      obtain rfl := needs
      simp only [Engine.interpret] at moved
      split at moved
      · cases moved
      · next free => exact Bool.eq_false_iff.mpr free
  | _ => exact needs.elim

private theorem advance_waits {collector : Collector} {woken closed : Bool} {output : List Bytes}
    (waits : collector.advance woken closed output = .wait) : closed = false := by
  cases ended : closed with
  | false => rfl
  | true =>
      rw [ended] at waits
      unfold Collector.advance at waits
      split at waits
      · cases waits
      · cases waits
      · split at waits
        · cases waits
        · split at waits <;> cases waits
      · cases waits
      · cases waits

/-- Only a lock or a task can keep an operation waiting. -/
theorem blocked_cases (blocked : engine.interpret thread action = .blocked) :
    (∃ protocol, Needs protocol action ∧ engine.locks protocol ≠ none) ∨
      ∃ protocol task, Names protocol task action ∧
        ∀ relay, engine.tasks protocol task = some relay → relay.closed = false := by
  have unfree {protocol : ProtocolType} (locked : engine.locked .secp256k1 protocol = true) :
      engine.locks protocol ≠ none := by
    rw [Ne, ← locked_secp256k1, locked]
    exact Bool.noConfusion
  cases action with
  | now | random | exportedContains _ | exportedInsert _ | roundSign _ _ _ | spawn _ _ | release _ | abort _ _
  | dropSender _ _ | dropReceiver _ _ => cases blocked
  | contains curve protocol _ | insert curve protocol _ _ | remove curve protocol _ | checkout curve protocol _ =>
      simp only [Engine.interpret] at blocked
      split at blocked
      · next locked =>
        cases curve with
        | ed25519 => cases locked
        | secp256k1 => exact .inl ⟨protocol, rfl, unfree locked⟩
      · cases blocked
  | acquire protocol _ =>
      simp only [Engine.interpret] at blocked
      split at blocked
      · next locked => exact .inl ⟨protocol, rfl, unfree locked⟩
      · split at blocked <;> cases blocked
  | resetConsumed _ =>
      simp only [Engine.interpret] at blocked
      split at blocked
      · next locked => exact .inl ⟨.dsg, rfl, unfree locked⟩
      · split at blocked <;> cases blocked
  | send protocol task message =>
      refine .inr ⟨protocol, task, ⟨rfl, rfl⟩, fun relay live => ?_⟩
      simp only [Engine.interpret, live, Relay.send] at blocked
      cases closed : relay.closed with
      | false => rfl
      | true => simp [closed] at blocked
  | join protocol task =>
      refine .inr ⟨protocol, task, ⟨rfl, rfl⟩, fun relay live => ?_⟩
      simp only [Engine.interpret, live] at blocked
      split at blocked
      · cases blocked
      · next running => simp [Relay.closed, running]
  | collect protocol receiver signal =>
      simp only [Engine.interpret, Engine.collect] at blocked
      split at blocked
      · next relay source found signalled =>
        refine .inr ⟨protocol, receiver, ⟨rfl, .inl rfl⟩, fun there live => ?_⟩
        obtain rfl : there = relay := Option.some.inj (live.symm.trans found)
        split at blocked
        · cases blocked
        · split at blocked
          · next waits => exact advance_waits waits
          · cases blocked
          · cases blocked
      · next missing =>
        -- one of the two channels is not there
        cases found : engine.tasks protocol receiver with
        | none => exact .inr ⟨protocol, receiver, ⟨rfl, .inl rfl⟩, fun relay live => by rw [found] at live; cases live⟩
        | some relay =>
            refine .inr ⟨protocol, signal, ⟨rfl, .inr rfl⟩, fun source live => ?_⟩
            exact absurd live (missing relay source found)

end Blocked

/-! ## Runs -/

section Runs

variable {Allowed : EngineWorld lib → Move Call Drift → Prop} {world : EngineWorld lib}

theorem returns_inside (protocol : ProtocolType) (call : Call) :
    (call.body lib).Follows (fun past action => Gives protocol action → InsideOf protocol past) (fun _ _ => True) [] := by
  apply (body_disciplined call).mono
  · exact fun past action disciplined => disciplined.returns protocol
  · exact fun past outcome _ => trivial

theorem stays_inside (protocol : ProtocolType) (call : Call) :
    (call.body lib).Follows (fun past action => InsideOf protocol past → InSection protocol action)
      (fun past _ => ¬InsideOf protocol past) [] := by
  apply (body_disciplined call).mono
  · exact fun past action disciplined => disciplined.stays protocol
  · exact fun past outcome outside => outside protocol

private theorem task_named (reached : (machine lib).Reaches Allowed (.initial .empty) world) {protocol : ProtocolType}
    {task : Nat} {relay : EngineRelay lib protocol} (live : world.shared.tasks protocol task = some relay) :
    task < world.shared.nextTask := by
  by_contra beyond
  rw [unspawned reached protocol task (Nat.le_of_not_lt beyond)] at live
  cases live

/-- A task that was spawned is there. -/
theorem spawned_live (reached : (machine lib).Reaches Allowed (.initial .empty) world) :
    ∀ thread protocol run (task : Nat), Performed world.trace thread (.spawn protocol run) task →
      ∃ relay, world.shared.tasks protocol task = some relay := by
  refine reached.invariant (fun world => ∀ thread protocol run (task : Nat),
    Performed world.trace thread (.spawn protocol run) task → ∃ relay, world.shared.tasks protocol task = some relay)
    ?_ ?_ ?_ ?_ ?_
  · intro thread protocol run task performed
    cases performed
  · intro world call _ live _
    exact live
  · intro world thread call action next after answer reached live _ found moved spawner protocol run task performed
    have moved : world.shared.interpret thread action = .reply after answer := moved
    rcases List.mem_cons.mp performed with newest | before
    · cases newest
      cases moved
      exact ⟨_, by simp [Engine.setTask]; rfl⟩
    · obtain ⟨relay, there⟩ := live spawner protocol run task before
      obtain ⟨later, still, _⟩ := Engine.interpret_accounts moved there (fresh_of_reached reached there)
        (task_named reached there)
      exact ⟨later, still⟩
  · intro world thread call action next after reached live _ found moved spawner protocol run task performed
    have moved : world.shared.interpret thread action = .pending after := moved
    obtain ⟨relay, there⟩ := live spawner protocol run task performed
    obtain ⟨later, still, _⟩ := Engine.interpret_underway moved there (fresh_of_reached reached there)
    exact ⟨later, still⟩
  · intro world change _ live _ spawner protocol run task performed
    obtain ⟨relay, there⟩ := live spawner protocol run task performed
    cases change with
    | tick elapsed => exact ⟨relay, there⟩
    | poll other named =>
        change ∃ relay, (world.shared.mapTask other named _).tasks protocol task = some relay
        rcases mapTask_tasks world.shared other protocol named task (Relay.poll lib.dkls.resume) with same | ⟨_, rfl, rfl⟩
        · exact ⟨relay, same.trans there⟩
        · exact ⟨_, Engine.mapTask_self there⟩

/-- An operation that is kept waiting by no lock waits for a task. -/
theorem awaits_of_blocked (reached : (machine lib).Reaches Allowed (.initial .empty) world) {thread : Nat}
    {action : Action lib} (next : world.nextAction thread = some action)
    (blocked : world.shared.interpret thread action = .blocked)
    (unlocked : ∀ protocol, Needs protocol action → world.shared.locks protocol = none) :
    AwaitsTask world.shared action := by
  obtain ⟨call, continuation, found⟩ := World.found_of_nextAction next
  rcases blocked_cases blocked with ⟨protocol, needs, locked⟩ | ⟨protocol, task, names, running⟩
  · exact absurd (unlocked protocol needs) locked
  · obtain ⟨sessionId, _, spawner, _, run, _, _, performed⟩ := named_spawned reached found names
    obtain ⟨relay, live⟩ := spawned_live reached spawner protocol run task performed
    exact ⟨protocol, task, relay, names, live, running relay live⟩

theorem unneeded_of_inSection {protocol other : ProtocolType} {action : Action lib}
    (within : InSection protocol action) : ¬Needs other action := by
  cases action <;> first | exact id | exact within.elim

end Runs

/-! ## Locks and waiting in every run -/

/-- Locks are held in critical sections only. -/
structure LocksKept (world : EngineWorld lib) : Prop where
  /-- The holder is collecting a batch or about to give the lock back. -/
  holder : ∀ protocol thread, world.shared.locks protocol = some thread →
    ∃ action, world.nextAction thread = some action ∧ InSection protocol action
  /-- Nobody gives back what somebody else holds. -/
  returns : ∀ protocol thread, world.nextAction thread = some (.release protocol) →
    world.shared.locks protocol = some thread
  single : ∀ protocol other thread, world.shared.locks protocol = some thread →
    world.shared.locks other = some thread → protocol = other
  /-- What needs the lock happens in nobody's section. -/
  exclusive : ∀ later earlier thread entry protocol, world.trace = later ++ (thread, entry) :: earlier →
    Needs protocol entry.1 → ∀ other, ¬InsideOf protocol (past other earlier)
  idle : world.Idle → ∀ protocol, world.shared.locks protocol = none

theorem locks_kept {Allowed : EngineWorld lib → Move Call Drift → Prop} {world : EngineWorld lib}
    (reached : (machine lib).Reaches Allowed (.initial .empty) world) : LocksKept world := by
  have holder (protocol : ProtocolType) (thread : Nat) (held : world.shared.locks protocol = some thread) :
      ∃ action, world.nextAction thread = some action ∧ InSection protocol action :=
    reached.holder_within (locks protocol) rfl (returns_inside protocol) (stays_inside protocol) held
  constructor
  · exact holder
  · intro protocol thread next
    obtain ⟨call, continuation, found⟩ := World.found_of_nextAction next
    have follows := (reached.follows (returns_inside protocol) thread call _ found).1
    exact (reached.holder_iff (locks protocol) rfl (returns_inside protocol) thread).mpr (follows rfl)
  · intro protocol other thread held again
    obtain ⟨action, next, within⟩ := holder protocol thread held
    obtain ⟨same, nextAgain, withinAgain⟩ := holder other thread again
    rw [next] at nextAgain
    cases nextAgain
    cases action with
    | collect _ _ _ | release _ => exact within.symm.trans withinAgain
    | _ => exact within.elim
  · intro later earlier thread entry protocol split needs other
    obtain ⟨action, answer⟩ := entry
    exact reached.outside_of_needed (locks protocol) rfl (returns_inside protocol)
      (fun _ _ _ _ _ moved needs => needs_free moved needs) split needs other
  · intro idle protocol
    cases held : world.shared.locks protocol with
    | none => rfl
    | some thread =>
        obtain ⟨action, next, _⟩ := holder protocol thread held
        rw [idle thread] at next
        cases next

/-! ## Two calls on one session -/

def dkgCall (round : Int32) : Call :=
  .keygen .mpcEngine "00112233445566778899aabbccddeeff00112233445566778899aabbccddeeff" round
    "\x7b\"session_id\":\"s\",\"protocol\":\"dkg\",\"round\":1,\"from_id\":1,\"payload_encoding\":\"\",\"payload\":\"AQ==\"\x7d"

/-- Call 1 collects its batch under the lock, and call 2 waits for the lock. -/
def contended : EngineWorld Toy.libraries :=
  (machine Toy.libraries).run
    (.start (dkgCall 1) :: List.replicate 4 (.run 0) ++ List.replicate 4 (.drift (.poll .dkg 0)) ++
      List.replicate 7 (.run 0) ++ .start (dkgCall 2) :: List.replicate 5 (.run 1) ++
      .start (dkgCall 2) :: List.replicate 4 (.run 2)) (.initial .empty)

theorem locks_kept_contended : contended.shared.locks .dkg = some 1 ∧ LocksKept contended := by
  refine ⟨by decide +kernel, ?_⟩
  exact locks_kept (Machine.reaches_run _ _)

/-- Nobody waits in a circle: behind every call that waits is a task that runs, or a call
that can go on. -/
structure NoDeadlock (world : EngineWorld lib) : Prop where
  waits : ∀ thread action, world.nextAction thread = some action →
    world.shared.interpret thread action = .blocked → AwaitsTask world.shared action ∨
      ∃ protocol holder held, Needs protocol action ∧ world.shared.locks protocol = some holder ∧
        world.nextAction holder = some held ∧
        (world.shared.interpret holder held = .blocked → AwaitsTask world.shared held)
  /-- When the tasks have ended, some call goes on until all have returned. -/
  progress : (∀ protocol task relay, world.shared.tasks protocol task = some relay → relay.closed = true) →
    ¬world.Idle → ∃ thread action, world.nextAction thread = some action ∧
      world.shared.interpret thread action ≠ .blocked

theorem no_deadlock {Allowed : EngineWorld lib → Move Call Drift → Prop} {world : EngineWorld lib}
    (reached : (machine lib).Reaches Allowed (.initial .empty) world) : NoDeadlock world := by
  have waits (thread : Nat) (action : Action lib) (next : world.nextAction thread = some action)
      (blocked : world.shared.interpret thread action = .blocked) : AwaitsTask world.shared action ∨
        ∃ protocol holder held, Needs protocol action ∧ world.shared.locks protocol = some holder ∧
          world.nextAction holder = some held ∧
          (world.shared.interpret holder held = .blocked → AwaitsTask world.shared held) := by
    by_cases unlocked : ∀ protocol, Needs protocol action → world.shared.locks protocol = none
    · exact .inl (awaits_of_blocked reached next blocked unlocked)
    · simp only [not_forall] at unlocked
      obtain ⟨protocol, needs, locked⟩ := unlocked
      obtain ⟨holder, held⟩ := Option.ne_none_iff_exists'.mp locked
      obtain ⟨doing, nextHeld, within⟩ :=
        reached.holder_within (locks protocol) rfl (returns_inside protocol) (stays_inside protocol) held
      refine .inr ⟨protocol, holder, doing, needs, held, nextHeld, fun blockedHeld => ?_⟩
      apply awaits_of_blocked reached nextHeld blockedHeld
      exact fun other needsToo => absurd needsToo (unneeded_of_inSection within)
  constructor
  · exact waits
  · intro ended busy
    have unawaited {action : Action lib} : ¬AwaitsTask world.shared action := by
      rintro ⟨protocol, task, relay, _, live, running⟩
      rw [ended protocol task relay live] at running
      cases running
    simp only [World.Idle, not_forall] at busy
    obtain ⟨thread, active⟩ := busy
    obtain ⟨action, next⟩ := Option.ne_none_iff_exists'.mp active
    by_cases blocked : world.shared.interpret thread action = .blocked
    · rcases waits thread action next blocked with awaits | ⟨protocol, holder, held, _, _, nextHeld, awaits⟩
      · exact absurd awaits unawaited
      · exact ⟨holder, held, nextHeld, fun blockedHeld => unawaited (awaits blockedHeld)⟩
    · exact ⟨thread, action, next, blocked⟩

theorem no_deadlock_contended : contended.shared.locks .dkg = some 1 ∧ (contended.nextAction 2).isSome ∧
    NoDeadlock contended := by
  refine ⟨by decide +kernel, by decide +kernel, ?_⟩
  exact no_deadlock (Machine.reaches_run _ _)

/-! ## Calls that wait for nobody -/

private theorem prompt_of_within {protocol : ProtocolType} {sessionId : String} {action : Action lib}
    (within : action.Within .ed25519 protocol sessionId) : (machine lib).Prompt action := by
  intro thread engine
  cases action with
  | now | random | exportedContains _ | roundSign _ _ _ => exact ⟨_, _, rfl⟩
  | insert _ _ _ _ | remove _ _ _ | checkout _ _ _ =>
      obtain ⟨rfl, _⟩ := within
      exact ⟨_, _, rfl⟩
  | contains _ _ _ | exportedInsert _ => exact within.elim
  | _ => cases within.1

private theorem prompt_of_exports {action : Action lib} (exports : action.Exports) : (machine lib).Prompt action := by
  intro thread engine
  cases action with
  | exportedInsert key => exact ⟨_, _, rfl⟩
  | _ => exact exports.elim

private theorem frost_keygen_atMost (sessionId : String) (round : Int32) (serverPayload : String) :
    (EngineEd25519.keygen lib sessionId round serverPayload).AtMost 4 := by
  unfold EngineEd25519.keygen
  split
  · simp [EngineEd25519.keygenRound1]
  split
  · simp [EngineEd25519.keygenRound2]
  split
  · simp [EngineEd25519.keygenFinalize]
  · simp

private theorem frost_recover_atMost (sessionId : String) (round : Int32) (serverPayload : String)
    (backupShare : Option String) (currentRotationVersion : Option Int32) :
    (EngineEd25519.recover lib sessionId round serverPayload backupShare currentRotationVersion).AtMost 4 := by
  unfold EngineEd25519.recover
  split
  · simp [EngineEd25519.recoverRound1]
  split
  · intro found
    cases found <;> simp
  split
  · simp [EngineEd25519.recoverFinalize]
  · simp

private theorem frost_sign_atMost (sessionId : String) (round : Int32) (serverPayload : String)
    (share messageHex : Option String) :
    (EngineEd25519.sign lib sessionId round serverPayload share messageHex).AtMost 4 := by
  unfold EngineEd25519.sign
  split
  · simp [EngineEd25519.signRound1]
  split
  · simp [EngineEd25519.signRound2]
  · simp

/-- Calls of the FROST engine, exports, and first rounds that go to the FROST engine. -/
inductive WaitsForNobody (lib : Libraries) (call : Call) : Prop where
  | frost : call.entry = .engineEd25519 → WaitsForNobody lib call
  | exports : call.scope = none → WaitsForNobody lib call
  | detected : call.entry = .mpcEngine → call.round = some 1 → call.detected lib = true → WaitsForNobody lib call

private theorem exports_bounded {call : Call} (exports : call.scope = none) :
    (call.body lib).AtMost 4 ∧ (call.body lib).Only (machine lib).Prompt := by
  cases call with
  | exportPrivateKey entry localShare serverShare =>
      have only : ((Call.exportPrivateKey entry localShare serverShare).body lib).Only (machine lib).Prompt :=
        (Call.body_touches _).mono fun action touches => prompt_of_exports touches
      refine ⟨?_, only⟩
      have frost : (EngineEd25519.exportPrivateKey lib localShare serverShare).AtMost 4 := by
        simp [EngineEd25519.exportPrivateKey]
      cases entry with
      | engineEd25519 => exact frost.bind_done _
      | mpcEngine =>
          refine AtMost.bind_done ?_ _
          unfold MpcEngine.exportPrivateKey
          split
          · exact frost
          · simp [MpcEngine.exportSecp256k1]
  | _ => cases exports

private theorem direct_bounded (call : Call) :
    (call.direct.body lib).AtMost 4 ∧ (call.direct.body lib).Only (machine lib).Prompt := by
  cases names : call.scope with
  | none =>
      cases call with
      | exportPrivateKey entry localShare serverShare => exact exports_bounded rfl
      | _ => cases names
  | some target =>
      obtain ⟨protocol, sessionId⟩ := target
      refine ⟨?_, (Call.direct_within names).mono fun _ within => prompt_of_within within⟩
      cases call with
      | keygen _ _ _ _ => exact (frost_keygen_atMost _ _ _).bind_done _
      | recover _ _ _ _ _ _ => exact (frost_recover_atMost _ _ _ _ _).bind_done _
      | sign _ _ _ _ _ _ => exact (frost_sign_atMost _ _ _ _ _).bind_done _
      | exportPrivateKey _ _ _ => cases names

private theorem body_bounded {call : Call} (alone : WaitsForNobody lib call) :
    (call.body lib).AtMost 4 ∧ (call.body lib).Only (machine lib).Prompt := by
  have direct := @direct_bounded lib call
  cases alone with
  | frost entered =>
      rw [call.direct_eq entered] at direct
      exact direct
  | exports names => exact exports_bounded names
  | detected unified first frost =>
      rw [Call.unified_first unified first, if_pos frost]
      exact direct

/-- Four moves of its own bring such a call to its end, whatever state it starts in and
whatever calls and tasks do in between. -/
theorem frost_calls_wait_free {call : Call} (alone : WaitsForNobody lib call) (world : EngineWorld lib)
    {moves : List (Move Call Drift)} (enough : 4 ≤ moves.countP (Move.runs world.threads.length)) :
    ∃ outcome, ((machine lib).run (.start call :: moves) world).Returned world.threads.length call outcome := by
  obtain ⟨bounded, prompt⟩ := body_bounded alone
  have started : ((machine lib).step world (.start call)).threads[world.threads.length]? = some (call, call.body lib) :=
    List.getElem?_concat_length
  rw [Machine.run, List.foldl_cons]
  exact Machine.returned_of_prompt started bounded prompt enough

/-- A FROST call returns while call 1 holds the lock of the DKLs23 keygen table. -/
theorem frost_returns_contended : contended.shared.locks .dkg = some 1 ∧ ∃ outcome,
    ((machine Toy.libraries).run
      (.start (keygenCall 1) :: .run 1 :: List.replicate 3 (.run 3) ++ [.drift (.tick 1), .run 3]) contended).Returned
        contended.threads.length (keygenCall 1) outcome := by
  refine ⟨by decide +kernel, ?_⟩
  exact frost_calls_wait_free (.frost rfl) contended (by decide +kernel)

end CeresMpc.Lifecycle
