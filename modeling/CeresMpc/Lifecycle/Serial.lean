import CeresMpc.Interleaving.Serial
import CeresMpc.Lifecycle.Completion

/-!
# Concurrent FROST calls

Calls of the FROST engine on one id share one table entry. A round 2 takes the entry,
computes, and puts it back, and the entry is absent in between. Without calls in that
gap the calls behave as if they were made one after another.
-/

set_option autoImplicit false

namespace CeresMpc.Lifecycle

open Encoding Interleaving Program Api

variable {lib : Libraries}

/-! ## One entry of a FROST table -/

/-- Operations on an entry of a FROST table. -/
def OnFrost (protocol : ProtocolType) (sessionId : String) : Action lib → Prop
  | .insert curve other otherId _ | .remove curve other otherId | .checkout curve other otherId =>
      curve = .ed25519 ∧ other = protocol ∧ otherId = sessionId
  | _ => False

/-- What an operation with its answer makes of the entry, where the answer fits the entry. -/
inductive Serves (protocol : ProtocolType) (sessionId : String) : Entry (Action lib) (Action.Answer lib) →
    Option (Session lib .ed25519 protocol) → Option (Session lib .ed25519 protocol) → Prop where
  | insert {session before} : Serves protocol sessionId ⟨.insert .ed25519 protocol sessionId session, ()⟩ before (some session)
  | remove {found} : Serves protocol sessionId ⟨.remove .ed25519 protocol sessionId, found⟩ found none
  | missing : Serves protocol sessionId ⟨.checkout .ed25519 protocol sessionId, .missing⟩ none none
  | found {session} : Serves protocol sessionId ⟨.checkout .ed25519 protocol sessionId, .found session⟩ (some session) (some session)
  | expired {session} : Serves protocol sessionId ⟨.checkout .ed25519 protocol sessionId, .expired⟩ (some session) none
  | elsewhere {entry part} : ¬OnFrost protocol sessionId entry.1 → Serves protocol sessionId entry part part

/-- A call done alone on an entry, with the answers it got from clock and randomness, and of a
unified call those of its routing lookup and of the other engine. -/
structure DoneAlone (call : Call) (protocol : ProtocolType) (sessionId : String) (past : Past lib)
    (before after : Option (Session lib .ed25519 protocol)) (outcome : Except String Reply) : Prop where
  replays : (call.body lib).Replays past (.done outcome)
  leaves : Leaves (Serves protocol sessionId) past before after

/-- The calls of these threads one after another, the last one first, with the results they
had in the run. -/
inductive OneAfterAnother (world : EngineWorld lib) (protocol : ProtocolType) (sessionId : String) :
    List Nat → Option (Session lib .ed25519 protocol) → Prop where
  | none : OneAfterAnother world protocol sessionId [] none
  | next {thread earlier before after call outcome} : OneAfterAnother world protocol sessionId earlier before →
      world.Returned thread call outcome →
      DoneAlone call protocol sessionId (past thread world.trace) before after outcome →
      OneAfterAnother world protocol sessionId (thread :: earlier) after

/-- A thread's call is made on the id. -/
def CalledOn (world : EngineWorld lib) (protocol : ProtocolType) (sessionId : String) (thread : Nat) : Prop :=
  ∃ call, world.Called thread call ∧ call.scope = some (protocol, sessionId)

/-- When all calls on an id have returned, made to the FROST engine or to the unified one, some
order of them explains their results and the FROST entry they leave. -/
def AsInSomeOrder (world : EngineWorld lib) (protocol : ProtocolType) (sessionId : String) : Prop :=
  (∀ thread call, world.Called thread call → call.scope = some (protocol, sessionId) →
    ∃ outcome, world.Returned thread call outcome) →
  ∃ order : List Nat, order.Nodup ∧ (∀ thread, thread ∈ order ↔ CalledOn world protocol sessionId thread) ∧
    OneAfterAnother world protocol sessionId order (world.shared.sessions .ed25519 protocol sessionId)

/-- No first round's session is overwritten by one that was taken before it came. -/
def FirstRoundsKept (world : EngineWorld lib) (protocol : ProtocolType) (sessionId : String) : Prop :=
  ∀ thread session old later middle earlier,
    world.trace = later ++ (thread, ⟨.insert .ed25519 protocol sessionId session, ()⟩) ::
      (middle ++ (thread, ⟨.remove .ed25519 protocol sessionId, some old⟩) :: earlier) →
    ∀ opener call stored, world.Called opener call → call.round = some 1 →
      ¬Performed middle opener (.insert .ed25519 protocol sessionId stored) ()

/-- Nobody works on an entry while a call that has worked on it is about to do so again. -/
def GapsKept (world : EngineWorld lib) (move : Move Call Drift) : Prop :=
  ∀ protocol sessionId, KeepsBlocks (OnFrost protocol sessionId) world move

/-- Concurrent calls on an id behave on its FROST entry as if done one after another. -/
def CallsSerial (lib : Libraries) (Allowed : EngineWorld lib → Move Call Drift → Prop) : Prop :=
  ∀ world : EngineWorld lib, (machine lib).Reaches Allowed (.initial .empty) world → ∀ protocol sessionId,
    AsInSomeOrder world protocol sessionId ∧ FirstRoundsKept world protocol sessionId

/-! ## Steps -/

section Steps

variable {protocol : ProtocolType} {sessionId : String}

private theorem onFrost_engine {action : Action lib} (touches : OnFrost protocol sessionId action) :
    action.OnEngine .ed25519 := by
  cases action with
  | insert | remove | checkout => exact touches.1
  | _ => exact touches.elim

private theorem reads_off_entry {action : Action lib} (reads : action.Reads) : ¬OnFrost protocol sessionId action :=
  fun touches => action.reads_off_engine reads (onFrost_engine touches)

private theorem looks_off_entry {call : Call} {toEd25519 : Bool} {base : Past lib}
    (routed : Call.Routed lib call toEd25519 base) : ∀ entry ∈ base, ¬OnFrost protocol sessionId entry.1 := by
  intro entry member
  obtain ⟨other, otherId, same⟩ := routed.looks entry member
  rw [same]
  exact id

private theorem ceremony_together {ceremony : EngineEd25519.Ceremony lib protocol} {other : ProtocolType} {otherId : String}
    {serverPayload : String} {round : Int32} {base past : Past lib} {action : Action lib}
    {opens : Past lib → Session lib .ed25519 protocol → String → Prop}
    (step : EngineEd25519.CeremonyStep ceremony sessionId serverPayload round base opens past action)
    (start : ∀ entry ∈ base, ¬OnFrost other otherId entry.1)
    (opened : ∀ reads session inner, opens reads session inner → ∀ entry ∈ reads, entry.1.Reads)
    (touches : OnFrost other otherId action) :
    (∀ entry ∈ past, ¬OnFrost other otherId entry.1) ∨
      ∃ newest earlier, past = newest :: earlier ∧ OnFrost other otherId newest.1 := by
  cases step with
  | read first reads reading => rcases reading with rfl | rfl <;> exact touches.elim
  | start first opens same =>
      left
      rw [same]
      intro entry member
      rcases List.mem_append.mp member with new | old
      · exact reads_off_entry (opened _ _ _ opens entry new)
      · exact start entry old
  | look second rotation => exact .inl start
  | take second looked =>
      rcases looked with ⟨_, rfl⟩ | ⟨_, cloned, rfl⟩
      · exact .inl start
      · exact .inr ⟨_, _, rfl, touches⟩
  | putBack second looked advances => exact .inr ⟨_, _, rfl, touches⟩
  | finish last => exact .inl start

private theorem sign_together {other : ProtocolType} {otherId : String} {serverPayload : String} {round : Int32}
    {base past : Past lib} {action : Action lib}
    (step : EngineEd25519.SignStep lib sessionId serverPayload round base past action)
    (start : ∀ entry ∈ base, ¬OnFrost other otherId entry.1) (touches : OnFrost other otherId action) :
    ∀ entry ∈ past, ¬OnFrost other otherId entry.1 := by
  cases step with
  | read first reads reading => rcases reading with ⟨key, rfl⟩ | rfl | rfl <;> exact touches.elim
  | start first reads same free =>
      rw [same]
      intro entry member
      rcases List.mem_append.mp member with new | old
      · exact reads_off_entry (reads entry new)
      · exact start entry old
  | take second decoded => exact start
  | sign second stored => exact touches.elim

private theorem together : Together (OnFrost protocol sessionId) (Call.Step lib) := by
  intro call past action step touches
  obtain ⟨base, routed, step⟩ := step.on_ed25519 (onFrost_engine touches)
  have start : ∀ entry ∈ base, ¬OnFrost protocol sessionId entry.1 := looks_off_entry routed
  cases step with
  | ceremony performs step =>
      refine ceremony_together step start ?_ touches
      intro reads session inner opened
      cases performs with
      | keygen named =>
          obtain ⟨_, draw, _, rfl⟩ := opened
          simp [Action.Reads]
      | recover named =>
          obtain ⟨_, _, share, oldKp, oldPkp, draw, _, _, _, rfl⟩ := opened
          simp [Action.Reads]
  | sign named step => exact .inl (sign_together step start touches)

/-! ## Operations -/

private theorem onFrost_of_tableEvent {entry : Entry (Action lib) (Action.Answer lib)}
    {event : Custody.Event String (Session lib .ed25519 protocol)}
    (effect : tableEvent .ed25519 protocol entry = some event) : OnFrost protocol event.key entry.1 := by
  unfold tableEvent at effect
  split at effect
  · split at effect
    · next same =>
      cases same
      cases effect
      exact ⟨rfl, rfl, rfl⟩
    · cases effect
  · split at effect
    · next same =>
      cases same
      cases effect
      exact ⟨rfl, rfl, rfl⟩
    · cases effect
  · split at effect
    · next same =>
      cases same
      cases effect
      exact ⟨rfl, rfl, rfl⟩
    · cases effect
  · split at effect
    · next same => cases same
    · cases effect
  · split at effect
    · next same => cases same
    · cases effect
  · cases effect

private theorem served {Allowed : EngineWorld lib → Move Call Drift → Prop} {world : EngineWorld lib}
    (reached : (machine lib).Reaches Allowed (.initial .empty) world) {thread : Nat} {action : Action lib}
    {answer : Action.Answer lib action} {after : Engine lib}
    (moved : world.shared.interpret thread action = .reply after answer) :
    Serves protocol sessionId ⟨action, answer⟩ (world.shared.sessions .ed25519 protocol sessionId)
      (after.sessions .ed25519 protocol sessionId) := by
  by_cases touches : OnFrost protocol sessionId action
  · cases action with
    | insert curve other otherId session =>
        obtain ⟨rfl, rfl, rfl⟩ := touches
        cases moved
        simpa using Serves.insert
    | remove curve other otherId =>
        obtain ⟨rfl, rfl, rfl⟩ := touches
        cases moved
        simpa using Serves.remove
    | checkout curve other otherId =>
        obtain ⟨rfl, rfl, rfl⟩ := touches
        simp only [Engine.interpret, Engine.locked, Bool.false_eq_true, if_false, Engine.checkout] at moved
        split at moved
        · next missing =>
          cases moved
          rw [missing]
          exact .missing
        · next session live =>
          split at moved
          · cases moved
            rw [live]
            simpa using Serves.expired
          · cases moved
            rw [live]
            exact .found
    | _ => exact touches.elim
  · rcases @slot_after_reply lib _ _ .ed25519 protocol _ _ _ _ reached moved sessionId with ⟨_, same⟩ | ⟨event, effect, same⟩
    · rw [same]
      exact .elsewhere touches
    · have other : sessionId ≠ event.key := by
        rintro rfl
        exact touches (onFrost_of_tableEvent effect)
      rw [same, event.effect_of_ne other]
      exact .elsewhere touches

private theorem observed : Observed (machine lib) .empty (OnFrost protocol sessionId) (Serves protocol sessionId)
    fun engine => engine.sessions .ed25519 protocol sessionId := by
  constructor
  · intro world reached thread action after answer moved
    exact served reached (show world.shared.interpret thread action = _ from moved)
  · intro thread action state after moved
    obtain ⟨tasks, rfl⟩ := Engine.interpret_pending moved
    rfl
  · intro change state
    exact congrFun (congrFun (congrFun (Engine.drift_sessions change state) .ed25519) protocol) sessionId
  · intro entry elsewhere before after
    constructor
    · intro serves
      cases serves with
      | elsewhere => rfl
      | _ => exact absurd ⟨rfl, rfl, rfl⟩ elsewhere
    · rintro rfl
      exact .elsewhere elsewhere

end Steps

/-! ## Runs -/

section Runs

variable {Allowed : EngineWorld lib → Move Call Drift → Prop} {world : EngineWorld lib} {protocol : ProtocolType}
  {sessionId : String}

private theorem calledOn_of_touched (reached : (machine lib).Reaches Allowed (.initial .empty) world) {thread : Nat}
    (touched : Interleaving.Touched (OnFrost protocol sessionId) thread world.trace) : CalledOn world protocol sessionId thread := by
  obtain ⟨⟨action, answer⟩, member, touches⟩ := touched
  obtain ⟨call, program, before, found, stays, _⟩ := reached.performed_permitted Call.body_stays (mem_past.mp member)
  refine ⟨call, ⟨program, found⟩, stays.names ?_⟩
  cases action with
  | insert | remove | checkout => exact touches.2
  | _ => exact touches.elim

private theorem one_after_another {order : List Nat} {part : Option (Session lib .ed25519 protocol)}
    (returned : ∀ thread ∈ order, ∃ call outcome, world.Returned thread call outcome ∧
      (call.body lib).Replays (past thread world.trace) (.done outcome))
    (leaves : Leaves (Serves protocol sessionId) (order.flatMap fun thread => past thread world.trace) none part) :
    OneAfterAnother world protocol sessionId order part := by
  induction order generalizing part with
  | nil =>
      cases leaves
      exact .none
  | cons thread earlier ih =>
      obtain ⟨between, old, new⟩ := leaves_append.mp leaves
      obtain ⟨call, outcome, ended, replays⟩ := returned thread List.mem_cons_self
      exact .next (ih (fun other member => returned other (List.mem_cons_of_mem _ member)) old) ended ⟨replays, new⟩

open Classical in
private theorem as_in_some_order (reached : (machine lib).Reaches GapsKept (.initial .empty) world) :
    AsInSomeOrder world protocol sessionId := by
  intro complete
  have kept : (machine lib).Reaches (KeepsBlocks (OnFrost protocol sessionId)) (.initial .empty) world :=
    reached.mono fun _ _ gaps => gaps protocol sessionId
  obtain ⟨order, serial⟩ := kept.serialized Call.body_steps together observed
  -- calls that have not come to the table can be made at the end
  have idleCalls : ∃ idle : List Nat, idle.Nodup ∧
      ∀ thread, thread ∈ idle ↔ CalledOn world protocol sessionId thread ∧ thread ∉ order := by
    refine ⟨(List.range world.threads.length).filter fun thread =>
      CalledOn world protocol sessionId thread ∧ thread ∉ order, List.nodup_range.filter _, fun thread => ?_⟩
    rw [List.mem_filter, List.mem_range, decide_eq_true_iff, and_iff_right_iff_imp]
    rintro ⟨⟨call, ⟨program, found⟩, _⟩, _⟩
    exact (List.getElem?_eq_some_iff.mp found).1
  obtain ⟨idle, once, members⟩ := idleCalls
  have listed (thread : Nat) : thread ∈ idle ++ order ↔ CalledOn world protocol sessionId thread := by
    rw [List.mem_append, members]
    constructor
    · rintro (late | early)
      · exact late.1
      · exact calledOn_of_touched reached ((serial.touched thread).mp early)
    · intro called
      by_cases early : thread ∈ order
      · exact .inr early
      · exact .inl ⟨called, early⟩
  refine ⟨idle ++ order, List.nodup_append.mpr ⟨once, serial.nodup, ?_⟩, listed, one_after_another ?_ ?_⟩
  · rintro thread late other early rfl
    exact ((members thread).mp late).2 early
  · intro thread member
    obtain ⟨call, called, names⟩ := (listed thread).mp member
    obtain ⟨outcome, returned⟩ := complete thread call called names
    exact ⟨call, outcome, returned, reached.follows (fun call => Replays.start.follows) thread call _ returned⟩
  · rw [List.flatMap_append]
    refine leaves_append.mpr ⟨_, serial.leaves, leaves_of_idle (fun entry member part => ?_) _⟩
    obtain ⟨thread, late, own⟩ := List.mem_flatMap.mp member
    refine .elsewhere fun touches => ((members thread).mp late).2 ?_
    exact (serial.touched thread).mpr ⟨entry, own, touches⟩

private theorem first_rounds_kept (reached : (machine lib).Reaches GapsKept (.initial .empty) world) :
    FirstRoundsKept world protocol sessionId := by
  intro thread session old later middle earlier split opener call stored called first performed
  obtain ⟨before, own, next, after, start, _, sofar, found, _, onward⟩ := reached.event_moved split
  have taken : ⟨.remove .ed25519 protocol sessionId, some old⟩ ∈ past thread before.trace := by
    rw [sofar, mem_past]
    exact List.mem_append_right _ List.mem_cons_self
  by_cases same : opener = thread
  · subst same
    obtain ⟨program, later⟩ := onward.call_stable found
    obtain rfl := World.called_unique called ⟨program, later⟩
    rcases put_once (start.follows Call.body_steps opener call _ found).1 with ⟨_, still⟩ | ⟨_, second, _⟩
    · exact still _ taken trivial
    · rw [first] at second
      cases second
  · have kept : (machine lib).Reaches (KeepsBlocks (OnFrost protocol sessionId)) (.initial .empty) before :=
      start.mono fun _ _ gaps => gaps protocol sessionId
    have block : before.InBlock (OnFrost protocol sessionId) thread :=
      ⟨⟨.insert .ed25519 protocol sessionId session, by simp [World.nextAction, found], rfl, rfl, rfl⟩,
        _, taken, rfl, rfl, rfl⟩
    exact kept.block_exclusive Call.body_steps together thread block middle earlier _ sofar ⟨rfl, rfl, rfl⟩ opener same _
      (mem_past.mpr performed) ⟨rfl, rfl, rfl⟩

end Runs

theorem calls_serial (lib : Libraries) : CallsSerial lib GapsKept := by
  intro world reached protocol sessionId
  exact ⟨as_in_some_order reached, first_rounds_kept reached⟩

/-! ## A first round in the gap -/

/-- Call 1 takes the session of call 0 and puts it back after call 2 has opened another one. -/
private def overtaken : EngineWorld Toy.libraries :=
  (machine Toy.libraries).run
    [.start (keygenCall 1), .run 0, .run 0, .run 0, .start (keygenCall 2), .run 1,
      .start (keygenCall 1), .run 2, .run 2, .run 2, .run 1] (.initial .empty)

private def putsBack (trace : List (Nat × Entry (Action Toy.libraries) (Action.Answer Toy.libraries))) : Bool :=
  match trace with
  | (1, ⟨.insert .., _⟩) :: (2, ⟨.insert .., _⟩) :: (2, _) :: (2, _) :: (1, ⟨.remove .., some _⟩) :: _ => true
  | _ => false

theorem first_round_overwritten : ¬CallsSerial Toy.libraries Machine.Any := by
  intro serial
  have reached : (machine Toy.libraries).Reaches Machine.Any (.initial .empty) overtaken := Machine.reaches_run _ _
  have calls : overtaken.threads.map Prod.fst = [keygenCall 1, keygenCall 2, keygenCall 1] := by decide +kernel
  have only : overtaken.trace.all (fun event => keygenOnly event.2.1) = true := by decide +kernel
  have order : putsBack overtaken.trace = true := by decide +kernel
  unfold putsBack at order
  split at order
  · next curve protocol sessionId session _ opened openedFor openedId stored _ first second taken takenFor takenId
      old earlier split =>
    rw [split] at only
    simp only [List.all_cons, Bool.and_eq_true] at only
    obtain ⟨rfl, rfl, rfl⟩ := keygenOnly_within only.1
    obtain ⟨rfl, rfl, rfl⟩ := keygenOnly_within only.2.1
    obtain ⟨rfl, rfl, rfl⟩ := keygenOnly_within only.2.2.2.2.1
    have called : overtaken.Called 2 (keygenCall 1) := by
      rw [World.called_iff, calls]
      rfl
    exact (serial overtaken reached .dkg "s").2 1 session old [] [_, _, _] earlier split 2 _ stored called rfl
      List.mem_cons_self
  · cases order

end CeresMpc.Lifecycle
