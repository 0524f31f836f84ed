import CeresMpc.Api.CallSteps
import CeresMpc.Api.Runs
import CeresMpc.Toy

/-!
# The SEC-01 flag

An advance call tests the flag of its session under one lock and sets it under a
later one. Between the two nothing keeps another call from passing the test.
-/

set_option autoImplicit false

namespace CeresMpc.Signing

open Encoding Interleaving Program Api

variable {lib : Libraries}

/-- The call has passed the check on a session of this id, and has neither reset the
flag nor removed the session nor returned. -/
structure InProgress (world : EngineWorld lib) (sessionId : String) (thread : Nat) : Prop where
  passed : ∃ session : SignSession, session.consumed = false ∧
    Performed world.trace thread (.checkout .secp256k1 .dsg sessionId) (.found session)
  unreset : ¬Performed world.trace thread (.resetConsumed sessionId) ()
  kept : ∀ found, ¬Performed world.trace thread (.remove .secp256k1 .dsg sessionId) found
  active : world.nextAction thread ≠ none

/-- The call has come to the critical section that sets the flag, on the session that is
in the table now. -/
def HasLocked (sessionId : String) (thread : Nat) :
    List (Nat × Entry (Action lib) (Action.Answer lib)) → Prop
  | [] => False
  | (other, ⟨.acquire .dsg otherId, _⟩) :: earlier =>
      other = thread ∧ otherId = sessionId ∨ HasLocked sessionId thread earlier
  | (_, ⟨.insert .secp256k1 .dsg otherId _, _⟩) :: earlier =>
      otherId ≠ sessionId ∧ HasLocked sessionId thread earlier
  | _ :: earlier => HasLocked sessionId thread earlier

/-- A call passes the check only when no other call in progress stands before its lock. -/
def ChecksApart (world : EngineWorld lib) : Move Call Drift → Prop
  | .run thread =>
      match world.threads[thread]? with
      | some (_, .perform (.checkout .secp256k1 .dsg sessionId) _) =>
          (∃ session : SignSession, world.shared.sessions .secp256k1 .dsg sessionId = some session ∧
            session.consumed = false) →
            ∀ other, InProgress world sessionId other → HasLocked sessionId other world.trace
      | _ => True
  | .start _ | .drift _ => True

/-- One call at a time is in progress on an id, and no other call on it is about to
put a message into a protocol task. -/
def RoundsExclusive (lib : Libraries) (Allowed : EngineWorld lib → Move Call Drift → Prop) : Prop :=
  ∀ world : EngineWorld lib, (machine lib).Reaches Allowed (.initial .empty) world → ∀ sessionId,
    (∀ thread other, InProgress world sessionId thread → InProgress world sessionId other → thread = other) ∧
    ∀ holder thread call task message, InProgress world sessionId holder → world.Called thread call →
      call.scope = some (.dsg, sessionId) → call.round ≠ some 1 →
      world.nextAction thread = some (.send .dsg task message) → thread = holder

/-! ## What a call has done before an operation of its round -/

/-- The call has passed the check and not finished its round. -/
structure Passed (sessionId : String) (past : Past lib) : Prop where
  looked : ∃ session : SignSession, session.consumed = false ∧
    ⟨.checkout .secp256k1 .dsg sessionId, .found session⟩ ∈ past
  unfinished : ∀ entry ∈ past, entry.1 ≠ .resetConsumed sessionId ∧ entry.1 ≠ .remove .secp256k1 .dsg sessionId

theorem Passed.cons {sessionId : String} {past : Past lib} (passed : Passed sessionId past)
    {action : Action lib} {answer : Action.Answer lib action} (notReset : action ≠ .resetConsumed sessionId)
    (notRemove : action ≠ .remove .secp256k1 .dsg sessionId) : Passed sessionId (⟨action, answer⟩ :: past) := by
  obtain ⟨⟨session, free, looked⟩, unfinished⟩ := passed
  constructor
  · exact ⟨session, free, List.mem_cons_of_mem _ looked⟩
  · intro entry member
    rcases List.mem_cons.mp member with rfl | before
    · exact ⟨notReset, notRemove⟩
    · exact unfinished entry before

private theorem injected_passed {call : Call} {base : Past lib} (routed : Call.Routed lib call false base)
    {sessionId serverPayload : String} {session : SignSession} {env : WireEnvelope} {messages done : List Bytes}
    (accepted : MpcEngine.Accepted lib .dsg serverPayload session env messages) :
    Passed sessionId (MpcEngine.injected lib .dsg sessionId base session done) := by
  have start : Passed sessionId (MpcEngine.looked lib .dsg sessionId base session) := by
    constructor
    · exact ⟨session, accepted.unconsumed, List.mem_cons_self⟩
    · intro entry member
      rcases List.mem_cons.mp member with rfl | before
      · simp
      · obtain ⟨protocol, otherId, same⟩ := routed.looks entry before
        simp [same]
  induction done using List.reverseRecOn with
  | nil => exact start
  | append_singleton done message ih =>
      rw [MpcEngine.injected, ← MpcEngine.sent_snoc]
      exact ih.cons (by simp) (by simp)

/-- A call resets the flag at the end of its round. -/
theorem passed_of_reset {call : Call} {past : Past lib} {sessionId : String}
    (step : Call.Step lib call past (.resetConsumed sessionId)) : Passed sessionId past := by
  obtain ⟨base, routed, step⟩ := step.on_secp256k1 rfl
  cases step with
  | first names first step =>
      cases step with
      | read only same reading => exact reading.elim
      | opens only parsed step => cases step
  | keyshare names last other step => cases step
  | advance names later step =>
      cases step with
      | @resetConsumed session env messages held batch accepted signing =>
          cases signing
          have passed : Passed sessionId (MpcEngine.injected lib .dsg sessionId base session messages) :=
            injected_passed routed accepted
          exact ((passed.cons (by simp) (by simp)).cons (by simp) (by simp)).cons (by simp) (by simp)

/-- A later round puts its messages into the task after the check. -/
theorem passed_of_send {call : Call} {past : Past lib} {sessionId : String} {task : Nat} {message : Bytes}
    (names : call.scope = some (.dsg, sessionId)) (later : call.round ≠ some 1)
    (step : Call.Step lib call past (.send .dsg task message)) : Passed sessionId past := by
  obtain ⟨base, routed, step⟩ := step.on_secp256k1 rfl
  cases step with
  | first scope first step => exact absurd first later
  | keyshare scope last other step => cases step
  | advance scope later step =>
      rw [names] at scope
      cases scope
      cases step with
      | send accepted split => exact injected_passed routed accepted

/-- A call looks its session up before anything else on it. -/
theorem looks_of_checkout {call : Call} {past : Past lib} {protocol : ProtocolType} {sessionId : String}
    (step : Call.Step lib call past (.checkout .secp256k1 protocol sessionId)) :
    ∀ entry ∈ past, ∃ protocol sessionId, entry.1 = .contains .ed25519 protocol sessionId := by
  obtain ⟨base, routed, step⟩ := step.on_secp256k1 rfl
  cases step with
  | first names first step =>
      cases step with
      | read only same reading => exact reading.elim
      | opens only parsed step => cases step
  | keyshare names last other step => cases step
  | advance names later step =>
      cases step with
      | checkout => exact routed.looks

/-! ## Runs -/

variable {world : EngineWorld lib}

theorem inProgress_iff {sessionId : String} {thread : Nat} :
    InProgress world sessionId thread ↔
      Passed sessionId (past thread world.trace) ∧ world.nextAction thread ≠ none := by
  constructor
  · rintro ⟨⟨session, free, looked⟩, unreset, kept, active⟩
    refine ⟨⟨⟨session, free, mem_past.mpr looked⟩, ?_⟩, active⟩
    rintro ⟨action, answer⟩ member
    have performed : Performed world.trace thread action answer := mem_past.mp member
    constructor
    · rintro rfl
      exact unreset performed
    · rintro rfl
      exact kept answer performed
  · rintro ⟨⟨⟨session, free, looked⟩, unfinished⟩, active⟩
    constructor
    · exact ⟨session, free, mem_past.mp looked⟩
    · intro performed
      exact (unfinished _ (mem_past.mpr performed)).1 rfl
    · intro found performed
      exact (unfinished _ (mem_past.mpr performed)).2 rfl
    · exact active

private theorem hasLocked_cons {sessionId : String} {thread other : Nat} {action : Action lib}
    {answer : Action.Answer lib action} {earlier : List (Nat × Entry (Action lib) (Action.Answer lib))}
    (locked : HasLocked sessionId thread ((other, ⟨action, answer⟩) :: earlier)) :
    other = thread ∧ action = .acquire .dsg sessionId ∨
      HasLocked sessionId thread earlier ∧ ∀ session, action ≠ .insert .secp256k1 .dsg sessionId session := by
  unfold HasLocked at locked
  split at locked
  · next nil => cases nil
  · next event =>
    cases event
    rcases locked with ⟨rfl, rfl⟩ | before
    · exact .inl ⟨rfl, rfl⟩
    · exact .inr ⟨before, by simp⟩
  · next event =>
    cases event
    refine .inr ⟨locked.2, fun session same => ?_⟩
    cases same
    exact locked.1 rfl
  · next notAcquire notInsert event =>
    cases event
    refine .inr ⟨locked, fun session same => ?_⟩
    subst same
    exact notInsert _ _ _ _ rfl

/-- The flag of a session is set while a call that has locked it is in progress. -/
structure Guarded (world : EngineWorld lib) : Prop where
  alone : ∀ sessionId thread other, InProgress world sessionId thread → InProgress world sessionId other →
    thread = other
  flagged : ∀ sessionId thread session, InProgress world sessionId thread →
    HasLocked sessionId thread world.trace →
      world.shared.sessions .secp256k1 .dsg sessionId = some session → consumed lib .dsg session = true

/-- A call in progress after an operation was so before it, or has just passed the check. -/
private theorem inProgress_after {thread holder : Nat} {call : Call} {action : Action lib}
    {next : Action.Answer lib action → EngineM lib Reply} {state : Engine lib}
    {answer : Action.Answer lib action} {sessionId : String}
    (found : world.threads[thread]? = some (call, .perform action next))
    (holds : InProgress
      { shared := state, threads := world.threads.set thread (call, next answer)
        trace := (thread, ⟨action, answer⟩) :: world.trace } sessionId holder) :
    InProgress world sessionId holder ∧
        (holder = thread → action ≠ .resetConsumed sessionId ∧ action ≠ .remove .secp256k1 .dsg sessionId) ∨
      holder = thread ∧ ∃ session : SignSession, session.consumed = false ∧
        (⟨action, answer⟩ : Entry (Action lib) (Action.Answer lib)) =
          ⟨.checkout .secp256k1 .dsg sessionId, .found session⟩ := by
  obtain ⟨⟨⟨session, free, looked⟩, unfinished⟩, active⟩ := inProgress_iff.mp holds
  by_cases same : thread = holder
  · subst same
    rw [past_cons_self] at looked unfinished
    have running : world.nextAction thread ≠ none := by simp [World.nextAction, found]
    rcases List.mem_cons.mp looked with newest | before
    · exact .inr ⟨rfl, session, free, newest.symm⟩
    · left
      constructor
      · refine inProgress_iff.mpr ⟨⟨⟨session, free, before⟩, fun entry member => ?_⟩, running⟩
        exact unfinished entry (List.mem_cons_of_mem _ member)
      · intro _
        exact unfinished _ List.mem_cons_self
  · rw [past_cons_of_ne same] at looked unfinished
    left
    constructor
    · refine inProgress_iff.mpr ⟨⟨⟨session, free, looked⟩, unfinished⟩, ?_⟩
      simpa [World.nextAction, List.getElem?_set_ne same] using active
    · intro impossible
      exact absurd impossible.symm same

private theorem not_locked_of_looks {sessionId : String} {thread : Nat}
    {trace : List (Nat × Entry (Action lib) (Action.Answer lib))}
    (looks : ∀ entry ∈ past thread trace, ∃ protocol sessionId, entry.1 = .contains .ed25519 protocol sessionId) :
    ¬HasLocked sessionId thread trace := by
  induction trace with
  | nil => exact id
  | cons event earlier ih =>
      obtain ⟨other, action, answer⟩ := event
      intro locked
      rcases hasLocked_cons locked with ⟨rfl, rfl⟩ | ⟨before, _⟩
      · rw [past_cons_self] at looks
        obtain ⟨protocol, otherId, same⟩ := looks _ List.mem_cons_self
        cases same
      · refine ih (fun entry member => looks entry ?_) before
        exact mem_past.mpr (List.mem_cons_of_mem _ (mem_past.mp member))

private theorem flag_after_reply {thread holder : Nat} {call : Call} {action : Action lib}
    {next : Action.Answer lib action → EngineM lib Reply} {state : Engine lib}
    {answer : Action.Answer lib action} {sessionId : String} {session : Session lib .secp256k1 .dsg}
    (reached : (machine lib).Reaches ChecksApart (.initial .empty) world) (guarded : Guarded world)
    (found : world.threads[thread]? = some (call, .perform action next))
    (moved : world.shared.interpret thread action = .reply state answer)
    (holds : InProgress world sessionId holder)
    (unfinished : holder = thread → action ≠ .resetConsumed sessionId ∧ action ≠ .remove .secp256k1 .dsg sessionId)
    (locked : HasLocked sessionId holder ((thread, ⟨action, answer⟩) :: world.trace))
    (live : state.sessions .secp256k1 .dsg sessionId = some session) : consumed lib .dsg session = true := by
  have slot := @slot_after_reply lib _ _ .secp256k1 .dsg _ _ _ _ reached moved sessionId
  rcases hasLocked_cons locked with ⟨_, rfl⟩ | ⟨lockedBefore, noInsert⟩
  · rw [tableEvent_acquire] at slot
    rcases slot with ⟨impossible, _⟩ | ⟨event, happened, same⟩
    · cases impossible
    · cases happened
      rw [same] at live
      simp only [Custody.Event.effect, if_true, Option.map_eq_some_iff] at live
      obtain ⟨old, _, rfl⟩ := live
      rfl
  · have before (kept : state.sessions .secp256k1 .dsg sessionId =
        world.shared.sessions .secp256k1 .dsg sessionId) : consumed lib .dsg session = true :=
      guarded.flagged sessionId holder session holds lockedBefore (kept ▸ live)
    rcases slot with ⟨_, same⟩ | ⟨event, effect, same⟩
    · exact before same
    · cases event with
      | put key value =>
          by_cases here : sessionId = key
          · subst here
            have put := congrArg Sigma.fst (insert_of_tableEvent effect)
            exact absurd put (noInsert value)
          · exact before (by simpa [Custody.Event.effect, here] using same)
      | take key taken =>
          by_cases here : sessionId = key
          · rw [same] at live
            simp [Custody.Event.effect, here] at live
          · exact before (by simpa [Custody.Event.effect, here] using same)
      | evict key =>
          by_cases here : sessionId = key
          · rw [same] at live
            simp [Custody.Event.effect, here] at live
          · exact before (by simpa [Custody.Event.effect, here] using same)
      | amend key change =>
          by_cases here : sessionId = key
          · subst here
            rcases amend_of_tableEvent effect with ⟨_, rfl⟩ | ⟨_, reset⟩
            · rw [same] at live
              simp only [Custody.Event.effect, if_true, Option.map_eq_some_iff] at live
              obtain ⟨old, _, rfl⟩ := live
              rfl
            · dsimp only at reset
              subst reset
              have running : world.nextAction thread ≠ none := by simp [World.nextAction, found]
              have passed := passed_of_reset (reached.follows Call.body_steps thread call _ found).1
              have own := guarded.alone sessionId holder thread holds (inProgress_iff.mpr ⟨passed, running⟩)
              exact absurd rfl (unfinished own).1
          · exact before (by simpa [Custody.Event.effect, here] using same)

private theorem InProgress.unshared {state : Engine lib} {sessionId : String} {thread : Nat}
    (holds : InProgress { world with shared := state } sessionId thread) : InProgress world sessionId thread :=
  ⟨holds.passed, holds.unreset, holds.kept, holds.active⟩

private theorem guarded (reached : (machine lib).Reaches ChecksApart (.initial .empty) world) :
    Guarded world := by
  refine reached.invariant Guarded ?_ ?_ ?_ ?_ ?_
  · have nobody (sessionId : String) (thread : Nat) :
        ¬InProgress (World.initial Engine.empty : EngineWorld lib) sessionId thread :=
      fun holds => holds.active rfl
    constructor
    · intro sessionId thread other holds
      exact absurd holds (nobody sessionId thread)
    · intro sessionId thread session holds
      exact absurd holds (nobody sessionId thread)
  · intro world call reached guarded _
    have before {sessionId : String} {thread : Nat}
        (holds : InProgress { world with threads := world.threads ++ [(call, (machine lib).body call)] }
          sessionId thread) : InProgress world sessionId thread := by
      obtain ⟨session, free, looked⟩ := holds.passed
      have old : thread < world.threads.length := reached.trace_lt _ looked
      refine ⟨⟨session, free, looked⟩, holds.unreset, holds.kept, ?_⟩
      simpa [World.nextAction, List.getElem?_append_left old] using holds.active
    constructor
    · intro sessionId thread other holds again
      exact guarded.alone sessionId thread other (before holds) (before again)
    · intro sessionId thread session holds locked live
      exact guarded.flagged sessionId thread session (before holds) locked live
  · intro world thread call action next state answer reached guarded allowed found moved
    have moved : world.shared.interpret thread action = .reply state answer := moved
    have step := (reached.follows Call.body_steps thread call _ found).1
    have running : world.nextAction thread ≠ none := by simp [World.nextAction, found]
    -- a call that passes the check now finds every other call behind its lock
    have checks {sessionId : String} {session : SignSession} (free : session.consumed = false)
        (newest : (⟨action, answer⟩ : Entry (Action lib) (Action.Answer lib)) =
          ⟨.checkout .secp256k1 .dsg sessionId, .found session⟩) (holder : Nat) :
        ¬InProgress world sessionId holder := by
      cases newest
      have live := Engine.checkout_answer moved
      intro holds
      simp only [ChecksApart, found] at allowed
      have locked := allowed ⟨session, live, free⟩ holder holds
      have set := guarded.flagged sessionId holder session holds locked live
      exact absurd (free.symm.trans set) (by decide)
    constructor
    · intro sessionId first second holds again
      rcases inProgress_after found holds with ⟨before, _⟩ | ⟨rfl, session, free, newest⟩
      · rcases inProgress_after found again with ⟨otherBefore, _⟩ | ⟨rfl, session, free, newest⟩
        · exact guarded.alone sessionId first second before otherBefore
        · exact absurd before (checks free newest first)
      · rcases inProgress_after found again with ⟨otherBefore, _⟩ | ⟨rfl, _⟩
        · exact absurd otherBefore (checks free newest second)
        · rfl
    · intro sessionId holder session holds locked live
      rcases inProgress_after found holds with ⟨before, unfinished⟩ | ⟨rfl, looked, free, newest⟩
      · exact flag_after_reply reached guarded found moved before unfinished locked live
      · cases newest
        rcases hasLocked_cons locked with ⟨_, same⟩ | ⟨lockedBefore, _⟩
        · cases same
        · exact absurd lockedBefore (not_locked_of_looks (looks_of_checkout step))
  · intro world thread call action next state _ guarded _ _ moved
    obtain ⟨tasks, rfl⟩ := Engine.interpret_pending moved
    constructor
    · intro sessionId first second holds again
      exact guarded.alone sessionId first second holds.unshared again.unshared
    · intro sessionId holder session holds locked live
      exact guarded.flagged sessionId holder session holds.unshared locked live
  · intro world change _ guarded _
    constructor
    · intro sessionId first second holds again
      exact guarded.alone sessionId first second holds.unshared again.unshared
    · intro sessionId holder session holds locked live
      refine guarded.flagged sessionId holder session holds.unshared locked ?_
      rwa [show (machine lib).drift change world.shared = Engine.drift lib change world.shared from rfl,
        Engine.drift_sessions] at live

/-- Where checks stand apart, the flag excludes a second round. -/
theorem rounds_exclusive (lib : Libraries) : RoundsExclusive lib ChecksApart := by
  intro world reached sessionId
  have alone := (guarded reached).alone sessionId
  constructor
  · exact alone
  · intro holder thread call task message holds called names later sends
    obtain ⟨program, found⟩ := called
    have running : world.nextAction thread ≠ none := by simp [sends]
    cases program with
    | done outcome => simp [World.nextAction, found] at sends
    | perform action next =>
        obtain rfl : action = .send .dsg task message := by simpa [World.nextAction, found] using sends
        have step := (reached.follows Call.body_steps thread call _ found).1
        have passed := passed_of_send names later step
        exact alone thread holder (inProgress_iff.mpr ⟨passed, running⟩) holds

/-! ## Two rounds at once -/

private def shared : String :=
  "00112233445566778899aabbccddeeff00112233445566778899aabbccddeeff"

private def envelopeText : String :=
  "\x7b\"session_id\":\"s\",\"protocol\":\"dsg\",\"round\":1,\"from_id\":1,\"payload_encoding\":\"\",\"payload\":\"AQ==\"\x7d"

private def firstRound : Call :=
  .sign .mpcEngine shared 1 envelopeText (some "/wAABwAAAAAAAAAAAAAAAAAAAAAAAAAAAAAAAAAAAAAAAAA=") (some shared)

private def advancing : Call :=
  .sign .mpcEngine shared 2 envelopeText none none

/-- Two later rounds look the session up before either of them sets the flag. -/
private def bothChecks : List (Move Call Drift) :=
  .start firstRound :: List.replicate 4 (.run 0) ++ List.replicate 4 (.drift (.poll .dsg 0)) ++
    List.replicate 6 (.run 0) ++ [.start advancing, .run 1, .run 1, .start advancing, .run 2, .run 2]

private def sawUnconsumed (thread : Nat)
    (event : Nat × Entry (Action Toy.libraries) (Action.Answer Toy.libraries)) : Bool :=
  match event with
  | (other, ⟨.checkout .secp256k1 .dsg sessionId, .found session⟩) =>
      other = thread && sessionId = shared && !(session : SignSession).consumed
  | _ => false

private def finishes (thread : Nat)
    (event : Nat × Entry (Action Toy.libraries) (Action.Answer Toy.libraries)) : Bool :=
  match event with
  | (other, ⟨.resetConsumed _, _⟩) => other = thread
  | (other, ⟨.remove .secp256k1 .dsg _, _⟩) => other = thread
  | _ => false

private def inProgress (world : EngineWorld Toy.libraries) (thread : Nat) : Bool :=
  world.trace.any (sawUnconsumed thread) && world.trace.all (fun event => !finishes thread event) &&
    (world.nextAction thread).isSome

private theorem inProgress_sound {world : EngineWorld Toy.libraries} {thread : Nat}
    (checked : inProgress world thread = true) : InProgress world shared thread := by
  simp only [inProgress, Bool.and_eq_true, List.any_eq_true, List.all_eq_true, Bool.not_eq_true'] at checked
  obtain ⟨⟨⟨event, member, saw⟩, unfinished⟩, active⟩ := checked
  constructor
  · unfold sawUnconsumed at saw
    split at saw
    · next other sessionId session =>
      simp only [Bool.and_eq_true, decide_eq_true_eq, Bool.not_eq_true'] at saw
      obtain ⟨⟨rfl, rfl⟩, free⟩ := saw
      exact ⟨session, free, member⟩
    · cases saw
  · intro performed
    simpa [finishes] using unfinished _ performed
  · intro found performed
    simpa [finishes] using unfinished _ performed
  · intro none
    rw [none] at active
    cases active

/-- The check and the set are two critical sections, and another check fits between. -/
theorem rounds_overlap : ¬RoundsExclusive Toy.libraries Machine.Any := by
  intro exclusive
  have reached : (machine Toy.libraries).Reaches Machine.Any (.initial .empty)
      ((machine Toy.libraries).run bothChecks (.initial .empty)) := Machine.reaches_run _ _
  have first : InProgress ((machine Toy.libraries).run bothChecks (.initial .empty)) shared 1 :=
    inProgress_sound (by decide +kernel)
  have second : InProgress ((machine Toy.libraries).run bothChecks (.initial .empty)) shared 2 :=
    inProgress_sound (by decide +kernel)
  have same := (exclusive _ reached shared).1 1 2 first second
  cases same

end CeresMpc.Signing
