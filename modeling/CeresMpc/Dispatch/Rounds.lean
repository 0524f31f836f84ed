import CeresMpc.Dispatch.Specification
import CeresMpc.Toy

/-!
# Rounds and curves

A later round is dispatched by a lookup in the FROST table. That is the curve the
session was opened on as long as no session id is live on both curves, which first
rounds do not look after.
-/

set_option autoImplicit false

namespace CeresMpc.Dispatch

open Encoding Interleaving Program Api

variable {lib : Libraries}

def otherCurve : Curve → Curve
  | .secp256k1 => .ed25519
  | .ed25519 => .secp256k1

/-- Calls are made one after another. -/
def Sequential (world : EngineWorld lib) : Move Call Drift → Prop
  | .start _ => world.Idle
  | .run _ | .drift _ => True

/-- Calls are made one after another, and a first round inserts its session while
the id is not live on the other curve. -/
def OpensAlone (world : EngineWorld lib) : Move Call Drift → Prop
  | .start _ => world.Idle
  | .run thread =>
      match world.threads[thread]? with
      | some (call, .perform (.insert curve protocol sessionId _) _) =>
          call.round = some 1 → world.shared.sessions (otherCurve curve) protocol sessionId = none
      | _ => True
  | .drift _ => True

/-- The curve of the last first round that inserted a session under an id. -/
def openedOn (threads : List (Call × EngineM lib Reply)) (protocol : ProtocolType) (sessionId : String) :
    List (Nat × Entry (Action lib) (Action.Answer lib)) → Option Curve
  | [] => none
  | (thread, ⟨.insert curve other otherId _, _⟩) :: earlier =>
      if other = protocol ∧ otherId = sessionId ∧
          (threads[thread]?.bind fun entry => entry.1.round) = some 1 then some curve
      else openedOn threads protocol sessionId earlier
  | _ :: earlier => openedOn threads protocol sessionId earlier

/-- The table of a curve at an earlier point of the run. -/
def liveAt (curve : Curve) (protocol : ProtocolType) (sessionId : String)
    (earlier : List (Nat × Entry (Action lib) (Action.Answer lib))) : Bool :=
  (Custody.contents (tableHistory curve protocol earlier) sessionId).isSome

/-- No id is live on both curves, and a later round runs on the engine that accepted
the last first round, as long as that session is live. -/
def RoundsStay (lib : Libraries) (Allowed : EngineWorld lib → Move Call Drift → Prop) : Prop :=
  ∀ world : EngineWorld lib, (machine lib).Reaches Allowed (.initial .empty) world →
    (∀ protocol sessionId, world.shared.sessions .secp256k1 protocol sessionId = none ∨
      world.shared.sessions .ed25519 protocol sessionId = none) ∧
    ∀ thread call protocol sessionId later earlier answer curve,
      world.Called thread call → call.entry = .mpcEngine → call.round ≠ some 1 →
      call.scope = some (protocol, sessionId) →
      world.trace = later ++ (thread, ⟨.contains .ed25519 protocol sessionId, answer⟩) :: earlier →
      openedOn world.threads protocol sessionId earlier = some curve →
      liveAt curve protocol sessionId earlier = true →
      ∀ action reply, Performed world.trace thread action reply →
        action = .contains .ed25519 protocol sessionId ∨ action.Within curve protocol sessionId

variable {world : EngineWorld lib}

/-! ## One table at a time -/

private theorem sequential_of_opensAlone (world : EngineWorld lib) (call : Call)
    (allowed : OpensAlone world (.start call)) : world.Idle :=
  allowed

/-- At most one table holds an id; while a FROST round has its session in hand,
neither does. -/
private structure Separate (world : EngineWorld lib) : Prop where
  tables : ∀ protocol sessionId, world.shared.sessions .secp256k1 protocol sessionId = none ∨
    world.shared.sessions .ed25519 protocol sessionId = none
  inHand : ∀ thread protocol sessionId session before, world.nextAction thread ≠ none →
    past thread world.trace = ⟨.remove .ed25519 protocol sessionId, some session⟩ :: before →
      world.shared.sessions .secp256k1 protocol sessionId = none

private theorem Separate.insertion (separate : Separate world) {thread : Nat} {call : Call}
    {curve : Curve} {protocol : ProtocolType} {sessionId : String}
    {session : Session lib curve protocol} {next}
    (found : world.threads[thread]? = some (call, .perform (.insert curve protocol sessionId session) next))
    (allowed : OpensAlone world (.run thread))
    (permitted : InsertPermitted call (past thread world.trace)
      (.insert curve protocol sessionId session)) :
    world.shared.sessions (otherCurve curve) protocol sessionId = none := by
  rcases permitted with first | ⟨rfl, taken, before, own⟩
  · simp only [OpensAlone, found] at allowed
    exact allowed first
  · have active : world.nextAction thread ≠ none := by simp [World.nextAction, found]
    exact separate.inHand thread protocol sessionId taken before active own

private theorem separate (reached : (machine lib).Reaches OpensAlone (.initial .empty) world) :
    Separate world := by
  refine reached.invariant Separate ?_ ?_ ?_ ?_ ?_
  · exact ⟨fun _ _ => .inl rfl, fun _ _ _ _ _ active => absurd rfl active⟩
  · intro world call reached separate idle
    refine ⟨separate.tables, fun thread protocol sessionId session before active own => ?_⟩
    exfalso
    rcases Nat.lt_or_ge thread world.threads.length with old | new
    · refine active ?_
      simpa [World.nextAction, List.getElem?_append_left old] using idle thread
    · have unseen : past thread world.trace = [] := past_eq_nil_of_fresh fun event member =>
        Nat.lt_of_lt_of_le (reached.trace_lt event member) new
      rw [unseen] at own
      cases own
  · intro world thread call action next state answer reached separate allowed found moved
    have permitted := (reached.follows body_inserts thread call _ found).1
    have active : world.nextAction thread ≠ none := by simp [World.nextAction, found]
    have before {curve : Curve} {protocol : ProtocolType} {sessionId : String}
        {session : Session lib curve protocol}
        (live : state.sessions curve protocol sessionId = some session) :=
      session_after_reply reached (show world.shared.interpret thread action = _ from moved) live
    constructor
    · intro protocol sessionId
      cases secp : state.sessions .secp256k1 protocol sessionId with
      | none => exact .inl rfl
      | some session =>
          cases ed : state.sessions .ed25519 protocol sessionId with
          | none => exact .inr rfl
          | some other =>
              exfalso
              rcases before secp with rfl | ⟨old, oldSecp, _⟩
              · have alone := separate.insertion found allowed permitted
                rcases before ed with same | ⟨old, oldEd, _⟩
                · cases same
                · exact absurd (alone.symm.trans oldEd) (by simp)
              · rcases before ed with rfl | ⟨otherOld, oldEd, _⟩
                · have alone := separate.insertion found allowed permitted
                  exact absurd (alone.symm.trans oldSecp) (by simp)
                · rcases separate.tables protocol sessionId with empty | empty
                  · exact absurd (empty.symm.trans oldSecp) (by simp)
                  · exact absurd (empty.symm.trans oldEd) (by simp)
    · intro holder protocol sessionId session earlier holding own
      have same : holder = thread := by
        by_contra different
        refine different (reached.one_active sequential_of_opensAlone holder thread ?_ active)
        simpa [World.nextAction, List.getElem?_set_ne (Ne.symm different)] using holding
      subst same
      rw [past_cons_self] at own
      cases own
      have held : world.shared.sessions .ed25519 protocol sessionId = some session :=
        Engine.remove_answer (show world.shared.interpret holder _ = _ from moved)
      cases secp : state.sessions .secp256k1 protocol sessionId with
      | none => rfl
      | some live =>
          rcases before secp with impossible | ⟨old, oldSecp, _⟩
          · cases impossible
          · rcases separate.tables protocol sessionId with empty | empty
            · exact absurd (empty.symm.trans oldSecp) (by simp)
            · exact absurd (empty.symm.trans held) (by simp)
  · intro world thread call action next state _ separate _ _ moved
    obtain ⟨tasks, rfl⟩ := Engine.interpret_pending moved
    exact ⟨separate.tables, separate.inHand⟩
  · intro world change _ separate _
    have same := Engine.drift_sessions change world.shared
    constructor
    · intro protocol sessionId
      change (Engine.drift lib change world.shared).sessions _ _ _ = none ∨
        (Engine.drift lib change world.shared).sessions _ _ _ = none
      rw [same]
      exact separate.tables protocol sessionId
    · intro thread protocol sessionId session before active own
      change (Engine.drift lib change world.shared).sessions _ _ _ = none
      rw [same]
      exact separate.inHand thread protocol sessionId session before active own

/-! ## Lookups -/

private theorem lookup_live (reached : (machine lib).Reaches OpensAlone (.initial .empty) world) :
    ∀ later earlier thread protocol sessionId (answer : Bool) curve,
      world.trace = later ++ (thread, ⟨.contains .ed25519 protocol sessionId, answer⟩) :: earlier →
      liveAt curve protocol sessionId earlier = true → chosen answer = curve := by
  refine reached.invariant (fun world =>
    ∀ later earlier thread protocol sessionId (answer : Bool) curve,
      world.trace = later ++ (thread, ⟨.contains .ed25519 protocol sessionId, answer⟩) :: earlier →
      liveAt curve protocol sessionId earlier = true → chosen answer = curve) ?_ ?_ ?_ ?_ ?_
  · intro later earlier thread protocol sessionId answer curve split
    simp [World.initial] at split
  · intro world call _ lookups _
    exact lookups
  · intro world thread call action next state answer reached lookups _ _ moved later earlier other
      protocol sessionId looked curve split live
    cases later with
    | cons newest later =>
        simp only [List.cons_append, List.cons.injEq] at split
        exact lookups later earlier other protocol sessionId looked curve split.2 live
    | nil =>
        simp only [List.nil_append, List.cons.injEq, Prod.mk.injEq] at split
        obtain ⟨⟨rfl, same⟩, rfl⟩ := split
        cases same
        have answered : (world.shared.sessions .ed25519 protocol sessionId).isSome = looked :=
          Engine.contains_answer (show world.shared.interpret thread _ = _ from moved)
        rw [liveAt, (reached_recorded curve protocol reached).contents] at live
        cases curve with
        | ed25519 => rw [← answered, live, chosen, if_pos rfl]
        | secp256k1 =>
            rcases (separate reached).tables protocol sessionId with empty | empty
            · rw [empty] at live
              cases live
            · rw [← answered, empty]
              rfl
  · intro world thread call action next state _ lookups _ _ _
    exact lookups
  · intro world change _ lookups _
    exact lookups

/-- A later round runs on the engine its lookup chose. -/
theorem engine_of_lookup {Allowed : EngineWorld lib → Move Call Drift → Prop}
    (reached : (machine lib).Reaches Allowed (.initial .empty) world) {thread : Nat} {call : Call}
    {protocol : ProtocolType} {sessionId : String} {answer : Bool}
    (called : world.Called thread call) (unified : call.entry = .mpcEngine)
    (later : call.round ≠ some 1) (names : call.scope = some (protocol, sessionId))
    (looked : Performed world.trace thread (.contains .ed25519 protocol sessionId) answer)
    {action : Action lib} {reply : Action.Answer lib action}
    (performed : Performed world.trace thread action reply) :
    action = .contains .ed25519 protocol sessionId ∨ action.Within (chosen answer) protocol sessionId := by
  have engine {action : Action lib} {reply : Action.Answer lib action}
      (performed : Performed world.trace thread action reply) :
      ∃ after before, past thread world.trace = after ++ ⟨action, reply⟩ :: before ∧
        EnginePermitted call before action := by
    obtain ⟨after, before, split⟩ := List.append_of_mem performed
    obtain ⟨owner, program, found, permitted⟩ :=
      reached.event_permitted body_engine after before thread ⟨action, reply⟩ split
    obtain ⟨later, called⟩ := called
    rw [found] at called
    cases called
    exact ⟨past thread after, past thread before, by rw [split, past_append, past_cons_self], permitted⟩
  obtain ⟨after, before, first, permitted⟩ := engine looked
  have start : (past thread world.trace).getLast? = some ⟨.contains .ed25519 protocol sessionId, answer⟩ := by
    rcases permitted unified later protocol sessionId names with ⟨rfl, _⟩ | ⟨_, _, inside⟩
    · rw [first]
      simp
    · exact inside.elim
  obtain ⟨after, before, own, permitted⟩ := engine performed
  rcases permitted unified later protocol sessionId names with ⟨_, same⟩ | ⟨toEd25519, last, inside⟩
  · exact .inl same
  · right
    have same : some (⟨.contains .ed25519 protocol sessionId, toEd25519⟩ :
        Entry (Action lib) (Action.Answer lib)) =
        some ⟨.contains .ed25519 protocol sessionId, answer⟩ := by
      cases before with
      | nil => cases last
      | cons entry before =>
          rw [← start, own, List.getLast?_append, List.getLast?_cons_cons, last]
          rfl
    cases same
    exact inside

/-- On runs that open ids on one curve at a time, rounds stay with their curve. -/
theorem rounds_stay (lib : Libraries) : RoundsStay lib OpensAlone := by
  intro world reached
  refine ⟨(separate reached).tables, ?_⟩
  intro thread call protocol sessionId later earlier answer curve called unified laterRound names split
    opened live action reply performed
  have looked : Performed world.trace thread (.contains .ed25519 protocol sessionId) answer := by
    rw [Performed, split]
    exact List.mem_append_right _ List.mem_cons_self
  have same : chosen answer = curve :=
    lookup_live reached later earlier thread protocol sessionId answer curve split live
  subst same
  exact engine_of_lookup reached called unified laterRound names looked performed

/-! ## An id on both curves -/

private def reused : String :=
  "00112233445566778899aabbccddeeff00112233445566778899aabbccddeeff"

private def openEd25519 : Call :=
  .keygen .mpcEngine reused 1
    "\x7b\"session_id\":\"s\",\"protocol\":\"dkg\",\"round\":1,\"from_id\":1,\"payload_encoding\":\"\",\"payload\":\"\",\"curve\":\"ed25519\"\x7d"

private def openSecp256k1 : Call :=
  .keygen .mpcEngine reused 1
    "\x7b\"session_id\":\"s\",\"protocol\":\"dkg\",\"round\":1,\"from_id\":1,\"payload_encoding\":\"\",\"payload\":\"AQ==\"\x7d"

/-- The second first round is sent once the first one has returned. -/
private def bothCurves : List (Move Call Drift) :=
  .start openEd25519 :: List.replicate 3 (.run 0) ++ .start openSecp256k1 :: List.replicate 3 (.run 1) ++
    List.replicate 4 (.drift (.poll .dkg 0)) ++ List.replicate 6 (.run 1)

def startsIdle (world : EngineWorld Toy.libraries) : Move Call Drift → Bool
  | .start _ => world.idle
  | .run _ | .drift _ => true

theorem startsIdle_sequential (world : EngineWorld Toy.libraries) (move : Move Call Drift)
    (checked : startsIdle world move = true) : Sequential world move := by
  cases move with
  | start call => exact World.idle_sound checked
  | run thread => trivial
  | drift change => trivial

/-- First rounds do not look for the id on the other curve. -/
theorem rounds_switch_curve : ¬RoundsStay Toy.libraries Sequential := by
  intro stay
  have reached : (machine Toy.libraries).Reaches Sequential (.initial .empty)
      ((machine Toy.libraries).run bothCurves (.initial .empty)) :=
    Machine.reaches_of_allowedAlong startsIdle_sequential bothCurves _ (by decide +kernel)
  have both : ∀ curve : Curve,
      (((machine Toy.libraries).run bothCurves (.initial .empty)).shared.sessions curve .dkg
        reused).isSome = true := by
    intro curve
    cases curve with
    | secp256k1 => decide +kernel
    | ed25519 => decide +kernel
  rcases (stay _ reached).1 .dkg reused with none | none
  · have live := both .secp256k1
    rw [none] at live
    cases live
  · have live := both .ed25519
    rw [none] at live
    cases live

end CeresMpc.Dispatch
