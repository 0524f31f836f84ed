import CeresMpc.Lifecycle.Completion

/-!
# What a session inherits from the call that opened it

A property of a session and its first round that a second round and the SEC-01 flag
keep holds of the session wherever it is, in its table or in the hand of a call.
-/

set_option autoImplicit false

namespace CeresMpc.Lifecycle

open Interleaving Program Api

variable {lib : Libraries}

/-- A relation of sessions to calls. -/
abbrev Mark (lib : Libraries) := Call → (curve : Curve) → (protocol : ProtocolType) → Session lib curve protocol → Prop

/-- A call other than a second round marks what it inserts, and a second round keeps the mark
of what it puts back. -/
structure Inherited (mark : Mark lib) (permitted : Call → Past lib → Action lib → Prop) : Prop where
  opened : ∀ {call past curve protocol sessionId session}, call.round = some 1 →
    permitted call past (.insert curve protocol sessionId session) → mark call curve protocol session
  kept : ∀ {call origin past curve protocol sessionId old session}, call.round = some 2 →
    permitted call (⟨.remove curve protocol sessionId, some old⟩ :: past) (.insert curve protocol sessionId session) →
      mark origin curve protocol old → mark origin curve protocol session
  lasting : ∀ {origin curve protocol old session}, lasting curve protocol old = lasting curve protocol session →
    mark origin curve protocol old → mark origin curve protocol session

/-- `origin` is a first round on the id that has the session marked. -/
def OpenedAs (mark : Mark lib) (world : EngineWorld lib) (curve : Curve) (protocol : ProtocolType) (sessionId : String)
    (session : Session lib curve protocol) (origin : Nat) : Prop :=
  ∃ call, world.Called origin call ∧ call.round = some 1 ∧ call.scope = some (protocol, sessionId) ∧
    mark call curve protocol session

structure Descends (mark : Mark lib) (world : EngineWorld lib) : Prop where
  slots : ∀ {curve protocol sessionId origin session},
    (descent world.trace).slot (curve, protocol, sessionId) = some origin →
      world.shared.sessions curve protocol sessionId = some session →
        OpenedAs mark world curve protocol sessionId session origin
  hands : ∀ {thread curve protocol sessionId session after before},
    past thread world.trace = after ++ ⟨.remove curve protocol sessionId, some session⟩ :: before →
      (∀ entry ∈ after, ¬Moves entry.1) → ∃ origin, (descent world.trace).hand thread = some origin ∧
        OpenedAs mark world curve protocol sessionId session origin

variable {mark : Mark lib} {before after : EngineWorld lib} {curve : Curve} {protocol : ProtocolType}
  {sessionId : String} {session : Session lib curve protocol}

theorem OpenedAs.mono {origin : Nat} (opened : OpenedAs mark before curve protocol sessionId session origin)
    (kept : ∀ thread call, before.Called thread call → after.Called thread call) :
    OpenedAs mark after curve protocol sessionId session origin := by
  obtain ⟨call, called, marked⟩ := opened
  exact ⟨call, kept origin call called, marked⟩

namespace Descends

variable {thread : Nat} {call : Call}

private theorem other {action : Action lib} {answer : Action.Answer lib action} (descends : Descends mark before)
    (flag : ∀ {origin curve protocol old session}, lasting curve protocol old = lasting curve protocol session →
      mark origin curve protocol old → mark origin curve protocol session)
    (same : ∀ thread owner, after.Called thread owner ↔ before.Called thread owner)
    (trace : after.trace = (thread, ⟨action, answer⟩) :: before.trace) (still : ¬Moves action)
    (sessions : ∀ {curve protocol sessionId session}, after.shared.sessions curve protocol sessionId = some session →
      ∃ old, before.shared.sessions curve protocol sessionId = some old ∧
        lasting curve protocol old = lasting curve protocol session) : Descends mark after := by
  obtain ⟨hands, slots⟩ := @descent_other lib thread action answer before.trace still
  constructor
  · intro curve protocol sessionId origin session live found
    rw [trace] at live
    obtain ⟨old, held, unchanged⟩ := sessions found
    obtain ⟨call, called, first, names, marked⟩ := descends.slots (slots _ _ live) held
    exact ⟨call, (same _ _).mpr called, first, names, flag unchanged marked⟩
  · intro holder curve protocol sessionId session later earlier own quiet
    rw [trace] at own ⊢
    rw [hands]
    have extended {later : Past lib} (own : past holder before.trace = later ++ ⟨.remove curve protocol sessionId, some session⟩ :: earlier)
        (quiet : ∀ entry ∈ later, ¬Moves entry.1) : ∃ origin, (descent before.trace).hand holder = some origin ∧
          OpenedAs mark after curve protocol sessionId session origin := by
      obtain ⟨origin, holds, opened⟩ := descends.hands own quiet
      exact ⟨origin, holds, opened.mono fun _ _ => (same _ _).mpr⟩
    by_cases this : thread = holder
    · subst this
      rw [past_cons_self] at own
      cases later with
      | nil =>
          cases congrArg Sigma.fst (List.cons.inj own).1
          exact absurd trivial still
      | cons newest later =>
          exact extended (List.cons.inj own).2 fun entry member => quiet entry (List.mem_cons_of_mem _ member)
    · rw [past_cons_of_ne this] at own
      exact extended own quiet

private theorem taken {found : Option (Session lib curve protocol)} (descends : Descends mark before)
    (same : ∀ thread owner, after.Called thread owner ↔ before.Called thread owner)
    (trace : after.trace = (thread, ⟨.remove curve protocol sessionId, found⟩) :: before.trace)
    (answer : found = before.shared.sessions curve protocol sessionId)
    (live : found.isSome = ((descent before.trace).slot (curve, protocol, sessionId)).isSome)
    (sessions : after.shared.sessions =
      (before.shared.setSession curve protocol sessionId none).sessions) : Descends mark after := by
  constructor
  · intro otherCurve other otherId origin session live found
    rw [trace, descent_remove] at live
    rw [sessions] at found
    by_cases here : (otherCurve, other, otherId) = (curve, protocol, sessionId)
    · cases here
      simp at live
    · simp only [Function.update_of_ne here] at live
      rw [Engine.setSession_elsewhere _ _ _ _ _ here] at found
      exact (descends.slots live found).mono fun _ _ => (same _ _).mpr
  · intro holder otherCurve other otherId session later earlier own quiet
    rw [trace] at own ⊢
    rw [descent_remove]
    by_cases this : thread = holder
    · subst this
      rw [past_cons_self] at own
      simp only [Function.update_self]
      cases later with
      | nil =>
          cases own
          obtain ⟨origin, held⟩ := Option.isSome_iff_exists.mp (live.symm.trans rfl)
          exact ⟨origin, held, (descends.slots held answer.symm).mono fun _ _ => (same _ _).mpr⟩
      | cons newest later =>
          cases (List.cons.inj own).1
          exact absurd trivial (quiet _ List.mem_cons_self)
    · rw [past_cons_of_ne this] at own
      simp only [Function.update_of_ne (Ne.symm this)]
      obtain ⟨origin, holds, opened⟩ := descends.hands own quiet
      exact ⟨origin, holds, opened.mono fun _ _ => (same _ _).mpr⟩

private theorem put {answer : Unit} (descends : Descends mark before)
    (same : ∀ thread owner, after.Called thread owner ↔ before.Called thread owner)
    (trace : after.trace = (thread, ⟨.insert curve protocol sessionId session, answer⟩) :: before.trace)
    (opened : OpenedAs mark before curve protocol sessionId session (((descent before.trace).hand thread).getD thread))
    (sessions : after.shared.sessions =
      (before.shared.setSession curve protocol sessionId (some session)).sessions) : Descends mark after := by
  constructor
  · intro otherCurve other otherId origin stored live found
    rw [trace, descent_insert] at live
    rw [sessions] at found
    by_cases here : (otherCurve, other, otherId) = (curve, protocol, sessionId)
    · cases here
      simp only [Function.update_self, Engine.setSession_sessions_self, Option.some.injEq] at live found
      subst live found
      exact opened.mono fun _ _ => (same _ _).mpr
    · simp only [Function.update_of_ne here] at live
      rw [Engine.setSession_elsewhere _ _ _ _ _ here] at found
      exact (descends.slots live found).mono fun _ _ => (same _ _).mpr
  · intro holder otherCurve other otherId stored later earlier own quiet
    rw [trace] at own ⊢
    rw [descent_insert]
    by_cases this : thread = holder
    · subst this
      rw [past_cons_self] at own
      cases later with
      | nil => cases own
      | cons newest later =>
          cases (List.cons.inj own).1
          exact absurd trivial (quiet _ List.mem_cons_self)
    · rw [past_cons_of_ne this] at own
      simp only [Function.update_of_ne (Ne.symm this)]
      obtain ⟨origin, holds, marked⟩ := descends.hands own quiet
      exact ⟨origin, holds, marked.mono fun _ _ => (same _ _).mpr⟩

end Descends

variable {permitted : Call → Past lib → Action lib → Prop} {finished : Call → Past lib → Except String Reply → Prop}
  {Allowed : EngineWorld lib → Move Call Drift → Prop} {world : EngineWorld lib}

theorem descends (inherited : Inherited mark permitted)
    (obeys : ∀ call : Call, (call.body lib).Follows (permitted call) (finished call) [])
    (reached : (machine lib).Reaches Allowed (.initial .empty) world) : Descends mark world := by
  refine reached.invariant (Descends mark) ?_ ?_ ?_ ?_ ?_
  · constructor
    · intro curve protocol sessionId origin session live
      cases live
    · intro thread curve protocol sessionId session after before own
      cases after <;> cases own
  · intro world call _ descends _
    have still (thread : Nat) (owner : Call) (called : world.Called thread owner) :
        World.Called { world with threads := world.threads ++ [(call, call.body lib)] } thread owner :=
      (World.called_start rfl).mpr (.inl called)
    constructor
    · intro curve protocol sessionId origin session live found
      exact (descends.slots live found).mono still
    · intro thread curve protocol sessionId session after before own quiet
      obtain ⟨origin, holds, opened⟩ := descends.hands own quiet
      exact ⟨origin, holds, opened.mono still⟩
  · intro world thread call action next state answer reached descends _ found moved
    have same (other : Nat) (owner : Call) : World.Called
        { shared := state, threads := world.threads.set thread (call, next answer)
          trace := (thread, ⟨action, answer⟩) :: world.trace } other owner ↔ world.Called other owner :=
      World.called_set found rfl
    have touches := (reached.follows Call.body_stays thread call _ found).1
    have allowed := (reached.follows obeys thread call _ found).1
    have others {curve : Curve} {protocol : ProtocolType} {sessionId : String} {session : Session lib curve protocol}
        (elsewhere : ¬Moves action) (live : state.sessions curve protocol sessionId = some session) :
        ∃ old, world.shared.sessions curve protocol sessionId = some old ∧
          lasting curve protocol old = lasting curve protocol session := by
      rcases session_after_reply reached moved live with rfl | kept
      · exact absurd trivial elsewhere
      · exact kept
    cases action with
    | insert curve protocol sessionId session =>
        have names := touches.names ⟨rfl, rfl⟩
        refine descends.put same rfl ?_ (Engine.insert_sessions (show world.shared.interpret thread _ = _ from moved))
        rcases put_once (reached.follows Call.body_steps thread call _ found).1 with
          ⟨first, still⟩ | ⟨_, second, old, before, own, _⟩
        · rw [hand_empty still]
          exact ⟨call, ⟨_, found⟩, first, names, inherited.opened first allowed⟩
        · obtain ⟨origin, holds, opener, called, first, sameNames, marked⟩ := @descends.hands _ _ _ _ _ [] _ own (by simp)
          rw [holds]
          exact ⟨opener, called, first, sameNames, inherited.kept second (own ▸ allowed) marked⟩
    | remove curve protocol sessionId =>
        have taken := Engine.remove_answer (show world.shared.interpret thread _ = _ from moved)
        refine descends.taken same rfl taken.symm ?_ (Engine.remove_sessions (show world.shared.interpret thread _ = _ from moved))
        have recorded := reached_recorded curve protocol reached
        rw [← taken, slot_live, recorded.contents]
    | _ => exact descends.other inherited.lasting same rfl id fun live => others id live
  · intro world thread call action next state _ descends _ _ moved
    obtain ⟨tasks, rfl⟩ := Engine.interpret_pending moved
    exact ⟨descends.slots, descends.hands⟩
  · intro world change _ descends _
    constructor
    · intro curve protocol sessionId origin session live found
      have held : (Engine.drift lib change world.shared).sessions curve protocol sessionId = some session := found
      rw [Engine.drift_sessions] at held
      exact descends.slots live held
    · exact descends.hands

end CeresMpc.Lifecycle
