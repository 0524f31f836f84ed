import CeresMpc.Session
import CeresMpc.Interleaving.Custody

/-!
# Histories of the session tables

The operations of a run, read as puts, takes and amendments of one table. The
table is what its history says, so facts about custody carry over to sessions.
-/

set_option autoImplicit false

namespace CeresMpc

open Interleaving Api

variable {lib : Libraries}

/-- The effect of an operation on one of the six tables. -/
def tableEvent (curve : Curve) (protocol : ProtocolType) :
    Entry (Action lib) (Action.Answer lib) →
      Option (Custody.Event String (Session lib curve protocol))
  | ⟨.insert otherCurve other sessionId session, _⟩ =>
      if same : (otherCurve, other) = (curve, protocol) then
        some (.put sessionId (cast (by cases same; rfl) session))
      else none
  | ⟨.remove otherCurve other sessionId, found⟩ =>
      if same : (otherCurve, other) = (curve, protocol) then
        some (.take sessionId (cast (by cases same; rfl) found))
      else none
  | ⟨.checkout otherCurve other sessionId, .expired⟩ =>
      if (otherCurve, other) = (curve, protocol) then some (.evict sessionId) else none
  | ⟨.acquire other sessionId, _⟩ =>
      if (.secp256k1, other) = (curve, protocol) then
        some (.amend sessionId (markConsumed lib true curve protocol))
      else none
  | ⟨.resetConsumed sessionId, _⟩ =>
      if (.secp256k1, .dsg) = (curve, protocol) then
        some (.amend sessionId (markConsumed lib false curve protocol))
      else none
  | _ => none

def tableHistory (curve : Curve) (protocol : ProtocolType)
    (trace : List (Nat × Entry (Action lib) (Action.Answer lib))) :
    List (Custody.Event String (Session lib curve protocol)) :=
  trace.filterMap fun event => tableEvent curve protocol event.2

/-- What stays of a session for its whole life. -/
abbrev lasting (curve : Curve) (protocol : ProtocolType) (session : Session lib curve protocol) :
    Session lib curve protocol :=
  markConsumed lib false curve protocol session

/-- The history describes the table, and callers got what it says. -/
structure Recorded (curve : Curve) (protocol : ProtocolType) (engine : Engine lib)
    (history : List (Custody.Event String (Session lib curve protocol))) : Prop where
  contents : Custody.contents history = engine.sessions curve protocol
  faithful : Custody.Faithful (lasting curve protocol) history

theorem Recorded.unchanged {curve : Curve} {protocol : ProtocolType} {engine after : Engine lib}
    {history : List (Custody.Event String (Session lib curve protocol))}
    (recorded : Recorded curve protocol engine history)
    (same : after.sessions curve protocol = engine.sessions curve protocol) :
    Recorded curve protocol after history :=
  ⟨recorded.contents.trans same.symm, recorded.faithful⟩

section

variable {curve : Curve} {protocol : ProtocolType} (sessionId : String)

theorem tableEvent_insert (session : Session lib curve protocol) :
    tableEvent curve protocol ⟨.insert curve protocol sessionId session, ()⟩ =
      some (.put sessionId session) := by
  simp [tableEvent]

theorem tableEvent_remove (found : Option (Session lib curve protocol)) :
    tableEvent curve protocol ⟨.remove curve protocol sessionId, found⟩ =
      some (.take sessionId found) := by
  simp [tableEvent]

theorem tableEvent_expired :
    tableEvent curve protocol ⟨.checkout curve protocol sessionId, .expired⟩ =
      (some (.evict sessionId) : Option (Custody.Event String (Session lib curve protocol))) := by
  simp [tableEvent]

theorem tableEvent_acquire (found : Option (Session lib .secp256k1 protocol)) :
    tableEvent .secp256k1 protocol ⟨.acquire protocol sessionId, found⟩ =
      some (.amend sessionId (markConsumed lib true .secp256k1 protocol)) := by
  simp [tableEvent]

theorem tableEvent_resetConsumed :
    tableEvent .secp256k1 .dsg ⟨.resetConsumed sessionId, ()⟩ =
      some (.amend sessionId (markConsumed lib false .secp256k1 .dsg)) := by
  simp [tableEvent]

end

namespace Engine

attribute [local simp] interpret

variable {curve : Curve} {protocol : ProtocolType}
  {history : List (Custody.Event String (Session lib curve protocol))}

/-- A checkout either leaves the tables alone or evicts the session it was for. -/
theorem checkout_cases (curve : Curve) (protocol : ProtocolType) (sessionId : String)
    (engine : Engine lib) :
    ((engine.checkout curve protocol sessionId).2 = .expired ∧
        (engine.checkout curve protocol sessionId).1.sessions =
          (engine.setSession curve protocol sessionId none).sessions) ∨
      ((engine.checkout curve protocol sessionId).2 ≠ .expired ∧
        (engine.checkout curve protocol sessionId).1.sessions = engine.sessions) := by
  unfold checkout
  split
  · exact .inr ⟨by simp, rfl⟩
  · split
    · left
      cases curve <;> simp
    · right
      cases curve
      · dsimp only
        split <;> simp
      · simp

theorem collect_sessions {protocol : ProtocolType} {receiver signal : Nat} {engine after : Engine lib}
    {batch : Option (List Encoding.Bytes × Bool)}
    (moved : engine.collect protocol receiver signal = .reply after batch) :
    after.sessions = engine.sessions := by
  unfold collect at moved
  split at moved
  · split at moved
    · cases moved
    · dsimp only at moved
      split at moved <;> cases moved
      simp
  · cases moved

theorem remove_answer {thread : Nat} {sessionId : String} {engine after : Engine lib}
    {found : Option (Session lib curve protocol)}
    (moved : engine.interpret thread (.remove curve protocol sessionId) = .reply after found) :
    engine.sessions curve protocol sessionId = found := by
  simp only [interpret] at moved
  split at moved <;> cases moved
  rfl

theorem remove_sessions {thread : Nat} {sessionId : String} {engine after : Engine lib}
    {found : Option (Session lib curve protocol)}
    (moved : engine.interpret thread (.remove curve protocol sessionId) = .reply after found) :
    after.sessions = (engine.setSession curve protocol sessionId none).sessions := by
  simp only [interpret] at moved
  split at moved <;> cases moved
  rfl

theorem insert_sessions {thread : Nat} {sessionId : String} {session : Session lib curve protocol}
    {engine after : Engine lib} {answer : Unit}
    (moved : engine.interpret thread (.insert curve protocol sessionId session) = .reply after answer) :
    after.sessions = (engine.setSession curve protocol sessionId (some session)).sessions := by
  simp only [interpret] at moved
  split at moved <;> cases moved
  simp only [setSession, dropSession_sessions]

theorem checkout_answer {thread : Nat} {sessionId : String} {session : Session lib curve protocol}
    {engine after : Engine lib}
    (moved : engine.interpret thread (.checkout curve protocol sessionId) = .reply after (.found session)) :
    engine.sessions curve protocol sessionId = some session := by
  simp only [interpret] at moved
  split at moved
  · cases moved
  simp only [checkout] at moved
  split at moved
  · cases moved
  · next held live =>
    split at moved
    · cases curve <;> cases moved
    · cases curve with
      | secp256k1 =>
          dsimp only at moved
          split at moved <;> cases moved <;> exact live
      | ed25519 =>
          cases moved
          exact live

theorem acquire_answer {thread : Nat} {sessionId : String} {found : Option (Session lib .secp256k1 protocol)}
    {engine after : Engine lib}
    (moved : engine.interpret thread (.acquire protocol sessionId) = .reply after found) :
    engine.sessions .secp256k1 protocol sessionId = found := by
  simp only [interpret] at moved
  split at moved
  · cases moved
  split at moved
  · next held live =>
    cases moved
    exact live
  · next absent =>
    cases moved
    exact absent

theorem contains_answer {thread : Nat} {sessionId : String} {engine after : Engine lib} {found : Bool}
    (moved : engine.interpret thread (.contains curve protocol sessionId) = .reply after found) :
    (engine.sessions curve protocol sessionId).isSome = found := by
  simp only [interpret] at moved
  split at moved <;> cases moved
  rfl

theorem interpret_recorded {thread : Nat} {action : Action lib} {answer : Action.Answer lib action}
    {engine after : Engine lib} (recorded : Recorded curve protocol engine history)
    (moved : engine.interpret thread action = .reply after answer) :
    Recorded curve protocol after
      ((tableEvent curve protocol ⟨action, answer⟩).toList ++ history) := by
  obtain ⟨described, faithful⟩ := recorded
  have untouched (none : tableEvent curve protocol ⟨action, answer⟩ = none)
      (same : after.sessions curve protocol = engine.sessions curve protocol) :
      Recorded curve protocol after
        ((tableEvent curve protocol ⟨action, answer⟩).toList ++ history) := by
    rw [none]
    exact ⟨described.trans same.symm, faithful⟩
  have changed {event} (some : tableEvent curve protocol ⟨action, answer⟩ = some event)
      (known : Custody.Faithful (lasting curve protocol) (event :: history))
      (same : ∀ slot, Custody.contents (event :: history) slot = after.sessions curve protocol slot) :
      Recorded curve protocol after
        ((tableEvent curve protocol ⟨action, answer⟩).toList ++ history) := by
    rw [some]
    exact ⟨funext same, known⟩
  cases action with
  | now | random | exportedContains _ | exportedInsert _ | roundSign _ _ _ | release _ =>
      obtain ⟨rfl, rfl⟩ := Reaction.reply.inj moved
      exact untouched rfl rfl
  | spawn _ _ | abort _ _ | dropSender _ _ | dropReceiver _ _ =>
      obtain ⟨rfl, rfl⟩ := Reaction.reply.inj moved
      exact untouched rfl (by simp)
  | contains otherCurve other sessionId =>
      simp only [interpret] at moved
      split at moved <;> cases moved
      exact untouched rfl rfl
  | send other task message =>
      simp only [interpret] at moved
      split at moved
      · cases moved
      · split at moved <;> cases moved
        exact untouched rfl (by simp)
  | join other task =>
      simp only [interpret] at moved
      split at moved
      · split at moved <;> cases moved
        exact untouched rfl rfl
      · cases moved
  | collect other receiver signal => exact untouched rfl (by rw [collect_sessions moved])
  | insert otherCurve other sessionId session =>
      simp only [interpret] at moved
      split at moved <;> cases moved
      by_cases same : (otherCurve, other) = (curve, protocol)
      · cases same
        refine changed (tableEvent_insert _ _) faithful fun slot => ?_
        simp [Custody.contents, described, Function.update_apply]
      · refine untouched (by simp [tableEvent, same]) ?_
        rw [setSession_sessions_of_ne _ _ _ _ _ same, dropSession_sessions]
  | remove otherCurve other sessionId =>
      simp only [interpret] at moved
      split at moved <;> cases moved
      by_cases same : (otherCurve, other) = (curve, protocol)
      · cases same
        refine changed (tableEvent_remove _ _) ⟨by rw [described], faithful⟩ fun slot => ?_
        simp [Custody.contents, described, Function.update_apply]
      · refine untouched (by simp [tableEvent, same]) ?_
        rw [setSession_sessions_of_ne _ _ _ _ _ same]
  | checkout otherCurve other sessionId =>
      simp only [interpret] at moved
      split at moved <;> cases moved
      rcases engine.checkout_cases otherCurve other sessionId with ⟨expired, evicted⟩ | ⟨live, kept⟩
      · by_cases same : (otherCurve, other) = (curve, protocol)
        · cases same
          have event : tableEvent curve protocol ⟨.checkout curve protocol sessionId,
              (engine.checkout curve protocol sessionId).2⟩ = some (.evict sessionId) := by
            rw [expired]
            exact tableEvent_expired sessionId
          refine changed event faithful fun slot => ?_
          simp [evicted, Custody.contents, described, Function.update_apply]
        · refine untouched (by rw [expired]; simp [tableEvent, same]) ?_
          rw [evicted, setSession_sessions_of_ne _ _ _ _ _ same]
      · refine untouched ?_ (by rw [kept])
        cases found : (engine.checkout otherCurve other sessionId).2 with
        | missing => rfl
        | expired => exact absurd found live
        | found session => rfl
  | acquire other sessionId =>
      simp only [interpret] at moved
      split at moved
      · cases moved
      by_cases same : (.secp256k1, other) = (curve, protocol)
      · cases same
        refine changed (tableEvent_acquire _ _) ⟨markConsumed_mark lib _ _ _ _, faithful⟩ fun slot => ?_
        split at moved <;> cases moved <;>
          simp_all [Custody.contents, Function.update_apply]
      · refine untouched (by simp [tableEvent, same]) ?_
        split at moved <;> cases moved
        · rw [setSession_sessions_of_ne _ _ _ _ _ same]
        · rfl
  | resetConsumed sessionId =>
      simp only [interpret] at moved
      split at moved
      · cases moved
      by_cases same : (.secp256k1, .dsg) = (curve, protocol)
      · cases same
        refine changed (tableEvent_resetConsumed _) ⟨markConsumed_mark lib _ _ _ _, faithful⟩
          fun slot => ?_
        split at moved <;> cases moved <;>
          simp_all [Custody.contents, Function.update_apply]
      · refine untouched (by simp [tableEvent, same]) ?_
        split at moved <;> cases moved
        · rw [setSession_sessions_of_ne _ _ _ _ _ same]
        · rfl

end Engine

end CeresMpc
