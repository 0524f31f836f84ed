import CeresMpc.Api.Runs

/-!
# What a call does on which engine

A later round looks its session up once, and every operation after that is on the
engine the lookup chose. A session is inserted by a first round, or put back by
the FROST round that has just taken it.
-/

set_option autoImplicit false

namespace CeresMpc.Dispatch

open Encoding Interleaving Program Api

variable {lib : Libraries}

/-! ## Insertions -/

def InsertPermitted (call : Call) (past : Past lib) : Action lib → Prop
  | .insert curve protocol sessionId _ => call.round = some 1 ∨
      curve = .ed25519 ∧ ∃ session before,
        past = ⟨.remove .ed25519 protocol sessionId, some session⟩ :: before
  | _ => True

private theorem quiet_permitted {call : Call} {past : Past lib} {action : Action lib}
    (quiet : action.Quiet) : InsertPermitted call past action := by
  cases action with
  | insert curve protocol sessionId session => exact quiet.elim
  | _ => trivial

private theorem keygenRound2_inserts (call : Call) (sessionId serverPayload : String) (before : Past lib) :
    (EngineEd25519.keygenRound2 lib sessionId serverPayload).Follows (InsertPermitted call)
      (fun _ _ => True) before := by
  simp only [EngineEd25519.keygenRound2, bind_eq, liftM_eq, request_bind, follows_lift_bind]
  refine ⟨fun env _ => ⟨trivial, fun removed => ?_⟩, fun _ _ => trivial⟩
  simp only [follows_lift_bind, okOr_eq_ok]
  refine ⟨?_, fun _ _ => trivial⟩
  rintro session rfl
  refine ⟨fun parts _ => ⟨?_, fun _ => trivial⟩, fun _ _ => trivial⟩
  exact .inr ⟨rfl, session, before, rfl⟩

private theorem recoverRound2_inserts (call : Call) (sessionId serverPayload : String) (before : Past lib) :
    (EngineEd25519.recoverRound2 lib sessionId serverPayload).Follows (InsertPermitted call)
      (fun _ _ => True) before := by
  simp only [EngineEd25519.recoverRound2, bind_eq, liftM_eq, request_bind]
  refine ⟨trivial, fun found => ?_⟩
  cases found with
  | missing => trivial
  | expired => trivial
  | found cloned =>
      simp only [follows_lift_bind]
      refine ⟨fun env _ => ⟨trivial, fun removed => ?_⟩, fun _ _ => trivial⟩
      simp only [follows_lift_bind, okOr_eq_ok]
      refine ⟨?_, fun _ _ => trivial⟩
      rintro session rfl
      refine ⟨fun parts _ => ⟨?_, fun _ => trivial⟩, fun _ _ => trivial⟩
      exact .inr ⟨rfl, session, _, rfl⟩

private theorem direct_inserts {call : Call} {protocol : ProtocolType} {sessionId : String}
    (names : call.scope = some (protocol, sessionId)) (later : call.round ≠ some 1) (before : Past lib) :
    (call.direct.body lib).Follows (InsertPermitted call) (fun _ _ => True) before := by
  have noInsertion {program : EngineM lib MpcRoundResult}
      (only : program.Only fun action => ∀ past, InsertPermitted call past action) :
      program.Follows (InsertPermitted call) (fun _ _ => True) before :=
    only.follows (fun _ _ free => free _) fun _ _ => trivial
  cases call with
  | keygen entry sessionId round serverPayload =>
      have later : round ≠ 1 := fun first => later (congrArg some first)
      refine (follows_map _ _).mpr ?_
      rw [EngineEd25519.keygen, if_neg later]
      split
      · exact keygenRound2_inserts _ sessionId serverPayload before
      · refine noInsertion ?_
        split
        · simp [EngineEd25519.keygenFinalize, InsertPermitted]
        · trivial
  | recover entry sessionId round serverPayload backupShare rotationVersion =>
      have later : round ≠ 1 := fun first => later (congrArg some first)
      refine (follows_map _ _).mpr ?_
      rw [EngineEd25519.recover, if_neg later]
      split
      · exact recoverRound2_inserts _ sessionId serverPayload before
      · refine noInsertion ?_
        split
        · simp [EngineEd25519.recoverFinalize, InsertPermitted]
        · trivial
  | sign entry sessionId round serverPayload share messageHex =>
      have later : round ≠ 1 := fun first => later (congrArg some first)
      refine (follows_map _ _).mpr (noInsertion ?_)
      rw [EngineEd25519.sign, if_neg later]
      split
      · simp [EngineEd25519.signRound2, InsertPermitted]
      · trivial
  | exportPrivateKey entry localShare serverShare => cases names

theorem body_inserts (call : Call) :
    (call.body lib).Follows (InsertPermitted call) (fun _ _ => True) [] := by
  by_cases first : call.round = some 1
  · refine (Call.body_touches call).follows (fun past action _ => ?_) fun _ _ => trivial
    cases action with
    | insert curve protocol sessionId session => exact .inl first
    | _ => trivial
  cases names : call.scope with
  | none =>
      refine (Call.body_touches call).follows (fun past action touches => ?_) fun _ _ => trivial
      rw [Call.Touches, names] at touches
      cases action with
      | insert curve protocol sessionId session => exact touches.elim
      | _ => trivial
  | some target =>
      obtain ⟨protocol, sessionId⟩ := target
      cases unified : call.entry with
      | engineEd25519 =>
          have direct : (call.direct.body lib).Follows _ _ [] := direct_inserts names first []
          rwa [call.direct_eq unified] at direct
      | mpcEngine =>
          obtain ⟨other, continues, starts⟩ := Call.later_body unified first names
          rw [starts]
          refine ⟨trivial, fun toEd25519 => ?_⟩
          cases toEd25519 with
          | true => exact direct_inserts names first _
          | false =>
              exact continues.follows (fun past action continued => quiet_permitted continued.2)
                fun _ _ => trivial

/-! ## Engines -/

/-- The engine a lookup chooses. -/
def chosen (toEd25519 : Bool) : Curve :=
  if toEd25519 then .ed25519 else .secp256k1

/-- A later round of the unified engine starts with its lookup and stays with the
engine chosen there. -/
def EnginePermitted (call : Call) (past : Past lib) (action : Action lib) : Prop :=
  call.entry = .mpcEngine → call.round ≠ some 1 → ∀ protocol sessionId,
    call.scope = some (protocol, sessionId) →
      past = [] ∧ action = .contains .ed25519 protocol sessionId ∨
        ∃ toEd25519 : Bool, past.getLast? = some ⟨.contains .ed25519 protocol sessionId, toEd25519⟩ ∧
          action.Within (chosen toEd25519) protocol sessionId

theorem body_engine (call : Call) :
    (call.body lib).Follows (EnginePermitted call) (fun _ _ => True) [] := by
  have free (exempt : call.entry = .mpcEngine → call.round ≠ some 1 → call.scope = none) :
      (call.body lib).Follows (EnginePermitted call) (fun _ _ => True) [] := by
    refine (Call.body_touches call).follows (fun past action _ => ?_) fun _ _ => trivial
    intro unified later protocol sessionId names
    rw [exempt unified later] at names
    cases names
  cases unified : call.entry with
  | engineEd25519 => exact free fun same => by rw [same] at unified; cases unified
  | mpcEngine =>
      by_cases first : call.round = some 1
      · exact free fun _ later => absurd first later
      cases names : call.scope with
      | none => exact free fun _ _ => names
      | some target =>
          obtain ⟨protocol, sessionId⟩ := target
          obtain ⟨other, continues, starts⟩ := Call.later_body unified first names
          have stays {toEd25519 : Bool} {program : EngineM lib Reply}
              (within : program.Only (Action.Within (chosen toEd25519) protocol sessionId)) :
              program.Follows (EnginePermitted call) (fun _ _ => True)
                [⟨.contains .ed25519 protocol sessionId, toEd25519⟩] := by
            refine within.follows (fun extra action inside => ?_) fun _ _ => trivial
            intro _ _ otherProtocol otherId same
            rw [names] at same
            cases same
            exact .inr ⟨toEd25519, by simp, inside⟩
          rw [starts]
          refine ⟨?_, fun toEd25519 => ?_⟩
          · intro _ _ otherProtocol otherId same
            rw [names] at same
            cases same
            exact .inl ⟨rfl, rfl⟩
          cases toEd25519 with
          | true => exact stays (Call.direct_within names)
          | false => exact stays (continues.mono fun action continued => continued.1)

end CeresMpc.Dispatch
