import CeresMpc.Interleaving.Sections
import CeresMpc.Lifecycle.Malformed

/-!
# The locks of the DKLs23 tables

An advance call keeps its table locked while it collects a batch. It does nothing else under the
lock, and gives it back on every way out.
-/

set_option autoImplicit false

namespace CeresMpc.Lifecycle

open Encoding Interleaving Program Api

variable {lib : Libraries}

/-! ## Sections -/

/-- Operations that take the lock of a protocol's table, and keep it. -/
def Takes (protocol : ProtocolType) : Action lib → Prop
  | .acquire other _ => other = protocol
  | _ => False

def Gives (protocol : ProtocolType) : Action lib → Prop
  | .release other => other = protocol
  | _ => False

/-- What is done under the lock. -/
def InSection (protocol : ProtocolType) : Action lib → Prop
  | .collect other _ _ | .release other => other = protocol
  | _ => False

abbrev InsideOf (protocol : ProtocolType) (past : Past lib) : Prop :=
  Inside (Takes protocol) (Gives protocol) past

/-- Operations of no section. -/
def Lockless : Action lib → Prop
  | .acquire .. | .release _ => False
  | _ => True

theorem Lockless.untaken {protocol : ProtocolType} {action : Action lib} (lockless : Lockless action) :
    ¬Takes protocol action ∧ ¬Gives protocol action := by
  cases action <;> first | exact lockless.elim | exact ⟨id, id⟩

/-- Only the holder gives a lock back, and a holder collects and gives back. -/
structure Disciplined (past : Past lib) (action : Action lib) : Prop where
  returns : ∀ protocol, Gives protocol action → InsideOf protocol past
  stays : ∀ protocol, InsideOf protocol past → InSection protocol action

def Outside (past : Past lib) : Prop :=
  ∀ protocol, ¬InsideOf protocol past

theorem Outside.append {later past : Past lib} (outside : Outside past) (others : ∀ entry ∈ later, Lockless entry.1) :
    Outside (later ++ past) := by
  intro protocol inside
  rw [InsideOf, inside_append fun entry member => (others entry member).untaken] at inside
  exact outside protocol inside

theorem Outside.cons {entry : Entry (Action lib) (Action.Answer lib)} {past : Past lib} (outside : Outside past)
    (lockless : Lockless entry.1) : Outside (entry :: past) :=
  @Outside.append lib [entry] past outside (by simpa using lockless)

theorem Outside.step {action : Action lib} {past : Past lib} (outside : Outside past)
    (ungiven : ∀ protocol, ¬Gives protocol action) : Disciplined past action := by
  constructor
  · exact fun protocol gives => absurd gives (ungiven protocol)
  · exact fun protocol inside => absurd inside (outside protocol)

/-! ## Calls -/

section Programs

variable {Result Final : Type} {past : Past lib} {program : EngineM lib Result}

/-- A part without sections stays out of them. -/
theorem lockless_bind {continuation : Result → EngineM lib Final} {finished : Past lib → Except String Final → Prop}
    (only : program.Only Lockless) (outside : Outside past)
    (continues : ∀ past value, Outside past → (continuation value).Follows Disciplined finished past)
    (ends : ∀ past failure, Outside past → finished past (.error failure)) :
    (program.bind continuation).Follows Disciplined finished past := by
  apply only.follows_bind_within
  · intro extra action others lockless
    exact (outside.append others).step fun _ => lockless.untaken.2
  · exact fun extra failure others => ends _ failure (outside.append others)
  · exact fun extra value others => continues _ value (outside.append others)

theorem lockless_disciplined {finished : Past lib → Except String Result → Prop} (only : program.Only Lockless)
    (outside : Outside past) (ends : ∀ past outcome, Outside past → finished past outcome) :
    program.Follows Disciplined finished past := by
  apply only.follows_within
  · intro extra action others lockless
    exact (outside.append others).step fun _ => lockless.untaken.2
  · exact fun extra outcome others => ends _ outcome (outside.append others)

end Programs

theorem lockless_of_within {protocol : ProtocolType} {sessionId : String} {action : Action lib}
    (within : action.Within .ed25519 protocol sessionId) : Lockless action := by
  cases action <;> first | trivial | cases within.1

theorem lockless_of_onTask {protocol : ProtocolType} {action : Action lib} (onTask : action.OnTask protocol) :
    Lockless action := by
  cases action <;> trivial

section Advance

variable {protocol : ProtocolType} {sessionId serverPayload : String} {past : Past lib}
  {finish : Session lib .secp256k1 protocol → UInt8 → Dkls.Output protocol → Except String MpcRoundResult}

private theorem collectLocked_bind {signal : Nat} {continuation : Option (List Bytes × Bool) → EngineM lib MpcRoundResult}
    {finished : Past lib → Except String MpcRoundResult → Prop} (outside : Outside past)
    (continues : ∀ past value, Outside past → (continuation value).Follows Disciplined finished past)
    (ends : ∀ past failure, Outside past → finished past (.error failure)) :
    ((MpcEngine.collectLocked lib protocol sessionId signal).bind continuation).Follows Disciplined finished past := by
  have inside (held : Option (Session lib .secp256k1 protocol)) (tail : Past lib)
      (others : ∀ entry ∈ tail, Lockless entry.1) (other : ProtocolType) :
      InsideOf other (tail ++ ⟨.acquire protocol sessionId, held⟩ :: past) ↔ protocol = other := by
    rw [InsideOf, inside_append fun entry member => (others entry member).untaken, inside_cons]
    constructor
    · rintro (takes | ⟨_, earlier⟩)
      · exact takes
      · exact absurd earlier (outside other)
    · exact fun same => .inl same
  have leaves (held : Option (Session lib .secp256k1 protocol)) (tail : Past lib)
      (others : ∀ entry ∈ tail, Lockless entry.1) :
      Outside (⟨.release protocol, ()⟩ :: (tail ++ ⟨.acquire protocol sessionId, held⟩ :: past)) := by
    intro other within
    rcases within with takes | ⟨kept, within⟩
    · exact takes
    · exact kept ((inside held tail others other).mp within)
  have releases (held : Option (Session lib .secp256k1 protocol)) (tail : Past lib)
      (others : ∀ entry ∈ tail, Lockless entry.1) :
      Disciplined (tail ++ ⟨.acquire protocol sessionId, held⟩ :: past) (.release protocol) := by
    constructor
    · exact fun other gives => (inside held tail others other).mpr gives
    · exact fun other within => (inside held tail others other).mp within
  simp only [MpcEngine.collectLocked, bind_eq, request_bind, perform_bind]
  refine ⟨outside.step fun _ gives => gives, fun held => ?_⟩
  cases held with
  | none =>
      refine ⟨releases none [] (by simp), fun _ => ?_⟩
      exact ends _ _ (leaves none [] (by simp))
  | some session =>
      refine ⟨⟨fun _ gives => gives.elim, fun other within => (inside _ [] (by simp) other).mp within⟩, fun batch => ?_⟩
      have others : ∀ entry ∈ ([⟨.collect protocol (dklsTask lib protocol session) signal, batch⟩] : Past lib),
          Lockless entry.1 := by simp [Lockless]
      refine ⟨releases (some session) [_] others, fun _ => ?_⟩
      exact continues _ _ (leaves (some session) [_] others)

private theorem advance_disciplined {finish : Session lib .secp256k1 protocol → UInt8 → Dkls.Output protocol →
      Except String MpcRoundResult} {finished : Past lib → Except String MpcRoundResult → Prop}
    (outside : Outside past) (ends : ∀ past outcome, Outside past → finished past outcome) :
    (MpcEngine.advance lib protocol sessionId serverPayload finish).Follows Disciplined finished past := by
  simp only [MpcEngine.advance, bind_eq, request_bind]
  refine ⟨outside.step fun _ gives => gives, fun found => ?_⟩
  have looked : Outside (⟨.checkout .secp256k1 protocol sessionId, found⟩ :: past) := outside.cons trivial
  cases found with
  | missing => exact ends _ _ looked
  | expired => exact ends _ _ looked
  | found session =>
      rw [follows_ensure_bind]
      refine ⟨fun _ => ?_, fun _ => ends _ _ looked⟩
      rw [follows_always]
      -- whatever the round ends with, the clone is dropped
      have drops (past : Past lib) (outcome : Except String MpcRoundResult) (outside : Outside past) :
          Follows Disciplined finished past ((Program.request (Action.dropSender protocol (dklsTask lib protocol session)) :
            EngineM lib Unit).bind fun _ => .done outcome) :=
        ⟨outside.step fun _ gives => gives, fun _ => ends _ _ (outside.cons trivial)⟩
      simp only [MpcEngine.runRound, bind_eq, liftM_eq, follows_lift_bind]
      refine ⟨fun received _ => ?_, fun failure _ => drops _ _ looked⟩
      apply lockless_bind ((MpcEngine.injectAll_onTask _ _).mono fun _ onTask => lockless_of_onTask onTask) looked
      · intro past _ outside
        apply collectLocked_bind outside
        · intro past batch outside
          refine lockless_disciplined ?_ outside drops
          cases batch with
          | some batch =>
              by_cases signing : protocol = .dsg
              · subst signing
                simp [Lockless]
              · simp [signing]
          | none => simp [Lockless, MpcEngine.joinTask]
        · exact fun past failure outside => drops _ _ outside
      · exact fun past failure outside => drops _ _ outside

end Advance

theorem first_lockless {protocol : ProtocolType} {sessionId serverPayload : String} {program : EngineM lib MpcRoundResult}
    {finished : Past lib → Except String MpcRoundResult → Prop}
    (steps : program.Follows (MpcEngine.FirstStep lib protocol sessionId serverPayload []) finished []) :
    program.Only Lockless := by
  apply steps.only
  intro past action step
  cases step with
  | read only same reading => cases action <;> trivial
  | opens only parsed step => cases step <;> trivial

theorem keyshare_lockless {protocol : ProtocolType} {sessionId : String}
    {finish : Session lib .secp256k1 protocol → UInt8 → Dkls.Output protocol → Except String MpcRoundResult} :
    (MpcEngine.collectKeyshare lib protocol sessionId finish).Only Lockless := by
  have steps := @MpcEngine.collectKeyshare_steps lib protocol sessionId [] finish
  apply steps.only
  intro past action step
  cases step <;> trivial

private theorem dkls_disciplined (call : Call) {past : Past lib} (outside : Outside past) :
    (call.dkls lib).Follows Disciplined (fun past _ => Outside past) past := by
  have ends {Result : Type} (past : Past lib) (outcome : Except String Result) (outside : Outside past) :
      Outside past := outside
  cases call with
  | keygen entry sessionId round serverPayload =>
      refine (follows_map _ _).mpr ?_
      split
      · exact lockless_disciplined keyshare_lockless outside ends
      split
      · exact lockless_disciplined (first_lockless MpcEngine.keygenRound1_ends) outside ends
      · exact advance_disciplined outside ends
  | recover entry sessionId round serverPayload backupShare rotationVersion =>
      refine (follows_map _ _).mpr ?_
      split
      · exact lockless_disciplined keyshare_lockless outside ends
      split
      · exact lockless_disciplined (first_lockless MpcEngine.recoverRound1_ends) outside ends
      · exact advance_disciplined outside ends
  | sign entry sessionId round serverPayload share messageHex =>
      refine (follows_map _ _).mpr ?_
      split
      · exact lockless_disciplined (first_lockless MpcEngine.signRound1_ends) outside ends
      · exact advance_disciplined outside ends
  | exportPrivateKey entry localShare serverShare =>
      refine (follows_map _ _).mpr (lockless_disciplined ?_ outside ends)
      simp [MpcEngine.exportSecp256k1, Lockless]

/-- Every call is outside when it starts and when it returns. -/
theorem body_disciplined (call : Call) :
    (call.body lib).Follows Disciplined (fun past _ => Outside past) [] := by
  have start : Outside ([] : Past lib) := fun _ => not_inside_nil
  cases names : call.scope with
  | none =>
      have exports : (call.body lib).Only Lockless := by
        refine (Call.body_touches call).mono fun action touches => ?_
        rw [Call.Touches, names] at touches
        cases action <;> trivial
      exact lockless_disciplined exports start fun _ _ outside => outside
  | some target =>
      obtain ⟨protocol, sessionId⟩ := target
      have direct {past : Past lib} (outside : Outside past) :
          (call.direct.body lib).Follows Disciplined (fun past _ => Outside past) past :=
        lockless_disciplined ((Call.direct_within names).mono fun _ within => lockless_of_within within) outside
          fun _ _ outside => outside
      cases unified : call.entry with
      | engineEd25519 =>
          rw [← Call.direct_eq call unified]
          exact direct start
      | mpcEngine =>
          by_cases first : call.round = some 1
          · rw [Call.unified_first unified first]
            split
            · exact direct start
            · exact dkls_disciplined call start
          · rw [Call.unified_later unified first names]
            refine ⟨start.step fun _ gives => gives, fun toEd25519 => ?_⟩
            have looked : Outside [⟨.contains .ed25519 protocol sessionId, toEd25519⟩] := start.cons trivial
            cases toEd25519 with
            | true => exact direct looked
            | false => exact dkls_disciplined call looked

/-! ## Runs -/

section Holders

variable {protocol : ProtocolType} {engine after : Engine lib} {thread : Nat} {action : Action lib}

private theorem interpret_holder {answer : Action.Answer lib action}
    (moved : engine.interpret thread action = .reply after answer) (untaken : ¬Takes protocol action)
    (ungiven : ¬Gives protocol action) : after.locks protocol = engine.locks protocol := by
  cases action with
  | now | random | exportedContains _ | exportedInsert _ | roundSign _ _ _ | spawn _ _ =>
      cases moved
      rfl
  | abort _ _ | dropSender _ _ | dropReceiver _ _ =>
      cases moved
      rw [Engine.mapTask_keeps]
  | contains _ _ _ | remove _ _ _ =>
      simp only [Engine.interpret] at moved
      split at moved <;> cases moved
      rfl
  | insert _ _ _ _ =>
      simp only [Engine.interpret] at moved
      split at moved <;> cases moved
      exact congrFun (Engine.dropSession_keeps ..) protocol
  | checkout _ _ _ =>
      simp only [Engine.interpret] at moved
      split at moved <;> cases moved
      rw [Engine.checkout_keeps]
  | acquire other _ =>
      have elsewhere : protocol ≠ other := fun same => untaken same.symm
      simp only [Engine.interpret] at moved
      split at moved
      · cases moved
      · split at moved <;> cases moved
        · exact Function.update_of_ne elsewhere _ _
        · exact Function.update_of_ne elsewhere _ _
  | release other =>
      have elsewhere : protocol ≠ other := fun same => ungiven same.symm
      cases moved
      exact Function.update_of_ne elsewhere _ _
  | resetConsumed _ =>
      simp only [Engine.interpret] at moved
      split at moved
      · cases moved
      · split at moved <;> cases moved <;> rfl
  | send _ _ _ =>
      simp only [Engine.interpret] at moved
      split at moved
      · cases moved
      · split at moved <;> cases moved
        rfl
  | collect _ _ _ =>
      simp only [Engine.interpret, Engine.collect] at moved
      split at moved
      · split at moved
        · cases moved
        · split at moved <;> cases moved
          rw [Engine.mapTask_keeps, Engine.mapTask_keeps]
      · cases moved
  | join _ _ =>
      simp only [Engine.interpret] at moved
      split at moved
      · split at moved <;> cases moved
        rfl
      · cases moved

private theorem interpret_takes {answer : Action.Answer lib action}
    (moved : engine.interpret thread action = .reply after answer) (takes : Takes protocol action) :
    engine.locks protocol = none ∧ after.locks protocol = some thread := by
  cases action with
  | acquire other sessionId =>
      obtain rfl : other = protocol := takes
      simp only [Engine.interpret] at moved
      split at moved
      · cases moved
      · next free =>
        have free : engine.locks other = none := by simpa [Engine.locked] using free
        refine ⟨free, ?_⟩
        split at moved <;> cases moved
        · exact Function.update_self _ _ _
        · exact Function.update_self _ _ _
  | _ => exact takes.elim

end Holders

/-- The engine knows who holds a lock. -/
theorem locks (protocol : ProtocolType) :
    (machine lib).Locks (Takes protocol) (Gives protocol) fun engine => engine.locks protocol := by
  constructor
  · intro thread action engine after answer moved takes
    exact interpret_takes moved takes
  · intro thread action engine after answer moved gives
    have moved : engine.interpret thread action = .reply after answer := moved
    cases action with
    | release other =>
        obtain rfl : other = protocol := gives
        cases moved
        exact Function.update_self _ _ _
    | _ => exact gives.elim
  · intro thread action engine after answer moved untaken ungiven
    exact interpret_holder moved untaken ungiven
  · intro action takes
    cases action <;> first | exact id | exact takes.elim
  · intro thread action engine after moved
    obtain ⟨tasks, rfl⟩ := Engine.interpret_pending moved
    rfl
  · intro change engine
    cases change with
    | tick elapsed => rfl
    | poll other task => exact congrFun (Engine.mapTask_keeps ..) protocol

end CeresMpc.Lifecycle
