import CeresMpc.Api.FrostSteps
import CeresMpc.Api.RoundSteps

/-!
# What a call does, step by step

The steps of both engines under the dispatch that chooses between them.
-/

set_option autoImplicit false

namespace CeresMpc.Api

open Encoding Interleaving Program

namespace MpcEngine

/-- What an operation makes of the output of its protocol task. -/
def completed (lib : Libraries) (sessionId : String) : (protocol : ProtocolType) →
    Session lib .secp256k1 protocol → UInt8 → Dkls.Output protocol → Except String MpcRoundResult
  | .dkg => keygenCompleted lib sessionId
  | .rotation => recoveryCompleted lib sessionId
  | .dsg => signCompleted lib

end MpcEngine

namespace Call

/-- The server payload of a call; an export has none. -/
def payload : Call → String
  | .keygen _ _ _ serverPayload | .recover _ _ _ serverPayload _ _ | .sign _ _ _ serverPayload _ _ => serverPayload
  | .exportPrivateKey .. => ""

variable (lib : Libraries) (call : Call)

/-! ## Engines -/

section Engines

variable (base : Past lib)

/-- Keygen and recovery with what is their own. -/
inductive Performs : (protocol : ProtocolType) → EngineEd25519.Ceremony lib protocol →
    (Past lib → Session lib .ed25519 protocol → String → Prop) →
    (Session lib .ed25519 protocol → MpcRoundResult → Prop) → String → Int32 → Prop where
  | keygen {entry sessionId round serverPayload} : call = .keygen entry sessionId round serverPayload →
      Performs .dkg (EngineEd25519.keygenCeremony lib) (EngineEd25519.KeygenOpens lib serverPayload)
        (EngineEd25519.KeygenCompletes lib sessionId) sessionId round
  | recover {entry sessionId round serverPayload backupShare rotationVersion} :
      call = .recover entry sessionId round serverPayload backupShare rotationVersion →
      Performs .rotation (EngineEd25519.recoveryCeremony lib)
        (EngineEd25519.RecoveryOpens lib serverPayload backupShare rotationVersion)
        (EngineEd25519.RecoveryCompletes lib sessionId) sessionId round

inductive FrostStep : Past lib → Action lib → Prop where
  | ceremony {protocol ceremony opens completes sessionId round past action} :
      Performs lib call protocol ceremony opens completes sessionId round →
      EngineEd25519.CeremonyStep ceremony sessionId call.payload round base opens past action →
      FrostStep past action
  | sign {entry sessionId round serverPayload share messageHex past action} :
      call = .sign entry sessionId round serverPayload share messageHex →
      EngineEd25519.SignStep lib sessionId serverPayload round base past action → FrostStep past action

inductive FrostEnd : Past lib → Except String MpcRoundResult → Prop where
  | ceremony {protocol ceremony opens completes sessionId round past outcome} :
      Performs lib call protocol ceremony opens completes sessionId round →
      EngineEd25519.CeremonyEnd ceremony sessionId call.payload round base opens completes past outcome →
      FrostEnd past outcome
  | sign {entry sessionId round serverPayload share messageHex past outcome} :
      call = .sign entry sessionId round serverPayload share messageHex →
      EngineEd25519.SignEnd lib sessionId round base past outcome → FrostEnd past outcome

inductive DklsStep : Past lib → Action lib → Prop where
  | first {protocol sessionId past action} : call.scope = some (protocol, sessionId) → call.round = some 1 →
      MpcEngine.FirstStep lib protocol sessionId call.payload base past action → DklsStep past action
  | advance {protocol sessionId past action} : call.scope = some (protocol, sessionId) → call.round ≠ some 1 →
      MpcEngine.AdvanceStep lib protocol sessionId call.payload base past action → DklsStep past action
  | keyshare {protocol sessionId past action} : call.scope = some (protocol, sessionId) →
      call.round = some 0 → protocol ≠ .dsg →
      MpcEngine.KeyshareStep lib protocol sessionId base past action → DklsStep past action

inductive DklsEnd : Past lib → Except String MpcRoundResult → Prop where
  | first {protocol sessionId past outcome} : call.scope = some (protocol, sessionId) → call.round = some 1 →
      MpcEngine.FirstEnd lib protocol sessionId call.payload base past outcome → DklsEnd past outcome
  | advance {protocol sessionId past outcome} : call.scope = some (protocol, sessionId) →
      call.round ≠ some 1 →
      MpcEngine.AdvanceEnd lib protocol sessionId call.payload base
        (MpcEngine.completed lib sessionId protocol) past outcome → DklsEnd past outcome
  | keyshare {protocol sessionId past outcome} : call.scope = some (protocol, sessionId) →
      call.round = some 0 → protocol ≠ .dsg →
      MpcEngine.KeyshareEnd lib protocol sessionId base (MpcEngine.completed lib sessionId protocol)
        past outcome → DklsEnd past outcome

/-- What a call that the DKLs23 engine serves has done when it fails. -/
inductive DklsFailed : Past lib → Prop where
  | first {protocol sessionId past} : call.scope = some (protocol, sessionId) →
      MpcEngine.FirstFailed lib protocol call.payload base past → DklsFailed past
  | advance {protocol sessionId past} : call.scope = some (protocol, sessionId) →
      MpcEngine.AdvanceFailed lib protocol sessionId call.payload base past → DklsFailed past
  | keyshare {tail} : (∀ entry ∈ tail, entry.1.Concludes) → DklsFailed (tail ++ base)

end Engines

/-! ## Dispatch -/

/-- How a call came to its engine, and what it did for that. -/
inductive Routed : Bool → Past lib → Prop where
  | direct : call.entry = .engineEd25519 → Routed true []
  | detected : call.entry = .mpcEngine → call.round = some 1 → Routed (call.detected lib) []
  | looked {protocol sessionId} {toEd25519 : Bool} : call.entry = .mpcEngine → call.round ≠ some 1 →
      call.scope = some (protocol, sessionId) →
      Routed toEd25519 [⟨.contains .ed25519 protocol sessionId, toEd25519⟩]

inductive Step : Past lib → Action lib → Prop where
  | look {protocol sessionId} : call.entry = .mpcEngine → call.round ≠ some 1 →
      call.scope = some (protocol, sessionId) → Step [] (.contains .ed25519 protocol sessionId)
  | frost {base past action} : Routed lib call true base → FrostStep lib call base past action →
      Step past action
  | dkls {base past action} : Routed lib call false base → DklsStep lib call base past action →
      Step past action
  | exports {past key} : call.scope = none → Step past (.exportedInsert key)

inductive End : Past lib → Except String Reply → Prop where
  | frost {base past reply outcome} : Routed lib call true base → FrostEnd lib call base past outcome →
      reply = outcome.map .round → End past reply
  | dkls {base past reply outcome} : Routed lib call false base → DklsEnd lib call base past outcome →
      reply = outcome.map .round → End past reply
  | exports {past reply} {outcome : Except String ExportResult} : call.scope = none →
      reply = outcome.map .exported → End past reply

variable {lib call}

/-! ## Which engine an operation belongs to -/

private theorem frost_only {base past : Past lib} {action : Action lib}
    (step : FrostStep lib call base past action) : action.Reads ∨ action.OnEngine .ed25519 := by
  cases step with
  | ceremony performs step =>
      cases step with
      | read first reads reading =>
          rcases reading with rfl | rfl
          · exact .inl trivial
          · exact .inl trivial
      | start | look | take | putBack | finish => exact .inr rfl
  | sign named step =>
      cases step with
      | read first reads reading =>
          rcases reading with ⟨key, rfl⟩ | rfl | rfl
          · exact .inl trivial
          · exact .inl trivial
          · exact .inl trivial
      | start | take | sign => exact .inr rfl

private theorem dkls_only {base past : Past lib} {action : Action lib}
    (step : DklsStep lib call base past action) : action.Reads ∨ action.OnEngine .secp256k1 := by
  cases step with
  | first names first step =>
      cases step with
      | read only same reading => exact .inl reading
      | opens only parsed step =>
          cases step with
          | now => exact .inl trivial
          | spawn | send | abort | collect | join | closeInput | closeOutput | insert => exact .inr rfl
  | advance names later step => cases step <;> exact .inr rfl
  | keyshare names last other step => cases step <;> exact .inr rfl

/-- An operation of one engine is a step of that engine. -/
theorem Step.on_ed25519 {past : Past lib} {action : Action lib} (step : Step lib call past action)
    (engine : action.OnEngine .ed25519) : ∃ base, Routed lib call true base ∧ FrostStep lib call base past action := by
  cases step with
  | look unified later names => exact engine.elim
  | frost routed step => exact ⟨_, routed, step⟩
  | dkls routed step =>
      rcases dkls_only step with reads | other
      · exact (action.reads_off_engine reads engine).elim
      · cases action.engine_unique engine other
  | exports none => exact engine.elim

theorem Step.on_secp256k1 {past : Past lib} {action : Action lib} (step : Step lib call past action)
    (engine : action.OnEngine .secp256k1) : ∃ base, Routed lib call false base ∧ DklsStep lib call base past action := by
  cases step with
  | look unified later names => exact engine.elim
  | dkls routed step => exact ⟨_, routed, step⟩
  | frost routed step =>
      rcases frost_only step with reads | other
      · exact (action.reads_off_engine reads engine).elim
      · cases action.engine_unique engine other
  | exports none => exact engine.elim

/-- Before its engine's own operations a call has at most looked its id up. -/
theorem Routed.looks {toEd25519 : Bool} {base : Past lib} (routed : Routed lib call toEd25519 base) :
    ∀ entry ∈ base, ∃ protocol sessionId, entry.1 = .contains .ed25519 protocol sessionId := by
  cases routed with
  | direct unified => simp
  | detected unified first => simp
  | @looked protocol sessionId toEd25519 unified later names => simp

/-- A call made to the FROST engine is served by it. -/
theorem Routed.of_direct {toEd25519 : Bool} {base : Past lib} (routed : Routed lib call toEd25519 base)
    (direct : call.entry = .engineEd25519) : toEd25519 = true := by
  cases routed with
  | direct => rfl
  | detected unified =>
      rw [direct] at unified
      cases unified
  | looked unified =>
      rw [direct] at unified
      cases unified

theorem Performs.names {protocol : ProtocolType} {ceremony : EngineEd25519.Ceremony lib protocol}
    {opens : Past lib → Session lib .ed25519 protocol → String → Prop}
    {completes : Session lib .ed25519 protocol → MpcRoundResult → Prop} {sessionId : String} {round : Int32}
    (performs : Performs lib call protocol ceremony opens completes sessionId round) :
    call.scope = some (protocol, sessionId) ∧ call.round = some round := by
  cases performs with
  | keygen named => exact ⟨by rw [named, scope], by rw [named, Call.round]⟩
  | recover named => exact ⟨by rw [named, scope], by rw [named, Call.round]⟩

/-! ## Calls -/

private theorem frost_steps {protocol : ProtocolType} {sessionId : String} {base : Past lib}
    (names : call.scope = some (protocol, sessionId)) (routed : Routed lib call true base) :
    (call.direct.body lib).Follows (Step lib call) (End lib call) base := by
  cases call with
  | keygen entry sessionId round serverPayload =>
      refine (follows_map _ _).mpr (EngineEd25519.keygen_steps.mono ?_ ?_)
      · intro past action step
        exact .frost routed (.ceremony (.keygen rfl) step)
      · intro past outcome ended
        exact .frost routed (.ceremony (.keygen rfl) ended) rfl
  | recover entry sessionId round serverPayload backupShare rotationVersion =>
      refine (follows_map _ _).mpr (EngineEd25519.recover_steps.mono ?_ ?_)
      · intro past action step
        exact .frost routed (.ceremony (.recover rfl) step)
      · intro past outcome ended
        exact .frost routed (.ceremony (.recover rfl) ended) rfl
  | sign entry sessionId round serverPayload share messageHex =>
      refine (follows_map _ _).mpr (EngineEd25519.sign_steps.mono ?_ ?_)
      · intro past action step
        exact .frost routed (.sign rfl step)
      · intro past outcome ended
        exact .frost routed (.sign rfl ended) rfl
  | exportPrivateKey entry localShare serverShare => cases names

private theorem dkls_ends {protocol : ProtocolType} {sessionId : String} {base : Past lib}
    (names : call.scope = some (protocol, sessionId)) :
    (call.dkls lib).Follows (DklsStep lib call base) (fun past reply => ∃ outcome, reply = outcome.map .round ∧
      Ends (DklsEnd lib call base) (DklsFailed lib call base) past outcome) base := by
  have replies {program : EngineM lib MpcRoundResult} (follows : program.Follows (DklsStep lib call base)
        (Ends (DklsEnd lib call base) (DklsFailed lib call base)) base) :
      (Reply.round <$> program).Follows (DklsStep lib call base) (fun past reply => ∃ outcome, reply = outcome.map .round ∧
        Ends (DklsEnd lib call base) (DklsFailed lib call base) past outcome) base :=
    (follows_map _ _).mpr (follows.mono (fun _ _ step => step) fun _ outcome ended => ⟨outcome, rfl, ended⟩)
  cases call with
  | keygen entry sessionId round serverPayload =>
      cases names
      apply replies
      split
      · next last =>
        refine MpcEngine.collectKeyshare_ends.mono
          (fun _ _ step => .keyshare rfl (congrArg some last) (by decide) step) fun past outcome ended => ?_
        refine ⟨.keyshare rfl (congrArg some last) (by decide) ended.1, fun failure failed => ?_⟩
        obtain ⟨tail, rfl, concludes⟩ := ended.2 failure failed
        exact .keyshare concludes
      split
      · next first =>
        refine MpcEngine.keygenRound1_ends.mono (fun _ _ step => .first rfl (congrArg some first) step)
          fun past outcome ended => ?_
        exact ⟨.first rfl (congrArg some first) ended.1, fun failure failed => .first rfl (ended.2 failure failed)⟩
      · next later =>
        have later : (Call.keygen entry sessionId round serverPayload).round ≠ some 1 :=
          fun first => later (Option.some.inj first)
        refine MpcEngine.advance_ends.mono (fun _ _ step => .advance rfl later step) fun past outcome ended => ?_
        exact ⟨.advance rfl later ended.1, fun failure failed => .advance rfl (ended.2 failure failed)⟩
  | recover entry sessionId round serverPayload backupShare rotationVersion =>
      cases names
      apply replies
      split
      · next last =>
        refine MpcEngine.collectKeyshare_ends.mono
          (fun _ _ step => .keyshare rfl (congrArg some last) (by decide) step) fun past outcome ended => ?_
        refine ⟨.keyshare rfl (congrArg some last) (by decide) ended.1, fun failure failed => ?_⟩
        obtain ⟨tail, rfl, concludes⟩ := ended.2 failure failed
        exact .keyshare concludes
      split
      · next first =>
        refine MpcEngine.recoverRound1_ends.mono (fun _ _ step => .first rfl (congrArg some first) step)
          fun past outcome ended => ?_
        exact ⟨.first rfl (congrArg some first) ended.1, fun failure failed => .first rfl (ended.2 failure failed)⟩
      · next later =>
        have later : (Call.recover entry sessionId round serverPayload backupShare rotationVersion).round ≠
            some 1 := fun first => later (Option.some.inj first)
        refine MpcEngine.advance_ends.mono (fun _ _ step => .advance rfl later step) fun past outcome ended => ?_
        exact ⟨.advance rfl later ended.1, fun failure failed => .advance rfl (ended.2 failure failed)⟩
  | sign entry sessionId round serverPayload share messageHex =>
      cases names
      apply replies
      split
      · next first =>
        refine MpcEngine.signRound1_ends.mono (fun _ _ step => .first rfl (congrArg some first) step)
          fun past outcome ended => ?_
        exact ⟨.first rfl (congrArg some first) ended.1, fun failure failed => .first rfl (ended.2 failure failed)⟩
      · next later =>
        have later : (Call.sign entry sessionId round serverPayload share messageHex).round ≠ some 1 :=
          fun first => later (Option.some.inj first)
        refine MpcEngine.advance_ends.mono (fun _ _ step => .advance rfl later step) fun past outcome ended => ?_
        exact ⟨.advance rfl later ended.1, fun failure failed => .advance rfl (ended.2 failure failed)⟩
  | exportPrivateKey entry localShare serverShare => cases names

/-- A call on a session is one engine's, perhaps after a lookup. -/
theorem body_follows {permitted : Past lib → Action lib → Prop} {finished : Past lib → Except String Reply → Prop}
    {protocol : ProtocolType} {sessionId : String} (names : call.scope = some (protocol, sessionId))
    (looks : call.entry = .mpcEngine → call.round ≠ some 1 → permitted [] (.contains .ed25519 protocol sessionId))
    (frost : ∀ base, Routed lib call true base → (call.direct.body lib).Follows permitted finished base)
    (dkls : ∀ base, Routed lib call false base → (call.dkls lib).Follows permitted finished base) :
    (call.body lib).Follows permitted finished [] := by
  cases unified : call.entry with
  | engineEd25519 =>
      have follows := frost [] (.direct unified)
      rwa [call.direct_eq unified] at follows
  | mpcEngine =>
      by_cases first : call.round = some 1
      · rw [unified_first unified first]
        have routed : Routed lib call (call.detected lib) [] := .detected unified first
        cases chosen : call.detected lib with
        | true =>
            rw [chosen] at routed
            exact frost [] routed
        | false =>
            rw [chosen] at routed
            exact dkls [] routed
      · rw [unified_later unified first names]
        refine ⟨looks unified first, fun toEd25519 => ?_⟩
        have routed : Routed lib call toEd25519 [⟨.contains .ed25519 protocol sessionId, toEd25519⟩] :=
          .looked unified first names
        cases toEd25519 with
        | true => exact frost _ routed
        | false => exact dkls _ routed

theorem body_only {allowed : Action lib → Prop} {protocol : ProtocolType} {sessionId : String}
    (names : call.scope = some (protocol, sessionId)) (looks : allowed (.contains .ed25519 protocol sessionId))
    (frost : (call.direct.body lib).Only allowed) (dkls : (call.dkls lib).Only allowed) : (call.body lib).Only allowed := by
  cases unified : call.entry with
  | engineEd25519 => rwa [call.direct_eq unified] at frost
  | mpcEngine =>
      by_cases first : call.round = some 1
      · rw [unified_first unified first]
        split
        · exact frost
        · exact dkls
      · rw [unified_later unified first names]
        refine ⟨looks, fun toEd25519 => ?_⟩
        cases toEd25519 with
        | true => exact frost
        | false => exact dkls

/-- Every call does these steps and ends in one of these ways. -/
theorem body_steps (call : Call) : (call.body lib).Follows (Step lib call) (End lib call) [] := by
  cases names : call.scope with
  | none =>
      cases call with
      | exportPrivateKey entry localShare serverShare =>
          have registers (program : EngineM lib ExportResult) (only : program.Only Action.Exports) :
              (Reply.exported <$> program).Follows
                (Step lib (.exportPrivateKey entry localShare serverShare))
                (End lib (.exportPrivateKey entry localShare serverShare)) [] := by
            refine (follows_map _ _).mpr (only.follows ?_ ?_)
            · intro extra action exports
              cases action with
              | exportedInsert key => exact .exports names
              | _ => exact exports.elim
            · intro extra outcome
              exact .exports names rfl
          cases entry with
          | mpcEngine => exact registers _ (MpcEngine.exportPrivateKey_exports _ _)
          | engineEd25519 => exact registers _ (EngineEd25519.exportPrivateKey_exports _ _)
      | _ => cases names
  | some target =>
      obtain ⟨protocol, sessionId⟩ := target
      refine body_follows names (fun unified later => .look unified later names)
        (fun base routed => frost_steps names routed) fun base routed => ?_
      refine (dkls_ends names).mono (fun _ _ step => .dkls routed step) ?_
      rintro past reply ⟨outcome, rfl, ended⟩
      exact .dkls routed ended.1 rfl

variable (lib call) in
/-- The ends of calls as the DKLs23 engine sees them. -/
inductive Finished : Past lib → Except String Reply → Prop where
  | elsewhere {past reply} : (∀ entry ∈ past, ¬entry.1.OnEngine .secp256k1) → Finished past reply
  | dkls {base past reply outcome} : Routed lib call false base →
      Ends (DklsEnd lib call base) (DklsFailed lib call base) past outcome → reply = outcome.map .round →
      Finished past reply

theorem Routed.off_engine {toEd25519 : Bool} {base : Past lib} (routed : Routed lib call toEd25519 base) (curve : Curve) :
    ∀ entry ∈ base, ¬entry.1.OnEngine curve := by
  rintro ⟨action, answer⟩ member
  obtain ⟨protocol, sessionId, rfl⟩ := routed.looks _ member
  exact id

theorem body_finishes (call : Call) :
    (call.body lib).Follows (fun _ _ => True) (Finished lib call) [] := by
  cases names : call.scope with
  | none =>
      refine (body_touches call).tracks.mono (fun _ _ _ => trivial) ?_
      rintro past outcome ⟨tail, rfl, touches⟩
      refine .elsewhere ?_
      rintro ⟨action, answer⟩ member
      rw [List.append_nil] at member
      have touched := touches _ member
      simp only [Touches, names] at touched
      cases action <;> first | exact touched.elim | exact id
  | some target =>
      obtain ⟨protocol, sessionId⟩ := target
      refine body_follows names (fun _ _ => trivial) (fun base routed => ?_) fun base routed => ?_
      · refine (direct_within names).tracks.mono (fun _ _ _ => trivial) ?_
        rintro past outcome ⟨tail, rfl, within⟩
        refine .elsewhere ?_
        intro entry member
        rcases List.mem_append.mp member with own | looked
        · intro onDkls
          cases (within entry own).engine onDkls
        · exact routed.off_engine .secp256k1 entry looked
      · refine (dkls_ends names).mono (fun _ _ _ => trivial) ?_
        rintro past reply ⟨outcome, same, ended⟩
        exact .dkls routed ended same

end Call

end CeresMpc.Api
