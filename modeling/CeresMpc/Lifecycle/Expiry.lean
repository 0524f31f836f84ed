import CeresMpc.Api.CallSteps
import CeresMpc.Api.Runs
import CeresMpc.Toy

/-!
# The lifetime of sessions

A session past its lifetime is evicted by the recovery rounds that look for it.
No other round looks at its age. No round makes a session younger.
-/

set_option autoImplicit false

namespace CeresMpc.Lifecycle

open Encoding Interleaving Program Api

variable {lib : Libraries}

/-- DKLs23 keygen and sign sessions do not record when they were made. -/
def createdAt : (curve : Curve) → (protocol : ProtocolType) → Session lib curve protocol → Option Nat
  | .secp256k1, .rotation, session => some session.createdAt
  | .ed25519, .dkg, session => some session.createdAt
  | .ed25519, .dsg, session => some session.createdAt
  | .ed25519, .rotation, session => some session.createdAt
  | .secp256k1, .dkg, _ => none
  | .secp256k1, .dsg, _ => none

/-- The session is older than its lifetime. -/
def Overdue (now : Nat) {curve : Curve} {protocol : ProtocolType} (session : Session lib curve protocol) : Prop :=
  ∃ made, createdAt curve protocol session = some made ∧ sessionTtl < now - made

/-- The call is served by the engine of the curve. -/
def ServedOn (engine : Engine lib) (call : Call) (curve : Curve) (protocol : ProtocolType)
    (sessionId : String) : Prop :=
  match curve with
  | .ed25519 => True
  | .secp256k1 => call.entry = .mpcEngine ∧ engine.sessions .ed25519 protocol sessionId = none

/-- A call other than a first round is made on a session that is overdue. -/
structure MadeLate (engine : Engine lib) (call : Call) (curve : Curve) (protocol : ProtocolType)
    (sessionId : String) : Prop where
  names : call.scope = some (protocol, sessionId)
  later : call.round ≠ some 1
  served : ServedOn engine call curve protocol sessionId
  overdue : ∃ session, engine.sessions curve protocol sessionId = some session ∧ Overdue engine.clock session

/-- The rounds of a recovery that look their session up. -/
def LooksUp (call : Call) : Curve → Prop
  | .secp256k1 => call.round ≠ some 0
  | .ed25519 => call.round = some 2

/-- Only recovery rounds that look their session up are made on overdue sessions. -/
def ChecksAge (world : EngineWorld lib) : Move Call Drift → Prop
  | .start call => ∀ curve protocol sessionId, MadeLate world.shared call curve protocol sessionId →
      protocol = .rotation ∧ LooksUp call curve
  | .run _ | .drift _ => True

/-- No other call works on the id. -/
def LeavesAlone (thread : Nat) (protocol : ProtocolType) (sessionId : String) (world : EngineWorld lib) :
    Move Call Drift → Prop
  | .run other => other ≠ thread → ∀ action, world.nextAction other = some action →
      ¬action.OnEntry protocol sessionId
  | .start _ | .drift _ => True

/-- Operations that put a session back, use it, or run its task on. -/
def Advances : Action lib → Prop
  | .insert .. | .roundSign .. | .send .. | .collect .. | .join .. | .resetConsumed .. => True
  | _ => False

/-- A call made on an overdue session fails, advances nothing, and leaves no session. -/
def ExpiredDead (lib : Libraries) (Allowed : EngineWorld lib → Move Call Drift → Prop) : Prop :=
  ∀ origin : EngineWorld lib, (machine lib).Reaches Allowed (.initial .empty) origin →
    ∀ call curve protocol sessionId, Allowed origin (.start call) →
      MadeLate origin.shared call curve protocol sessionId →
      ∀ world, (machine lib).Reaches
          (fun world move => Allowed world move ∧ LeavesAlone origin.threads.length protocol sessionId world move)
          ((machine lib).step origin (.start call)) world →
        (∀ action answer, Performed world.trace origin.threads.length action answer → ¬Advances action) ∧
        ∀ outcome, world.Returned origin.threads.length call outcome →
          (∃ failure, outcome = .error failure) ∧ world.shared.sessions curve protocol sessionId = none

/-- A move leaves a session in a table with the time it had there, or it puts it there:
as a first round does, or as the round that has just taken it with that time. -/
def LifetimeKept (lib : Libraries) (Allowed : EngineWorld lib → Move Call Drift → Prop) : Prop :=
  ∀ world : EngineWorld lib, (machine lib).Reaches Allowed (.initial .empty) world → ∀ move curve protocol
    sessionId session, ((machine lib).step world move).shared.sessions curve protocol sessionId = some session →
      (∃ old, world.shared.sessions curve protocol sessionId = some old ∧
        createdAt curve protocol old = createdAt curve protocol session) ∨
      ∃ thread call, move = .run thread ∧ world.Called thread call ∧
        (call.round = some 1 ∨ ∃ old before,
          past thread world.trace = ⟨.remove curve protocol sessionId, some old⟩ :: before ∧
            createdAt curve protocol old = createdAt curve protocol session)

/-! ## Rounds that look their session up -/

/-- The program looks the session up, and fails when it has expired. -/
inductive FailsExpired (curve : Curve) (protocol : ProtocolType) (sessionId : String) : EngineM lib Reply → Prop where
  | looks {next failure} : next .expired = .done (.error failure) →
      FailsExpired curve protocol sessionId (.perform (.checkout curve protocol sessionId) next)

private theorem dkls_fails {call : Call} {sessionId : String} (names : call.scope = some (.rotation, sessionId))
    (later : call.round ≠ some 1) (notLast : call.round ≠ some 0) :
    FailsExpired .secp256k1 .rotation sessionId (call.dkls lib) := by
  cases call with
  | recover entry sessionId round serverPayload backupShare rotationVersion =>
      cases names
      have later : round ≠ 1 := fun first => later (congrArg some first)
      have notLast : round ≠ 0 := fun last => notLast (congrArg some last)
      simp only [Call.dkls, if_neg later, if_neg notLast, MpcEngine.advance, map_eq, bind_eq, request_bind,
        perform_bind]
      exact .looks rfl
  | _ => cases names

private theorem frost_fails {call : Call} {sessionId : String} (names : call.scope = some (.rotation, sessionId))
    (second : call.round = some 2) : FailsExpired .ed25519 .rotation sessionId (call.direct.body lib) := by
  cases call with
  | recover entry sessionId round serverPayload backupShare rotationVersion =>
      cases names
      cases second
      exact .looks rfl
  | _ => cases names

private theorem expired_of_overdue {now : Nat} {curve : Curve} {session : Session lib curve .rotation}
    (overdue : Overdue now session) : expired lib now curve .rotation session = true := by
  obtain ⟨made, recorded, late⟩ := overdue
  cases curve with
  | secp256k1 =>
      cases recorded
      exact decide_eq_true late
  | ed25519 =>
      cases recorded
      exact decide_eq_true late

private theorem Overdue.mono {now later : Nat} {curve : Curve} {protocol : ProtocolType}
    {session : Session lib curve protocol} (overdue : Overdue now session) (passes : now ≤ later) :
    Overdue later session := by
  obtain ⟨made, recorded, late⟩ := overdue
  exact ⟨made, recorded, by omega⟩

/-- How far a call on an overdue session has come. -/
inductive Stage (engine : Engine lib) (curve : Curve) (sessionId : String) : EngineM lib Reply → Prop where
  | routes {next session} : engine.sessions curve .rotation sessionId = some session →
      Overdue engine.clock session →
      (curve = .secp256k1 → engine.sessions .ed25519 .rotation sessionId = none) →
      FailsExpired curve .rotation sessionId (next (curve = .ed25519 : Bool)) →
      Stage engine curve sessionId (.perform (.contains .ed25519 .rotation sessionId) next)
  | looks {program session} : engine.sessions curve .rotation sessionId = some session →
      Overdue engine.clock session → FailsExpired curve .rotation sessionId program →
      Stage engine curve sessionId program
  | failed {failure} : engine.sessions curve .rotation sessionId = none →
      Stage engine curve sessionId (.done (.error failure))

variable {curve : Curve} {sessionId : String}

private theorem Stage.mono {engine after : Engine lib} {program : EngineM lib Reply}
    (stage : Stage engine curve sessionId program)
    (kept : ∀ curve, after.sessions curve .rotation sessionId = engine.sessions curve .rotation sessionId)
    (passes : engine.clock ≤ after.clock) : Stage after curve sessionId program := by
  cases stage with
  | routes live overdue separate fails =>
      exact .routes ((kept curve).trans live) (overdue.mono passes)
        (fun secp => (kept .ed25519).trans (separate secp)) fails
  | looks live overdue fails => exact .looks ((kept curve).trans live) (overdue.mono passes) fails
  | failed gone => exact .failed ((kept curve).trans gone)

private theorem Stage.step {thread : Nat} {engine after : Engine lib} {action : Action lib}
    {answer : Action.Answer lib action} {next : Action.Answer lib action → EngineM lib Reply}
    (stage : Stage engine curve sessionId (.perform action next))
    (moved : engine.interpret thread action = .reply after answer) :
    Stage after curve sessionId (next answer) ∧ ¬Advances action := by
  cases stage with
  | @routes _ session live overdue separate fails =>
      refine ⟨?_, id⟩
      have chosen : (engine.sessions .ed25519 .rotation sessionId).isSome = decide (curve = .ed25519) := by
        cases curve with
        | secp256k1 =>
            rw [separate rfl]
            rfl
        | ed25519 =>
            rw [live]
            rfl
      simp only [Engine.interpret] at moved
      split at moved <;> cases moved
      rw [← chosen] at fails
      exact .looks live overdue fails
  | looks live overdue fails =>
      cases fails with
      | @looks _ failure ends =>
          refine ⟨?_, id⟩
          have late := expired_of_overdue overdue
          simp only [Engine.interpret] at moved
          split at moved <;> cases moved
          rcases engine.checkout_cases curve .rotation sessionId with ⟨expired, evicted⟩ | ⟨alive, _⟩
          · rw [expired, ends]
            refine .failed ?_
            rw [evicted]
            simp
          · refine absurd ?_ alive
            simp only [Engine.checkout, live, if_pos late]
            cases curve <;> rfl

private theorem stage_start {engine : Engine lib} {call : Call} {protocol : ProtocolType}
    (late : MadeLate engine call curve protocol sessionId)
    (checks : protocol = .rotation ∧ LooksUp call curve) : protocol = .rotation ∧ Stage engine curve sessionId (call.body lib) := by
  obtain ⟨names, later, served, session, live, overdue⟩ := late
  obtain ⟨rfl, checks⟩ := checks
  refine ⟨rfl, ?_⟩
  cases curve with
  | secp256k1 =>
      obtain ⟨unified, separate⟩ := served
      rw [Call.unified_later unified later names]
      exact .routes live overdue (fun _ => separate) (dkls_fails names later checks)
  | ed25519 =>
      have fails : FailsExpired .ed25519 .rotation sessionId (call.direct.body lib) := frost_fails names checks
      cases unified : call.entry with
      | engineEd25519 =>
          rw [call.direct_eq unified] at fails
          exact .looks live overdue fails
      | mpcEngine =>
          rw [Call.unified_later unified later names]
          exact .routes live overdue (fun secp => by cases secp) fails

/-! ## Runs -/

variable {Allowed : EngineWorld lib → Move Call Drift → Prop}

private theorem drift_clock (change : Drift) (engine : Engine lib) :
    engine.clock ≤ (Engine.drift lib change engine).clock := by
  cases change with
  | tick elapsed => exact Nat.le_add_right _ _
  | poll protocol task => rw [Engine.drift, Engine.mapTask_frame]

private theorem expired_dead (lib : Libraries) : ExpiredDead lib ChecksAge := by
  intro origin reached call curve protocol sessionId allowed late
  obtain ⟨rfl, start⟩ := stage_start late (allowed curve protocol sessionId late)
  intro world onward
  have staged : ∃ program, world.threads[origin.threads.length]? = some (call, program) ∧
      Stage world.shared curve sessionId program ∧
      ∀ action answer, Performed world.trace origin.threads.length action answer → ¬Advances action := by
    have earlier {world : EngineWorld lib}
        (onward : (machine lib).Reaches (fun world move => ChecksAge world move ∧
          LeavesAlone origin.threads.length .rotation sessionId world move)
          ((machine lib).step origin (.start call)) world) :
        (machine lib).Reaches ChecksAge (.initial .empty) world :=
      (Machine.Reaches.step (.start call) reached allowed).trans (onward.mono fun _ _ both => both.1)
    refine onward.invariant (fun world =>
      ∃ program, world.threads[origin.threads.length]? = some (call, program) ∧
        Stage world.shared curve sessionId program ∧
        ∀ action answer, Performed world.trace origin.threads.length action answer → ¬Advances action)
      ?_ ?_ ?_ ?_ ?_
    · refine ⟨call.body lib, by simp [Machine.step, machine], start, ?_⟩
      intro action answer performed
      exact absurd (reached.trace_lt _ performed) (Nat.lt_irrefl _)
    · intro world other _ staged _
      obtain ⟨program, found, stage, quiet⟩ := staged
      have bound := (List.getElem?_eq_some_iff.mp found).1
      exact ⟨program, by rw [List.getElem?_append_left bound, found], stage, quiet⟩
    · intro world thread other action next state answer onward staged allowed found moved
      obtain ⟨program, own, stage, quiet⟩ := staged
      have moved : world.shared.interpret thread action = .reply state answer := moved
      by_cases same : thread = origin.threads.length
      · subst same
        rw [found] at own
        cases own
        obtain ⟨stage, idle⟩ := stage.step moved
        refine ⟨next answer, List.getElem?_set_self (List.getElem?_eq_some_iff.mp found).1, stage, ?_⟩
        intro performed reply member
        rcases List.mem_cons.mp member with newest | before
        · cases newest
          exact idle
        · exact quiet performed reply before
      · have active : world.nextAction thread = some action := by simp [World.nextAction, found]
        have elsewhere := allowed.2 same action active
        refine ⟨program, by rw [List.getElem?_set_ne same, own], stage.mono ?_ ?_, ?_⟩
        · intro curve
          exact entry_kept (earlier onward) moved elsewhere
        · rw [(Engine.interpret_registers moved).2.2.1]
        · intro performed reply member
          rcases List.mem_cons.mp member with newest | before
          · cases newest
            exact absurd rfl same
          · exact quiet performed reply before
    · intro world thread other action next state _ staged _ _ moved
      obtain ⟨tasks, rfl⟩ := Engine.interpret_pending moved
      obtain ⟨program, own, stage, quiet⟩ := staged
      exact ⟨program, own, stage.mono (fun _ => rfl) (Nat.le_refl _), quiet⟩
    · intro world change _ staged _
      obtain ⟨program, own, stage, quiet⟩ := staged
      refine ⟨program, own, stage.mono (fun curve => ?_) (drift_clock change world.shared), quiet⟩
      exact congrFun (congrFun (congrFun (Engine.drift_sessions change world.shared) curve) .rotation) sessionId
  obtain ⟨program, own, stage, quiet⟩ := staged
  refine ⟨quiet, fun outcome returned => ?_⟩
  rw [World.Returned, own] at returned
  cases returned
  cases stage with
  | looks live overdue fails => cases fails
  | failed gone => exact ⟨⟨_, rfl⟩, gone⟩

/-! ## Lifetimes -/

private theorem createdAt_lasting {protocol : ProtocolType} {old session : Session lib curve protocol}
    (same : lasting curve protocol old = lasting curve protocol session) :
    createdAt curve protocol old = createdAt curve protocol session := by
  cases curve with
  | ed25519 =>
      rw [lasting, lasting, markConsumed_ed25519, markConsumed_ed25519] at same
      rw [same]
  | secp256k1 =>
      cases protocol with
      | rotation =>
          have same : old = session := same
          rw [same]
      | dkg => rfl
      | dsg => rfl

private theorem insert_keeps {call : Call} {past : Past lib} {protocol : ProtocolType}
    {session : Session lib curve protocol} (step : Call.Step lib call past (.insert curve protocol sessionId session)) :
    call.round = some 1 ∨ ∃ old before, past = ⟨.remove curve protocol sessionId, some old⟩ :: before ∧
      createdAt curve protocol old = createdAt curve protocol session := by
  cases curve with
  | ed25519 =>
      obtain ⟨base, routed, step⟩ := step.on_ed25519 rfl
      cases step with
      | ceremony performs step =>
          cases step with
          | read first reads reading => rcases reading with same | same <;> cases same
          | start first opens same =>
              left
              cases performs with
              | keygen named => rw [named, Call.round, first]
              | recover named => rw [named, Call.round, first]
          | putBack second looked advances =>
              right
              refine ⟨_, _, rfl, ?_⟩
              cases performs with
              | keygen named => rfl
              | recover named => rfl
      | sign named step =>
          cases step with
          | read first reads reading => rcases reading with ⟨key, same⟩ | same | same <;> cases same
          | start first reads same free => exact .inl (by rw [named, Call.round, first])
  | secp256k1 =>
      obtain ⟨base, routed, step⟩ := step.on_secp256k1 rfl
      cases step with
      | first names first step => exact .inl first
      | keyshare names last other step => cases step
      | advance names later step => cases step

private theorem lifetime_kept : LifetimeKept lib Allowed := by
  intro world reached move curve protocol sessionId session live
  cases move with
  | start call => exact .inl ⟨session, live, rfl⟩
  | drift change =>
      left
      refine ⟨session, ?_, rfl⟩
      have same := Engine.drift_sessions change world.shared
      change (Engine.drift lib change world.shared).sessions _ _ _ = _ at live
      rwa [same] at live
  | run thread =>
      simp only [Machine.step] at live
      split at live
      · next call action next found =>
        split at live
        · exact .inl ⟨session, live, rfl⟩
        · next state moved =>
          obtain ⟨tasks, rfl⟩ := Engine.interpret_pending moved
          exact .inl ⟨session, live, rfl⟩
        · next state answer moved =>
          have moved : world.shared.interpret thread action = .reply state answer := moved
          rcases session_after_reply reached moved live with rfl | ⟨old, before, same⟩
          · right
            refine ⟨thread, call, rfl, ⟨_, found⟩, ?_⟩
            exact insert_keeps (reached.follows Call.body_steps thread call _ found).1
          · exact .inl ⟨old, before, createdAt_lasting same⟩
      · exact .inl ⟨session, live, rfl⟩

/-- Expired sessions are dead, and no round makes one younger. -/
def SessionsExpire (lib : Libraries) (Allowed : EngineWorld lib → Move Call Drift → Prop) : Prop :=
  ExpiredDead lib Allowed ∧ LifetimeKept lib Allowed

theorem sessions_expire (lib : Libraries) : SessionsExpire lib ChecksAge :=
  ⟨expired_dead lib, lifetime_kept⟩

/-! ## A keygen past its lifetime -/

private def envelopeText : String :=
  "\x7b\"session_id\":\"s\",\"protocol\":\"dkg\",\"round\":1,\"from_id\":1,\"payload_encoding\":\"\",\"payload\":\"\"\x7d"

private def opening : Call :=
  .keygen .engineEd25519 "s" 1 envelopeText

private def advancing : Call :=
  .keygen .engineEd25519 "s" 2 envelopeText

/-- Round 1, and more than five minutes. -/
private def opened : EngineWorld Toy.libraries :=
  (machine Toy.libraries).run
    (.start opening :: List.replicate 3 (.run 0) ++ [.drift (.tick (sessionTtl + 1))]) (.initial .empty)

private def advanced : EngineWorld Toy.libraries :=
  (machine Toy.libraries).run [.run 1, .run 1] ((machine Toy.libraries).step opened (.start advancing))

private def lateSession (engine : Engine Toy.libraries) (sessionId : String) : Bool :=
  match engine.sessions .ed25519 .dkg sessionId with
  | some session => sessionTtl < engine.clock - (session : FrostKeygenSession Toy.libraries).createdAt
  | none => false

private theorem lateSession_sound {engine : Engine Toy.libraries} {sessionId : String}
    (checked : lateSession engine sessionId = true) :
    ∃ session, engine.sessions .ed25519 .dkg sessionId = some session ∧ Overdue engine.clock session := by
  unfold lateSession at checked
  split at checked
  · next session live => exact ⟨session, live, _, rfl, of_decide_eq_true checked⟩
  · cases checked

/-- Round 2 of a keygen does not look at the age of its session. -/
theorem expired_keygen_advances : ¬SessionsExpire Toy.libraries Machine.Any := by
  rintro ⟨dead, _⟩
  have reached : (machine Toy.libraries).Reaches Machine.Any (.initial .empty) opened :=
    Machine.reaches_run _ _
  have late : MadeLate opened.shared advancing .ed25519 .dkg "s" :=
    ⟨rfl, by decide, trivial, lateSession_sound (by decide +kernel)⟩
  have threads : opened.threads.length = 1 := by decide +kernel
  have onward : (machine Toy.libraries).Reaches (fun world move => Machine.Any world move ∧
      LeavesAlone opened.threads.length .dkg "s" world move)
      ((machine Toy.libraries).step opened (.start advancing)) advanced := by
    rw [threads]
    refine Machine.reaches_run_of_forall _ _ fun move member world => ⟨trivial, ?_⟩
    obtain rfl : move = .run 1 := by simpa using member
    intro other
    exact absurd rfl other
  have continued : Toy.status advanced 1 = some "continue" := by decide +kernel
  unfold Toy.status at continued
  split at continued
  · next call reply found =>
    have rejected := (dead opened reached advancing .ed25519 .dkg "s" trivial late advanced onward).2
    have own : call = advancing := by
      have calls : advanced.threads.map Prod.fst = [opening, advancing] := by decide +kernel
      have here : (advanced.threads.map Prod.fst)[1]? = some call := by rw [List.getElem?_map, found]; rfl
      rw [calls] at here
      cases here
      rfl
    subst own
    obtain ⟨failure, failed⟩ := (rejected (.ok reply) (by rw [threads]; exact found)).1
    cases failed
  · cases continued

end CeresMpc.Lifecycle
