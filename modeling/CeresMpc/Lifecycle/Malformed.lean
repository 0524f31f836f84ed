import CeresMpc.Interleaving.Renumber
import CeresMpc.Lifecycle.Isolation

/-!
# Malformed payloads

A later round whose payload does not decode looks at its session and fails.
-/

set_option autoImplicit false

namespace CeresMpc

open Encoding Interleaving Program Api

variable {lib : Libraries}

/-! ## Who holds a lock does not matter -/

/-- Two states that differ in the holders of their locks. -/
inductive Engine.SameButHolders (engine : Engine lib) : Engine lib → Prop where
  | held {locks} : (∀ protocol, (engine.locks protocol).isSome = (locks protocol).isSome) →
      SameButHolders engine { engine with locks }

namespace Engine

theorem mapTask_locks (engine : Engine lib) (locks : ProtocolType → Option Nat) (protocol : ProtocolType) (task : Nat)
    (change : EngineRelay lib protocol → EngineRelay lib protocol) :
    { engine with locks }.mapTask protocol task change = { engine.mapTask protocol task change with locks } := by
  unfold mapTask
  cases live : engine.tasks protocol task with
  | none => simp
  | some relay => simp [setTask]

theorem dropSession_locks (engine : Engine lib) (locks : ProtocolType → Option Nat) (curve : Curve)
    (protocol : ProtocolType) (session : Option (Session lib curve protocol)) :
    { engine with locks }.dropSession curve protocol session = { engine.dropSession curve protocol session with locks } := by
  unfold dropSession
  split
  · exact mapTask_locks ..
  · rfl

theorem checkout_locks (engine : Engine lib) (locks : ProtocolType → Option Nat) (curve : Curve)
    (protocol : ProtocolType) (sessionId : String) :
    { engine with locks }.checkout curve protocol sessionId =
      ({ (engine.checkout curve protocol sessionId).1 with locks }, (engine.checkout curve protocol sessionId).2) := by
  unfold checkout
  cases live : engine.sessions curve protocol sessionId with
  | none => simp
  | some session =>
      simp only
      cases curve with
      | ed25519 =>
          simp only
          split <;> rfl
      | secp256k1 =>
          simp only
          split
          · rw [← dropSession_locks, ← mapTask_locks]
            rfl
          · split
            · rfl
            · rw [mapTask_locks]

theorem mapTask_keeps (engine : Engine lib) (protocol : ProtocolType) (task : Nat)
    (change : EngineRelay lib protocol → EngineRelay lib protocol) :
    (engine.mapTask protocol task change).locks = engine.locks := by
  rw [mapTask_frame]

theorem dropSession_keeps (engine : Engine lib) (curve : Curve) (protocol : ProtocolType)
    (session : Option (Session lib curve protocol)) :
    (engine.dropSession curve protocol session).locks = engine.locks := by
  rw [dropSession_frame]

theorem checkout_keeps (engine : Engine lib) (curve : Curve) (protocol : ProtocolType) (sessionId : String) :
    (engine.checkout curve protocol sessionId).1.locks = engine.locks := by
  unfold checkout
  split
  · rfl
  · split
    · cases curve with
      | secp256k1 => exact (dropSession_keeps ..).trans (mapTask_keeps ..)
      | ed25519 => rfl
    · cases curve with
      | secp256k1 =>
          dsimp only
          split
          · rfl
          · exact mapTask_keeps ..
      | ed25519 => rfl

private theorem SameButHolders.after {left after : Engine lib} {locks : ProtocolType → Option Nat}
    (held : ∀ protocol, (left.locks protocol).isSome = (locks protocol).isSome) (kept : after.locks = left.locks) :
    after.SameButHolders { after with locks } :=
  ⟨fun protocol => kept ▸ held protocol⟩

private theorem update_isSome {locks other : ProtocolType → Option Nat} {holder copy : Option Nat}
    (held : ∀ protocol, (locks protocol).isSome = (other protocol).isSome) (same : holder.isSome = copy.isSome)
    (changed protocol : ProtocolType) :
    (Function.update locks changed holder protocol).isSome = (Function.update other changed copy protocol).isSome := by
  by_cases here : protocol = changed
  · subst here
    simpa using same
  · simpa [here] using held protocol

theorem interpret_alike (thread other : Nat) (action : Action lib) {left right : Engine lib}
    (same : left.SameButHolders right) :
    (left.interpret thread action).Alike SameButHolders (right.interpret other action) := by
  obtain ⟨held⟩ := same
  rename_i locks
  have waits (curve : Curve) (protocol : ProtocolType) :
      Engine.locked curve protocol { left with locks } = left.locked curve protocol := by
    cases curve with
    | secp256k1 => exact (held protocol).symm
    | ed25519 => rfl
  cases action with
  | now | random | exportedContains _ | exportedInsert _ | roundSign _ _ _ | spawn _ _ => exact .reply ⟨held⟩
  | contains curve protocol sessionId =>
      simp only [interpret, waits]
      split
      · exact .blocked
      · exact .reply ⟨held⟩
  | insert curve protocol sessionId session =>
      simp only [interpret, waits, dropSession_locks]
      split
      · exact .blocked
      · refine .reply ?_
        exact ⟨fun named => dropSession_keeps left curve protocol _ ▸ held named⟩
  | remove curve protocol sessionId =>
      simp only [interpret, waits]
      split
      · exact .blocked
      · exact .reply ⟨held⟩
  | checkout curve protocol sessionId =>
      simp only [interpret, waits, checkout_locks]
      split
      · exact .blocked
      · exact .reply (.after held (checkout_keeps ..))
  | acquire protocol sessionId =>
      have taken : (some thread).isSome = (some other).isSome := rfl
      simp only [interpret, waits]
      split
      · exact .blocked
      · split
        · exact .reply ⟨update_isSome held taken protocol⟩
        · exact .reply ⟨update_isSome held taken protocol⟩
  | release protocol => exact .reply ⟨update_isSome held rfl protocol⟩
  | resetConsumed sessionId =>
      simp only [interpret, waits]
      split
      · exact .blocked
      · split
        · exact .reply ⟨held⟩
        · exact .reply ⟨held⟩
  | abort _ _ | dropSender _ _ | dropReceiver _ _ =>
      simp only [interpret, mapTask_locks]
      exact .reply (.after held (mapTask_keeps ..))
  | join _ _ =>
      simp only [interpret]
      split
      · split
        · exact .reply ⟨held⟩
        · exact .blocked
      · exact .blocked
  | send _ _ _ =>
      simp only [interpret]
      split
      · exact .blocked
      · split
        · exact .blocked
        · exact .pending ⟨held⟩
        · exact .reply ⟨held⟩
  | collect protocol receiver signal =>
      simp only [interpret, collect, mapTask_locks]
      split
      · split
        · refine .pending (.after held ?_)
          rw [mapTask_keeps, mapTask_keeps]
        · split
          · exact .blocked
          · exact .pending (.after held (mapTask_keeps ..))
          · refine .reply (.after held ?_)
            rw [mapTask_keeps, mapTask_keeps]
      · exact .blocked

end Engine

namespace Lifecycle

theorem machine_indifferent : (machine lib).Indifferent Engine.SameButHolders := by
  constructor
  · intro thread other action left right same
    exact Engine.interpret_alike thread other action same
  · intro change left right same
    obtain ⟨held⟩ := same
    cases change with
    | tick elapsed => exact ⟨held⟩
    | poll protocol task =>
        simp only [machine, Engine.drift, Engine.mapTask_locks]
        exact .after held (Engine.mapTask_keeps ..)

/-! ## What the call does -/

variable (lib) in
/-- The engine that serves a later round does not decode its payload. -/
def Undecodable (call : Call) : (toEd25519 : Bool) → Prop
  | false => ∃ failure, MpcEngine.parseServerEnvelopeBatch lib call.payload = .error failure
  | true =>
      match call with
      | .sign .. => ∃ failure, EngineEd25519.decodeSignRound2 lib call.payload = .error failure
      | _ => ∃ failure, EngineEd25519.parseWire lib call.payload = .error failure

variable {protocol : ProtocolType} {sessionId : String} {call : Call} {round : Int32}

/-- The rest of a call once it has looked at its session. A DKLs23 session's input is
cloned by the look and dropped again. -/
inductive Answered : (curve : Curve) → Checkout (Session lib curve protocol) → EngineM lib Reply → Prop where
  | missing {curve failure} : Answered curve .missing (.done (.error failure))
  | expired {curve failure} : Answered curve .expired (.done (.error failure))
  | ed25519 {session failure} : Answered .ed25519 (.found session) (.done (.error failure))
  | rejected {session failure} : consumed lib protocol session = true →
      Answered .secp256k1 (.found session) (.done (.error failure))
  | drops {session failure} : consumed lib protocol session = false →
      Answered .secp256k1 (.found session)
        (.perform (.dropSender protocol (dklsTask lib protocol session)) fun _ => .done (.error failure))

/-- A call that looks at its session at most, and fails. -/
inductive Declines (protocol : ProtocolType) (sessionId : String) (curve : Curve) : EngineM lib Reply → Prop where
  | fails {failure} : Declines protocol sessionId curve (.done (.error failure))
  | looks {next} : (∀ found, Answered curve found (next found)) →
      Declines protocol sessionId curve (.perform (.checkout curve protocol sessionId) next)

private theorem advance_declines {serverPayload failure : String}
    (unread : MpcEngine.parseServerEnvelopeBatch lib serverPayload = .error failure)
    (finish : Session lib .secp256k1 protocol → UInt8 → Dkls.Output protocol → Except String MpcRoundResult) :
    Declines protocol sessionId .secp256k1
      (Reply.round <$> MpcEngine.advance lib protocol sessionId serverPayload finish) := by
  simp only [MpcEngine.advance, bind_eq, request_bind, map_eq, perform_bind]
  refine .looks fun found => ?_
  cases found with
  | missing => exact .missing
  | expired => exact .expired
  | found session =>
      simp only [MpcEngine.runRound, unread, liftM_eq, bind_eq, Program.lift, done_error_bind, Program.ensure]
      by_cases used : consumed lib protocol session = false
      · simp only [if_pos used, done_ok_bind, always]
        exact .drops used
      · simp only [if_neg used, done_error_bind]
        exact .rejected (by simpa using used)

theorem dkls_declines (names : call.scope = some (protocol, sessionId)) (later : call.round = some round)
    (beyond : 1 < round) (unread : Undecodable lib call false) :
    Declines protocol sessionId .secp256k1 (call.dkls lib) := by
  obtain ⟨failure, unread⟩ := unread
  have notFirst : round ≠ 1 := by
    rintro rfl
    exact absurd beyond (by decide)
  have notLast : round ≠ 0 := by
    rintro rfl
    exact absurd beyond (by decide)
  cases call with
  | keygen | recover | sign =>
      cases names
      cases later
      simp only [Call.dkls, notFirst, notLast, if_false]
      exact advance_declines unread _
  | exportPrivateKey => cases names

theorem direct_declines (names : call.scope = some (protocol, sessionId)) (later : call.round = some round)
    (beyond : 1 < round) (unread : Undecodable lib call true) :
    Declines protocol sessionId .ed25519 (call.direct.body lib) := by
  have notFirst : round ≠ 1 := by
    rintro rfl
    exact absurd beyond (by decide)
  have notLast : round ≠ 0 := by
    rintro rfl
    exact absurd beyond (by decide)
  cases call with
  | keygen entry sessionId named serverPayload =>
      cases names
      cases later
      obtain ⟨failure, unread⟩ := unread
      change EngineEd25519.parseWire lib serverPayload = .error failure at unread
      simp only [Call.direct, Call.body, EngineEd25519.keygen, notFirst, notLast, if_false]
      split
      · simp only [EngineEd25519.keygenRound2, unread, liftM_eq, bind_eq, Program.lift, done_error_bind, map_eq]
        exact .fails
      · exact .fails
  | recover entry sessionId named serverPayload backupShare rotationVersion =>
      cases names
      cases later
      obtain ⟨failure, unread⟩ := unread
      change EngineEd25519.parseWire lib serverPayload = .error failure at unread
      simp only [Call.direct, Call.body, EngineEd25519.recover, notFirst, notLast, if_false]
      split
      · simp only [EngineEd25519.recoverRound2, unread, liftM_eq, bind_eq, request_bind, Program.lift,
          done_error_bind, map_eq, perform_bind]
        refine .looks fun found => ?_
        cases found with
        | missing => exact .missing
        | expired => exact .expired
        | found session => exact .ed25519
      · exact .fails
  | sign entry sessionId named serverPayload share messageHex =>
      cases names
      cases later
      obtain ⟨failure, unread⟩ := unread
      change EngineEd25519.decodeSignRound2 lib serverPayload = .error failure at unread
      simp only [Call.direct, Call.body, EngineEd25519.sign, notFirst, if_false]
      split
      · simp only [EngineEd25519.signRound2, unread, liftM_eq, bind_eq, Program.lift, done_error_bind, map_eq]
        exact .fails
      · exact .fails
  | exportPrivateKey => cases names

/-! ## Whatever else runs -/

/-- The operations of a call that declines. -/
def Peeks : Action lib → Prop
  | .contains .. | .checkout .. | .dropSender .. => True
  | _ => False

variable (lib) in
/-- The call has gone to an engine that does not decode its payload. -/
def Undecoded (call : Call) (past : Past lib) : Prop :=
  ∃ toEd25519 base, Call.Routed lib call toEd25519 base ∧ base <:+ past ∧ Undecodable lib call toEd25519

def Later (call : Call) : Prop :=
  ∃ round, call.round = some round ∧ 1 < round

private theorem Later.not_first (later : Later call) : call.round ≠ some 1 := by
  obtain ⟨round, named, beyond⟩ := later
  rw [named]
  rintro ⟨⟩
  exact absurd beyond (by decide)

private theorem route_unique (later : Later call) {toEd25519 other : Bool} {base looked past : Past lib}
    (routed : Call.Routed lib call toEd25519 base) (before : base <:+ past)
    (again : Call.Routed lib call other looked) (same : looked <:+ past) : toEd25519 = other := by
  cases routed with
  | detected _ first => exact absurd first later.not_first
  | direct unified => exact (again.of_direct unified).symm
  | @looked protocol sessionId toEd25519 unified _ names =>
      cases again with
      | detected _ first => exact absurd first later.not_first
      | direct direct =>
          rw [unified] at direct
          cases direct
      | looked _ _ namesAgain =>
          rw [names] at namesAgain
          cases namesAgain
          have whole := List.suffix_of_suffix_length_le before same (Nat.le_refl 1)
          have equal := whole.eq_of_length rfl
          cases equal
          rfl

private theorem Answered.follows {curve : Curve} {found : Checkout (Session lib curve protocol)} {base : Past lib}
    {program : EngineM lib Reply} (answered : Answered curve found program) :
    program.Follows (fun _ action => Peeks action) (fun _ outcome => ∃ failure, outcome = .error failure) base := by
  cases answered with
  | missing | expired | ed25519 | rejected _ => exact ⟨_, rfl⟩
  | drops => exact ⟨trivial, fun _ => ⟨_, rfl⟩⟩

private theorem Declines.follows {curve : Curve} {base : Past lib} {program : EngineM lib Reply}
    (declines : Declines protocol sessionId curve program) :
    program.Follows (fun _ action => Peeks action) (fun _ outcome => ∃ failure, outcome = .error failure) base := by
  cases declines with
  | fails => exact ⟨_, rfl⟩
  | looks answered =>
      exact ⟨trivial, fun found => (answered found).follows⟩

variable (lib) in
private abbrev PeeksOnly (call : Call) (past : Past lib) (action : Action lib) : Prop :=
  ∀ whole, past <:+ whole → Later call → Undecoded lib call whole → Peeks action

variable (lib) in
private abbrev FailsOnly (call : Call) (past : Past lib) (outcome : Except String Reply) : Prop :=
  Later call → Undecoded lib call past → ∃ failure, outcome = .error failure

private theorem routed_follows {toEd25519 : Bool} {base : Past lib} {program : EngineM lib Reply}
    {allowed : Action lib → Prop} (routed : Call.Routed lib call toEd25519 base) (only : program.Only allowed)
    (declines : Later call → Undecodable lib call toEd25519 →
      program.Follows (fun _ action => Peeks action) (fun _ outcome => ∃ failure, outcome = .error failure) base) :
    program.Follows (PeeksOnly lib call) (FailsOnly lib call) base := by
  by_cases undecoded : Later call ∧ Undecodable lib call toEd25519
  · refine (declines undecoded.1 undecoded.2).mono ?_ ?_
    · intro _ _ peeks _ _ _ _
      exact peeks
    · intro _ _ fails _ _
      exact fails
  · have elsewhere (extra whole : Past lib) (onward : extra ++ base <:+ whole) (later : Later call)
        (other : Undecoded lib call whole) : False := by
      obtain ⟨again, looked, routedAgain, before, unread⟩ := other
      have same := route_unique later routed ((List.suffix_append extra base).trans onward) routedAgain before
      exact undecoded ⟨later, same ▸ unread⟩
    refine only.follows ?_ ?_
    · intro extra action _ whole onward later other
      exact (elsewhere extra whole onward later other).elim
    · intro extra outcome later other
      exact (elsewhere extra _ List.suffix_rfl later other).elim

private theorem body_declines (call : Call) : (call.body lib).Follows (PeeksOnly lib call) (FailsOnly lib call) [] := by
  cases names : call.scope with
  | none =>
      have earlier : ¬Later call := by
        rintro ⟨round, named, _⟩
        cases call with
        | exportPrivateKey => cases named
        | _ => cases names
      refine (Call.body_steps call).mono ?_ ?_
      · intro _ _ _ _ _ later
        exact absurd later earlier
      · intro _ _ _ later
        exact absurd later earlier
  | some target =>
      obtain ⟨protocol, sessionId⟩ := target
      refine Call.body_follows names (fun _ _ _ _ _ _ => trivial) (fun base routed => ?_) fun base routed => ?_
      · refine routed_follows routed (Call.direct_within names) ?_
        rintro ⟨round, later, beyond⟩ unread
        exact (direct_declines names later beyond unread).follows
      · refine routed_follows routed (Call.dkls_within names) ?_
        rintro ⟨round, later, beyond⟩ unread
        exact (dkls_declines names later beyond unread).follows

/-! ## On its own -/

theorem mapTask_undo (engine : Engine lib) (protocol : ProtocolType) (task : Nat)
    {change undo : EngineRelay lib protocol → EngineRelay lib protocol} (undone : ∀ relay, undo (change relay) = relay) :
    (engine.mapTask protocol task change).mapTask protocol task undo = engine := by
  unfold Engine.mapTask
  cases live : engine.tasks protocol task with
  | none => simp [live]
  | some relay =>
      have same : some relay = engine.tasks protocol task := live.symm
      simp [Engine.setTask, undone, same]

/-- A session that is looked up in time is found. -/
theorem checkout_live {engine : Engine lib} {curve : Curve} {session : Session lib curve protocol}
    (live : engine.sessions curve protocol sessionId = some session)
    (fresh : expired lib engine.clock curve protocol session = false) :
    (engine.checkout curve protocol sessionId).2 = .found session := by
  unfold Engine.checkout
  simp only [live, fresh]
  cases curve with
  | ed25519 => rfl
  | secp256k1 =>
      simp only [Bool.false_eq_true, if_false]
      split <;> rfl

variable {world : EngineWorld lib} {thread : Nat}

/-- Where a call that fails has left the engine. -/
def LeftAs (engine : Engine lib) (thread : Nat) (call : Call) (world : EngineWorld lib) : Prop :=
  world.shared = engine ∧ ∃ failure, world.Returned thread call (.error failure)

private theorem LeftAs.stays {engine : Engine lib} (left : LeftAs engine thread call world) (count : Nat) :
    LeftAs engine thread call ((machine lib).run (List.replicate count (.run thread)) world) := by
  obtain ⟨failure, returned⟩ := left.2
  rwa [Machine.run_returned returned]

private theorem answered_alone {curve : Curve} {engine : Engine lib} {session : Session lib curve protocol}
    {program : EngineM lib Reply} (found : world.threads[thread]? = some (call, program))
    (live : engine.sessions curve protocol sessionId = some session)
    (fresh : expired lib engine.clock curve protocol session = false)
    (looked : world.shared = (engine.checkout curve protocol sessionId).1)
    (answered : Answered curve (.found session) program) (count : Nat) :
    LeftAs engine thread call ((machine lib).run (List.replicate (count + 1) (.run thread)) world) := by
  unfold Engine.checkout at looked
  simp only [live, fresh] at looked
  cases answered with
  | ed25519 => exact LeftAs.stays ⟨looked, _, found⟩ _
  | rejected used =>
      simp only [Bool.false_eq_true, if_false, used, if_true] at looked
      exact LeftAs.stays ⟨looked, _, found⟩ _
  | @drops _ failure free =>
      simp only [Bool.false_eq_true, if_false, free] at looked
      have here : (machine lib).step world (.run thread) = _ := Machine.step_reply found rfl
      rw [List.replicate_succ, Machine.run, List.foldl_cons, here]
      refine LeftAs.stays ⟨?_, failure, ?_⟩ count
      · rw [looked]
        exact mapTask_undo engine protocol _ fun relay => rfl
      · exact List.getElem?_set_self (List.getElem?_eq_some_iff.mp found).1

private theorem declines_alone {engine : Engine lib} {curve : Curve} {session : Session lib curve protocol}
    {program : EngineM lib Reply} (same : world.shared = engine)
    (found : world.threads[thread]? = some (call, program))
    (live : engine.sessions curve protocol sessionId = some session)
    (fresh : expired lib engine.clock curve protocol session = false) (free : engine.locked curve protocol = false)
    (declines : Declines protocol sessionId curve program) (count : Nat) :
    LeftAs engine thread call ((machine lib).run (List.replicate (count + 2) (.run thread)) world) := by
  cases declines with
  | fails => exact LeftAs.stays ⟨same, _, found⟩ _
  | looks answered =>
      have moved : (machine lib).interpret thread (.checkout curve protocol sessionId) world.shared =
          .reply (engine.checkout curve protocol sessionId).1 (.found session) := by
        simp only [machine, Engine.interpret, same, free, Bool.false_eq_true, if_false, checkout_live live fresh]
      rw [List.replicate_succ, Machine.run, List.foldl_cons, Machine.step_reply found moved]
      refine answered_alone ?_ live fresh rfl (answered (.found session)) count
      exact List.getElem?_set_self (List.getElem?_eq_some_iff.mp found).1

/-- Whether a later round goes to the ed25519 engine. -/
def onEd25519 (engine : Engine lib) (call : Call) : Bool :=
  match call.entry, call.scope with
  | .mpcEngine, some (protocol, sessionId) => (engine.sessions .ed25519 protocol sessionId).isSome
  | _, _ => true

def engineCurve : Bool → Curve
  | true => .ed25519
  | false => .secp256k1

private theorem body_alone (found : world.threads[thread]? = some (call, call.body lib))
    (names : call.scope = some (protocol, sessionId)) (later : Later call) {toEd25519 : Bool}
    (routed : onEd25519 world.shared call = toEd25519) {session : Session lib (engineCurve toEd25519) protocol}
    (live : world.shared.sessions (engineCurve toEd25519) protocol sessionId = some session)
    (fresh : expired lib world.shared.clock (engineCurve toEd25519) protocol session = false)
    (free : world.shared.locks protocol = none) (unread : Undecodable lib call toEd25519) (count : Nat) :
    LeftAs world.shared thread call ((machine lib).run (List.replicate (count + 3) (.run thread)) world) := by
  obtain ⟨round, named, beyond⟩ := later
  have waits (curve : Curve) : world.shared.locked curve protocol = false := by
    cases curve with
    | secp256k1 => simp [Engine.locked, free]
    | ed25519 => rfl
  cases unified : call.entry with
  | engineEd25519 =>
      obtain rfl : true = toEd25519 := by simpa [onEd25519, unified] using routed
      rw [← call.direct_eq unified] at found
      have declines := direct_declines names named beyond unread
      rw [call.direct_eq unified] at found declines
      exact declines_alone rfl found live fresh (waits _) declines (count + 1)
  | mpcEngine =>
      have answer : (world.shared.sessions .ed25519 protocol sessionId).isSome = toEd25519 := by
        simpa [onEd25519, unified, names] using routed
      have notFirst : call.round ≠ some 1 := Later.not_first ⟨round, named, beyond⟩
      rw [Call.unified_later unified notFirst names] at found
      have moved : (machine lib).interpret thread (.contains .ed25519 protocol sessionId) world.shared =
          .reply world.shared toEd25519 := by
        simp only [machine, Engine.interpret, waits .ed25519, Bool.false_eq_true, if_false, answer]
      rw [List.replicate_succ, Machine.run, List.foldl_cons, Machine.step_reply found moved]
      have bound := (List.getElem?_eq_some_iff.mp found).1
      cases toEd25519 with
      | true =>
          refine declines_alone ?_ ?_ live fresh (waits _) (direct_declines names named beyond unread) count
          · rfl
          · exact List.getElem?_set_self bound
      | false =>
          refine declines_alone ?_ ?_ live fresh (waits _) (dkls_declines names named beyond unread) count
          · rfl
          · exact List.getElem?_set_self bound

private theorem perform_threads (call : Call) (beats : List Beat) (world : EngineWorld lib) :
    ∃ program, (perform call beats world).threads = world.threads ++ [(call, program)] := by
  have runs (beats : List Beat) (before : EngineWorld lib) {program : EngineM lib Reply}
      (started : before.threads = world.threads ++ [(call, program)]) :
      ∃ program, ((machine lib).run (beats.map (Beat.move world.threads.length)) before).threads =
        world.threads ++ [(call, program)] := by
    induction beats generalizing before program with
    | nil => exact ⟨program, started⟩
    | cons beat rest ih =>
        cases beat with
        | tick elapsed => exact ih _ started
        | poll protocol task => exact ih _ started
        | own =>
            have found : before.threads[world.threads.length]? = some (call, program) := by simp [started]
            have stepped : ∃ program, ((machine lib).step before (.run world.threads.length)).threads =
                world.threads ++ [(call, program)] := by
              cases program with
              | done outcome =>
                  simp only [Machine.step, found]
                  exact ⟨_, started⟩
              | perform action next =>
                  simp only [Machine.step, found]
                  split
                  · exact ⟨_, started⟩
                  · exact ⟨_, started⟩
                  · next state answer moved => exact ⟨next answer, by simp [started]⟩
            obtain ⟨later, there⟩ := stepped
            exact ih _ there
  exact runs beats _ rfl

/-! ## Malformed calls -/

/-- A later round whose payload does not decode fails and changes nothing. -/
structure MalformedNoOp (lib : Libraries) : Prop where
  /-- Among other calls: it fails, sends nothing, and evicts an expired session at most. -/
  amid : ∀ world : EngineWorld lib, (machine lib).Reaches Machine.Any (.initial .empty) world →
    ∀ thread call, world.Called thread call → Later call → Undecoded lib call (past thread world.trace) →
      (∀ outcome, world.Returned thread call outcome → ∃ failure, outcome = .error failure) ∧
      (∀ protocol task message accepted, ¬Performed world.trace thread (.send protocol task message) accepted) ∧
      ((∀ curve protocol sessionId, ¬Performed world.trace thread (.checkout curve protocol sessionId) .expired) →
        ∀ before, (machine lib).Reaches Machine.Any (.initial .empty) before →
          (machine lib).Reaches Machine.Any ((machine lib).step before (.run thread)) world →
          ((machine lib).step before (.run thread)).shared.sessions = before.shared.sessions)
  /-- On a session that is live: it returns, and whatever is done afterwards goes as it would have without it. -/
  forgotten : ∀ world : EngineWorld lib, (machine lib).Reaches Machine.Any (.initial .empty) world →
    ∀ call protocol sessionId toEd25519 (session : Session lib (engineCurve toEd25519) protocol),
      call.scope = some (protocol, sessionId) → Later call → onEd25519 world.shared call = toEd25519 →
      world.shared.sessions (engineCurve toEd25519) protocol sessionId = some session →
      expired lib world.shared.clock (engineCurve toEd25519) protocol session = false →
      world.shared.locks protocol = none → Undecodable lib call toEd25519 → ∀ count after,
        after = perform call (List.replicate (count + 3) .own) world →
        LeftAs world.shared world.threads.length call after ∧
        ∀ moves thread other outcome, ((machine lib).run moves world).Returned thread other outcome ↔
          ((machine lib).run (moves.map (Move.skip world.threads.length)) after).Returned
            (skip world.threads.length thread) other outcome

private theorem peeks_within (reached : (machine lib).Reaches Machine.Any (.initial .empty) world)
    (called : world.Called thread call) (later : Later call) (undecoded : Undecoded lib call (past thread world.trace))
    {action : Action lib} {answer : Action.Answer lib action} (performed : Performed world.trace thread action answer) :
    Peeks action := by
  obtain ⟨after, before, split⟩ := List.append_of_mem performed
  obtain ⟨owner, program, found, permitted⟩ := reached.event_permitted body_declines after before thread _ split
  obtain rfl := World.called_unique called ⟨program, found⟩
  refine permitted _ ?_ later undecoded
  rw [split, past_append, past_cons_self]
  exact (List.suffix_cons _ _).trans (List.suffix_append _ _)

end Lifecycle

end CeresMpc
