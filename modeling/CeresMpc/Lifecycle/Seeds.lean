import CeresMpc.Delivery.FirstRounds
import CeresMpc.Signing.Nonces

/-!
# What tasks run

A protocol task runs what its call asked for, with a seed drawn in that call, and no two
tasks are seeded with the same draw.
-/

set_option autoImplicit false

namespace CeresMpc.Lifecycle

open Encoding Interleaving Program Api

variable {lib : Libraries}

/-- What a first round sets up, with the seed it has drawn. -/
inductive Asked (lib : Libraries) (call : Call) (seed : Nat) :
    (protocol : ProtocolType) → lib.dkls.Protocol protocol → Prop where
  | keygen {entry sessionId serverPayload inst} : call = .keygen entry sessionId 1 serverPayload →
      MpcEngine.instanceIdFromSession lib sessionId = .ok inst → Asked lib call seed .dkg (lib.dkls.keygen inst seed)
  | recover {entry sessionId serverPayload backupShare rotationVersion inst keyshare} :
      call = .recover entry sessionId 1 serverPayload (some backupShare) (some rotationVersion) →
      MpcEngine.instanceIdFromSession lib sessionId = .ok inst → MpcEngine.backupKeyshare lib backupShare = .ok keyshare →
      Asked lib call seed .rotation (lib.dkls.keyRefresh inst seed keyshare)
  | sign {entry sessionId serverPayload share messageHex inst digest keyshare} :
      call = .sign entry sessionId 1 serverPayload (some share) (some messageHex) →
      MpcEngine.instanceIdFromSession lib sessionId = .ok inst → MessageDigest.fromHex lib.text messageHex = .ok digest →
      MpcEngine.signKeyshare lib share = .ok keyshare → Asked lib call seed .dsg (lib.dkls.sign inst seed keyshare digest)

/-- A task that is spawned is the call's first, and runs what the call asked for. -/
def Spawns (call : Call) (past : Past lib) (action : Action lib) : Prop :=
  ∀ protocol run, action = .spawn protocol run → (∀ entry ∈ past, entry.1.spawned = 0) ∧
    ∃ seed, ⟨.random, seed⟩ ∈ past ∧ Asked lib call seed protocol run

/-! ## Rounds -/

section Rounds

variable {call : Call} {base : Past lib} {protocol : ProtocolType} {sessionId serverPayload : String}

theorem spawns_nothing {past : Past lib} {action : Action lib} (quiet : action.spawned = 0) : Spawns call past action := by
  intro protocol run spawns
  rw [spawns] at quiet
  cases quiet

private theorem spawned_onTask {action : Action lib} (onTask : action.OnTask protocol) : action.spawned = 0 := by
  cases action <;> first | rfl | exact onTask.elim

private theorem openSession_spawns {past : Past lib} {env : WireEnvelope} {messages : List Bytes}
    {run : lib.dkls.Protocol protocol} {closed : Nat → EngineM lib (List Bytes)}
    {session : Nat → EngineM lib (Session lib .secp256k1 protocol)} (spawns : Spawns call past (.spawn protocol run))
    (closing : ∀ task, (closed task).Only (Action.OnTask protocol))
    (opening : ∀ task, (session task).Only fun action => action.spawned = 0) :
    (MpcEngine.openSession lib protocol sessionId env messages run closed session).Follows (Spawns call)
      (fun _ _ => True) past := by
  simp only [MpcEngine.openSession, bind_eq, request_bind]
  refine ⟨spawns, fun task => ?_⟩
  refine Only.follows (Only.bind ?_ fun _ => (opening task).bind fun opened => ?_) (fun _ _ quiet => spawns_nothing quiet)
    fun _ _ => trivial
  · exact (MpcEngine.firstBatch_onTask closing).mono fun _ onTask => spawned_onTask onTask
  · simp [Action.spawned]

private theorem fail_onTask (message : String) : ∀ task : Nat,
    ((fun _ => .fail message : Nat → EngineM lib (List Bytes)) task).Only (Action.OnTask protocol) :=
  fun _ => trivial

private theorem spawns_of_draw {run : lib.dkls.Protocol protocol} {seed : Nat} (reads : Past lib)
    (quiet : ∀ entry ∈ reads ++ base, entry.1.spawned = 0) (asked : Asked lib call seed protocol run) :
    Spawns call (⟨.random, seed⟩ :: (reads ++ base)) (.spawn protocol run) := by
  rintro _ _ ⟨⟩
  refine ⟨fun entry member => ?_, seed, List.mem_cons_self, asked⟩
  rcases List.mem_cons.mp member with rfl | before
  · rfl
  · exact quiet entry before

theorem keygenRound1_spawns {entry : EntryPoint} (quiet : ∀ entry ∈ base, entry.1.spawned = 0) :
    (MpcEngine.keygenRound1 lib sessionId serverPayload).Follows (Spawns (.keygen entry sessionId 1 serverPayload))
      (fun _ _ => True) base := by
  simp only [MpcEngine.keygenRound1, bind_eq, liftM_eq, request_bind, follows_lift_bind]
  refine ⟨fun received _ => ⟨fun inst named => ⟨spawns_nothing rfl, fun seed => ?_⟩, fun _ _ => trivial⟩, fun _ _ => trivial⟩
  apply openSession_spawns
  · exact spawns_of_draw [] quiet (.keygen rfl named)
  · simp [MpcEngine.keygenClosed, Action.OnTask]
  · simp

theorem recoverRound1_spawns {entry : EntryPoint} {backupShare : Option String} {rotationVersion : Option Int32}
    (quiet : ∀ entry ∈ base, entry.1.spawned = 0) :
    (MpcEngine.recoverRound1 lib sessionId serverPayload backupShare rotationVersion).Follows
      (Spawns (.recover entry sessionId 1 serverPayload backupShare rotationVersion)) (fun _ _ => True) base := by
  simp only [MpcEngine.recoverRound1, bind_eq, liftM_eq, request_bind, follows_lift_bind, okOr_eq_ok]
  refine ⟨fun received _ => ⟨?_, fun _ _ => trivial⟩, fun _ _ => trivial⟩
  rintro share rfl
  refine ⟨?_, fun _ _ => trivial⟩
  rintro version rfl
  refine ⟨fun keyshare read => ⟨fun inst named => ⟨spawns_nothing rfl, fun seed => ?_⟩, fun _ _ => trivial⟩,
    fun _ _ => trivial⟩
  apply openSession_spawns
  · exact spawns_of_draw [] quiet (.recover rfl named read)
  · exact fail_onTask _
  · simp [Action.spawned]

theorem signRound1_spawns {entry : EntryPoint} {share messageHex : Option String}
    (quiet : ∀ entry ∈ base, entry.1.spawned = 0) :
    (MpcEngine.signRound1 lib sessionId serverPayload share messageHex).Follows
      (Spawns (.sign entry sessionId 1 serverPayload share messageHex)) (fun _ _ => True) base := by
  simp only [MpcEngine.signRound1, bind_eq, liftM_eq, request_bind, follows_lift_bind, okOr_eq_ok]
  refine ⟨fun received _ => ⟨?_, fun _ _ => trivial⟩, fun _ _ => trivial⟩
  rintro share rfl
  refine ⟨?_, fun _ _ => trivial⟩
  rintro messageHex rfl
  refine ⟨fun digest hashed => ⟨fun keyshare read => ⟨spawns_nothing rfl, fun exported => ?_⟩, fun _ _ => trivial⟩,
    fun _ _ => trivial⟩
  simp only [follows_ensure_bind, follows_lift_bind]
  refine ⟨fun _ => ⟨fun inst named => ⟨spawns_nothing rfl, fun seed => ?_⟩, fun _ _ => trivial⟩, fun _ => trivial⟩
  apply openSession_spawns
  · refine spawns_of_draw [_] ?_ (.sign rfl named hashed read)
    rintro entry (_ | ⟨_, before⟩)
    · rfl
    · exact quiet entry before
  · exact fail_onTask _
  · simp

private theorem advance_spawns {finish : Session lib .secp256k1 protocol → UInt8 → Dkls.Output protocol →
    Except String MpcRoundResult} : (MpcEngine.advance lib protocol sessionId serverPayload finish).Follows (Spawns call)
      (fun _ _ => True) base :=
  MpcEngine.advance_ends.mono (fun _ _ step => spawns_nothing (by cases step <;> rfl)) fun _ _ _ => trivial

private theorem collectKeyshare_spawns {finish : Session lib .secp256k1 protocol → UInt8 → Dkls.Output protocol →
    Except String MpcRoundResult} : (MpcEngine.collectKeyshare lib protocol sessionId finish).Follows (Spawns call)
      (fun _ _ => True) base :=
  MpcEngine.collectKeyshare_steps.mono (fun _ _ step => spawns_nothing (by cases step <;> rfl)) fun _ _ _ => trivial

end Rounds

/-! ## Calls -/

private theorem dkls_spawns {call : Call} {base : Past lib} {protocol : ProtocolType} {sessionId : String}
    (names : call.scope = some (protocol, sessionId)) (quiet : ∀ entry ∈ base, entry.1.spawned = 0) :
    (call.dkls lib).Follows (Spawns call) (fun _ _ => True) base := by
  cases call with
  | keygen entry sessionId round serverPayload =>
      refine (follows_map _ _).mpr ?_
      split
      · exact collectKeyshare_spawns
      split
      · next first =>
        subst first
        exact keygenRound1_spawns quiet
      · exact advance_spawns
  | recover entry sessionId round serverPayload backupShare rotationVersion =>
      refine (follows_map _ _).mpr ?_
      split
      · exact collectKeyshare_spawns
      split
      · next first =>
        subst first
        exact recoverRound1_spawns quiet
      · exact advance_spawns
  | sign entry sessionId round serverPayload share messageHex =>
      refine (follows_map _ _).mpr ?_
      split
      · next first =>
        subst first
        exact signRound1_spawns quiet
      · exact advance_spawns
  | exportPrivateKey entry localShare serverShare => cases names

theorem body_spawns (call : Call) : (call.body lib).Follows (Spawns call) (fun _ _ => True) [] := by
  cases names : call.scope with
  | none =>
      refine (Call.body_touches call).follows (fun extra action touches => spawns_nothing ?_) fun _ _ => trivial
      rw [Call.Touches, names] at touches
      cases action <;> first | rfl | exact touches.elim
  | some target =>
      obtain ⟨protocol, sessionId⟩ := target
      refine Call.body_follows names (fun _ _ => spawns_nothing rfl) (fun base routed => ?_) fun base routed => ?_
      · refine (Call.direct_within names).follows (fun extra action within => spawns_nothing ?_) fun _ _ => trivial
        cases action with
        | spawn other run => cases within.1
        | _ => rfl
      · apply dkls_spawns names
        intro entry member
        obtain ⟨_, _, looks⟩ := routed.looks entry member
        rw [looks]
        rfl

/-! ## Runs -/

section Runs

variable {Allowed : EngineWorld lib → Move Call Drift → Prop} {world : EngineWorld lib}

/-- A call spawns one task. -/
theorem spawned_single (reached : (machine lib).Reaches Allowed (.initial .empty) world) {thread : Nat}
    {protocol other : ProtocolType} {run : lib.dkls.Protocol protocol} {otherRun : lib.dkls.Protocol other} {task named : Nat}
    (spawned : Performed world.trace thread (.spawn protocol run) task)
    (again : Performed world.trace thread (.spawn other otherRun) named) : task = named := by
  have apart {later earlier : List (Nat × Entry (Action lib) (Action.Answer lib))} {protocol other : ProtocolType}
      {run : lib.dkls.Protocol protocol} {otherRun : lib.dkls.Protocol other} {task named : Nat}
      (split : world.trace = later ++ (thread, ⟨.spawn protocol run, task⟩) :: earlier) :
      (thread, ⟨.spawn other otherRun, named⟩) ∉ earlier := by
    intro member
    obtain ⟨call, program, _, permitted⟩ := reached.event_permitted body_spawns later earlier thread _ split
    obtain ⟨none, _⟩ := permitted protocol run rfl
    cases none _ (mem_past.mpr member)
  obtain ⟨later, earlier, split⟩ := List.append_of_mem spawned
  rw [Performed, split] at again
  rcases List.mem_append.mp again with after | here
  · obtain ⟨newer, older, between⟩ := List.append_of_mem after
    rw [between, List.append_assoc, List.cons_append] at split
    exact absurd (List.mem_append_right _ List.mem_cons_self) (apart split)
  · rcases List.mem_cons.mp here with same | before
    · cases same
      rfl
    · exact absurd before (apart split)

/-- Tasks run what was asked for, each with a seed of its own. -/
structure SeedsFresh (world : EngineWorld lib) : Prop where
  asked : ∀ thread protocol run (task : Nat), Performed world.trace thread (.spawn protocol run) task →
    ∃ call seed, world.Called thread call ∧ Performed world.trace thread .random seed ∧ Asked lib call seed protocol run
  fresh : ∀ thread other protocol otherProtocol run otherRun (task named seed : Nat),
    Performed world.trace thread (.spawn protocol run) task →
      Performed world.trace other (.spawn otherProtocol otherRun) named → Performed world.trace thread .random seed →
      Performed world.trace other .random seed → task = named

theorem seeds_fresh (reached : (machine lib).Reaches Allowed (.initial .empty) world) : SeedsFresh world := by
  constructor
  · intro thread protocol run task spawned
    obtain ⟨call, program, before, found, permitted, performed⟩ := reached.performed_permitted body_spawns spawned
    obtain ⟨_, seed, drawn, asked⟩ := permitted protocol run rfl
    exact ⟨call, seed, ⟨program, found⟩, performed drawn, asked⟩
  · intro thread other protocol otherProtocol run otherRun task named seed spawned again drawn drawnAgain
    obtain rfl := Signing.draw_thread reached thread other seed drawn drawnAgain
    exact spawned_single reached spawned again

theorem seeds_fresh_twice : Delivery.twoKeygens.shared.nextTask = 2 ∧ SeedsFresh Delivery.twoKeygens := by
  refine ⟨by decide +kernel, ?_⟩
  have reached : (machine Toy.libraries).Reaches Machine.Any (.initial .empty) Delivery.twoKeygens := by
    unfold Delivery.twoKeygens
    exact Machine.reaches_run _ _
  exact seeds_fresh reached

end Runs

end CeresMpc.Lifecycle
