import CeresMpc.Api.CallSteps
import CeresMpc.Api.ExportEd25519
import CeresMpc.Lifecycle.Isolation
import CeresMpc.Toy

/-!
# Finished keyshares

The task of a DKLs23 keygen or recovery that has ended keeps its keyshare until a call
takes the session out of its table, and that call returns the keyshare.
-/

set_option autoImplicit false

namespace CeresMpc

open Encoding Interleaving Program Api

variable {lib : Libraries}

/-! ## Results of tasks -/

namespace Engine

/-- The task has ended with this result. -/
def EndedAs (protocol : ProtocolType) (task : Nat) (result : Except String (Except String (Dkls.Output protocol)))
    (engine : Engine lib) : Prop :=
  ∃ relay, engine.tasks protocol task = some relay ∧ relay.task = .ended result

variable {protocol : ProtocolType} {task : Nat} {result : Except String (Except String (Dkls.Output protocol))}
  {engine after : Engine lib}

theorem EndedAs.setTask (ended : EndedAs protocol task result engine) {other : ProtocolType} {named : Nat}
    {relay : EngineRelay lib other} (keeps : other = protocol ∧ named = task → ∀ before, engine.tasks other named = some before →
      ∀ outcome, before.task = .ended outcome → relay.task = .ended outcome) :
    EndedAs protocol task result (engine.setTask other named relay) := by
  obtain ⟨held, live, known⟩ := ended
  by_cases here : other = protocol ∧ named = task
  · obtain ⟨rfl, rfl⟩ := here
    exact ⟨relay, by simp [Engine.setTask], keeps ⟨rfl, rfl⟩ held live result known⟩
  · refine ⟨held, ?_, known⟩
    rw [← live]
    by_cases same : protocol = other
    · subst same
      have elsewhere : task ≠ named := fun same => here ⟨rfl, same.symm⟩
      simp [Engine.setTask, elsewhere]
    · simp [Engine.setTask, same]

theorem EndedAs.mapTask (ended : EndedAs protocol task result engine) {other : ProtocolType} {named : Nat}
    {change : EngineRelay lib other → EngineRelay lib other}
    (keeps : ∀ relay outcome, relay.task = .ended outcome → (change relay).task = .ended outcome) :
    EndedAs protocol task result (engine.mapTask other named change) := by
  unfold Engine.mapTask
  split
  · next relay live =>
    refine ended.setTask fun _ before there outcome known => keeps relay outcome ?_
    rw [live] at there
    cases there
    exact known
  · exact ended

theorem EndedAs.dropSession (ended : EndedAs protocol task result engine) (curve : Curve) (other : ProtocolType)
    (session : Option (Session lib curve other)) :
    EndedAs protocol task result (engine.dropSession curve other session) := by
  unfold Engine.dropSession
  split
  · exact ended.mapTask fun _ _ known => known
  · exact ended

theorem cancel_ended {other : ProtocolType} (relay : EngineRelay lib other) {outcome} (known : relay.task = .ended outcome) :
    relay.cancel.task = .ended outcome := by
  simp only [Relay.cancel, known]

theorem EndedAs.checkout (ended : EndedAs protocol task result engine) (curve : Curve) (other : ProtocolType)
    (sessionId : String) : EndedAs protocol task result (engine.checkout curve other sessionId).1 := by
  unfold Engine.checkout
  split
  · exact ended
  · next session live =>
    cases curve with
    | ed25519 =>
        dsimp only
        split
        · exact ended
        · exact ended
    | secp256k1 =>
        dsimp only
        split
        · have evicted : EndedAs protocol task result (engine.setSession .secp256k1 other sessionId none) := ended
          exact (evicted.mapTask fun relay _ known => cancel_ended relay known).dropSession _ _ _
        · split
          · exact ended
          · exact ended.mapTask fun _ _ known => known

theorem send_task {other : ProtocolType} {message : Bytes} {relay later : EngineRelay lib other} {sent : Bool}
    (accepted : relay.send message = .reply later sent) : later.task = relay.task := by
  unfold Relay.send at accepted
  split at accepted
  · cases accepted
    rfl
  · split at accepted <;> cases accepted
    rfl

/-- A result that is there stays. -/
theorem EndedAs.reply (ended : EndedAs protocol task result engine) (named : task < engine.nextTask) {thread : Nat}
    {action : Action lib} {answer : Action.Answer lib action}
    (moved : engine.interpret thread action = .reply after answer) : EndedAs protocol task result after := by
  cases action with
  | now | random | exportedContains _ | exportedInsert _ | roundSign _ _ _ | release _ =>
      cases moved
      exact ended
  | contains _ _ _ | remove _ _ _ =>
      simp only [interpret] at moved
      split at moved <;> cases moved
      exact ended
  | acquire _ _ | resetConsumed _ =>
      simp only [interpret] at moved
      split at moved
      · cases moved
      · split at moved <;> cases moved <;> exact ended
  | join _ _ =>
      simp only [interpret] at moved
      split at moved
      · split at moved <;> cases moved
        exact ended
      · cases moved
  | abort _ _ =>
      cases moved
      exact ended.mapTask fun relay _ known => cancel_ended relay known
  | dropSender _ _ | dropReceiver _ _ =>
      cases moved
      exact ended.mapTask fun _ _ known => known
  | spawn other run =>
      cases moved
      have kept : EndedAs protocol task result { engine with nextTask := engine.nextTask + 1 } := ended
      refine kept.setTask fun here => ?_
      exact absurd here.2 (Nat.ne_of_gt named)
  | insert curve other sessionId session =>
      simp only [interpret] at moved
      split at moved <;> cases moved
      exact ended.dropSession curve other _
  | checkout curve other sessionId =>
      simp only [interpret] at moved
      split at moved <;> cases moved
      exact ended.checkout curve other sessionId
  | send other target message =>
      simp only [interpret] at moved
      split at moved
      · cases moved
      · next relay live =>
        split at moved
        · cases moved
        · cases moved
        · next later sent accepted =>
          cases moved
          refine ended.setTask fun _ before there outcome known => ?_
          rw [live] at there
          cases there
          rw [send_task accepted, known]
  | collect other receiver signal =>
      simp only [interpret, collect] at moved
      split at moved
      · split at moved
        · cases moved
        · split at moved <;> cases moved
          refine EndedAs.mapTask (EndedAs.mapTask ended ?_) ?_
          · exact fun _ _ known => known
          · exact fun _ _ known => known
      · cases moved

theorem EndedAs.pending (ended : EndedAs protocol task result engine) {thread : Nat} {action : Action lib}
    (moved : engine.interpret thread action = .pending after) : EndedAs protocol task result after := by
  rcases pending_channel moved with ⟨other, named, message, rfl⟩ | ⟨other, receiver, signal, rfl⟩
  · simp only [interpret] at moved
    split at moved
    · cases moved
    · split at moved
      · cases moved
      · next waiting =>
        unfold Relay.send at waiting
        split at waiting
        · cases waiting
        · split at waiting <;> cases waiting
      · cases moved
  · simp only [interpret, collect] at moved
    split at moved
    · split at moved
      · cases moved
        refine EndedAs.mapTask (EndedAs.mapTask ended ?_) ?_
        · exact fun _ _ known => known
        · exact fun _ _ known => known
      · split at moved <;> cases moved
        exact ended.mapTask fun _ _ known => known
    · cases moved

theorem EndedAs.drift (ended : EndedAs protocol task result engine) (change : Drift) :
    EndedAs protocol task result (Engine.drift lib change engine) := by
  cases change with
  | tick elapsed => exact ended
  | poll other named =>
      refine ended.mapTask fun relay outcome known => ?_
      simp only [Relay.poll, known]

theorem EndedAs.join (ended : EndedAs protocol task result engine) {thread : Nat} :
    engine.interpret thread (.join protocol task) = .reply engine result := by
  obtain ⟨relay, live, known⟩ := ended
  simp only [interpret, live, known]

theorem EndedAs.of_join {thread : Nat} {answer : Except String (Except String (Dkls.Output protocol))}
    (moved : engine.interpret thread (.join protocol task) = .reply after answer) : EndedAs protocol task answer engine := by
  simp only [interpret] at moved
  split at moved
  · next relay live =>
    split at moved
    · next known =>
      cases moved
      exact ⟨relay, live, known⟩
    · cases moved
  · cases moved

theorem EndedAs.unique {other : Except String (Except String (Dkls.Output protocol))}
    (ended : EndedAs protocol task result engine) (again : EndedAs protocol task other engine) : result = other := by
  obtain ⟨relay, live, known⟩ := ended
  obtain ⟨same, there, knownToo⟩ := again
  rw [live] at there
  cases there
  rw [known] at knownToo
  cases knownToo
  rfl

/-- A checkout that answers `expired` has found an expired session. -/
theorem checkout_expired {thread : Nat} {curve : Curve} {other : ProtocolType} {sessionId : String}
    (moved : engine.interpret thread (.checkout curve other sessionId) = .reply after .expired) :
    ∃ session, engine.sessions curve other sessionId = some session ∧
      expired lib engine.clock curve other session = true := by
  simp only [interpret] at moved
  split at moved
  · cases moved
  simp only [checkout] at moved
  split at moved
  · cases moved
  · next session live =>
    split at moved
    · next late => exact ⟨session, live, late⟩
    · cases curve with
      | secp256k1 =>
          dsimp only at moved
          split at moved <;> cases moved
      | ed25519 => cases moved

end Engine

/-- A session is evicted by a lookup that finds it expired. -/
theorem evict_of_tableEvent {curve : Curve} {protocol : ProtocolType} {entry : Entry (Action lib) (Action.Answer lib)}
    {sessionId : String} (evict : tableEvent curve protocol entry = some (.evict sessionId)) :
    entry = ⟨.checkout curve protocol sessionId, .expired⟩ := by
  unfold tableEvent at evict
  split at evict
  · split at evict <;> cases evict
  · split at evict <;> cases evict
  · split at evict
    · next same =>
      cases same
      cases evict
      rfl
    · cases evict
  all_goals first | cases evict | (split at evict <;> cases evict)

namespace Lifecycle

/-! ## A call that takes a session -/

variable (lib) in
/-- A protocol has ended with the bytes of a keyshare. -/
def IsKeyshare : (protocol : ProtocolType) → Dkls.Output protocol → Prop
  | .dkg, ksBytes | .rotation, ksBytes => ∃ keyshare, lib.dkls.fromBytes ksBytes = some keyshare
  | .dsg, _ => False

variable (lib) in
/-- A call returns `completed` with the keyshare in its payload. -/
def Delivers : (protocol : ProtocolType) → Dkls.Output protocol → Except String Reply → Prop
  | .dkg, ksBytes, outcome => ∃ result payload, outcome = .ok (.round result) ∧ result.status = "completed" ∧
      result.clientPayload = some (lib.text.renderJson (KeygenCompletedPayload.toJson payload)) ∧
      payload.localEncryptedShare = lib.text.encodeBase64 ksBytes
  | .rotation, ksBytes, outcome => ∃ result payload, outcome = .ok (.round result) ∧ result.status = "completed" ∧
      result.clientPayload = some (lib.text.renderJson (RecoveryCompletedPayload.toJson payload)) ∧
      payload.localEncryptedShare = lib.text.encodeBase64 ksBytes
  | .dsg, _, _ => False

/-- The uncompressed public key of a keyshare is 65 bytes and starts with `0x04`. -/
def UncompressedSec1 (dkls : Dkls) : Prop :=
  ∀ ksBytes keyshare, dkls.fromBytes ksBytes = some keyshare →
    ∃ coordinates, dkls.encodePoint false (dkls.publicKey keyshare) = 0x04 :: coordinates ∧ coordinates.length = 64

theorem delivers_completed (sec1 : UncompressedSec1 lib.dkls) {protocol : ProtocolType} {output : Dkls.Output protocol}
    (keyshare : IsKeyshare lib protocol output) (sessionId : String) (session : Session lib .secp256k1 protocol)
    (round : UInt8) :
    Delivers lib protocol output ((MpcEngine.completed lib sessionId protocol session round output).map .round) := by
  have extracted {ksBytes : Bytes} (read : ∃ keyshare, lib.dkls.fromBytes ksBytes = some keyshare) :
      ∃ material, MpcEngine.extractPubkeyAndAddress lib ksBytes = .ok material := by
    obtain ⟨keyshare, read⟩ := read
    obtain ⟨coordinates, encoded, length⟩ := sec1 ksBytes keyshare read
    have derived : ∃ address, deriveEvmAddress lib (lib.dkls.encodePoint false (lib.dkls.publicKey keyshare)) =
        .ok address := by
      rw [encoded, deriveEvmAddress, if_neg (by simp [length])]
      exact ⟨_, rfl⟩
    obtain ⟨address, derived⟩ := derived
    have bound : MpcEngine.extractPubkeyAndAddress lib ksBytes = (do
        let evmAddress ← deriveEvmAddress lib (lib.dkls.encodePoint false (lib.dkls.publicKey keyshare))
        return (evmAddress, lib.text.encodeHex (lib.dkls.encodePoint false (lib.dkls.publicKey keyshare)),
          lib.dkls.encodePoint false (lib.dkls.publicKey keyshare))) := by
      simp only [MpcEngine.extractPubkeyAndAddress, read]
      rfl
    rw [bound, derived]
    exact ⟨_, rfl⟩
  cases protocol with
  | dsg => exact keyshare.elim
  | dkg =>
      obtain ⟨material, made⟩ := extracted keyshare
      simp only [MpcEngine.completed, MpcEngine.keygenCompleted, made]
      exact ⟨_, _, rfl, rfl, rfl, rfl⟩
  | rotation =>
      obtain ⟨material, made⟩ := extracted keyshare
      simp only [MpcEngine.completed, MpcEngine.recoveryCompleted, made]
      exact ⟨_, _, rfl, rfl, rfl, rfl⟩

/-- Operations that are answered at once where the task has ended. -/
def Settles (protocol : ProtocolType) (task : Nat) : Action lib → Prop
  | .dropSender .. | .dropReceiver .. => True
  | .join other named => other = protocol ∧ named = task
  | _ => False

/-- The call has taken this session. -/
def Took (protocol : ProtocolType) (session : Session lib .secp256k1 protocol) (past : Past lib) : Prop :=
  ∃ sessionId, ⟨.remove .secp256k1 protocol sessionId, some session⟩ ∈ past

/-- Once a call has taken a session it only waits for the session's task. -/
def SettlesTaken (protocol : ProtocolType) (past : Past lib) (action : Action lib) : Prop :=
  ∀ session task, Took protocol session past → dklsTaskHandle lib protocol session = some task → Settles protocol task action

/-- A call that has taken the session of a task with a keyshare returns the keyshare. -/
def DeliversTaken (protocol : ProtocolType) (past : Past lib) (outcome : Except String Reply) : Prop :=
  ∀ session task output, Took protocol session past → dklsTaskHandle lib protocol session = some task →
    (∀ answer, ⟨.join protocol task, answer⟩ ∈ past → answer = .ok (.ok output)) → IsKeyshare lib protocol output →
    Delivers lib protocol output outcome

section Calls

variable {protocol : ProtocolType} {sessionId : String} {base past : Past lib}

/-- Operations that take no session. -/
def TakesNothing (protocol : ProtocolType) (entry : Entry (Action lib) (Action.Answer lib)) : Prop :=
  ∀ sessionId session, entry ≠ ⟨.remove .secp256k1 protocol sessionId, some session⟩

theorem took_nothing (nothing : ∀ entry ∈ past, TakesNothing protocol entry) (session : Session lib .secp256k1 protocol) :
    ¬Took protocol session past := by
  rintro ⟨sessionId, member⟩
  exact nothing _ member sessionId session rfl

/-- The past of a call that has taken this session and done nothing but settle since. -/
structure TakenOnly (protocol : ProtocolType) (last : Session lib .secp256k1 protocol) (past : Past lib) : Prop where
  only : ∀ session, Took protocol session past → session = last

theorem TakenOnly.cons {last : Session lib .secp256k1 protocol} (taken : TakenOnly protocol last past)
    {entry : Entry (Action lib) (Action.Answer lib)} (nothing : TakesNothing protocol entry) :
    TakenOnly protocol last (entry :: past) := by
  constructor
  rintro session ⟨sessionId, member⟩
  rcases List.mem_cons.mp member with same | before
  · exact absurd same.symm (nothing sessionId session)
  · exact taken.only session ⟨sessionId, before⟩

theorem TakenOnly.settles {last : Session lib .secp256k1 protocol} (taken : TakenOnly protocol last past) {action : Action lib}
    (settles : ∀ task, dklsTaskHandle lib protocol last = some task → Settles protocol task action) :
    SettlesTaken protocol past action := by
  intro session task took handle
  obtain rfl := taken.only session took
  exact settles task handle

/-- What a call does with a session it has taken. -/
theorem joined_settles (sec1 : UncompressedSec1 lib.dkls) {last session : Session lib .secp256k1 protocol}
    (taken : TakenOnly protocol last past) (round : UInt8)
    {finished : Past lib → Except String MpcRoundResult → Prop}
    (ends : ∀ past outcome, DeliversTaken protocol past (outcome.map .round) → TakenOnly protocol last past →
      finished past outcome) :
    (do
      let taskHandle ← okOr "no task handle" (dklsTaskHandle lib protocol last)
      let output ← MpcEngine.joinTask lib protocol taskHandle
      MpcEngine.completed lib sessionId protocol session round output : EngineM lib MpcRoundResult).Follows
      (SettlesTaken protocol) finished past := by
  cases handle : dklsTaskHandle lib protocol last with
  | none =>
      refine ends _ (.error _) ?_ taken
      intro session task output took same
      obtain rfl := taken.only session took
      rw [handle] at same
      cases same
  | some task =>
      simp only [okOr, bind_eq, liftM_eq, MpcEngine.joinTask, request_bind, perform_bind, bind_assoc, lift, done_ok_bind]
      refine ⟨taken.settles fun named same => ⟨rfl, Option.some.inj (handle.symm.trans same)⟩, fun joined => ?_⟩
      have still : TakenOnly protocol last (⟨.join protocol task, joined⟩ :: past) := taken.cons (by rintro _ _ ⟨⟩)
      -- the task has ended with a keyshare, or nothing is promised
      have delivers (outcome : Except String MpcRoundResult) (good : ∀ output : Dkls.Output protocol,
          joined = .ok (.ok output) → outcome = MpcEngine.completed lib sessionId protocol session round output) :
          DeliversTaken protocol (⟨.join protocol task, joined⟩ :: past) (outcome.map .round) := by
        intro taker named output took same answers keyshare
        obtain rfl := still.only taker took
        obtain rfl := Option.some.inj (handle.symm.trans same)
        rw [good output (answers joined List.mem_cons_self)]
        exact delivers_completed sec1 keyshare sessionId session round
      cases joined with
      | error failure =>
          refine ends _ _ (delivers _ ?_) still
          rintro output ⟨⟩
      | ok outcome =>
          cases outcome with
          | error failure =>
              refine ends _ _ (delivers _ ?_) still
              rintro output ⟨⟩
          | ok output =>
              refine ends _ _ (delivers _ ?_) still
              rintro result ⟨⟩
              rfl

/-- A specification a call meets as long as it has taken nothing. -/
theorem settles_of_nothing (nothing : ∀ entry ∈ past, TakesNothing protocol entry) (action : Action lib) :
    SettlesTaken protocol past action :=
  fun session _ took _ => absurd took (took_nothing nothing session)

theorem delivers_of_nothing (nothing : ∀ entry ∈ past, TakesNothing protocol entry) (outcome : Except String Reply) :
    DeliversTaken protocol past outcome :=
  fun session _ _ took _ _ _ => absurd took (took_nothing nothing session)

/-- Settling operations after the end change nothing. -/
theorem DeliversTaken.cons {outcome : Except String Reply} (delivers : DeliversTaken protocol past outcome)
    {entry : Entry (Action lib) (Action.Answer lib)} (nothing : TakesNothing protocol entry) :
    DeliversTaken protocol (entry :: past) outcome := by
  rintro session task output ⟨sessionId, member⟩ handle answers keyshare
  rcases List.mem_cons.mp member with same | before
  · exact absurd same.symm (nothing sessionId session)
  · exact delivers session task output ⟨sessionId, before⟩ handle
      (fun answer joined => answers answer (List.mem_cons_of_mem _ joined)) keyshare

variable (lib) in
/-- What a round of the DKLs23 engine returns, as its call returns it. -/
abbrev RoundDelivers (protocol : ProtocolType) (past : Past lib) (outcome : Except String MpcRoundResult) : Prop :=
  DeliversTaken protocol past (outcome.map Reply.round)

theorem collectKeyshare_settles (sec1 : UncompressedSec1 lib.dkls)
    (nothing : ∀ entry ∈ base, TakesNothing protocol entry) :
    (MpcEngine.collectKeyshare lib protocol sessionId (MpcEngine.completed lib sessionId protocol)).Follows
      (SettlesTaken protocol) (RoundDelivers lib protocol) base := by
  simp only [MpcEngine.collectKeyshare, bind_eq, liftM_eq, request_bind]
  refine ⟨settles_of_nothing nothing _, fun removed => ?_⟩
  cases removed with
  | none =>
      refine delivers_of_nothing (fun entry member => ?_) _
      rcases List.mem_cons.mp member with rfl | before
      · rintro otherId session ⟨⟩
      · exact nothing entry before
  | some last =>
      have taken : TakenOnly protocol last (⟨.remove .secp256k1 protocol sessionId, some last⟩ :: base) := by
        constructor
        rintro session ⟨otherId, member⟩
        rcases List.mem_cons.mp member with same | before
        · cases same
          rfl
        · exact absurd rfl (nothing _ before otherId session)
      refine ⟨taken.settles fun _ _ => trivial, fun _ => ?_⟩
      have closed : TakenOnly protocol last (⟨.dropSender protocol (dklsTask lib protocol last), ()⟩ :: _) :=
        taken.cons (by rintro _ _ ⟨⟩)
      rw [follows_always]
      refine joined_settles sec1 closed 0 fun past outcome delivers still => ?_
      exact ⟨still.settles fun _ _ => trivial, fun _ => delivers.cons (by rintro _ _ ⟨⟩)⟩

/-- Operations that leave sessions in their tables. -/
def TakesNone : Action lib → Prop
  | .remove .. => False
  | _ => True

theorem takesNothing_of_none {entry : Entry (Action lib) (Action.Answer lib)} (none : TakesNone entry.1) :
    TakesNothing protocol entry := by
  rintro sessionId session rfl
  exact none

theorem takesNothing_append {more : Past lib} (none : ∀ entry ∈ more, TakesNone entry.1)
    (nothing : ∀ entry ∈ past, TakesNothing protocol entry) : ∀ entry ∈ more ++ past, TakesNothing protocol entry := by
  intro entry member
  rcases List.mem_append.mp member with own | before
  · exact takesNothing_of_none (none entry own)
  · exact nothing entry before

private theorem injectAll_takesNone (task : Nat) (messages : List Bytes) :
    (MpcEngine.injectAll lib protocol task messages).Only TakesNone :=
  (MpcEngine.injectAll_onTask task messages).mono fun action onTask => by cases action <;> first | exact onTask.elim | trivial

private theorem collectLocked_takesNone (signal : Nat) :
    (MpcEngine.collectLocked lib protocol sessionId signal).Only TakesNone := by
  simp only [MpcEngine.collectLocked, bind_eq, request_bind]
  refine ⟨trivial, fun held => ?_⟩
  cases held with
  | none => exact ⟨trivial, fun _ => trivial⟩
  | some session => exact ⟨trivial, fun _ => ⟨trivial, fun _ => trivial⟩⟩

private theorem takesNone_bind {Result : Type} {program : EngineM lib Result}
    {continuation : Result → EngineM lib MpcRoundResult} {finished : Past lib → Except String MpcRoundResult → Prop}
    (none : program.Only TakesNone) (nothing : ∀ entry ∈ base, TakesNothing protocol entry)
    (fails : ∀ past failure, (∀ entry ∈ past, TakesNothing protocol entry) → finished past (.error failure))
    (continues : ∀ past value, (∀ entry ∈ past, TakesNothing protocol entry) →
      (continuation value).Follows (SettlesTaken protocol) finished past) :
    (program.bind continuation).Follows (SettlesTaken protocol) finished base := by
  apply none.follows_bind_within
  · exact fun extra action within _ => settles_of_nothing (takesNothing_append within nothing) action
  · exact fun extra failure within => fails _ failure (takesNothing_append within nothing)
  · exact fun extra value within => continues _ value (takesNothing_append within nothing)

theorem advance_settles (sec1 : UncompressedSec1 lib.dkls) {serverPayload : String}
    (nothing : ∀ entry ∈ base, TakesNothing protocol entry) :
    (MpcEngine.advance lib protocol sessionId serverPayload (MpcEngine.completed lib sessionId protocol)).Follows
      (SettlesTaken protocol) (RoundDelivers lib protocol) base := by
  have extended {entry : Entry (Action lib) (Action.Answer lib)} {past : Past lib} (none : TakesNone entry.1)
      (before : ∀ entry ∈ past, TakesNothing protocol entry) : ∀ other ∈ entry :: past, TakesNothing protocol other := by
    intro other member
    rcases List.mem_cons.mp member with rfl | earlier
    · exact takesNothing_of_none none
    · exact before other earlier
  simp only [MpcEngine.advance, bind_eq, request_bind]
  refine ⟨settles_of_nothing nothing _, fun found => ?_⟩
  have looked : ∀ entry ∈ (⟨.checkout .secp256k1 protocol sessionId, found⟩ :: base : Past lib),
      TakesNothing protocol entry := extended trivial nothing
  cases found with
  | missing => exact delivers_of_nothing looked _
  | expired => exact delivers_of_nothing looked _
  | found session =>
      simp only [follows_ensure_bind]
      refine ⟨fun _ => ?_, fun _ => delivers_of_nothing looked _⟩
      rw [follows_always]
      -- the clone is dropped on every exit
      have drops (past : Past lib) (outcome : Except String MpcRoundResult)
          (before : ∀ entry ∈ past, TakesNothing protocol entry) :
          Follows (SettlesTaken protocol) (RoundDelivers lib protocol) past
            ((EngineM.dropSender protocol (dklsTask lib protocol session)).bind fun _ => .done outcome) := by
        refine ⟨settles_of_nothing before _, fun dropped => delivers_of_nothing ?_ _⟩
        exact extended trivial before
      simp only [MpcEngine.runRound, bind_eq, liftM_eq, follows_lift_bind]
      refine ⟨fun received _ => ?_, fun failure _ => drops _ _ looked⟩
      refine takesNone_bind (injectAll_takesNone _ _) looked (fun past failure before => drops past _ before) ?_
      intro past _ before
      refine takesNone_bind (collectLocked_takesNone _) before (fun past failure before => drops past _ before) ?_
      intro past next before
      cases next with
      | some batch =>
          by_cases signing : protocol = .dsg
          · subst signing
            refine ⟨settles_of_nothing before _, fun _ => drops (⟨.resetConsumed sessionId, ()⟩ :: past) _ ?_⟩
            exact extended trivial before
          · simp only [signing, if_false]
            exact drops _ _ before
      | none =>
          refine ⟨settles_of_nothing before _, fun removed => ?_⟩
          cases removed with
          | none =>
              refine drops _ _ fun entry member => ?_
              rcases List.mem_cons.mp member with rfl | earlier
              · rintro otherId session ⟨⟩
              · exact before entry earlier
          | some last =>
              have taken : TakenOnly protocol last (⟨.remove .secp256k1 protocol sessionId, some last⟩ :: past) := by
                constructor
                rintro other ⟨otherId, member⟩
                rcases List.mem_cons.mp member with same | earlier
                · cases same
                  rfl
                · exact absurd rfl (before _ earlier otherId other)
              refine ⟨taken.settles fun _ _ => trivial, fun _ => ?_⟩
              have closedInput : TakenOnly protocol last (⟨.dropSender protocol (dklsTask lib protocol last), ()⟩ :: _) :=
                taken.cons (by rintro _ _ ⟨⟩)
              refine ⟨closedInput.settles fun _ _ => trivial, fun _ => ?_⟩
              have closedBoth : TakenOnly protocol last (⟨.dropReceiver protocol (dklsTask lib protocol last), ()⟩ :: _) :=
                closedInput.cons (by rintro _ _ ⟨⟩)
              refine joined_settles sec1 closedBoth _ fun past outcome delivers still => ?_
              exact ⟨still.settles fun _ _ => trivial, fun _ => delivers.cons (by rintro _ _ ⟨⟩)⟩

theorem body_settles (sec1 : UncompressedSec1 lib.dkls) {call : Call} (later : call.round ≠ some 1)
    (names : call.scope = some (protocol, sessionId)) :
    (call.body lib).Follows (SettlesTaken protocol) (DeliversTaken protocol) [] := by
  have looked {toEd25519 : Bool} {base : Past lib} (routed : Call.Routed lib call toEd25519 base) :
      ∀ entry ∈ base, TakesNothing protocol entry := by
    intro entry member
    obtain ⟨other, otherId, looks⟩ := routed.looks entry member
    exact takesNothing_of_none (by rw [looks]; trivial)
  refine Call.body_follows names (fun _ _ => settles_of_nothing (by simp) _) (fun base routed => ?_) fun base routed => ?_
  · -- the FROST engine keeps to its own tables
    have nothing (extra : Past lib) (within : ∀ entry ∈ extra, entry.1.Within .ed25519 protocol sessionId) :
        ∀ entry ∈ extra ++ base, TakesNothing protocol entry := by
      intro entry member
      rcases List.mem_append.mp member with own | before
      · rintro otherId session rfl
        cases (within _ own).1
      · exact looked routed entry before
    apply (Call.direct_within names).follows_within
    · exact fun extra action within _ => settles_of_nothing (nothing extra within) action
    · exact fun extra outcome within => delivers_of_nothing (nothing extra within) outcome
  · have nothing := looked routed
    cases call with
    | keygen entry sessionId round serverPayload =>
        cases names
        have later : round ≠ 1 := fun first => later (congrArg some first)
        rw [Call.dkls, if_neg later, follows_map]
        split
        · exact collectKeyshare_settles sec1 nothing
        · exact advance_settles sec1 nothing
    | recover entry sessionId round serverPayload backupShare rotationVersion =>
        cases names
        have later : round ≠ 1 := fun first => later (congrArg some first)
        rw [Call.dkls, if_neg later, follows_map]
        split
        · exact collectKeyshare_settles sec1 nothing
        · exact advance_settles sec1 nothing
    | sign entry sessionId round serverPayload share messageHex =>
        cases names
        have later : round ≠ 1 := fun first => later (congrArg some first)
        rw [Call.dkls, if_neg later, follows_map]
        exact advance_settles sec1 nothing
    | exportPrivateKey entry localShare serverShare => cases names

end Calls

/-! ## Runs -/

/-- The session is in its table and its task has ended with the output. -/
structure Finished (world : EngineWorld lib) (protocol : ProtocolType) (sessionId : String)
    (session : Session lib .secp256k1 protocol) (output : Dkls.Output protocol) : Prop where
  live : world.shared.sessions .secp256k1 protocol sessionId = some session
  ended : ∃ task, dklsTaskHandle lib protocol session = some task ∧
    Engine.EndedAs protocol task (.ok (.ok output)) world.shared

/-- No new first round puts a session in the place of this one, and no advance call finds it expired. -/
def Others (protocol : ProtocolType) (sessionId : String) (world : EngineWorld lib) : Move Call Drift → Prop
  | .run thread =>
      (∀ session, world.nextAction thread ≠ some (.insert .secp256k1 protocol sessionId session)) ∧
        (world.nextAction thread = some (.checkout .secp256k1 protocol sessionId) →
          ∀ session, world.shared.sessions .secp256k1 protocol sessionId = some session →
            expired lib world.shared.clock .secp256k1 protocol session = false)
  | .start _ | .drift _ => True

/-- Left alone the thread returns the keyshare. -/
def ReturnsAlone (world : EngineWorld lib) (thread : Nat) (call : Call) (protocol : ProtocolType)
    (output : Dkls.Output protocol) : Prop :=
  ∃ count outcome, ((machine lib).run (List.replicate count (.run thread)) world).Returned thread call outcome ∧
    Delivers lib protocol output outcome

/-- A call has taken the session, and returns the keyshare when it returns. -/
structure TakenBy (world : EngineWorld lib) (thread : Nat) (protocol : ProtocolType) (sessionId : String)
    (session : Session lib .secp256k1 protocol) (output : Dkls.Output protocol) : Prop where
  removed : Performed world.trace thread (.remove .secp256k1 protocol sessionId) (some session)
  delivers : ∀ call outcome, world.Returned thread call outcome → Delivers lib protocol output outcome
  returns : ∀ call, world.Called thread call → ReturnsAlone world thread call protocol output

/-- A finished keyshare stays in the table until a call takes it and returns it, and as long as it
is there a round 0 returns it. -/
def KeyshareKept (lib : Libraries) (Clear : EngineWorld lib → ProtocolType → String → Prop) : Prop :=
  ∀ (start world : EngineWorld lib) (protocol : ProtocolType) (sessionId : String)
    (session : Session lib .secp256k1 protocol) (output : Dkls.Output protocol), IsKeyshare lib protocol output →
    (machine lib).Reaches Machine.Any (.initial .empty) start → Finished start protocol sessionId session output →
    (machine lib).Reaches (Others protocol sessionId) start world →
    (Finished world protocol sessionId session output ∧
      (Clear world protocol sessionId → world.shared.locks protocol = none →
        ∀ call : Call, call.scope = some (protocol, sessionId) → call.round = some 0 → call.entry = .mpcEngine →
          ReturnsAlone ((machine lib).step world (.start call)) world.threads.length call protocol output)) ∨
      ∃ thread, TakenBy world thread protocol sessionId session output

section Runs

variable {Allowed : EngineWorld lib → Move Call Drift → Prop} {world : EngineWorld lib} {protocol : ProtocolType}
  {sessionId : String} {session : Session lib .secp256k1 protocol} {output : Dkls.Output protocol}

/-- The result of a task stays. -/
theorem endedAs_stays {start : EngineWorld lib} {task : Nat} {result : Except String (Except String (Dkls.Output protocol))}
    (begun : (machine lib).Reaches Machine.Any (.initial .empty) start)
    (ended : Engine.EndedAs protocol task result start.shared) (reached : (machine lib).Reaches Allowed start world) :
    Engine.EndedAs protocol task result world.shared := by
  refine reached.invariant (fun world => Engine.EndedAs protocol task result world.shared) ended ?_ ?_ ?_ ?_
  · exact fun _ _ _ kept _ => kept
  · intro world thread call action next state answer onward kept _ _ moved
    refine kept.reply ?_ moved
    have whole := begun.trans (onward.mono fun _ _ _ => trivial)
    by_contra beyond
    obtain ⟨relay, live, _⟩ := kept
    rw [unspawned whole protocol task (Nat.le_of_not_lt beyond)] at live
    cases live
  · exact fun _ _ _ _ _ _ _ kept _ _ moved => kept.pending moved
  · exact fun _ change _ kept _ => kept.drift change

/-- A call that joins the task gets its result. -/
theorem joined_result {task thread : Nat} {result : Except String (Except String (Dkls.Output protocol))}
    {answer : Except String (Except String (Dkls.Output protocol))}
    (ended : Engine.EndedAs protocol task result world.shared)
    (reached : (machine lib).Reaches Machine.Any (.initial .empty) world)
    (joined : Performed world.trace thread (.join protocol task) answer) : answer = result := by
  obtain ⟨later, earlier, split⟩ := List.append_of_mem joined
  obtain ⟨before, call, next, after, begun, _, _, _, moved, onward⟩ := reached.event_moved split
  have moved : before.shared.interpret thread (.join protocol task) = .reply after answer := moved
  exact (endedAs_stays begun (Engine.EndedAs.of_join moved) onward).unique ended

/-- The call that takes a DKLs23 session is a later round on its id. -/
theorem later_of_removal (reached : (machine lib).Reaches Allowed (.initial .empty) world) {thread : Nat}
    {found : Option (Session lib .secp256k1 protocol)}
    (removed : Performed world.trace thread (.remove .secp256k1 protocol sessionId) found) :
    ∃ call program, world.threads[thread]? = some (call, program) ∧ call.round ≠ some 1 ∧
      call.scope = some (protocol, sessionId) := by
  obtain ⟨call, program, before, called, permits, _⟩ := reached.performed_permitted Call.body_steps removed
  obtain ⟨base, _, step⟩ := permits.on_secp256k1 rfl
  refine ⟨call, program, called, ?_⟩
  cases step with
  | first names first step =>
      cases step with
      | read only same reading => exact reading.elim
      | opens only parsed step => cases step
  | advance names later step =>
      cases step
      exact ⟨later, names⟩
  | keyshare names last other step =>
      cases step
      refine ⟨?_, names⟩
      rw [last]
      decide

/-- Left alone the call that has taken the session returns the keyshare. -/
theorem takenBy_of_removal (sec1 : UncompressedSec1 lib.dkls) (keyshare : IsKeyshare lib protocol output) {task thread : Nat}
    (handle : dklsTaskHandle lib protocol session = some task)
    (ended : Engine.EndedAs protocol task (.ok (.ok output)) world.shared)
    (reached : (machine lib).Reaches Machine.Any (.initial .empty) world)
    (removed : Performed world.trace thread (.remove .secp256k1 protocol sessionId) (some session)) :
    TakenBy world thread protocol sessionId session output := by
  obtain ⟨call, program, called, later, names⟩ := later_of_removal reached removed
  have follows : program.Follows (SettlesTaken protocol) (DeliversTaken protocol) (past thread world.trace) :=
    (body_settles sec1 later names).along (reached.replays thread call program called)
  have took : Took protocol session (past thread world.trace) := ⟨sessionId, mem_past.mpr removed⟩
  have answers : ∀ answer, ⟨.join protocol task, answer⟩ ∈ past thread world.trace → answer = .ok (.ok output) :=
    fun answer member => joined_result ended reached (mem_past.mp member)
  refine ⟨removed, ?_, ?_⟩
  · intro other outcome returned
    rw [World.Returned, called] at returned
    cases returned
    exact follows session task output took handle answers keyshare
  · intro other otherCalled
    obtain rfl := World.called_unique ⟨program, called⟩ otherCalled
    have served (engine : Engine lib) (before : Past lib) (action : Action lib)
        (ready : Engine.EndedAs protocol task (.ok (.ok output)) engine ∧ Took protocol session before ∧
          ∀ answer, ⟨.join protocol task, answer⟩ ∈ before → answer = .ok (.ok output))
        (settles : SettlesTaken protocol before action) :
        ∃ after answer, (machine lib).interpret thread action engine = .reply after answer ∧
          Engine.EndedAs protocol task (.ok (.ok output)) after ∧ Took protocol session (⟨action, answer⟩ :: before) ∧
          ∀ joined, ⟨.join protocol task, joined⟩ ∈ (⟨action, answer⟩ :: before : Past lib) →
            joined = .ok (.ok output) := by
      obtain ⟨ended, ⟨takenId, member⟩, known⟩ := ready
      have stays (entry : Entry (Action lib) (Action.Answer lib)) : Took protocol session (entry :: before) :=
        ⟨takenId, List.mem_cons_of_mem _ member⟩
      have settling := settles session task ⟨takenId, member⟩ handle
      cases action with
      | dropSender other named =>
          refine ⟨_, (), rfl, ended.mapTask fun _ _ known => known, stays _, fun joined there => ?_⟩
          rcases List.mem_cons.mp there with same | before
          · cases same
          · exact known joined before
      | dropReceiver other named =>
          refine ⟨_, (), rfl, ended.mapTask fun _ _ known => known, stays _, fun joined there => ?_⟩
          rcases List.mem_cons.mp there with same | before
          · cases same
          · exact known joined before
      | join other named =>
          obtain ⟨rfl, rfl⟩ := settling
          have joins : engine.interpret thread (.join other named) = .reply engine (.ok (.ok output)) := ended.join
          refine ⟨engine, _, joins, ended, stays _, fun joined there => ?_⟩
          rcases List.mem_cons.mp there with same | before
          · cases same
            rfl
          · exact known joined before
      | _ => exact settling.elim
    obtain ⟨count, engine, last, outcome, returned, ready, delivers⟩ :=
      Machine.returns_alone served called ⟨ended, took, answers⟩ follows
    exact ⟨count, outcome, returned, delivers session task output ready.2.1 handle ready.2.2 keyshare⟩

/-- Other calls leave the session in the table, or take it. -/
theorem live_or_taken {start : EngineWorld lib} (signs : protocol ≠ .dsg)
    (begun : (machine lib).Reaches Machine.Any (.initial .empty) start)
    (live : start.shared.sessions .secp256k1 protocol sessionId = some session)
    (reached : (machine lib).Reaches (Others protocol sessionId) start world) :
    world.shared.sessions .secp256k1 protocol sessionId = some session ∨
      ∃ thread, Performed world.trace thread (.remove .secp256k1 protocol sessionId) (some session) := by
  refine reached.invariant (fun world => world.shared.sessions .secp256k1 protocol sessionId = some session ∨
    ∃ thread, Performed world.trace thread (.remove .secp256k1 protocol sessionId) (some session)) (.inl live) ?_ ?_ ?_ ?_
  · exact fun _ _ _ kept _ => kept
  · intro world thread call action next state answer onward kept allowed found moved
    have moved : world.shared.interpret thread action = .reply state answer := moved
    obtain live | ⟨taker, removed⟩ := kept
    swap
    · exact .inr ⟨taker, removed.cons _⟩
    have here : world.nextAction thread = some action := by
      simp only [World.nextAction, found]
    rcases slot_after_reply (begun.trans (onward.mono fun _ _ _ => trivial)) moved sessionId with
      ⟨_, same⟩ | ⟨event, effect, same⟩
    · exact .inl (same.trans live)
    · by_cases own : event.key = sessionId
      · subst own
        cases event with
        | put key put =>
            have inserts := insert_of_tableEvent effect
            cases inserts
            exact absurd here (allowed.1 put)
        | take key found =>
            have removes := remove_of_tableEvent effect
            cases removes
            obtain rfl := (Engine.remove_answer moved).symm.trans live
            exact .inr ⟨thread, List.mem_cons_self⟩
        | evict key =>
            have evicts := evict_of_tableEvent effect
            cases evicts
            obtain ⟨old, held, late⟩ := Engine.checkout_expired moved
            rw [allowed.2 here old held] at late
            cases late
        | amend key change =>
            rcases amend_of_tableEvent effect with ⟨_, rfl⟩ | ⟨rfl, _⟩
            · have unmarked : markConsumed lib true .secp256k1 protocol session = session := by
                cases protocol with
                | dsg => exact absurd rfl signs
                | dkg | rotation => rfl
              refine .inl (same.trans ?_)
              simp only [Custody.Event.effect, Custody.Event.key] at live ⊢
              simp [live, unmarked]
            · exact absurd rfl signs
      · exact .inl (same.trans ((event.effect_of_ne fun here => own here.symm).trans live))
  · intro world thread call action next state _ kept _ _ moved
    obtain ⟨tasks, rfl⟩ := Engine.interpret_pending moved
    exact kept
  · intro world change _ kept _
    have same := congrFun (congrFun (congrFun (Engine.drift_sessions change world.shared) .secp256k1) protocol) sessionId
    exact kept.imp_left same.trans

private theorem round0_removes {call : Call} (signs : protocol ≠ .dsg) (names : call.scope = some (protocol, sessionId))
    (last : call.round = some 0) :
    ∃ next, call.dkls lib = .perform (.remove .secp256k1 protocol sessionId) next := by
  cases call with
  | keygen entry sessionId round serverPayload =>
      cases names
      cases last
      simp only [Call.dkls, if_pos, MpcEngine.collectKeyshare, map_eq, bind_eq, request_bind, perform_bind]
      exact ⟨_, rfl⟩
  | recover entry sessionId round serverPayload backupShare rotationVersion =>
      cases names
      cases last
      simp only [Call.dkls, if_pos, MpcEngine.collectKeyshare, map_eq, bind_eq, request_bind, perform_bind]
      exact ⟨_, rfl⟩
  | sign entry sessionId round serverPayload share messageHex =>
      cases names
      exact absurd rfl signs
  | exportPrivateKey entry localShare serverShare => cases names

/-- Where no FROST session is live a round 0 takes the session and returns the keyshare. -/
theorem round0_returns (sec1 : UncompressedSec1 lib.dkls) (signs : protocol ≠ .dsg) (keyshare : IsKeyshare lib protocol output)
    (reached : (machine lib).Reaches Machine.Any (.initial .empty) world)
    (finished : Finished world protocol sessionId session output)
    (clear : world.shared.sessions .ed25519 protocol sessionId = none) (free : world.shared.locks protocol = none)
    {call : Call} (names : call.scope = some (protocol, sessionId)) (last : call.round = some 0)
    (unified : call.entry = .mpcEngine) :
    ReturnsAlone ((machine lib).step world (.start call)) world.threads.length call protocol output := by
  obtain ⟨live, task, handle, ended⟩ := finished
  obtain ⟨next, removes⟩ := @round0_removes lib _ _ _ signs names last
  have later : call.round ≠ some 1 := by
    rw [last]
    decide
  -- the lookup finds no FROST session
  have started : ((machine lib).step world (.start call)).threads[world.threads.length]? =
      some (call, .perform (.contains .ed25519 protocol sessionId) fun toEd25519 =>
        if toEd25519 = true then call.direct.body lib else call.dkls lib) := by
    have body : (machine lib).body call = _ := Call.unified_later unified later names
    rw [Machine.step, body]
    exact List.getElem?_concat_length
  have looks : (machine lib).interpret world.threads.length (.contains .ed25519 protocol sessionId)
      ((machine lib).step world (.start call)).shared = .reply world.shared false := by
    have absent : (world.shared.sessions .ed25519 protocol sessionId).isSome = false := by
      rw [clear, Option.isSome_none]
    rw [← absent]
    rfl
  have looked := Machine.step_reply started looks
  -- the removal finds the session
  have routed : ((machine lib).step ((machine lib).step world (.start call)) (.run world.threads.length)).threads[
      world.threads.length]? = some (call, .perform (.remove .secp256k1 protocol sessionId) next) := by
    rw [looked, ← removes]
    exact List.getElem?_set_self (List.getElem?_eq_some_iff.mp started).1
  have takes : (machine lib).interpret world.threads.length (.remove .secp256k1 protocol sessionId)
      ((machine lib).step ((machine lib).step world (.start call)) (.run world.threads.length)).shared =
        .reply (world.shared.setSession .secp256k1 protocol sessionId none) (some session) := by
    have unlocked : world.shared.locked .secp256k1 protocol = false := by
      simp only [Engine.locked, free, Option.isSome_none]
    have takes : world.shared.interpret world.threads.length (.remove .secp256k1 protocol sessionId) =
        .reply (world.shared.setSession .secp256k1 protocol sessionId none) (some session) := by
      simp only [Engine.interpret, unlocked, Bool.false_eq_true, if_false, live]
    rw [looked]
    exact takes
  have taken := Machine.step_reply routed takes
  have onward : (machine lib).Reaches Machine.Any world ((machine lib).run
      [.start call, .run world.threads.length, .run world.threads.length] world) := Machine.reaches_run _ _
  have removed : Performed ((machine lib).run [.start call, .run world.threads.length, .run world.threads.length] world).trace
      world.threads.length (.remove .secp256k1 protocol sessionId) (some session) := by
    simp only [Machine.run, List.foldl_cons, List.foldl_nil, taken]
    exact List.mem_cons_self
  have called : ((machine lib).run [.start call, .run world.threads.length, .run world.threads.length] world).Called
      world.threads.length call := by
    refine ⟨next (some session), ?_⟩
    simp only [Machine.run, List.foldl_cons, List.foldl_nil, taken]
    exact List.getElem?_set_self (List.getElem?_eq_some_iff.mp routed).1
  have takenBy := takenBy_of_removal sec1 keyshare handle (endedAs_stays reached ended onward) (reached.trans onward) removed
  obtain ⟨count, outcome, returned, delivers⟩ := takenBy.returns call called
  exact ⟨count + 2, outcome, returned, delivers⟩

end Runs

/-! ## An id with a FROST session -/

private def keptId : String :=
  "00112233445566778899aabbccddeeff00112233445566778899aabbccddeeff"

private def openFrost : Call :=
  .keygen .mpcEngine keptId 1
    "\x7b\"session_id\":\"s\",\"protocol\":\"dkg\",\"round\":1,\"from_id\":1,\"payload_encoding\":\"\",\"payload\":\"\",\"curve\":\"ed25519\"\x7d"

/-- The server's first two messages come at once, so that the task ends in round 1. -/
private def openDkls : Call :=
  .keygen .mpcEngine keptId 1
    "\x7b\"session_id\":\"s\",\"protocol\":\"dkg\",\"round\":1,\"from_id\":1,\"payload_encoding\":\"\",\"payload\":\"\",\"payloads\":[\"AQ==\",\"Ag==\"]\x7d"

private def lastRound : Call :=
  .keygen .mpcEngine keptId 0 ""

/-- Round 1 as one thread, and its task to the end. -/
private def finishing (thread : Nat) : List (Move Call Drift) :=
  .start openDkls :: List.replicate 4 (.run thread) ++ List.replicate 5 (.drift (.poll .dkg 0)) ++
    List.replicate 8 (.run thread)

private def alone : EngineWorld Toy.libraries :=
  (machine Toy.libraries).run (finishing 0) (.initial .empty)

private def crossed : EngineWorld Toy.libraries :=
  (machine Toy.libraries).run (.start openFrost :: List.replicate 3 (.run 0) ++ finishing 1) (.initial .empty)

private def drawn (draw : Nat) : Toy.Keyshare :=
  { party := 0, rotation := 0, key := Toy.scalarBytes draw }

private def keyshareOf (draw : Nat) : Bytes :=
  (drawn draw).toBytes

private def keyshareBytes (relay : EngineRelay Toy.libraries .dkg) : Option Bytes :=
  match relay.task with
  | .ended (.ok (.ok ksBytes)) => some ksBytes
  | _ => none

private def removes (action : Action Toy.libraries) : Bool :=
  match action with
  | .remove .. => true
  | _ => false

private theorem finished_of_bytes {world : EngineWorld Toy.libraries} {ksBytes : Bytes}
    (live : (world.shared.sessions .secp256k1 .dkg keptId).map (fun session => session.taskHandle) = some (some 0))
    (ended : (world.shared.tasks .dkg 0).bind keyshareBytes = some ksBytes) :
    ∃ session, Finished world .dkg keptId session ksBytes := by
  obtain ⟨session, live, handle⟩ := Option.map_eq_some_iff.mp live
  obtain ⟨relay, there, result⟩ := Option.bind_eq_some_iff.mp ended
  refine ⟨session, live, 0, handle, relay, there, ?_⟩
  unfold keyshareBytes at result
  split at result
  · next bytes known =>
    cases result
    exact known
  · cases result

private theorem not_taken {world : EngineWorld Toy.libraries} {session : KeygenSession} {ksBytes : Bytes}
    (none : (world.trace.any fun event => removes event.2.1) = false) :
    ¬∃ thread, TakenBy world thread .dkg keptId session ksBytes := by
  rintro ⟨thread, removed, _, _⟩
  have some : (world.trace.any fun event => removes event.2.1) = true := List.any_eq_true.mpr ⟨_, removed, rfl⟩
  rw [none] at some
  cases some

private theorem isKeyshare_of_draw (draw : Nat) : IsKeyshare Toy.libraries .dkg (keyshareOf draw) :=
  ⟨drawn draw, Toy.fromBytes_toBytes (drawn draw) (EngineEd25519.leBytes_length 32 draw)⟩

theorem uncompressedSec1_toy : UncompressedSec1 Toy.dkls := by
  intro ksBytes keyshare read
  have length : keyshare.key.length = 32 := by
    have read : Toy.Keyshare.fromBytes ksBytes = some keyshare := read
    unfold Toy.Keyshare.fromBytes at read
    split at read
    · split at read
      · next shape =>
        cases read
        exact shape.2
      · cases read
    · cases read
  have encoded : Toy.dkls.encodePoint false (Toy.dkls.publicKey keyshare) = 0x04 :: (keyshare.key ++ keyshare.key) := rfl
  refine ⟨keyshare.key ++ keyshare.key, encoded, ?_⟩
  rw [List.length_append, length]

private def failure (world : EngineWorld Toy.libraries) (thread : Nat) : Option String :=
  match world.threads[thread]? with
  | some (_, .done (.error message)) => some message
  | _ => none

end Lifecycle

end CeresMpc
