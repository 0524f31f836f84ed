import CeresMpc.Delivery.Ledger
import CeresMpc.Lifecycle.Completion
import CeresMpc.Signing.Nonces

/-!
# First rounds that fail

A first round that fails has put nothing into a table, and the task it spawned has ended.
A FROST signing round is the exception: it stores its session before it has serialized its
commitments.
-/

set_option autoImplicit false

namespace CeresMpc

open Encoding Interleaving Program Api

namespace Lifecycle

variable {lib : Libraries}

/-! ## What a failing first round has done -/

variable (lib) in
/-- The call has drawn commitments of its own that do not serialize. -/
structure Unwritable (call : Call) (past : Past lib) : Prop where
  drawn : ∃ entry sessionId serverPayload share messageHex keyPackage publicKeyPackage draw failure,
    call = .sign entry sessionId 1 serverPayload (some share) messageHex ∧
      EngineEd25519.extractShareMaterial lib share = .ok (keyPackage, publicKeyPackage) ∧
      ⟨.random, draw⟩ ∈ past ∧
      lib.frost.serializeCommitments (lib.frost.commit keyPackage draw).2 = .error failure

variable (lib) in
inductive FailedStart (call : Call) : Past lib → Prop where
  | stopped {past} : (∀ entry ∈ past, entry.1.Reads) → ¬Unwritable lib call past → FailedStart call past
  | abandoned {protocol messages protocolRun reads past} : (∀ entry ∈ reads, entry.1.Reads) →
      MpcEngine.OpenFailed lib protocol messages protocolRun reads past → ¬Unwritable lib call past →
      FailedStart call past
  | unwritten {sessionId session reads} : (∀ entry ∈ reads, entry.1.Reads) →
      Unwritable lib call (⟨.insert .ed25519 .dsg sessionId session, ()⟩ :: reads) →
      FailedStart call (⟨.insert .ed25519 .dsg sessionId session, ()⟩ :: reads)

/-- A first round of keygen or recovery stores its session last. -/
theorem keygenRound1_reads (sessionId serverPayload : String) :
    (EngineEd25519.keygenRound1 lib sessionId serverPayload).Follows (fun _ _ => True)
      (fun past outcome => ∀ failure, outcome = .error failure → ∀ entry ∈ past, entry.1.Reads) [] := by
  simp only [EngineEd25519.keygenRound1, bind_eq, liftM_eq, request_bind, follows_lift_bind]
  refine ⟨fun env _ => ⟨trivial, fun draw => ?_⟩, fun _ _ _ _ => by simp⟩
  simp only [follows_lift_bind]
  refine ⟨fun made _ => ⟨trivial, fun createdAt => ⟨trivial, fun _ => ?_⟩⟩, fun _ _ _ _ => by simp [Action.Reads]⟩
  rintro failure ⟨⟩

theorem recoverRound1_reads (sessionId serverPayload : String) (backupShare : Option String)
    (rotationVersion : Option Int32) :
    (EngineEd25519.recoverRound1 lib sessionId serverPayload backupShare rotationVersion).Follows (fun _ _ => True)
      (fun past outcome => ∀ failure, outcome = .error failure → ∀ entry ∈ past, entry.1.Reads) [] := by
  simp only [EngineEd25519.recoverRound1, bind_eq, liftM_eq, request_bind, follows_lift_bind]
  refine ⟨fun env _ => ⟨fun bs _ => ⟨fun rv _ => ⟨fun packages _ => ⟨trivial, fun draw => ?_⟩, ?_⟩, ?_⟩, ?_⟩, ?_⟩
  · simp only [follows_lift_bind]
    refine ⟨fun made _ => ⟨trivial, fun createdAt => ⟨trivial, fun _ => ?_⟩⟩, fun _ _ _ _ => by simp [Action.Reads]⟩
    rintro failure ⟨⟩
  all_goals exact fun _ _ _ _ => by simp

/-- A first signing round that fails has read, or stored a session with commitments that do not serialize. -/
theorem signRound1_failed {entry : EntryPoint} {sessionId serverPayload : String} {share messageHex : Option String} :
    (EngineEd25519.signRound1 lib sessionId serverPayload share messageHex).Follows (fun _ _ => True)
      (fun past outcome => ∀ failure, outcome = .error failure →
        FailedStart lib (.sign entry sessionId 1 serverPayload share messageHex) past) [] := by
  have stopped (past : Past lib) (only : ∀ entry ∈ past, entry.1.Reads) (undrawn : ∀ draw, ⟨.random, draw⟩ ∉ past) :
      FailedStart lib (.sign entry sessionId 1 serverPayload share messageHex) past := by
    refine .stopped only ?_
    rintro ⟨_, _, _, _, _, _, _, draw, _, _, _, drawn, _⟩
    exact undrawn draw drawn
  simp only [EngineEd25519.signRound1, bind_eq, liftM_eq, request_bind, follows_lift_bind, okOr_eq_ok]
  refine ⟨fun env _ => ?_, fun _ _ _ _ => stopped [] (by simp) (by simp)⟩
  refine ⟨fun r1 _ => ?_, fun _ _ _ _ => stopped [] (by simp) (by simp)⟩
  refine ⟨fun serverCommitments _ => ?_, fun _ _ _ _ => stopped [] (by simp) (by simp)⟩
  refine ⟨?_, fun _ _ _ _ => stopped [] (by simp) (by simp)⟩
  rintro shareStr rfl
  refine ⟨fun msgHex _ => ?_, fun _ _ _ _ => stopped [] (by simp) (by simp)⟩
  refine ⟨fun message _ => ?_, fun _ _ _ _ => stopped [] (by simp) (by simp)⟩
  refine ⟨fun packages material => ?_, fun _ _ _ _ => stopped [] (by simp) (by simp)⟩
  obtain ⟨keyPackage, publicKeyPackage⟩ := packages
  refine ⟨fun vkBytes _ => ?_, fun _ _ _ _ => stopped [] (by simp) (by simp)⟩
  refine ⟨trivial, fun exported => ?_⟩
  rw [follows_ensure_bind]
  refine ⟨fun _ => ⟨trivial, fun draw => ⟨trivial, fun createdAt => ⟨trivial, fun _ => ?_⟩⟩⟩, fun _ _ _ => ?_⟩
  · simp only [follows_lift_bind]
    refine ⟨fun commitments _ => by rintro failure ⟨⟩, fun failure unserialized _ _ => ?_⟩
    refine .unwritten (by simp [Action.Reads]) ⟨entry, sessionId, serverPayload, shareStr, messageHex, keyPackage,
      publicKeyPackage, draw, ?_⟩
    cases serialized : lib.frost.serializeCommitments (lib.frost.commit keyPackage draw).2 with
    | error message => exact ⟨message, rfl, material, by simp, rfl⟩
    | ok bytes =>
        simp only [EngineEd25519.serPkg, serialized] at unserialized
        cases unserialized
  · exact stopped _ (by simp [Action.Reads]) (by simp)

private theorem writable_of_not_sign {call : Call} {past : Past lib}
    (other : ∀ entry sessionId serverPayload share messageHex,
      call ≠ .sign entry sessionId 1 serverPayload share messageHex) : ¬Unwritable lib call past := by
  rintro ⟨entry, sessionId, serverPayload, share, messageHex, _, _, _, _, same, _⟩
  exact other _ _ _ _ _ same

private theorem writable_of_dkls {call : Call} {past : Past lib} {base : Past lib} (first : call.round = some 1)
    (routed : Call.Routed lib call false base) : ¬Unwritable lib call past := by
  rintro ⟨entry, sessionId, serverPayload, share, messageHex, keyPackage, publicKeyPackage, draw, failure, rfl,
    material, _⟩
  obtain ⟨⟨curve, bytes⟩, decoded, rest⟩ := bind_eq_ok.mp material
  cases curve with
  | secp256k1 => cases rest
  | ed25519 =>
      have dispatched : (Call.sign entry sessionId 1 serverPayload (some share) messageHex).detected lib = true :=
        isEd25519Share_iff.mpr ⟨bytes, decoded⟩
      generalize chosen : false = toEd25519 at routed
      cases routed with
      | direct => cases chosen
      | detected =>
          rw [dispatched] at chosen
          cases chosen
      | looked _ later => exact later first

private theorem routed_first {call : Call} {toEd25519 : Bool} {base : Past lib} (first : call.round = some 1)
    (routed : Call.Routed lib call toEd25519 base) : base = [] := by
  cases routed with
  | direct => rfl
  | detected => rfl
  | looked _ later => exact absurd first later

private theorem first_failed_dkls {call : Call} {protocol : ProtocolType} {past : Past lib}
    (writable : ¬Unwritable lib call past) (failed : MpcEngine.FirstFailed lib protocol call.payload [] past) :
    FailedStart lib call past := by
  cases failed with
  | stopped only => exact .stopped (by simpa using only) writable
  | @opens reads env messages protocolRun past only parsed failed =>
      rw [List.append_nil] at failed
      exact .abandoned only failed writable

private theorem fails_mapped {program : EngineM lib MpcRoundResult} {Failed : Past lib → Prop}
    (fails : program.Follows (fun _ _ => True) (fun past outcome => ∀ failure, outcome = .error failure → Failed past) []) :
    (Reply.round <$> program).Follows (fun _ _ => True)
      (fun past outcome => ∀ failure, outcome = .error failure → Failed past) [] := by
  refine (follows_map _ _).mpr (fails.mono (fun _ _ _ => trivial) ?_)
  intro past outcome fails failure failed
  cases outcome with
  | ok result => cases failed
  | error failure => exact fails failure rfl

/-- What a first round has done when it fails. -/
theorem first_failed (call : Call) (first : call.round = some 1) :
    (call.body lib).Follows (fun _ _ => True)
      (fun past outcome => ∀ failure, outcome = .error failure → FailedStart lib call past) [] := by
  cases names : call.scope with
  | none =>
      cases call with
      | exportPrivateKey => cases first
      | _ => cases names
  | some target =>
      obtain ⟨protocol, sessionId⟩ := target
      refine Call.body_follows names (fun _ _ => trivial) (fun base routed => ?_) fun base routed => ?_
      · obtain rfl := routed_first first routed
        cases call with
        | keygen entry sessionId round serverPayload =>
            cases first
            refine fails_mapped ((keygenRound1_reads sessionId serverPayload).mono (fun _ _ _ => trivial) ?_)
            intro past outcome reads failure failed
            exact .stopped (reads failure failed) (writable_of_not_sign (by simp))
        | recover entry sessionId round serverPayload backupShare rotationVersion =>
            cases first
            refine fails_mapped ((recoverRound1_reads sessionId serverPayload backupShare rotationVersion).mono
              (fun _ _ _ => trivial) ?_)
            intro past outcome reads failure failed
            exact .stopped (reads failure failed) (writable_of_not_sign (by simp))
        | sign entry sessionId round serverPayload share messageHex =>
            cases first
            exact fails_mapped signRound1_failed
        | exportPrivateKey => cases names
      · have writable (past : Past lib) : ¬Unwritable lib call past := writable_of_dkls first routed
        obtain rfl := routed_first first routed
        cases call with
        | keygen entry sessionId round serverPayload =>
            cases first
            refine fails_mapped (MpcEngine.keygenRound1_ends.mono (fun _ _ _ => trivial) ?_)
            intro past outcome ended failure failed
            exact first_failed_dkls (writable past) (ended.2 failure failed)
        | recover entry sessionId round serverPayload backupShare rotationVersion =>
            cases first
            refine fails_mapped (MpcEngine.recoverRound1_ends.mono (fun _ _ _ => trivial) ?_)
            intro past outcome ended failure failed
            exact first_failed_dkls (writable past) (ended.2 failure failed)
        | sign entry sessionId round serverPayload share messageHex =>
            cases first
            refine fails_mapped (MpcEngine.signRound1_ends.mono (fun _ _ _ => trivial) ?_)
            intro past outcome ended failure failed
            exact first_failed_dkls (writable past) (ended.2 failure failed)
        | exportPrivateKey => cases names

private theorem reads_tableless {reads : Past lib} (only : ∀ entry ∈ reads, entry.1.Reads) :
    ∀ entry ∈ reads, entry.1.Tableless := by
  rintro ⟨action, answer⟩ member
  have reading := only _ member
  cases action <;> trivial

private theorem fed_tableless {protocol : ProtocolType} (protocolRun : lib.dkls.Protocol protocol) {reads : Past lib}
    (only : ∀ entry ∈ reads, entry.1.Reads) (task : Nat) (messages : List Bytes) :
    ∀ entry ∈ MpcEngine.fed lib protocol protocolRun reads task messages, entry.1.Tableless := by
  intro entry member
  rw [MpcEngine.fed, MpcEngine.sent_eq] at member
  rcases List.mem_append.mp member with sent | earlier
  · obtain ⟨message, _, rfl⟩ := List.mem_map.mp sent
    trivial
  · rcases List.mem_cons.mp earlier with rfl | before
    · trivial
    · exact reads_tableless only entry before

private theorem abandoned_tableless {protocol : ProtocolType} {messages : List Bytes} {task : Nat} {past : Past lib}
    {protocolRun : lib.dkls.Protocol protocol} {reads : Past lib} (only : ∀ entry ∈ reads, entry.1.Reads)
    (abandoned : MpcEngine.Abandoned lib protocol messages protocolRun reads task past) :
    ∀ entry ∈ past, entry.1.Tableless := by
  have fed := fed_tableless protocolRun only task
  cases abandoned with
  | aborted split =>
      simp only [List.forall_mem_cons]
      exact ⟨trivial, trivial, fed _⟩
  | closed =>
      simp only [List.forall_mem_cons]
      exact ⟨trivial, fed _⟩
  | joined =>
      simp only [List.forall_mem_cons]
      exact ⟨trivial, trivial, fed _⟩

theorem FailedStart.tableless {call : Call} {past : Past lib} (failed : FailedStart lib call past)
    (writable : ¬Unwritable lib call past) : ∀ entry ∈ past, entry.1.Tableless := by
  cases failed with
  | stopped only => exact reads_tableless only
  | unwritten only unwritable => exact absurd unwritable writable
  | abandoned only failed =>
      cases failed with
      | abandoned abandoned =>
          simp only [List.forall_mem_cons]
          exact ⟨trivial, trivial, abandoned_tableless only abandoned⟩

/-- A task has refused a message or has been found closed. -/
def SeenClosed (protocol : ProtocolType) (task : Nat) (past : Past lib) : Prop :=
  (∃ message, ⟨.send protocol task message, false⟩ ∈ past) ∨ ⟨.collect protocol task task, none⟩ ∈ past

private theorem spawn_of_fed {protocol other : ProtocolType} {protocolRun : lib.dkls.Protocol protocol}
    {reads : Past lib} (only : ∀ entry ∈ reads, entry.1.Reads) {named task : Nat} {messages : List Bytes}
    {run : lib.dkls.Protocol other}
    (spawned : ⟨.spawn other run, task⟩ ∈ MpcEngine.fed lib protocol protocolRun reads named messages) :
    other = protocol ∧ task = named := by
  rw [MpcEngine.fed, MpcEngine.sent_eq] at spawned
  rcases List.mem_append.mp spawned with sent | earlier
  · obtain ⟨message, _, same⟩ := List.mem_map.mp sent
    cases same
  · rcases List.mem_cons.mp earlier with same | before
    · cases same
      exact ⟨rfl, rfl⟩
    · exact (only _ before).elim

/-- A first round that fails has seen the end of the task it spawned. -/
theorem FailedStart.seenClosed {call : Call} {past : Past lib} (failed : FailedStart lib call past)
    {protocol : ProtocolType} {run : lib.dkls.Protocol protocol} {task : Nat}
    (spawned : ⟨.spawn protocol run, task⟩ ∈ past) : SeenClosed protocol task past := by
  cases failed with
  | stopped only => exact (only _ spawned).elim
  | unwritten only _ =>
      rcases List.mem_cons.mp spawned with same | before
      · cases same
      · exact (only _ before).elim
  | @abandoned other messages protocolRun reads past only failed =>
      cases failed with
      | @abandoned named past abandoned =>
          have later : ⟨.spawn protocol run, task⟩ ∈ past := by simpa using spawned
          cases abandoned with
          | @aborted done message rest split =>
              have fed : ⟨.spawn protocol run, task⟩ ∈ MpcEngine.fed lib other protocolRun reads named done := by
                simpa using later
              obtain ⟨rfl, rfl⟩ := spawn_of_fed only fed
              exact .inl ⟨message, by simp⟩
          | closed =>
              have fed : ⟨.spawn protocol run, task⟩ ∈ MpcEngine.fed lib other protocolRun reads named messages := by
                simpa using later
              obtain ⟨rfl, rfl⟩ := spawn_of_fed only fed
              exact .inr (by simp)
          | joined =>
              have fed : ⟨.spawn protocol run, task⟩ ∈ MpcEngine.fed lib other protocolRun reads named messages := by
                simpa using later
              obtain ⟨rfl, rfl⟩ := spawn_of_fed only fed
              exact .inr (by simp)

/-! ## Runs -/

variable {world : EngineWorld lib} {thread : Nat} {call : Call} {failure : String}

/-- No step the call has taken changed a table, and every task it spawned has ended. -/
structure LeavesNothing (world : EngineWorld lib) (thread : Nat) : Prop where
  tables : ∀ before, (machine lib).Reaches Machine.Any (.initial .empty) before →
    (machine lib).Reaches Machine.Any ((machine lib).step before (.run thread)) world →
    ((machine lib).step before (.run thread)).shared.sessions = before.shared.sessions
  tasks : ∀ protocol run task, Performed world.trace thread (.spawn protocol run) task →
    ∃ relay result, world.shared.tasks protocol task = some relay ∧ relay.task = .ended result

private theorem failed_past (reached : (machine lib).Reaches Machine.Any (.initial .empty) world)
    (returned : world.Returned thread call (.error failure)) (first : call.round = some 1) :
    FailedStart lib call (past thread world.trace) := by
  have obeys (call : Call) : (call.body lib).Follows (fun _ _ => True)
      (fun past outcome => call.round = some 1 → ∀ failure, outcome = .error failure → FailedStart lib call past) [] := by
    by_cases first : call.round = some 1
    · exact (first_failed call first).mono (fun _ _ _ => trivial) fun _ _ failed _ => failed
    · exact (Call.body_steps call).mono (fun _ _ _ => trivial) fun _ _ _ round => absurd round first
  exact reached.follows obeys thread call _ returned first failure rfl

private theorem closed_ended {protocol : ProtocolType} {relay : EngineRelay lib protocol} (closed : relay.closed = true) :
    ∃ result, relay.task = .ended result := by
  cases ended : relay.task with
  | running protocolRun => simp [Relay.closed, ended] at closed
  | ended result => exact ⟨result, rfl⟩

private theorem unwritten_changes (reached : (machine lib).Reaches Machine.Any (.initial .empty) world)
    {sessionId : String} {session : FrostSignSession lib} {reads : Past lib} (only : ∀ entry ∈ reads, entry.1.Reads)
    (stored : past thread world.trace = ⟨.insert .ed25519 .dsg sessionId session, ()⟩ :: reads) :
    ¬LeavesNothing world thread := by
  intro leaves
  obtain ⟨later, earlier, split, -, own⟩ := @past_split _ _ thread world.trace [] _ _ stored
  obtain ⟨before, call, next, after, start, -, rfl, found, moved, onward⟩ := reached.event_stepped split
  have same := leaves.tables before start onward
  simp only [Machine.step, found, moved] at same
  have inserted : after.sessions .ed25519 .dsg sessionId = some session := by
    cases moved
    exact (congrFun (Engine.setSession_sessions_self _ .ed25519 .dsg sessionId (some session)) sessionId).trans
      (Function.update_self ..)
  rw [same] at inserted
  obtain ⟨inserter, twin, earlierInsert, alike⟩ := inserted_of_session start inserted
  obtain rfl : twin = session := alike
  have again : Performed world.trace inserter (.insert .ed25519 .dsg sessionId twin) () := by
    rw [split]
    exact List.mem_append_right _ (List.mem_cons_of_mem _ earlierInsert)
  have performed : Performed world.trace thread (.insert .ed25519 .dsg sessionId twin) () := by
    rw [split]
    exact List.mem_append_right _ List.mem_cons_self
  obtain rfl := Signing.inserter_unique reached performed again
  have reading : Action.Reads (.insert .ed25519 .dsg sessionId twin) := only _ (own ▸ mem_past.mpr earlierInsert)
  exact reading

theorem failed_start_leaves_nothing (reached : (machine lib).Reaches Machine.Any (.initial .empty) world)
    (returned : world.Returned thread call (.error failure)) (first : call.round = some 1) :
    LeavesNothing world thread ↔ ¬Unwritable lib call (past thread world.trace) := by
  have failed := failed_past reached returned first
  constructor
  · intro leaves unwritable
    generalize performed : past thread world.trace = sofar at failed unwritable
    cases failed with
    | stopped _ writable => exact writable unwritable
    | abandoned _ _ writable => exact writable unwritable
    | unwritten only _ => exact unwritten_changes reached only performed leaves
  · intro writable
    refine ⟨fun before _ onward => step_sessions onward ?_, ?_⟩
    · intro action answer engine after performed moved
      exact Engine.tableless_sessions moved (failed.tableless writable _ (mem_past.mpr performed))
    · intro protocol run task spawned
      have settled := settled reached protocol task
      obtain ⟨relay, there, closed⟩ : ∃ relay, world.shared.tasks protocol task = some relay ∧ relay.closed = true := by
        rcases failed.seenClosed (mem_past.mpr spawned) with ⟨message, refused⟩ | ended
        · exact settled.refused thread message (mem_past.mp refused)
        · obtain ⟨relay, there, closed, -⟩ := settled.emptied thread task (mem_past.mp ended)
          exact ⟨relay, there, closed⟩
      obtain ⟨result, ended⟩ := closed_ended closed
      exact ⟨relay, result, there, ended⟩

/-! ## Two failing runs -/

def failed (world : EngineWorld lib) (thread : Nat) : Option Call :=
  match world.threads[thread]? with
  | some (call, .done (.error _)) => some call
  | _ => none

theorem returned_of_failed (ended : failed world thread = some call) :
    ∃ failure, world.Returned thread call (.error failure) := by
  unfold failed at ended
  split at ended
  · next other failure found =>
    cases ended
    exact ⟨failure, found⟩
  · cases ended

/-- A keygen session is live when a second keygen under its id is refused. -/
theorem refused_start_leaves_nothing : LeavesNothing (Toy.run [keygenCall 1, .keygen .engineEd25519 "s" 1 ""]) 1 := by
  have ended : failed (Toy.run [keygenCall 1, .keygen .engineEd25519 "s" 1 ""]) 1 = some (.keygen .engineEd25519 "s" 1 "") := by
    decide +kernel
  obtain ⟨failure, returned⟩ := returned_of_failed ended
  refine (failed_start_leaves_nothing (Machine.reaches_run _ _) returned rfl).mpr ?_
  exact writable_of_not_sign (by simp)

/-- The commitments of draw 1 do not serialize. -/
def identityLibraries : Libraries :=
  { Toy.libraries with
    frost := { Toy.frost with
      serializeCommitments := fun (commitments : UInt8) =>
        if commitments = 1 then .error "identity element" else .ok [commitments] } }

/-- The second of two signing rounds under one id, up to where it stores its session. -/
private def unstored : EngineWorld identityLibraries :=
  (machine identityLibraries).run
    [.start Toy.signRound1, .run 0, .run 0, .run 0, .run 0, .start Toy.signRound1, .run 1, .run 1, .run 1]
    (.initial .empty)

/-- It fails, and its session stands in the place of the live one. -/
theorem unwritten_start_leaves_session : ∃ (world : EngineWorld identityLibraries) (thread : Nat) (call : Call)
    (failure : String), (machine identityLibraries).Reaches Machine.Any (.initial .empty) world ∧
      world.Returned thread call (.error failure) ∧ call.round = some 1 ∧ ¬LeavesNothing world thread := by
  have ended : failed ((machine identityLibraries).step unstored (.run 1)) 1 = some Toy.signRound1 := by
    decide +kernel
  have live : (unstored.shared.sessions .ed25519 .dsg "s").map Signing.nonceDraw = some (some 0) := by decide +kernel
  have replaced : (((machine identityLibraries).step unstored (.run 1)).shared.sessions .ed25519 .dsg "s").map
      Signing.nonceDraw = some (some 1) := by decide +kernel
  have reached : (machine identityLibraries).Reaches Machine.Any (.initial .empty) unstored := Machine.reaches_run _ _
  obtain ⟨failure, returned⟩ := returned_of_failed ended
  refine ⟨_, 1, Toy.signRound1, failure, .step (.run 1) reached trivial, returned, rfl, ?_⟩
  intro leaves
  rw [leaves.tables unstored reached .refl, live] at replaced
  cases replaced

end Lifecycle

end CeresMpc
