import CeresMpc.Api.WireBatches
import CeresMpc.Delivery.Ledger

/-!
# Messages between caller and protocol

The batches the calls of a session return are what its protocol task has sent, and the
task reads what the calls have been given, in the order of the calls.
-/

set_option autoImplicit false

namespace CeresMpc.Delivery

open Encoding Interleaving Program Api

variable {lib : Libraries}

/-! ## Calls of a session -/

/-- A call spawns the task, or finds its session in the table and may run a round on it. -/
def engages (protocol : ProtocolType) (task : Nat) : Entry (Action lib) (Action.Answer lib) → Bool
  | ⟨.spawn other _, named⟩ => other = protocol ∧ named = task
  | ⟨.checkout .secp256k1 other _, .found session⟩ =>
      other = protocol ∧ dklsTask lib other session = task ∧ consumed lib other session = false
  | _ => false

/-- The calls that have run a round on the task, in the order they were made. -/
def sessionCalls (world : EngineWorld lib) (protocol : ProtocolType) (task : Nat) : List Nat :=
  (List.range world.threads.length).filter fun thread => (past thread world.trace).any (engages protocol task)

variable (lib) in
/-- The messages in a call's server payload. -/
def serverMessages (call : Call) : List Bytes :=
  match MpcEngine.parseServerEnvelopeBatch lib call.payload with
  | .ok (_, messages) => messages
  | .error _ => []

variable (lib) in
/-- The messages in the batch a round returns. -/
def batchOf : Except String Reply → List Bytes
  | .ok (.round result) =>
      if result.status = "continue" then
        match lib.text.fromStr WireEnvelope.fromJson (result.clientPayload.getD "") with
        | .ok envelope => (envelope.decodeAllPayloads lib.text).toOption.getD []
        | .error _ => []
      else []
  | _ => []

/-- The messages the server has for the thread's call. -/
def given (world : EngineWorld lib) (thread : Nat) : List Bytes :=
  match world.threads[thread]? with
  | some (call, _) => serverMessages lib call
  | none => []

/-- The batch the thread's call has returned. -/
def returned (world : EngineWorld lib) (thread : Nat) : List Bytes :=
  match world.threads[thread]? with
  | some (_, .done outcome) => batchOf lib outcome
  | _ => []

/-- Nothing is lost, doubled or reordered between the calls of a session and its task.
`seen` is what passed at the task's end of the channels. -/
structure MessagesKept (world : EngineWorld lib) (protocol : ProtocolType) (task : Nat) (seen : List Passage) : Prop where
  output : (sessionCalls world protocol task).flatMap (returned world) <+: seen.flatMap Passage.written
  input : seen.flatMap Passage.taken <+: (sessionCalls world protocol task).flatMap (given world)
  whole : ∀ thread ∈ sessionCalls world protocol task, ∀ call result,
    world.Returned thread call (.ok (.round result)) → result.status = "completed" →
    ((sessionCalls world protocol task).filter (· < thread)).flatMap (returned world) = seen.flatMap Passage.written

/-- Calls of the unified engine on one session id. -/
def Advances (protocol : ProtocolType) (sessionId : String) (call : Call) : Prop :=
  call.scope = some (protocol, sessionId) ∧ call.entry = .mpcEngine

/-! ## What a call puts in and gets out -/

section Calls

variable {protocol : ProtocolType} {task : Nat} {call : Call} {past base : Past lib}

/-- The call runs a round on the task. -/
def Engaged (protocol : ProtocolType) (task : Nat) (past : Past lib) : Prop :=
  ∃ entry ∈ past, engages protocol task entry = true

theorem engaged_cons {entry : Entry (Action lib) (Action.Answer lib)} (idle : engages protocol task entry = false) :
    Engaged protocol task (entry :: past) ↔ Engaged protocol task past := by
  simp [Engaged, idle]

theorem engaged_append {more : Past lib} (idle : ∀ entry ∈ more, engages protocol task entry = false) :
    Engaged protocol task (more ++ past) ↔ Engaged protocol task past := by
  constructor
  · rintro ⟨entry, member, engaged⟩
    rcases List.mem_append.mp member with own | before
    · rw [idle entry own] at engaged
      cases engaged
    · exact ⟨entry, before, engaged⟩
  · rintro ⟨entry, member, engaged⟩
    exact ⟨entry, List.mem_append_right _ member, engaged⟩

theorem engages_onEngine {entry : Entry (Action lib) (Action.Answer lib)} (engaged : engages protocol task entry = true) :
    entry.1.OnEngine .secp256k1 := by
  unfold engages at engaged
  split at engaged
  · exact rfl
  · exact rfl
  · cases engaged

theorem yields_sent (other : ProtocolType) (named : Nat) (messages : List Bytes) :
    yields (accepts protocol task) (MpcEngine.sent other named messages past) =
      yields (accepts protocol task) past ++ if other = protocol ∧ named = task then messages else [] := by
  induction messages generalizing past with
  | nil => simp
  | cons message rest ih =>
      rw [MpcEngine.sent_cons, ih, yields_cons]
      by_cases here : other = protocol ∧ named = task <;> simp [accepts, here]

theorem gathers_sent (other : ProtocolType) (named : Nat) (messages : List Bytes) :
    yields (gathers protocol task) (MpcEngine.sent other named messages past) = yields (gathers protocol task) past := by
  induction messages generalizing past with
  | nil => rfl
  | cons message rest ih =>
      rw [MpcEngine.sent_cons, ih, yields_cons]
      simp [gathers]

theorem engaged_sent (other : ProtocolType) (named : Nat) (messages : List Bytes) :
    Engaged protocol task (MpcEngine.sent other named messages past) ↔ Engaged protocol task past := by
  rw [MpcEngine.sent_eq]
  refine engaged_append ?_
  intro entry member
  obtain ⟨message, _, rfl⟩ := List.mem_map.mp member
  rfl

/-- An operation that neither feeds nor empties nor joins a task. -/
structure Bystands (protocol : ProtocolType) (task : Nat) (entry : Entry (Action lib) (Action.Answer lib)) : Prop where
  accepts : accepts protocol task entry = []
  gathers : gathers protocol task entry = []
  engages : engages protocol task entry = false

theorem bystands_of_reads {entry : Entry (Action lib) (Action.Answer lib)} (reads : entry.1.Reads) :
    Bystands protocol task entry := by
  obtain ⟨action, answer⟩ := entry
  cases action <;> first | exact reads.elim | exact ⟨rfl, rfl, rfl⟩

theorem bystands_of_concludes {entry : Entry (Action lib) (Action.Answer lib)} (concludes : entry.1.Concludes) :
    Bystands protocol task entry := by
  obtain ⟨action, answer⟩ := entry
  cases action <;> first | exact concludes.elim | exact ⟨rfl, rfl, rfl⟩

/-- A past of bystanders. -/
def Idle (protocol : ProtocolType) (task : Nat) (past : Past lib) : Prop :=
  ∀ entry ∈ past, Bystands protocol task entry

theorem Idle.accepts (idle : Idle protocol task past) : yields (accepts protocol task) past = [] :=
  yields_eq_nil fun entry member => (idle entry member).accepts

theorem Idle.gathers (idle : Idle protocol task past) : yields (gathers protocol task) past = [] :=
  yields_eq_nil fun entry member => (idle entry member).gathers

theorem Idle.not_engaged (idle : Idle protocol task past) : ¬Engaged protocol task past := by
  rintro ⟨entry, member, engaged⟩
  rw [(idle entry member).engages] at engaged
  cases engaged

theorem Idle.append {more : Past lib} (first : Idle protocol task more) (second : Idle protocol task past) :
    Idle protocol task (more ++ past) := by
  intro entry member
  rcases List.mem_append.mp member with own | before
  · exact first entry own
  · exact second entry before

theorem routed_idle {toEd25519 : Bool} (routed : Call.Routed lib call toEd25519 base) : Idle protocol task base := by
  rintro ⟨action, answer⟩ member
  obtain ⟨other, otherId, rfl⟩ := routed.looks _ member
  exact ⟨rfl, rfl, rfl⟩

/-- The task is fed the call's payload: all of it, unless the task is found closed. -/
structure Fed (protocol : ProtocolType) (task : Nat) (call : Call) (past : Past lib) : Prop where
  within : yields (accepts protocol task) past <+: serverMessages lib call
  whole : yields (accepts protocol task) past = serverMessages lib call ∨
    ∃ message, ⟨.send protocol task message, false⟩ ∈ past

theorem Fed.of_eq (whole : yields (accepts protocol task) past = serverMessages lib call) : Fed protocol task call past :=
  ⟨by rw [whole], .inl whole⟩

theorem Fed.cons {entry : Entry (Action lib) (Action.Answer lib)} (fed : Fed protocol task call past)
    (bystands : Bystands protocol task entry) : Fed protocol task call (entry :: past) := by
  have same : yields (accepts protocol task) (entry :: past) = yields (accepts protocol task) past := by
    rw [yields_cons, bystands.accepts, List.append_nil]
  constructor
  · rw [same]
    exact fed.within
  · rw [same]
    refine fed.whole.imp_right ?_
    rintro ⟨message, member⟩
    exact ⟨message, List.mem_cons_of_mem _ member⟩

theorem serverMessages_eq {env : WireEnvelope} {messages : List Bytes}
    (parsed : MpcEngine.parseServerEnvelopeBatch lib call.payload = .ok (env, messages)) :
    serverMessages lib call = messages := by
  rw [serverMessages, parsed]

/-! ### Round 1 -/

section First

variable {other : ProtocolType} {named : Nat} {run : lib.dkls.Protocol other} {messages : List Bytes}

theorem engaged_fed (idle : Idle protocol task base) :
    Engaged protocol task (MpcEngine.fed lib other run base named messages) ↔ other = protocol ∧ named = task := by
  rw [MpcEngine.fed, engaged_sent]
  constructor
  · rintro ⟨entry, member, engaged⟩
    rcases List.mem_cons.mp member with rfl | before
    · simpa [engages] using engaged
    · exact (idle.not_engaged ⟨entry, before, engaged⟩).elim
  · intro here
    exact ⟨_, List.mem_cons_self, by simpa [engages] using here⟩

theorem accepts_fed (idle : Idle protocol task base) (run : lib.dkls.Protocol protocol) :
    yields (accepts protocol task) (MpcEngine.fed lib protocol run base task messages) = messages := by
  rw [MpcEngine.fed, yields_sent, yields_cons, idle.accepts]
  simp [accepts]

theorem gathers_fed (idle : Idle protocol task base) :
    yields (gathers protocol task) (MpcEngine.fed lib other run base named messages) = [] := by
  rw [MpcEngine.fed, gathers_sent, yields_cons, idle.gathers]
  rfl

/-- What has been put into the new task when the round has given up on it. -/
theorem abandoned_fed {serverMsgs : List Bytes} {env : WireEnvelope} (idle : Idle protocol task base)
    (parsed : MpcEngine.parseServerEnvelopeBatch lib call.payload = .ok (env, serverMsgs))
    (abandoned : MpcEngine.Abandoned lib other serverMsgs run base named past) (engaged : Engaged protocol task past) :
    Fed protocol task call past ∧ yields (gathers protocol task) past = [] := by
  have all := serverMessages_eq parsed
  cases abandoned with
  | @aborted done message rest split =>
      obtain ⟨rfl, rfl⟩ := (engaged_fed idle).mp ((engaged_cons rfl).mp ((engaged_cons rfl).mp engaged))
      have put : yields (accepts other named) (⟨.abort other named, ()⟩ :: ⟨.send other named message, false⟩ ::
          MpcEngine.fed lib other run base named done) = done := by
        rw [yields_cons, yields_cons, accepts_fed idle run]
        simp [accepts]
      refine ⟨⟨?_, .inr ⟨message, by simp⟩⟩, ?_⟩
      · rw [put, all, split]
        exact List.prefix_append _ _
      · rw [yields_cons, yields_cons, gathers_fed idle]
        rfl
  | closed =>
      obtain ⟨rfl, rfl⟩ := (engaged_fed idle).mp ((engaged_cons rfl).mp engaged)
      refine ⟨.of_eq ?_, ?_⟩
      · rw [yields_cons, accepts_fed idle run, all]
        simp [accepts]
      · rw [yields_cons, gathers_fed idle]
        rfl
  | joined =>
      obtain ⟨rfl, rfl⟩ := (engaged_fed idle).mp ((engaged_cons rfl).mp ((engaged_cons rfl).mp engaged))
      refine ⟨.of_eq ?_, ?_⟩
      · rw [yields_cons, yields_cons, accepts_fed idle run, all]
        simp [accepts]
      · rw [yields_cons, yields_cons, gathers_fed idle]
        rfl

end First

/-! ### Later rounds -/

section Advance

variable {other : ProtocolType} {sessionId : String} {session : Session lib .secp256k1 other} {messages : List Bytes}

theorem engaged_injected (idle : Idle protocol task base) :
    Engaged protocol task (MpcEngine.injected lib other sessionId base session messages) ↔
      other = protocol ∧ dklsTask lib other session = task ∧ consumed lib other session = false := by
  rw [MpcEngine.injected, engaged_sent]
  constructor
  · rintro ⟨entry, member, engaged⟩
    rcases List.mem_cons.mp member with rfl | before
    · simpa [engages] using engaged
    · exact (idle.not_engaged ⟨entry, before, engaged⟩).elim
  · intro here
    exact ⟨_, List.mem_cons_self, by simpa [engages] using here⟩

theorem accepts_injected (idle : Idle protocol task base) {session : Session lib .secp256k1 protocol}
    (onTask : dklsTask lib protocol session = task) :
    yields (accepts protocol task) (MpcEngine.injected lib protocol sessionId base session messages) = messages := by
  rw [MpcEngine.injected, yields_sent, yields_cons, idle.accepts]
  simp [accepts, onTask]

theorem gathers_injected (idle : Idle protocol task base) :
    yields (gathers protocol task) (MpcEngine.injected lib other sessionId base session messages) = [] := by
  rw [MpcEngine.injected, gathers_sent, yields_cons, idle.gathers]
  rfl

/-- What has been put in and got out once a batch has been waited for. -/
theorem gathered_streams {held : Session lib .secp256k1 other} {batch : Option (List Bytes × Bool)} {more : Past lib}
    {env : WireEnvelope} (idle : Idle protocol task base)
    (accepted : MpcEngine.Accepted lib other call.payload session env messages) (rest : Idle protocol task more)
    (engaged : Engaged protocol task
      (more ++ MpcEngine.gathered lib other sessionId base session messages held batch)) :
    other = protocol ∧ dklsTask lib other session = task ∧
      Fed protocol task call (more ++ MpcEngine.gathered lib other sessionId base session messages held batch) ∧
      yields (gathers protocol task) (more ++ MpcEngine.gathered lib other sessionId base session messages held batch) =
        if dklsTask lib other held = task then (batch.map Prod.fst).getD [] else [] := by
  rw [engaged_append fun entry member => (rest entry member).engages] at engaged
  rw [engaged_cons rfl, engaged_cons rfl, engaged_cons rfl, engaged_injected idle] at engaged
  obtain ⟨rfl, rfl, _⟩ := engaged
  refine ⟨rfl, rfl, .of_eq ?_, ?_⟩
  · rw [yields_append, rest.accepts, List.append_nil, yields_cons, yields_cons, yields_cons, accepts_injected idle rfl,
      serverMessages_eq accepted.parsed]
    simp [accepts]
  · rw [yields_append, rest.gathers, List.append_nil, yields_cons, yields_cons, yields_cons, gathers_injected idle]
    cases batch with
    | none => simp [gathers]
    | some batch => simp [gathers]

theorem advance_failed_fed (idle : Idle protocol task base)
    (failed : MpcEngine.AdvanceFailed lib other sessionId call.payload base past) (engaged : Engaged protocol task past) :
    Fed protocol task call past ∧ yields (gathers protocol task) past = [] := by
  cases failed with
  | @absent found missing =>
      have none : engages protocol task (⟨.checkout .secp256k1 other sessionId, found⟩ :
          Entry (Action lib) (Action.Answer lib)) = false := by
        cases found with
        | missing => rfl
        | expired => rfl
        | found session => exact absurd rfl (missing session)
      exact (idle.not_engaged ((engaged_cons none).mp engaged)).elim
  | rejected used =>
      have looked : Engaged protocol task (MpcEngine.injected lib other sessionId base _ []) := engaged
      obtain ⟨_, _, free⟩ := (engaged_injected idle).mp looked
      rw [used] at free
      cases free
  | @unreadable session failure unparsed =>
      have looked : Engaged protocol task (MpcEngine.injected lib other sessionId base session []) :=
        (engaged_cons rfl).mp engaged
      obtain ⟨rfl, rfl, _⟩ := (engaged_injected idle).mp looked
      refine ⟨.of_eq ?_, ?_⟩
      · rw [yields_cons, yields_cons, idle.accepts, serverMessages, unparsed]
        rfl
      · rw [yields_cons, yields_cons, idle.gathers]
        rfl
  | @refused session env messages done message rest accepted split =>
      obtain ⟨rfl, rfl, _⟩ := (engaged_injected idle).mp ((engaged_cons rfl).mp ((engaged_cons rfl).mp engaged))
      have all := serverMessages_eq accepted.parsed
      refine ⟨⟨?_, .inr ⟨message, by simp⟩⟩, ?_⟩
      · rw [yields_cons, yields_cons, accepts_injected idle rfl, all, split]
        simp [accepts]
      · rw [yields_cons, yields_cons, gathers_injected idle]
        rfl
  | @gone session env messages accepted =>
      obtain ⟨rfl, rfl, _⟩ := (engaged_injected idle).mp
        ((engaged_cons rfl).mp ((engaged_cons rfl).mp ((engaged_cons rfl).mp engaged)))
      refine ⟨.of_eq ?_, ?_⟩
      · rw [yields_cons, yields_cons, yields_cons, accepts_injected idle rfl, serverMessages_eq accepted.parsed]
        simp [accepts]
      · rw [yields_cons, yields_cons, yields_cons, gathers_injected idle]
        rfl
  | closed accepted concludes =>
      obtain ⟨_, _, fed, gathered⟩ := gathered_streams idle accepted
        (fun entry member => bystands_of_concludes (concludes entry member)) engaged
      refine ⟨fed, gathered.trans ?_⟩
      simp

end Advance

/-! ### Whole calls -/

theorem batchOf_batch (lawful : lib.text.Lawful) (sessionId : String) (other : ProtocolType) (round : UInt8)
    (messages : List Bytes) :
    batchOf lib (.ok (.round (MpcEngine.makeInProgressBatch lib sessionId other round messages))) = messages := by
  simp only [batchOf, MpcEngine.makeInProgressBatch, if_true, Option.getD_some]
  rw [WireEnvelope.fromStr_toJson lawful]
  dsimp only
  rw [WireEnvelope.decodeAllPayloads_newBatch lawful]
  rfl

/-- The session a call gets hold of to wait for a batch is the one it looked up. -/
def Steady (protocol : ProtocolType) (past : Past lib) : Prop :=
  ∀ later base sessionId session messages held,
    past = later ++ MpcEngine.locked lib protocol sessionId base session messages (some held) → held = session

theorem Steady.earlier {later earlier : Past lib} (steady : Steady protocol (later ++ earlier)) :
    Steady protocol earlier := by
  rintro more base sessionId session messages held rfl
  exact steady (later ++ more) base sessionId session messages held (by rw [List.append_assoc])

/-- What a call that has ended has put in and got out. -/
structure Streams (protocol : ProtocolType) (task : Nat) (call : Call) (past : Past lib)
    (outcome : Except String Reply) : Prop where
  fed : Fed protocol task call past
  gathered : Steady protocol past → yields (gathers protocol task) past = batchOf lib outcome
  emptied : Steady protocol past → ∀ result, outcome = .ok (.round result) → result.status = "completed" →
    ∃ signal, ⟨.collect protocol task signal, none⟩ ∈ past

private theorem Streams.of_failed {failure : String}
    (failed : Fed protocol task call past ∧ yields (gathers protocol task) past = []) :
    Streams protocol task call past (.error failure) :=
  { fed := failed.1
    gathered := fun _ => failed.2
    emptied := by rintro _ _ ⟨⟩ }

theorem completed_status {protocol : ProtocolType} {sessionId : String} {session : Session lib .secp256k1 protocol}
    {round : UInt8} {output : Dkls.Output protocol} {result : MpcRoundResult}
    (made : MpcEngine.completed lib sessionId protocol session round output = .ok result) : result.status = "completed" := by
  cases protocol with
  | dkg =>
      simp only [MpcEngine.completed, MpcEngine.keygenCompleted, bind_eq_ok] at made
      obtain ⟨⟨address, pubkeyHex, bytes⟩, _, made⟩ := made
      cases made
      rfl
  | rotation =>
      simp only [MpcEngine.completed, MpcEngine.recoveryCompleted, bind_eq_ok] at made
      obtain ⟨⟨address, pubkeyHex, bytes⟩, _, made⟩ := made
      cases made
      rfl
  | dsg =>
      simp only [MpcEngine.completed, MpcEngine.signCompleted] at made
      split at made
      · cases made
      · cases made
        rfl

private theorem opened_streams (lawful : lib.text.Lawful) {other : ProtocolType} {sessionId : String}
    {messages : List Bytes} {run : lib.dkls.Protocol other} {env : WireEnvelope} {result : MpcRoundResult}
    (idle : Idle protocol task base)
    (parsed : MpcEngine.parseServerEnvelopeBatch lib call.payload = .ok (env, messages))
    (ended : MpcEngine.OpenEnd lib other sessionId messages run base env.round past (.ok result))
    (engaged : Engaged protocol task past) : Streams protocol task call past (.ok (.round result)) := by
  cases ended with
  | @opened named batch protocolDone clock session clocked owns =>
      have timed : Idle protocol task clock := fun entry member =>
        bystands_of_concludes (by rw [clocked entry member]; trivial)
      rw [engaged_cons rfl, engaged_append fun entry member => (timed entry member).engages, engaged_cons rfl] at engaged
      obtain ⟨rfl, rfl⟩ := (engaged_fed idle).mp engaged
      constructor
      · refine (Fed.of_eq ?_).cons ⟨rfl, rfl, rfl⟩
        rw [yields_append, timed.accepts, yields_cons, accepts_fed idle, serverMessages_eq parsed]
        simp [accepts]
      · intro _
        rw [batchOf_batch lawful, yields_cons, yields_append, timed.gathers, yields_cons, gathers_fed idle]
        simp [gathers]
      · rintro _ result ⟨⟩ completed
        exact absurd completed (by simp [MpcEngine.makeInProgressBatch])

private theorem advanced_streams (lawful : lib.text.Lawful) {other : ProtocolType} {sessionId : String}
    {result : MpcRoundResult} (idle : Idle protocol task base)
    (ended : MpcEngine.AdvanceEnd lib other sessionId call.payload base (MpcEngine.completed lib sessionId other) past
      (.ok result)) (engaged : Engaged protocol task past) : Streams protocol task call past (.ok (.round result)) := by
  cases ended with
  | @continued session env messages held batch protocolDone reset accepted resets =>
      have rest : Idle protocol task (⟨.dropSender other (dklsTask lib other session), ()⟩ :: reset) := by
        intro entry member
        rcases List.mem_cons.mp member with rfl | resetting
        · exact ⟨rfl, rfl, rfl⟩
        · rw [resets] at resetting
          split at resetting
          · cases List.mem_singleton.mp resetting
            exact ⟨rfl, rfl, rfl⟩
          · cases resetting
      obtain ⟨rfl, rfl, fed, gathered⟩ := gathered_streams idle accepted rest engaged
      refine ⟨fed, fun steady => ?_, ?_⟩
      · obtain rfl := steady (⟨.dropSender other (dklsTask lib other session), ()⟩ :: (reset ++ [⟨.release other, ()⟩,
            ⟨.collect other (dklsTask lib other held) (dklsTask lib other session), some (batch, protocolDone)⟩]))
          base sessionId session messages held (by simp)
        rw [if_pos rfl] at gathered
        rw [batchOf_batch lawful]
        exact gathered
      · rintro _ result ⟨⟩ completed
        exact absurd completed (by simp [MpcEngine.makeInProgressBatch])
  | @completed session env messages held last handle output result accepted joins made =>
      have status := completed_status made
      have rest : Idle protocol task ([⟨.dropSender other (dklsTask lib other session), ()⟩,
          ⟨.join other handle, .ok (.ok output)⟩, ⟨.dropReceiver other (dklsTask lib other last), ()⟩,
          ⟨.dropSender other (dklsTask lib other last), ()⟩, ⟨.remove .secp256k1 other sessionId, some last⟩] : Past lib) := by
        intro entry member
        apply bystands_of_concludes
        simp only [List.mem_cons, List.not_mem_nil, or_false] at member
        rcases member with rfl | rfl | rfl | rfl | rfl <;> trivial
      obtain ⟨rfl, rfl, fed, gathered⟩ := gathered_streams idle accepted rest engaged
      refine ⟨fed, fun _ => gathered.trans (by simp [batchOf, status]), fun steady _ _ _ => ?_⟩
      obtain rfl := steady [_, _, _, _, _, _, _] base sessionId session messages held rfl
      exact ⟨_, List.mem_append_right [_, _, _, _, _, _] List.mem_cons_self⟩

theorem finished_streams (lawful : lib.text.Lawful) {reply : Except String Reply}
    (finished : Call.Finished lib call past reply) (engaged : Engaged protocol task past) :
    Streams protocol task call past reply := by
  cases finished with
  | elsewhere off =>
      obtain ⟨entry, member, engages⟩ := engaged
      exact absurd (engages_onEngine engages) (off entry member)
  | @dkls base _ _ outcome routed ends same =>
      obtain ⟨ended, fails⟩ := ends
      subst same
      have idle : Idle protocol task base := routed_idle routed
      have started {reads : Past lib} (only : ∀ entry ∈ reads, entry.1.Reads) : Idle protocol task (reads ++ base) :=
        Idle.append (fun entry member => bystands_of_reads (only entry member)) idle
      cases outcome with
      | error failure =>
          refine Streams.of_failed ?_
          cases fails failure rfl with
          | first scope failed =>
              cases failed with
              | stopped only => exact ((started only).not_engaged engaged).elim
              | opens only parsed failed =>
                  cases failed with
                  | abandoned abandoned =>
                      obtain ⟨fed, nothing⟩ := abandoned_fed (started only) parsed abandoned
                        ((engaged_cons rfl).mp ((engaged_cons rfl).mp engaged))
                      refine ⟨(fed.cons ⟨rfl, rfl, rfl⟩).cons ⟨rfl, rfl, rfl⟩, ?_⟩
                      rw [yields_cons, yields_cons, nothing]
                      rfl
          | advance scope failed => exact advance_failed_fed idle failed engaged
          | keyshare concludes =>
              have rest : Idle protocol task _ := fun entry member => bystands_of_concludes (concludes entry member)
              exact ((rest.append idle).not_engaged engaged).elim
      | ok result =>
          cases ended with
          | first scope first ended =>
              cases ended with
              | opened only parsed ended => exact opened_streams lawful (started only) parsed ended engaged
          | advance scope later ended => exact advanced_streams lawful idle ended engaged
          | @keyshare other sessionId _ _ scope last keyshare ended =>
              cases ended with
              | @completed session handle output result joins made =>
                  have rest : Idle protocol task ([⟨.dropReceiver other (dklsTask lib other session), ()⟩,
                      ⟨.join other handle, .ok (.ok output)⟩, ⟨.dropSender other (dklsTask lib other session), ()⟩,
                      ⟨.remove .secp256k1 other sessionId, some session⟩] : Past lib) := by
                    intro entry member
                    apply bystands_of_concludes
                    simp only [List.mem_cons, List.not_mem_nil, or_false] at member
                    rcases member with rfl | rfl | rfl | rfl <;> trivial
                  exact ((rest.append idle).not_engaged engaged).elim

/-! ### Single operations -/

/-- Only a call that runs a round on a task feeds it. -/
theorem engaged_of_send {message : Bytes} (step : Call.Step lib call past (.send protocol task message)) :
    Engaged protocol task past := by
  obtain ⟨base, routed, step⟩ := step.on_secp256k1 rfl
  have idle : Idle protocol task base := routed_idle routed
  cases step with
  | first scope first step =>
      cases step with
      | read only same reading => exact reading.elim
      | opens only parsed step =>
          cases step with
          | send split =>
              refine (engaged_fed ?_).mpr ⟨rfl, rfl⟩
              exact Idle.append (fun entry member => bystands_of_reads (only entry member)) idle
  | advance scope later step =>
      cases step with
      | send accepted split => exact (engaged_injected idle).mpr ⟨rfl, rfl, accepted.unconsumed⟩
  | keyshare scope last other step => cases step

/-- A call waits for the batch of a task it has spawned, or of the session it has got hold of. -/
theorem engaged_of_collect {signal : Nat} (step : Call.Step lib call past (.collect protocol task signal))
    (steady : Steady protocol past) : Engaged protocol task past := by
  obtain ⟨base, routed, step⟩ := step.on_secp256k1 rfl
  have idle : Idle protocol signal base := routed_idle routed
  cases step with
  | first scope first step =>
      cases step with
      | read only same reading => exact reading.elim
      | opens only parsed step =>
          cases step with
          | collect =>
              refine (engaged_fed ?_).mpr ⟨rfl, rfl⟩
              exact Idle.append (fun entry member => bystands_of_reads (only entry member)) idle
  | @advance _ sessionId _ _ scope later step =>
      cases step with
      | @collect session env messages held accepted =>
          obtain rfl := steady [] base sessionId session messages held rfl
          exact (engaged_cons rfl).mpr ((engaged_injected idle).mpr ⟨rfl, rfl, accepted.unconsumed⟩)
  | keyshare scope last other step => cases step

theorem scope_of_spawn {run : lib.dkls.Protocol protocol} (step : Call.Step lib call past (.spawn protocol run)) :
    ∃ sessionId, call.scope = some (protocol, sessionId) := by
  obtain ⟨base, routed, step⟩ := step.on_secp256k1 rfl
  cases step with
  | first scope first step =>
      cases step with
      | read only same reading => exact reading.elim
      | opens only parsed step =>
          cases step with
          | spawn => exact ⟨_, scope⟩
  | advance scope later step => cases step
  | keyshare scope last other step => cases step

theorem scope_of_checkout {sessionId : String} (step : Call.Step lib call past (.checkout .secp256k1 protocol sessionId)) :
    call.scope = some (protocol, sessionId) := by
  obtain ⟨base, routed, step⟩ := step.on_secp256k1 rfl
  cases step with
  | first scope first step =>
      cases step with
      | read only same reading => exact reading.elim
      | opens only parsed step => cases step
  | advance scope later step =>
      cases step with
      | checkout => exact scope
  | keyshare scope last other step => cases step

theorem answerable (action : Action lib) : Nonempty (Action.Answer lib action) := by
  cases action <;> first
    | exact ⟨()⟩
    | exact ⟨false⟩
    | exact ⟨(0 : Nat)⟩
    | exact ⟨none⟩
    | exact ⟨.missing⟩
    | exact ⟨.error ""⟩

/-- A call that is under way is fed no more than its payload. -/
theorem fed_within (lawful : lib.text.Lawful) {program : EngineM lib Reply}
    (follows : program.Follows (fun _ _ => True) (Call.Finished lib call) past) (engaged : Engaged protocol task past) :
    yields (accepts protocol task) past <+: serverMessages lib call := by
  obtain ⟨extra, outcome, finished⟩ := follows.finishes answerable
  obtain ⟨entry, member, engages⟩ := engaged
  have streams := finished_streams lawful finished ⟨entry, List.mem_append_right _ member, engages⟩
  refine List.IsPrefix.trans ?_ streams.fed.within
  rw [yields_append]
  exact List.prefix_append _ _

end Calls

/-! ## Runs -/

section Runs

variable {Allowed : EngineWorld lib → Move Call Drift → Prop} {world : EngineWorld lib} {protocol : ProtocolType}
  {sessionId : String} {task : Nat}

/-- A call that works on a DKLs23 table was made to the unified engine. -/
theorem unified_of_engine {call : Call} {past : Past lib} {action : Action lib} (step : Call.Step lib call past action)
    (engine : action.OnEngine .secp256k1) : call.entry = .mpcEngine := by
  obtain ⟨base, routed, _⟩ := step.on_secp256k1 engine
  cases entered : call.entry with
  | mpcEngine => rfl
  | engineEd25519 => cases routed.of_direct entered

/-- The calls that run rounds on a task are made on the id it was spawned for. -/
theorem engaged_advances (reached : (machine lib).Reaches Allowed (.initial .empty) world)
    (spawned : Lifecycle.SpawnedFor world protocol sessionId task) {thread : Nat}
    (engaged : Engaged protocol task (past thread world.trace)) :
    ∃ call, world.Called thread call ∧ Advances protocol sessionId call := by
  obtain ⟨⟨action, answer⟩, member, engages⟩ := engaged
  obtain ⟨later, earlier, split⟩ := List.append_of_mem (mem_past.mp member)
  obtain ⟨call, program, found, step⟩ := reached.event_permitted Call.body_steps later earlier thread _ split
  have unified := unified_of_engine step (engages_onEngine engages)
  have own (learned : ∃ otherId, call.scope = some (protocol, otherId) ∧
      Lifecycle.Learned protocol otherId task (past thread world.trace)) : Advances protocol sessionId call := by
    obtain ⟨otherId, scope, learned⟩ := learned
    have again := Lifecycle.learned_spawned reached ⟨program, found⟩ scope learned
    obtain ⟨_, rfl⟩ := Lifecycle.spawned_once reached spawned again
    exact ⟨scope, unified⟩
  refine ⟨call, ⟨program, found⟩, own ?_⟩
  unfold Delivery.engages at engages
  split at engages
  · next other run named same =>
    cases same
    obtain ⟨rfl, rfl⟩ : other = protocol ∧ named = task := by simpa using engages
    obtain ⟨otherId, scope⟩ := scope_of_spawn step
    exact ⟨otherId, scope, .spawned member⟩
  · next other otherId session same =>
    cases same
    obtain ⟨rfl, onTask, _⟩ : other = protocol ∧ dklsTask lib other session = task ∧ consumed lib other session = false := by
      simpa using engages
    exact ⟨otherId, scope_of_checkout step, .found member .checkout (.inl onTask)⟩
  · cases engages

theorem onEngine_of_tableEvent {curve : Curve} {entry : Entry (Action lib) (Action.Answer lib)}
    {event : Custody.Event String (Session lib curve protocol)} (effect : tableEvent curve protocol entry = some event) :
    entry.1.OnEngine curve := by
  unfold tableEvent at effect
  split at effect <;> try cases effect
  all_goals
    split at effect
    · next same =>
      cases same
      exact rfl
    · cases effect

/-- Operations on other entries leave an entry as it is. -/
theorem contents_between {curve : Curve} {between earlier : List (Nat × Entry (Action lib) (Action.Answer lib))}
    (elsewhere : ∀ event ∈ between, ∀ happened, tableEvent curve protocol event.2 = some happened →
      sessionId ≠ happened.key) :
    Custody.contents (tableHistory curve protocol (between ++ earlier)) sessionId =
      Custody.contents (tableHistory curve protocol earlier) sessionId := by
  induction between with
  | nil => rfl
  | cons event between ih =>
      have before := ih fun event member => elsewhere event (List.mem_cons_of_mem _ member)
      rw [List.cons_append, tableHistory_cons]
      cases effect : tableEvent curve protocol event.2 with
      | none => exact before
      | some happened =>
          change Custody.contents (happened :: _) sessionId = _
          rw [Custody.contents_effect, happened.effect_of_ne (elsewhere event List.mem_cons_self happened effect)]
          exact before

/-- Between looking a session up and getting hold of it a call finds the same one. -/
theorem steady (reached : (machine lib).Reaches Allowed (.initial .empty) world)
    (alone : ∀ world move, Allowed world move → StartsAlone (Advances protocol sessionId) world move) {thread : Nat}
    {call : Call} (called : world.Called thread call) (advances : Advances protocol sessionId call) :
    Steady protocol (past thread world.trace) := by
  intro later base otherId session messages held split
  obtain ⟨since, untilHeld, whole, _, own⟩ := past_split split
  rw [MpcEngine.injected, MpcEngine.sent_eq] at own
  obtain ⟨between, before, halves, sends, _⟩ := past_split own
  obtain ⟨owner, program, here, touches⟩ := reached.event_permitted Call.body_stays _ _ _ _ whole
  obtain rfl := World.called_unique called ⟨program, here⟩
  obtain ⟨_, rfl⟩ := touches.entry advances.1 ⟨rfl, rfl⟩
  -- the same entry at both moments
  obtain ⟨late, _, _, afterLate, reachedLate, _, rfl, _, movedLate, _⟩ := reached.event_moved whole
  obtain ⟨early, _, _, afterEarly, reachedEarly, _, rfl, _, movedEarly, _⟩ := reachedLate.event_moved halves
  have movedLate : late.shared.interpret thread (.acquire protocol otherId) = .reply afterLate (some held) := movedLate
  have movedEarly : early.shared.interpret thread (.checkout .secp256k1 protocol otherId) =
      .reply afterEarly (.found session) := movedEarly
  have heldLate := Engine.acquire_answer movedLate
  have heldEarly := Engine.checkout_answer movedEarly
  rw [← (reached_recorded .secp256k1 protocol reachedLate).contents, halves] at heldLate
  rw [← (reached_recorded .secp256k1 protocol reachedEarly).contents] at heldEarly
  rw [contents_between] at heldLate
  · change Custody.contents (tableHistory .secp256k1 protocol early.trace) otherId = some held at heldLate
    rw [heldEarly] at heldLate
    exact (Option.some.inj heldLate).symm
  · rintro ⟨other, entry⟩ member happened effect rfl
    have layout : world.trace = since ++ (thread, ⟨.acquire protocol happened.key, some held⟩) ::
        (between ++ (thread, ⟨.checkout .secp256k1 protocol happened.key, .found session⟩) :: early.trace) := by
      rw [whole, halves]
    have placed : (other, entry) ∈ world.trace := by
      rw [layout]
      exact List.mem_append_right _ (List.mem_cons_of_mem _ (List.mem_append_left _ member))
    obtain ⟨recent, older, parts⟩ := List.append_of_mem placed
    obtain ⟨second, otherProgram, there, step⟩ := reached.event_permitted Call.body_steps _ _ _ _ parts
    obtain ⟨copy, _, again, touched⟩ := reached.event_permitted Call.body_stays _ _ _ _ parts
    obtain rfl := World.called_unique ⟨_, there⟩ ⟨_, again⟩
    have alike : Advances protocol happened.key second :=
      ⟨touched.names (onEntry_of_tableEvent effect), unified_of_engine step (onEngine_of_tableEvent effect)⟩
    -- one caller at a time: nothing of another call stands between two operations of this one
    have sorted := reached.sorted_of_kind alone
    rw [layout] at sorted
    obtain ⟨_, sorted, _⟩ := List.pairwise_append.mp sorted
    obtain ⟨newest, sorted⟩ := List.pairwise_cons.mp sorted
    obtain ⟨_, _, across⟩ := List.pairwise_append.mp sorted
    have notAfter := newest (other, entry) (List.mem_append_left _ member) call second called advances ⟨_, there⟩ alike
    have notBefore := across _ member _ List.mem_cons_self second call ⟨_, there⟩ alike called advances
    obtain rfl : other = thread := Nat.le_antisymm notAfter notBefore
    rw [← mem_past, sends] at member
    obtain ⟨message, _, rfl⟩ := List.mem_map.mp member
    cases effect

theorem Engaged.later {earlier later : Past lib} (engaged : Engaged protocol task earlier) :
    Engaged protocol task (later ++ earlier) := by
  obtain ⟨entry, member, engages⟩ := engaged
  exact ⟨entry, List.mem_append_right _ member, engages⟩

private theorem named_advances (reached : (machine lib).Reaches Allowed (.initial .empty) world)
    (spawned : Lifecycle.SpawnedFor world protocol sessionId task) {thread : Nat} {action : Action lib}
    {answer : Action.Answer lib action} (member : ⟨action, answer⟩ ∈ past thread world.trace)
    (names : Lifecycle.Names protocol task action) :
    ∃ call later earlier, world.Called thread call ∧ Advances protocol sessionId call ∧
      Call.Step lib call earlier action ∧ past thread world.trace = later ++ ⟨action, answer⟩ :: earlier := by
  obtain ⟨later, earlier, split⟩ := List.append_of_mem (mem_past.mp member)
  obtain ⟨before, call, next, after, start, _, rfl, found, _, onward⟩ := reached.event_moved split
  obtain ⟨otherId, scope, spawner, opener, run, ⟨program, here⟩, openerScope, performed⟩ :=
    Lifecycle.named_spawned start found names
  have again : Lifecycle.SpawnedFor world protocol otherId task := by
    obtain ⟨last, there⟩ := onward.call_stable here
    exact ⟨spawner, opener, run, ⟨last, there⟩, openerScope, onward.performed performed⟩
  obtain ⟨_, rfl⟩ := Lifecycle.spawned_once reached spawned again
  have step := (start.follows Call.body_steps thread call _ found).1
  have engine : action.OnEngine .secp256k1 := by
    cases action <;> first | exact names.elim | exact rfl
  refine ⟨call, past thread later, past thread before.trace, onward.call_stable found, ⟨scope, ?_⟩, step, ?_⟩
  · exact unified_of_engine step engine
  · rw [split, past_append, past_cons_self]

private theorem engaged_of_accepts (reached : (machine lib).Reaches Allowed (.initial .empty) world)
    (spawned : Lifecycle.SpawnedFor world protocol sessionId task) {thread : Nat}
    {entry : Entry (Action lib) (Action.Answer lib)} (member : entry ∈ past thread world.trace)
    (puts : accepts protocol task entry ≠ []) : Engaged protocol task (past thread world.trace) := by
  unfold accepts at puts
  split at puts
  · next other named message =>
    by_cases here : other = protocol ∧ named = task
    · obtain ⟨rfl, rfl⟩ := here
      obtain ⟨call, later, earlier, _, _, step, split⟩ := named_advances reached spawned member ⟨rfl, rfl⟩
      rw [split]
      exact Engaged.later ((engaged_cons rfl).mpr (engaged_of_send step))
    · simp [here] at puts
  · exact absurd rfl puts

private theorem engaged_of_gathers (reached : (machine lib).Reaches Allowed (.initial .empty) world)
    (alone : ∀ world move, Allowed world move → StartsAlone (Advances protocol sessionId) world move)
    (spawned : Lifecycle.SpawnedFor world protocol sessionId task) {thread : Nat}
    {entry : Entry (Action lib) (Action.Answer lib)} (member : entry ∈ past thread world.trace)
    (gets : gathers protocol task entry ≠ []) : Engaged protocol task (past thread world.trace) := by
  unfold gathers at gets
  split at gets
  · next other receiver signal batch protocolDone =>
    by_cases here : other = protocol ∧ receiver = task
    · obtain ⟨rfl, rfl⟩ := here
      obtain ⟨call, later, earlier, called, advances, step, split⟩ := named_advances reached spawned member ⟨rfl, .inl rfl⟩
      have same := steady reached alone called advances
      rw [split] at same ⊢
      have before : Steady other ([_] ++ earlier) := same.earlier
      exact Engaged.later ((engaged_cons rfl).mpr (engaged_of_collect step before.earlier))
    · simp [here] at gets
  · exact absurd rfl gets

private theorem streams_by_call (reached : (machine lib).Reaches Allowed (.initial .empty) world)
    (alone : ∀ world move, Allowed world move → StartsAlone (Advances protocol sessionId) world move)
    (spawned : Lifecycle.SpawnedFor world protocol sessionId task) :
    accepted world protocol task = (List.range world.threads.length).flatMap
        (fun thread => yields (accepts protocol task) (past thread world.trace)) ∧
      gathered world protocol task = (List.range world.threads.length).flatMap
        (fun thread => yields (gathers protocol task) (past thread world.trace)) := by
  have sorted := reached.sorted_of_kind alone
  constructor
  · refine yields_by_thread reached.trace_lt (sorted.imp_of_mem ?_)
    intro newer older newMember oldMember ordered newPuts oldPuts
    obtain ⟨call, called, advances⟩ := engaged_advances reached spawned
      (engaged_of_accepts reached spawned (mem_past.mpr newMember) newPuts)
    obtain ⟨owner, calledOlder, olderAdvances⟩ := engaged_advances reached spawned
      (engaged_of_accepts reached spawned (mem_past.mpr oldMember) oldPuts)
    exact ordered call owner called advances calledOlder olderAdvances
  · refine yields_by_thread reached.trace_lt (sorted.imp_of_mem ?_)
    intro newer older newMember oldMember ordered newGets oldGets
    obtain ⟨call, called, advances⟩ := engaged_advances reached spawned
      (engaged_of_gathers reached alone spawned (mem_past.mpr newMember) newGets)
    obtain ⟨owner, calledOlder, olderAdvances⟩ := engaged_advances reached spawned
      (engaged_of_gathers reached alone spawned (mem_past.mpr oldMember) oldGets)
    exact ordered call owner called advances calledOlder olderAdvances

private theorem any_engages {calls : Past lib} :
    calls.any (engages protocol task) = true ↔ Engaged protocol task calls := by
  rw [List.any_eq_true]
  rfl

private theorem returned_before (reached : (machine lib).Reaches Allowed (.initial .empty) world)
    (alone : ∀ world move, Allowed world move → StartsAlone (Advances protocol sessionId) world move)
    (spawned : Lifecycle.SpawnedFor world protocol sessionId task) {thread other : Nat} (order : thread < other)
    (engaged : Engaged protocol task (past thread world.trace)) (later : Engaged protocol task (past other world.trace)) :
    ∃ call outcome, world.Returned thread call outcome := by
  obtain ⟨call, ⟨program, found⟩, advances⟩ := engaged_advances reached spawned engaged
  obtain ⟨owner, calledOther, otherAdvances⟩ := engaged_advances reached spawned later
  cases program with
  | done outcome => exact ⟨call, outcome, found⟩
  | perform action next =>
      have last := reached.last_of_kind alone thread call other owner ⟨_, found⟩ advances
        (by simp [World.nextAction, found]) calledOther otherAdvances
      exact absurd last (Nat.not_le_of_lt order)

private theorem streams_of_returned (reached : (machine lib).Reaches Allowed (.initial .empty) world)
    (alone : ∀ world move, Allowed world move → StartsAlone (Advances protocol sessionId) world move)
    (spawned : Lifecycle.SpawnedFor world protocol sessionId task) (lawful : lib.text.Lawful) {thread : Nat} {call : Call}
    {outcome : Except String Reply} (ended : world.Returned thread call outcome)
    (engaged : Engaged protocol task (past thread world.trace)) :
    Streams protocol task call (past thread world.trace) outcome ∧ Steady protocol (past thread world.trace) := by
  obtain ⟨owner, called, advances⟩ := engaged_advances reached spawned engaged
  obtain rfl := World.called_unique called ⟨_, ended⟩
  have finished : Call.Finished lib owner (past thread world.trace) outcome :=
    reached.follows Call.body_finishes thread owner _ ended
  exact ⟨finished_streams lawful finished engaged, steady reached alone called advances⟩

/-- Nothing is put into the task after a call whose payload was not taken whole. -/
private theorem input_stops (reached : (machine lib).Reaches Allowed (.initial .empty) world)
    (alone : ∀ world move, Allowed world move → StartsAlone (Advances protocol sessionId) world move)
    (spawned : Lifecycle.SpawnedFor world protocol sessionId task) (lawful : lib.text.Lawful) {thread other : Nat}
    (order : thread < other) (engaged : Engaged protocol task (past thread world.trace))
    (short : yields (accepts protocol task) (past thread world.trace) ≠ given world thread) :
    yields (accepts protocol task) (past other world.trace) = [] := by
  apply yields_eq_nil
  intro entry member
  by_contra puts
  have later := engaged_of_accepts reached spawned member puts
  obtain ⟨call, outcome, ended⟩ := returned_before reached alone spawned order engaged later
  have streams := (streams_of_returned reached alone spawned lawful ended engaged).1
  have whole : given world thread = serverMessages lib call := by
    have found : world.threads[thread]? = some (call, .done outcome) := ended
    rw [given, found]
  rcases streams.fed.whole with all | ⟨message, refused⟩
  · exact short (all.trans whole.symm)
  · obtain ⟨owner, called, advances⟩ := engaged_advances reached spawned engaged
    obtain ⟨second, calledOther, otherAdvances⟩ := engaged_advances reached spawned later
    have ordered := (settled reached protocol task).afterRefusal.and (reached.sorted_of_kind alone)
    rcases pairwise_either ordered (mem_past.mp member) (mem_past.mp refused) (by
        rintro same
        exact absurd (congrArg Prod.fst same) (Nat.ne_of_gt order)) with ⟨after, _⟩ | ⟨_, before⟩
    · exact puts (after ⟨message, rfl⟩)
    · exact absurd (before owner second called advances calledOther otherAdvances) (Nat.not_le_of_lt order)

private theorem input_kept (reached : (machine lib).Reaches Allowed (.initial .empty) world)
    (alone : ∀ world move, Allowed world move → StartsAlone (Advances protocol sessionId) world move)
    (spawned : Lifecycle.SpawnedFor world protocol sessionId task) (lawful : lib.text.Lawful) :
    accepted world protocol task <+: (sessionCalls world protocol task).flatMap (given world) := by
  rw [(streams_by_call reached alone spawned).1, sessionCalls, flatMap_filter_eq]
  apply flatMap_range_prefix
  · intro thread _
    split
    · next engaging =>
      have engaged := any_engages.mp engaging
      obtain ⟨call, ⟨program, found⟩, _⟩ := engaged_advances reached spawned engaged
      rw [given, found]
      exact fed_within lawful (reached.follows Call.body_finishes thread call program found) engaged
    · next absent =>
      rw [yields_eq_nil fun entry member => ?_]
      by_contra puts
      exact absent (any_engages.mpr (engaged_of_accepts reached spawned member puts))
  · intro thread other order _ short
    split at short
    · next engaging => exact input_stops reached alone spawned lawful order (any_engages.mp engaging) short
    · next absent =>
      refine absurd (yields_eq_nil fun entry member => ?_) short
      by_contra puts
      exact absent (any_engages.mpr (engaged_of_accepts reached spawned member puts))

private theorem output_kept (reached : (machine lib).Reaches Allowed (.initial .empty) world)
    (alone : ∀ world move, Allowed world move → StartsAlone (Advances protocol sessionId) world move)
    (spawned : Lifecycle.SpawnedFor world protocol sessionId task) (lawful : lib.text.Lawful) :
    (sessionCalls world protocol task).flatMap (returned world) <+: gathered world protocol task := by
  rw [(streams_by_call reached alone spawned).2, sessionCalls, flatMap_filter_eq]
  apply flatMap_range_prefix
  · intro thread _
    split
    · next engaging =>
      have engaged := any_engages.mp engaging
      obtain ⟨call, ⟨program, found⟩, _⟩ := engaged_advances reached spawned engaged
      rw [returned, found]
      cases program with
      | perform action next => exact List.nil_prefix
      | done outcome =>
          obtain ⟨streams, same⟩ := streams_of_returned reached alone spawned lawful found engaged
          rw [streams.gathered same]
    · exact List.nil_prefix
  · intro thread other order _ short
    split
    · next later =>
      split at short
      · next engaging =>
        have engaged := any_engages.mp engaging
        obtain ⟨call, outcome, ended⟩ := returned_before reached alone spawned order engaged (any_engages.mp later)
        obtain ⟨streams, same⟩ := streams_of_returned reached alone spawned lawful ended engaged
        have found : world.threads[thread]? = some (call, .done outcome) := ended
        rw [returned, found, streams.gathered same] at short
        exact absurd rfl short
      · next absent =>
        refine absurd (yields_eq_nil fun entry member => ?_).symm short
        by_contra gets
        exact absent (any_engages.mpr (engaged_of_gathers reached alone spawned member gets))
    · rfl

/-- Nothing is got out of the task after a call has found its output at the end. -/
private theorem output_stops (reached : (machine lib).Reaches Allowed (.initial .empty) world)
    (alone : ∀ world move, Allowed world move → StartsAlone (Advances protocol sessionId) world move)
    (spawned : Lifecycle.SpawnedFor world protocol sessionId task) {thread other signal : Nat} (order : thread < other)
    (engaged : Engaged protocol task (past thread world.trace))
    (emptied : ⟨.collect protocol task signal, none⟩ ∈ past thread world.trace) :
    yields (gathers protocol task) (past other world.trace) = [] := by
  apply yields_eq_nil
  intro entry member
  by_contra gets
  have later := engaged_of_gathers reached alone spawned member gets
  obtain ⟨owner, called, advances⟩ := engaged_advances reached spawned engaged
  obtain ⟨second, calledOther, otherAdvances⟩ := engaged_advances reached spawned later
  have ordered := (settled reached protocol task).afterEnd.and (reached.sorted_of_kind alone)
  rcases pairwise_either ordered (mem_past.mp member) (mem_past.mp emptied) (by
      rintro same
      exact absurd (congrArg Prod.fst same) (Nat.ne_of_gt order)) with ⟨after, _⟩ | ⟨_, before⟩
  · exact gets (after ⟨signal, rfl⟩)
  · exact absurd (before owner second called advances calledOther otherAdvances) (Nat.not_le_of_lt order)

private theorem output_whole (reached : (machine lib).Reaches Allowed (.initial .empty) world)
    (alone : ∀ world move, Allowed world move → StartsAlone (Advances protocol sessionId) world move)
    (spawned : Lifecycle.SpawnedFor world protocol sessionId task) (lawful : lib.text.Lawful) {thread : Nat}
    {call : Call} {result : MpcRoundResult} (engaged : Engaged protocol task (past thread world.trace))
    (ended : world.Returned thread call (.ok (.round result))) (completed : result.status = "completed") :
    ((sessionCalls world protocol task).filter (· < thread)).flatMap (returned world) = gathered world protocol task ∧
      ∃ signal, Performed world.trace thread (.collect protocol task signal) none := by
  obtain ⟨streams, same⟩ := streams_of_returned reached alone spawned lawful ended engaged
  obtain ⟨signal, emptied⟩ := streams.emptied same result rfl completed
  refine ⟨?_, signal, mem_past.mp emptied⟩
  rw [(streams_by_call reached alone spawned).2, sessionCalls, List.filter_filter, flatMap_filter_eq]
  apply List.flatMap_congr
  intro other _
  by_cases engaging : Engaged protocol task (past other world.trace)
  · have chosen := any_engages.mpr engaging
    rcases Nat.lt_trichotomy other thread with earlier | rfl | later
    · obtain ⟨owner, outcome, returnedOther⟩ := returned_before reached alone spawned earlier engaging engaged
      obtain ⟨streamsOther, sameOther⟩ := streams_of_returned reached alone spawned lawful returnedOther engaging
      have found : world.threads[other]? = some (owner, .done outcome) := returnedOther
      simp [earlier, chosen, returned, found, streamsOther.gathered sameOther]
    · rw [streams.gathered same]
      simp [batchOf, completed]
    · rw [output_stops reached alone spawned later engaged emptied]
      simp [Nat.not_lt_of_gt later]
  · have absent : (past other world.trace).any (engages protocol task) = false := by
      rw [← Bool.not_eq_true, any_engages]
      exact engaging
    rw [yields_eq_nil fun entry member => ?_]
    · simp [absent]
    · by_contra gets
      exact engaging (engaged_of_gathers reached alone spawned member gets)

/-- Between the calls on a DKLs23 session, made one after another, and its protocol task no message is
lost, doubled or reordered, whatever else goes on. -/
theorem messages_kept (lawful : lib.text.Lawful) {seen : List Passage}
    (records : (machine lib).Records (passages lib protocol task) (StartsAlone (Advances protocol sessionId))
      (.initial .empty) world seen) (spawned : Lifecycle.SpawnedFor world protocol sessionId task) :
    MessagesKept world protocol task seen := by
  have reached := records.reaches
  have alone (world : EngineWorld lib) (move : Move Call Drift)
      (allowed : StartsAlone (Advances protocol sessionId) world move) :
      StartsAlone (Advances protocol sessionId) world move := allowed
  have input := input_kept reached alone spawned lawful
  have output := output_kept reached alone spawned lawful
  cases balanced records with
  | unspawned absent acceptedNone gatheredNone nothing =>
      rw [gatheredNone] at output
      refine ⟨?_, ?_, fun thread member call result ended completed => ?_⟩
      · rw [nothing]
        exact output
      · rw [nothing]
        exact List.nil_prefix
      · rw [(output_whole reached alone spawned lawful (any_engages.mp (List.mem_filter.mp member).2) ended completed).1,
          gatheredNone, nothing]
        rfl
  | @kept relay live fresh read written =>
      refine ⟨?_, ?_, fun thread member call result ended completed => ?_⟩
      · rw [written]
        exact output.trans (List.prefix_append _ _)
      · refine List.IsPrefix.trans ?_ input
        rw [read]
        exact List.prefix_append _ _
      · obtain ⟨whole, signal, emptied⟩ := output_whole reached alone spawned lawful
          (any_engages.mp (List.mem_filter.mp member).2) ended completed
        obtain ⟨same, there, _, drained⟩ := (settled reached protocol task).emptied thread signal emptied
        rw [live] at there
        cases there
        rw [whole, written, drained, List.append_nil]

end Runs

/-! ## A keygen in two rounds -/

def keygenId : String :=
  "00112233445566778899aabbccddeeff00112233445566778899aabbccddeeff"

def keygenCall (round : Int32) : Call :=
  .keygen .mpcEngine keygenId round
    "\x7b\"session_id\":\"s\",\"protocol\":\"dkg\",\"round\":1,\"from_id\":1,\"payload_encoding\":\"\",\"payload\":\"AQ==\"\x7d"

def keygenMoves : List (Move Call Drift) :=
  .start (keygenCall 1) :: List.replicate 4 (.run 0) ++ List.replicate 4 (.drift (.poll .dkg 0)) ++
    List.replicate 7 (.run 0) ++ .start (keygenCall 2) :: List.replicate 3 (.run 1) ++
    List.replicate 2 (.drift (.poll .dkg 0)) ++ List.replicate 9 (.run 1)

def keygenWorld : EngineWorld Toy.libraries :=
  (machine Toy.libraries).run keygenMoves (.initial .empty)

def keygenSeen : List Passage :=
  (machine Toy.libraries).sees (passages Toy.libraries .dkg 0) keygenMoves (.initial .empty)

private def spawnsFirst : Nat × Entry (Action Toy.libraries) (Action.Answer Toy.libraries) → Bool
  | (0, ⟨.spawn .dkg _, 0⟩) => true
  | _ => false

private theorem keygen_spawned : Lifecycle.SpawnedFor keygenWorld .dkg keygenId 0 := by
  have called : keygenWorld.Called 0 (keygenCall 1) := by
    rw [World.called_iff, keygenWorld, Machine.run_calls]
    rfl
  have spawns : keygenWorld.trace.any spawnsFirst = true := by decide +kernel
  obtain ⟨event, member, spawned⟩ := List.any_eq_true.mp spawns
  unfold spawnsFirst at spawned
  split at spawned
  · next run => exact ⟨0, keygenCall 1, run, called, rfl, member⟩
  · cases spawned

private def startsOne (world : EngineWorld Toy.libraries) : Move Call Drift → Bool
  | .start _ => world.idle
  | .run _ | .drift _ => true

private theorem startsOne_alone (world : EngineWorld Toy.libraries) (move : Move Call Drift)
    (checked : startsOne world move = true) : StartsAlone (Advances .dkg keygenId) world move := by
  cases move with
  | start call => exact fun _ thread _ _ _ => World.idle_sound checked thread
  | run thread => trivial
  | drift change => trivial

theorem messages_kept_once :
    Toy.status keygenWorld 1 = some "completed" ∧ keygenSeen.flatMap Passage.written = [[1], [2]] ∧
      MessagesKept keygenWorld .dkg 0 keygenSeen := by
  refine ⟨by decide +kernel, by decide +kernel, messages_kept standard_lawful ?_ keygen_spawned⟩
  exact Machine.records_of_allowedAlong startsOne_alone keygenMoves (by decide +kernel)

end CeresMpc.Delivery
