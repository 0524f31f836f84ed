import CeresMpc.Api.Footprint

/-!
# What a DKLs23 round does, step by step

Each operation of a round together with everything the round has done before it.
Laws about a round are read off these two relations instead of its code.
-/

set_option autoImplicit false

namespace CeresMpc.Api.MpcEngine

open Encoding Interleaving Program

section Past

variable {lib : Libraries} {protocol : ProtocolType}

/-- After messages have been put into a task's input. -/
def sent (protocol : ProtocolType) (task : Nat) (messages : List Bytes) (past : Past lib) : Past lib :=
  messages.foldl (fun past message => ⟨.send protocol task message, true⟩ :: past) past

@[simp] theorem sent_nil (task : Nat) (past : Past lib) : sent protocol task [] past = past := rfl

@[simp] theorem sent_cons (task : Nat) (message : Bytes) (rest : List Bytes) (past : Past lib) :
    sent protocol task (message :: rest) past =
      sent protocol task rest (⟨.send protocol task message, true⟩ :: past) := rfl

theorem sent_snoc (task : Nat) (messages : List Bytes) (message : Bytes) (past : Past lib) :
    ⟨.send protocol task message, true⟩ :: sent protocol task messages past =
      sent protocol task (messages ++ [message]) past := by
  simp [sent]

theorem sent_eq (task : Nat) (messages : List Bytes) (past : Past lib) :
    sent protocol task messages past =
      (messages.reverse.map fun message => ⟨.send protocol task message, true⟩) ++ past := by
  induction messages generalizing past with
  | nil => rfl
  | cons message rest ih => simp [ih]

variable {permitted : Past lib → Action lib → Prop} {finished : Past lib → Except String Unit → Prop}

theorem injectAll_follows {task : Nat} {messages : List Bytes} {past : Past lib}
    (sends : ∀ done message rest, messages = done ++ message :: rest →
      permitted (sent protocol task done past) (.send protocol task message))
    (fails : ∀ done message rest failure, messages = done ++ message :: rest →
      finished (⟨.send protocol task message, false⟩ :: sent protocol task done past) (.error failure))
    (ends : finished (sent protocol task messages past) (.ok ())) :
    (injectAll lib protocol task messages).Follows permitted finished past := by
  induction messages generalizing past with
  | nil => exact ends
  | cons message rest ih =>
      simp only [injectAll, bind_eq, request_bind]
      refine ⟨sends [] message rest rfl, fun accepted => ?_⟩
      rw [follows_ensure_bind]
      constructor
      · rintro rfl
        apply ih
        · intro done next later split
          exact sends (message :: done) next later (by rw [split]; rfl)
        · intro done next later failure split
          exact fails (message :: done) next later failure (by rw [split]; rfl)
        · exact ends
      · intro refused
        have closed : accepted = false := by simpa using refused
        subst closed
        exact fails [] message rest _ rfl

end Past

/-! ## A later round -/

section Advance

variable (lib : Libraries) (protocol : ProtocolType) (sessionId serverPayload : String) (base : Past lib)

abbrev looked (session : Session lib .secp256k1 protocol) : Past lib :=
  ⟨.checkout .secp256k1 protocol sessionId, .found session⟩ :: base

abbrev injected (session : Session lib .secp256k1 protocol) (messages : List Bytes) : Past lib :=
  sent protocol (dklsTask lib protocol session) messages (looked lib protocol sessionId base session)

abbrev locked (session : Session lib .secp256k1 protocol) (messages : List Bytes)
    (held : Option (Session lib .secp256k1 protocol)) : Past lib :=
  ⟨.acquire protocol sessionId, held⟩ :: injected lib protocol sessionId base session messages

abbrev collected (session : Session lib .secp256k1 protocol) (messages : List Bytes)
    (held : Session lib .secp256k1 protocol) (batch : Option (List Bytes × Bool)) : Past lib :=
  ⟨.collect protocol (dklsTask lib protocol held) (dklsTask lib protocol session), batch⟩ ::
    locked lib protocol sessionId base session messages (some held)

abbrev gathered (session : Session lib .secp256k1 protocol) (messages : List Bytes)
    (held : Session lib .secp256k1 protocol) (batch : Option (List Bytes × Bool)) : Past lib :=
  ⟨.release protocol, ()⟩ :: collected lib protocol sessionId base session messages held batch

abbrev emptied (session : Session lib .secp256k1 protocol) (messages : List Bytes)
    (held last : Session lib .secp256k1 protocol) : Past lib :=
  ⟨.remove .secp256k1 protocol sessionId, some last⟩ ::
    gathered lib protocol sessionId base session messages held none

abbrev closedInput (session : Session lib .secp256k1 protocol) (messages : List Bytes)
    (held last : Session lib .secp256k1 protocol) : Past lib :=
  ⟨.dropSender protocol (dklsTask lib protocol last), ()⟩ ::
    emptied lib protocol sessionId base session messages held last

abbrev closedBoth (session : Session lib .secp256k1 protocol) (messages : List Bytes)
    (held last : Session lib .secp256k1 protocol) : Past lib :=
  ⟨.dropReceiver protocol (dklsTask lib protocol last), ()⟩ ::
    closedInput lib protocol sessionId base session messages held last

/-- The round may run on the session, and this is its payload. -/
structure Accepted (session : Session lib .secp256k1 protocol) (env : WireEnvelope)
    (messages : List Bytes) : Prop where
  unconsumed : consumed lib protocol session = false
  parsed : parseServerEnvelopeBatch lib serverPayload = .ok (env, messages)

inductive AdvanceStep : Past lib → Action lib → Prop where
  | checkout : AdvanceStep base (.checkout .secp256k1 protocol sessionId)
  | send {session env messages done message rest} :
      Accepted lib protocol serverPayload session env messages → messages = done ++ message :: rest →
      AdvanceStep (injected lib protocol sessionId base session done)
        (.send protocol (dklsTask lib protocol session) message)
  | acquire {session env messages} : Accepted lib protocol serverPayload session env messages →
      AdvanceStep (injected lib protocol sessionId base session messages) (.acquire protocol sessionId)
  | collect {session env messages held} : Accepted lib protocol serverPayload session env messages →
      AdvanceStep (locked lib protocol sessionId base session messages (some held))
        (.collect protocol (dklsTask lib protocol held) (dklsTask lib protocol session))
  | releaseMissing {session env messages} : Accepted lib protocol serverPayload session env messages →
      AdvanceStep (locked lib protocol sessionId base session messages none) (.release protocol)
  | release {session env messages held batch} : Accepted lib protocol serverPayload session env messages →
      AdvanceStep (collected lib protocol sessionId base session messages held batch) (.release protocol)
  | resetConsumed {session env messages held batch} :
      Accepted lib protocol serverPayload session env messages → protocol = .dsg →
      AdvanceStep (gathered lib protocol sessionId base session messages held (some batch))
        (.resetConsumed sessionId)
  | remove {session env messages held} : Accepted lib protocol serverPayload session env messages →
      AdvanceStep (gathered lib protocol sessionId base session messages held none)
        (.remove .secp256k1 protocol sessionId)
  | closeInput {session env messages held last} : Accepted lib protocol serverPayload session env messages →
      AdvanceStep (emptied lib protocol sessionId base session messages held last)
        (.dropSender protocol (dklsTask lib protocol last))
  | closeOutput {session env messages held last} : Accepted lib protocol serverPayload session env messages →
      AdvanceStep (closedInput lib protocol sessionId base session messages held last)
        (.dropReceiver protocol (dklsTask lib protocol last))
  | join {session env messages held last handle} : Accepted lib protocol serverPayload session env messages →
      dklsTaskHandle lib protocol last = some handle →
      AdvanceStep (closedBoth lib protocol sessionId base session messages held last) (.join protocol handle)
  /-- The cloned `tx_in` is dropped on every exit. -/
  | dropClone {session extra} : consumed lib protocol session = false →
      AdvanceStep (extra ++ looked lib protocol sessionId base session)
        (.dropSender protocol (dklsTask lib protocol session))

variable (finish : Session lib .secp256k1 protocol → UInt8 → Dkls.Output protocol →
  Except String MpcRoundResult)

inductive AdvanceEnd : Past lib → Except String MpcRoundResult → Prop where
  | failed {past failure} : AdvanceEnd past (.error failure)
  | continued {session env messages held batch protocolDone reset} :
      Accepted lib protocol serverPayload session env messages →
      reset = (if protocol = .dsg then [⟨.resetConsumed sessionId, ()⟩] else []) →
      AdvanceEnd (⟨.dropSender protocol (dklsTask lib protocol session), ()⟩ :: (reset ++
          gathered lib protocol sessionId base session messages held (some (batch, protocolDone))))
        (.ok (makeInProgressBatch lib sessionId protocol env.round batch))
  | completed {session env messages held last handle output result} :
      Accepted lib protocol serverPayload session env messages →
      dklsTaskHandle lib protocol last = some handle → finish session env.round output = .ok result →
      AdvanceEnd (⟨.dropSender protocol (dklsTask lib protocol session), ()⟩ ::
          ⟨.join protocol handle, .ok (.ok output)⟩ ::
          closedBoth lib protocol sessionId base session messages held last)
        (.ok result)

/-- What a round has done when it fails. -/
inductive AdvanceFailed : Past lib → Prop where
  | absent {found} : (∀ session, found ≠ .found session) →
      AdvanceFailed (⟨.checkout .secp256k1 protocol sessionId, found⟩ :: base)
  | rejected {session} : consumed lib protocol session = true →
      AdvanceFailed (looked lib protocol sessionId base session)
  | unreadable {session failure} : parseServerEnvelopeBatch lib serverPayload = .error failure →
      AdvanceFailed (⟨.dropSender protocol (dklsTask lib protocol session), ()⟩ ::
        looked lib protocol sessionId base session)
  | refused {session env messages done message rest} : Accepted lib protocol serverPayload session env messages →
      messages = done ++ message :: rest →
      AdvanceFailed (⟨.dropSender protocol (dklsTask lib protocol session), ()⟩ ::
        ⟨.send protocol (dklsTask lib protocol session) message, false⟩ ::
          injected lib protocol sessionId base session done)
  | gone {session env messages} : Accepted lib protocol serverPayload session env messages →
      AdvanceFailed (⟨.dropSender protocol (dklsTask lib protocol session), ()⟩ :: ⟨.release protocol, ()⟩ ::
        locked lib protocol sessionId base session messages none)
  | closed {session env messages held tail} : Accepted lib protocol serverPayload session env messages →
      (∀ entry ∈ tail, entry.1.Concludes) →
      AdvanceFailed (tail ++ gathered lib protocol sessionId base session messages held none)

variable {lib protocol sessionId serverPayload base finish}

theorem looked_mem_injected {session : Session lib .secp256k1 protocol} {messages : List Bytes} :
    ⟨.checkout .secp256k1 protocol sessionId, .found session⟩ ∈ injected lib protocol sessionId base session messages := by
  rw [injected, sent_eq]
  exact List.mem_append_right _ List.mem_cons_self

private theorem dropClone_sent {session : Session lib .secp256k1 protocol} {messages : List Bytes}
    (extra : Past lib) (free : consumed lib protocol session = false) :
    AdvanceStep lib protocol sessionId serverPayload base
      (extra ++ injected lib protocol sessionId base session messages)
      (.dropSender protocol (dklsTask lib protocol session)) := by
  rw [injected, sent_eq, ← List.append_assoc]
  exact .dropClone free

private theorem failed_closed {session held : Session lib .secp256k1 protocol} {env : WireEnvelope}
    {messages : List Bytes} {failure : String} (accepted : Accepted lib protocol serverPayload session env messages)
    (tail : Past lib) (concludes : ∀ entry ∈ tail, entry.1.Concludes) :
    Ends (AdvanceEnd lib protocol sessionId serverPayload base finish)
      (AdvanceFailed lib protocol sessionId serverPayload base)
      (tail ++ gathered lib protocol sessionId base session messages held none) (.error failure) :=
  ⟨.failed, fun _ _ => .closed accepted concludes⟩

theorem advance_ends :
    (advance lib protocol sessionId serverPayload finish).Follows
      (AdvanceStep lib protocol sessionId serverPayload base)
      (Ends (AdvanceEnd lib protocol sessionId serverPayload base finish)
        (AdvanceFailed lib protocol sessionId serverPayload base)) base := by
  simp only [advance, bind_eq, request_bind]
  refine ⟨.checkout, fun found => ?_⟩
  cases found with
  | missing => exact ⟨.failed, fun _ _ => .absent (by rintro _ ⟨⟩)⟩
  | expired => exact ⟨.failed, fun _ _ => .absent (by rintro _ ⟨⟩)⟩
  | found session =>
      rw [follows_ensure_bind]
      refine ⟨fun free => ?_, fun used => ⟨.failed, fun _ _ => .rejected (by simpa using used)⟩⟩
      rw [follows_always]
      simp only [runRound, bind_eq, liftM_eq, follows_lift_bind]
      constructor
      · intro received parsed
        obtain ⟨env, messages⟩ := received
        have accepted : Accepted lib protocol serverPayload session env messages := ⟨free, parsed⟩
        rw [follows_bind]
        apply injectAll_follows
        · intro done message rest split
          exact .send accepted split
        · intro done message rest failure split
          exact ⟨dropClone_sent [_] free, fun _ => ⟨.failed, fun _ _ => .refused accepted split⟩⟩
        · simp only [collectLocked, bind_eq, request_bind, perform_bind]
          refine ⟨.acquire accepted, fun held => ?_⟩
          cases held with
          | none =>
              refine ⟨.releaseMissing accepted, fun _ => ?_⟩
              exact ⟨dropClone_sent [_, _] free, fun _ => ⟨.failed, fun _ _ => .gone accepted⟩⟩
          | some held =>
              refine ⟨.collect accepted, fun batch => ⟨.release accepted, fun _ => ?_⟩⟩
              cases batch with
              | some batch =>
                  obtain ⟨batch, protocolDone⟩ := batch
                  by_cases signing : protocol = .dsg
                  · subst signing
                    refine ⟨.resetConsumed accepted rfl, fun _ => ⟨dropClone_sent [_, _, _, _] free, fun _ => ?_⟩⟩
                    exact ⟨.continued accepted rfl, by rintro _ ⟨⟩⟩
                  · simp only [signing, if_false]
                    refine ⟨dropClone_sent [_, _, _] free, fun _ => ?_⟩
                    exact ⟨.continued accepted (by rw [if_neg signing]), by rintro _ ⟨⟩⟩
              | none =>
                  refine ⟨.remove accepted, fun removed => ?_⟩
                  simp only [follows_lift_bind, okOr_eq_ok]
                  refine ⟨?_, fun failure _ => ⟨dropClone_sent [_, _, _, _] free, fun _ =>
                    failed_closed accepted [_, _] (by simp [Action.Concludes])⟩⟩
                  rintro last rfl
                  refine ⟨.closeInput accepted, fun _ => ⟨.closeOutput accepted, fun _ => ?_⟩⟩
                  simp only [follows_lift_bind, okOr_eq_ok]
                  refine ⟨fun handle held => ?_, fun failure _ => ⟨dropClone_sent [_, _, _, _, _, _] free, fun _ =>
                    failed_closed accepted [_, _, _, _] (by simp [Action.Concludes])⟩⟩
                  simp only [joinTask, bind_eq, liftM_eq, request_bind, perform_bind, bind_assoc]
                  refine ⟨.join accepted held, fun joined => ?_⟩
                  simp only [follows_lift_bind, mapErr_eq_ok]
                  refine ⟨?_, fun failure _ => ⟨dropClone_sent [_, _, _, _, _, _, _] free, fun _ =>
                    failed_closed accepted [_, _, _, _, _] (by simp [Action.Concludes])⟩⟩
                  rintro outcome rfl
                  refine ⟨?_, fun failure _ => ⟨dropClone_sent [_, _, _, _, _, _, _] free, fun _ =>
                    failed_closed accepted [_, _, _, _, _] (by simp [Action.Concludes])⟩⟩
                  rintro output rfl
                  cases made : finish session env.round output with
                  | error failure =>
                      refine ⟨dropClone_sent [_, _, _, _, _, _, _] free, fun _ => ?_⟩
                      exact failed_closed accepted [_, _, _, _, _] (by simp [Action.Concludes])
                  | ok result =>
                      refine ⟨dropClone_sent [_, _, _, _, _, _, _] free, fun _ => ?_⟩
                      exact ⟨.completed accepted held made, by rintro _ ⟨⟩⟩
      · intro failure unparsed
        refine ⟨@AdvanceStep.dropClone lib protocol sessionId serverPayload base session [] free, fun _ => ?_⟩
        exact ⟨.failed, fun _ _ => .unreadable unparsed⟩

end Advance

/-! ## Round 0 -/

section Keyshare

variable (lib : Libraries) (protocol : ProtocolType) (sessionId : String) (base : Past lib)

abbrev taken (last : Session lib .secp256k1 protocol) : Past lib :=
  ⟨.dropSender protocol (dklsTask lib protocol last), ()⟩ ::
    ⟨.remove .secp256k1 protocol sessionId, some last⟩ :: base

inductive KeyshareStep : Past lib → Action lib → Prop where
  | remove : KeyshareStep base (.remove .secp256k1 protocol sessionId)
  | closeInput {last} : KeyshareStep (⟨.remove .secp256k1 protocol sessionId, some last⟩ :: base)
      (.dropSender protocol (dklsTask lib protocol last))
  | join {last handle} : dklsTaskHandle lib protocol last = some handle →
      KeyshareStep (taken lib protocol sessionId base last) (.join protocol handle)
  /-- The receiver is dropped with the session. -/
  | closeOutput {last joined} : (∀ entry ∈ joined, ∃ handle, entry.1 = .join protocol handle) →
      KeyshareStep (joined ++ taken lib protocol sessionId base last)
        (.dropReceiver protocol (dklsTask lib protocol last))

variable (finish : Session lib .secp256k1 protocol → UInt8 → Dkls.Output protocol →
  Except String MpcRoundResult)

inductive KeyshareEnd : Past lib → Except String MpcRoundResult → Prop where
  | failed {past failure} : KeyshareEnd past (.error failure)
  | completed {last handle output result} :
      dklsTaskHandle lib protocol last = some handle → finish last 0 output = .ok result →
      KeyshareEnd (⟨.dropReceiver protocol (dklsTask lib protocol last), ()⟩ ::
          ⟨.join protocol handle, .ok (.ok output)⟩ :: taken lib protocol sessionId base last)
        (.ok result)

variable {lib protocol sessionId base finish}

theorem collectKeyshare_steps :
    (collectKeyshare lib protocol sessionId finish).Follows (KeyshareStep lib protocol sessionId base)
      (KeyshareEnd lib protocol sessionId base finish) base := by
  simp only [collectKeyshare, bind_eq, liftM_eq, request_bind]
  refine ⟨.remove, fun removed => ?_⟩
  simp only [follows_lift_bind, okOr_eq_ok]
  refine ⟨?_, fun _ _ => .failed⟩
  rintro last rfl
  refine ⟨.closeInput, fun _ => ?_⟩
  have closes (joined : Past lib) (onlyJoins : ∀ entry ∈ joined, ∃ handle, entry.1 = .join protocol handle) :
      KeyshareStep lib protocol sessionId base (joined ++ taken lib protocol sessionId base last)
        (.dropReceiver protocol (dklsTask lib protocol last)) :=
    .closeOutput onlyJoins
  rw [follows_always]
  simp only [follows_lift_bind, okOr_eq_ok]
  refine ⟨fun handle held => ?_, fun failure _ => ⟨closes [] (by simp), fun _ => .failed⟩⟩
  simp only [joinTask, bind_eq, liftM_eq, request_bind, perform_bind, bind_assoc]
  refine ⟨.join held, fun joined => ?_⟩
  have closes := closes [⟨.join protocol handle, joined⟩] (by simp)
  simp only [follows_lift_bind, mapErr_eq_ok]
  refine ⟨?_, fun failure _ => ⟨closes, fun _ => .failed⟩⟩
  rintro outcome rfl
  refine ⟨?_, fun failure _ => ⟨closes, fun _ => .failed⟩⟩
  rintro output rfl
  refine ⟨closes, fun _ => ?_⟩
  cases made : finish last 0 output with
  | error failure => exact .failed
  | ok result => exact .completed held made

/-- A round 0 that fails lets nothing pass either. -/
theorem collectKeyshare_ends :
    (collectKeyshare lib protocol sessionId finish).Follows (KeyshareStep lib protocol sessionId base)
      (Ends (KeyshareEnd lib protocol sessionId base finish)
        fun past => ∃ tail, past = tail ++ base ∧ ∀ entry ∈ tail, entry.1.Concludes) base := by
  refine (collectKeyshare_steps.and (collectKeyshare_concludes finish).tracks).mono (fun _ _ step => step.1) ?_
  exact fun past outcome ended => ⟨ended.1, fun _ _ => ended.2⟩

end Keyshare

/-! ## Round 1 -/

section Open

variable (lib : Libraries) (protocol : ProtocolType) (sessionId : String) (serverMsgs : List Bytes)
  (protocolRun : lib.dkls.Protocol protocol) (base : Past lib)

abbrev spawned (task : Nat) : Past lib :=
  ⟨.spawn protocol protocolRun, task⟩ :: base

abbrev fed (task : Nat) (messages : List Bytes) : Past lib :=
  sent protocol task messages (spawned lib protocol protocolRun base task)

abbrev answered (task : Nat) (batch : Option (List Bytes × Bool)) : Past lib :=
  ⟨.collect protocol task task, batch⟩ :: fed lib protocol protocolRun base task serverMsgs

/-- The round has given up on its task. -/
inductive Abandoned (task : Nat) : Past lib → Prop where
  | aborted {done message rest} : serverMsgs = done ++ message :: rest →
      Abandoned task (⟨.abort protocol task, ()⟩ :: ⟨.send protocol task message, false⟩ ::
        fed lib protocol protocolRun base task done)
  | closed : Abandoned task (answered lib protocol serverMsgs protocolRun base task none)
  | joined {outcome} : Abandoned task (⟨.join protocol task, outcome⟩ ::
      answered lib protocol serverMsgs protocolRun base task none)

/-- A session as round 1 makes it of its task. -/
structure Owns (session : Session lib .secp256k1 protocol) (task : Nat) : Prop where
  onTask : dklsTask lib protocol session = task
  joins : dklsTaskHandle lib protocol session = some task
  unconsumed : consumed lib protocol session = false

inductive OpenStep : Past lib → Action lib → Prop where
  | spawn : OpenStep base (.spawn protocol protocolRun)
  | send {task done message rest} : serverMsgs = done ++ message :: rest →
      OpenStep (fed lib protocol protocolRun base task done) (.send protocol task message)
  | abort {task done message rest} : serverMsgs = done ++ message :: rest →
      OpenStep (⟨.send protocol task message, false⟩ :: fed lib protocol protocolRun base task done)
        (.abort protocol task)
  | collect {task} : OpenStep (fed lib protocol protocolRun base task serverMsgs)
      (.collect protocol task task)
  | join {task} : OpenStep (answered lib protocol serverMsgs protocolRun base task none) (.join protocol task)
  | closeInput {task past} : Abandoned lib protocol serverMsgs protocolRun base task past →
      OpenStep past (.dropSender protocol task)
  | closeOutput {task past} : Abandoned lib protocol serverMsgs protocolRun base task past →
      OpenStep (⟨.dropSender protocol task, ()⟩ :: past) (.dropReceiver protocol task)
  | now {task batch} : OpenStep (answered lib protocol serverMsgs protocolRun base task (some batch)) .now
  | insert {task batch clock session} : (∀ entry ∈ clock, entry.1 = .now) → Owns lib protocol session task →
      OpenStep (clock ++ answered lib protocol serverMsgs protocolRun base task (some batch))
        (.insert .secp256k1 protocol sessionId session)

inductive OpenEnd (round : UInt8) : Past lib → Except String MpcRoundResult → Prop where
  | failed {past failure} : OpenEnd round past (.error failure)
  | opened {task batch protocolDone clock session} : (∀ entry ∈ clock, entry.1 = .now) →
      Owns lib protocol session task →
      OpenEnd round (⟨.insert .secp256k1 protocol sessionId session, ()⟩ :: (clock ++
          answered lib protocol serverMsgs protocolRun base task (some (batch, protocolDone))))
        (.ok (makeInProgressBatch lib sessionId protocol round batch))

/-- What a round has done when it fails: it has given up on its task and dropped its ends of the channels. -/
inductive OpenFailed : Past lib → Prop where
  | abandoned {task past} : Abandoned lib protocol serverMsgs protocolRun base task past →
      OpenFailed (⟨.dropReceiver protocol task, ()⟩ :: ⟨.dropSender protocol task, ()⟩ :: past)

variable {lib protocol sessionId serverMsgs protocolRun base}

/-- What a round makes of its task's end: it may look at the task's result, and fails. -/
def Closing (protocol : ProtocolType) (closed : Nat → EngineM lib (List Bytes)) : Prop :=
  ∀ task past, (closed task).Follows (fun now action => now = past ∧ action = .join protocol task)
    (fun now outcome => (now = past ∨ ∃ joined, now = ⟨.join protocol task, joined⟩ :: past) ∧
      ∃ failure, outcome = .error failure) past

/-- The session a round makes of its task. -/
def Opening (protocol : ProtocolType) (session : Nat → EngineM lib (Session lib .secp256k1 protocol)) : Prop :=
  ∀ task past, (session task).Follows (fun now action => now = past ∧ action = .now)
    (fun now outcome => ∃ clock opened, now = clock ++ past ∧ (∀ entry ∈ clock, entry.1 = .now) ∧
      outcome = .ok opened ∧ Owns lib protocol opened task) past

theorem openSession_ends {serverEnv : WireEnvelope} {closed : Nat → EngineM lib (List Bytes)}
    {session : Nat → EngineM lib (Session lib .secp256k1 protocol)}
    (closing : Closing protocol closed) (opening : Opening protocol session) :
    (openSession lib protocol sessionId serverEnv serverMsgs protocolRun closed session).Follows
      (OpenStep lib protocol sessionId serverMsgs protocolRun base)
      (Ends (OpenEnd lib protocol sessionId serverMsgs protocolRun base serverEnv.round)
        (OpenFailed lib protocol serverMsgs protocolRun base)) base := by
  simp only [openSession, bind_eq, request_bind]
  refine ⟨.spawn, fun task => ?_⟩
  rw [follows_bind, firstBatch, follows_onFailure]
  simp only [bind_eq]
  rw [follows_bind, follows_onFailure]
  apply injectAll_follows
  · intro done message rest split
    exact .send split
  · intro done message rest failure split
    refine ⟨.abort split, fun _ => ?_⟩
    have abandoned : Abandoned lib protocol serverMsgs protocolRun base task _ := .aborted split
    exact ⟨.closeInput abandoned, fun _ => ⟨.closeOutput abandoned, fun _ => ⟨.failed, fun _ _ => .abandoned abandoned⟩⟩⟩
  · refine ⟨.collect, fun batch => ?_⟩
    cases batch with
    | none =>
        have closes := closing task (answered lib protocol serverMsgs protocolRun base task none)
        apply closes.mono
        · rintro past action ⟨rfl, rfl⟩
          exact .join
        · rintro past outcome ⟨reached, failure, rfl⟩
          have abandoned : Abandoned lib protocol serverMsgs protocolRun base task past := by
            rcases reached with rfl | ⟨joined, rfl⟩
            · exact .closed
            · exact .joined
          exact ⟨.closeInput abandoned, fun _ => ⟨.closeOutput abandoned, fun _ => ⟨.failed, fun _ _ => .abandoned abandoned⟩⟩⟩
    | some batch =>
        obtain ⟨batch, protocolDone⟩ := batch
        have opens := opening task
          (answered lib protocol serverMsgs protocolRun base task (some (batch, protocolDone)))
        change Follows (OpenStep lib protocol sessionId serverMsgs protocolRun base)
          (Ends (OpenEnd lib protocol sessionId serverMsgs protocolRun base serverEnv.round)
            (OpenFailed lib protocol serverMsgs protocolRun base)) _ ((session task).bind _)
        refine (follows_bind _ _).mpr (opens.mono ?_ ?_)
        · rintro past action ⟨rfl, rfl⟩
          exact .now
        · rintro past outcome ⟨clock, opened, rfl, reads, rfl, owns⟩
          exact ⟨.insert reads owns, fun _ => ⟨.opened reads owns, by rintro _ ⟨⟩⟩⟩

end Open

section First

variable (lib : Libraries) (protocol : ProtocolType) (sessionId serverPayload : String) (base : Past lib)

/-- Round 1 reads and draws, and then opens a session for the messages of its payload. -/
inductive FirstStep : Past lib → Action lib → Prop where
  | read {past reads action} : (∀ entry ∈ reads, entry.1.Reads) → past = reads ++ base → action.Reads →
      FirstStep past action
  | opens {reads env messages protocolRun past action} : (∀ entry ∈ reads, entry.1.Reads) →
      parseServerEnvelopeBatch lib serverPayload = .ok (env, messages) →
      OpenStep lib protocol sessionId messages protocolRun (reads ++ base) past action → FirstStep past action

inductive FirstEnd : Past lib → Except String MpcRoundResult → Prop where
  | failed {past failure} : FirstEnd past (.error failure)
  | opened {reads env messages protocolRun past outcome} : (∀ entry ∈ reads, entry.1.Reads) →
      parseServerEnvelopeBatch lib serverPayload = .ok (env, messages) →
      OpenEnd lib protocol sessionId messages protocolRun (reads ++ base) env.round past outcome →
      FirstEnd past outcome

/-- What a first round has done when it fails. -/
inductive FirstFailed : Past lib → Prop where
  | stopped {reads} : (∀ entry ∈ reads, entry.1.Reads) → FirstFailed (reads ++ base)
  | opens {reads env messages protocolRun past} : (∀ entry ∈ reads, entry.1.Reads) →
      parseServerEnvelopeBatch lib serverPayload = .ok (env, messages) →
      OpenFailed lib protocol messages protocolRun (reads ++ base) past → FirstFailed past

variable {lib protocol sessionId serverPayload base}

private theorem fail_closing {protocol : ProtocolType} (message : String) :
    Closing protocol fun _ : Nat => (.fail message : EngineM lib (List Bytes)) :=
  fun _ _ => ⟨.inl rfl, message, rfl⟩

private theorem first_reads {action : Action lib} (reads : Past lib) (only : ∀ entry ∈ reads, entry.1.Reads)
    (reading : action.Reads) : FirstStep lib protocol sessionId serverPayload base (reads ++ base) action :=
  .read only rfl reading

private theorem first_stops {failure : String} (reads : Past lib) (only : ∀ entry ∈ reads, entry.1.Reads) :
    Ends (FirstEnd lib protocol sessionId serverPayload base) (FirstFailed lib protocol serverPayload base)
      (reads ++ base) (.error failure) :=
  ⟨.failed, fun _ _ => .stopped only⟩

private theorem keygenClosed_closing : Closing .dkg (keygenClosed lib) :=
  fun _ _ => ⟨⟨rfl, rfl⟩, fun joined => ⟨.inr ⟨joined, rfl⟩, _, rfl⟩⟩

private theorem openSession_first {reads : Past lib} {serverEnv : WireEnvelope} {messages : List Bytes}
    {protocolRun : lib.dkls.Protocol protocol} {closed : Nat → EngineM lib (List Bytes)}
    {session : Nat → EngineM lib (Session lib .secp256k1 protocol)} (only : ∀ entry ∈ reads, entry.1.Reads)
    (parsed : parseServerEnvelopeBatch lib serverPayload = .ok (serverEnv, messages))
    (closing : Closing protocol closed) (opening : Opening protocol session) :
    (openSession lib protocol sessionId serverEnv messages protocolRun closed session).Follows
      (FirstStep lib protocol sessionId serverPayload base)
      (Ends (FirstEnd lib protocol sessionId serverPayload base) (FirstFailed lib protocol serverPayload base))
      (reads ++ base) := by
  refine (openSession_ends closing opening).mono (fun _ _ step => .opens only parsed step) ?_
  rintro past outcome ⟨ended, fails⟩
  exact ⟨.opened only parsed ended, fun failure failed => .opens only parsed (fails failure failed)⟩

theorem keygenRound1_ends :
    (keygenRound1 lib sessionId serverPayload).Follows (FirstStep lib .dkg sessionId serverPayload base)
      (Ends (FirstEnd lib .dkg sessionId serverPayload base) (FirstFailed lib .dkg serverPayload base)) base := by
  have stops (failure : String) := @first_stops lib .dkg sessionId serverPayload base failure [] (by simp)
  simp only [keygenRound1, bind_eq, liftM_eq, request_bind, follows_lift_bind]
  refine ⟨fun received parsed => ?_, fun failure _ => stops failure⟩
  obtain ⟨serverEnv, messages⟩ := received
  refine ⟨fun inst _ => ?_, fun failure _ => stops failure⟩
  refine ⟨first_reads [] (by simp) trivial, fun seed => ?_⟩
  have only : ∀ entry ∈ ([⟨.random, seed⟩] : Past lib), entry.1.Reads := by simp [Action.Reads]
  refine openSession_first only parsed keygenClosed_closing fun task past => ?_
  exact ⟨[], _, rfl, by simp, rfl, rfl, rfl, rfl⟩

theorem recoverRound1_ends {backupShare : Option String} {rotationVersion : Option Int32} :
    (recoverRound1 lib sessionId serverPayload backupShare rotationVersion).Follows
      (FirstStep lib .rotation sessionId serverPayload base)
      (Ends (FirstEnd lib .rotation sessionId serverPayload base)
        (FirstFailed lib .rotation serverPayload base)) base := by
  have stops (failure : String) := @first_stops lib .rotation sessionId serverPayload base failure [] (by simp)
  simp only [recoverRound1, bind_eq, liftM_eq, request_bind, follows_lift_bind]
  refine ⟨fun received parsed => ?_, fun failure _ => stops failure⟩
  obtain ⟨serverEnv, messages⟩ := received
  refine ⟨fun bs _ => ⟨fun rv _ => ⟨fun oldKs _ => ⟨fun inst _ => ?_, fun failure _ => stops failure⟩,
    fun failure _ => stops failure⟩, fun failure _ => stops failure⟩, fun failure _ => stops failure⟩
  refine ⟨first_reads [] (by simp) trivial, fun seed => ?_⟩
  have only : ∀ entry ∈ ([⟨.random, seed⟩] : Past lib), entry.1.Reads := by simp [Action.Reads]
  refine openSession_first only parsed (fail_closing _) fun task past => ?_
  exact ⟨⟨rfl, rfl⟩, fun createdAt => ⟨[⟨.now, createdAt⟩], _, rfl, by simp, rfl, rfl, rfl, rfl⟩⟩

theorem signRound1_ends {share messageHashHex : Option String} :
    (signRound1 lib sessionId serverPayload share messageHashHex).Follows
      (FirstStep lib .dsg sessionId serverPayload base)
      (Ends (FirstEnd lib .dsg sessionId serverPayload base) (FirstFailed lib .dsg serverPayload base)) base := by
  have stops (failure : String) := @first_stops lib .dsg sessionId serverPayload base failure [] (by simp)
  simp only [signRound1, bind_eq, liftM_eq, request_bind, follows_lift_bind]
  refine ⟨fun received parsed => ?_, fun failure _ => stops failure⟩
  obtain ⟨serverEnv, messages⟩ := received
  refine ⟨fun shareB64 _ => ⟨fun hashHex _ => ⟨fun digest _ => ⟨fun keyshare _ => ?_, fun failure _ => stops failure⟩,
    fun failure _ => stops failure⟩, fun failure _ => stops failure⟩, fun failure _ => stops failure⟩
  refine ⟨first_reads [] (by simp) trivial, fun exported => ?_⟩
  have looked : ∀ entry ∈ ([⟨.exportedContains (compressedHex lib keyshare), exported⟩] : Past lib), entry.1.Reads := by
    simp [Action.Reads]
  simp only [follows_ensure_bind, follows_lift_bind]
  refine ⟨fun _ => ⟨fun inst _ => ?_, fun _ _ => first_stops [_] looked⟩, fun _ => first_stops [_] looked⟩
  refine ⟨first_reads [_] looked trivial, fun seed => ?_⟩
  have only : ∀ entry ∈ ([⟨.random, seed⟩, ⟨.exportedContains (compressedHex lib keyshare), exported⟩] : Past lib),
      entry.1.Reads := by simp [Action.Reads]
  refine openSession_first only parsed (fail_closing _) fun task past => ?_
  exact ⟨[], _, rfl, by simp, rfl, rfl, rfl, rfl⟩

end First

end CeresMpc.Api.MpcEngine
