import CeresMpc.Api.CallSteps
import CeresMpc.Api.Runs
import CeresMpc.Interleaving.Lineage
import CeresMpc.Toy

/-!
# A session completes at most once

A session is put into its table by a round 1 call, and a FROST round 2 takes it out and
puts it back. The call that completes it takes it out for good.
-/

set_option autoImplicit false

namespace CeresMpc.Lifecycle

open Encoding Interleaving Program Api

variable {lib : Libraries}

/-! ## Who holds a session -/

abbrev Place := Curve × ProtocolType × String

/-- What an operation does with the sessions of the six tables. -/
def lineageEvent : Nat × Entry (Action lib) (Action.Answer lib) → Option (Lineage.Event Place)
  | (thread, ⟨.insert curve protocol sessionId _, _⟩) => some (.put thread (curve, protocol, sessionId))
  | (thread, ⟨.remove curve protocol sessionId, _⟩) => some (.take thread (curve, protocol, sessionId))
  | (_, ⟨.checkout curve protocol sessionId, .expired⟩) => some (.evict (curve, protocol, sessionId))
  | _ => none

/-- The sessions by the round 1 calls they come from. -/
def descent (trace : List (Nat × Entry (Action lib) (Action.Answer lib))) : Lineage.State Place :=
  Lineage.state (trace.filterMap lineageEvent)

/-- Operations that put a session into a table or take it out. -/
def Moves : Action lib → Prop
  | .insert .. | .remove .. => True
  | _ => False

/-- A session's first holder is a round 1 call on its id. -/
def Opened (world : EngineWorld lib) (protocol : ProtocolType) (sessionId : String) (origin : Nat) : Prop :=
  ∃ call, world.Called origin call ∧ call.round = some 1 ∧ call.scope = some (protocol, sessionId)

/-- A call has returned a completed result. -/
def Completed (world : EngineWorld lib) (thread : Nat) : Prop :=
  ∃ call reply, world.Returned thread call (.ok reply) ∧ reply.status = "completed"

/-- Each session that a first round has put into its table completes for one call. -/
structure OneResult (world : EngineWorld lib) : Prop where
  opened : ∀ thread call protocol sessionId, Completed world thread → world.Called thread call →
    call.scope = some (protocol, sessionId) →
      ∃ origin, (descent world.trace).hand thread = some origin ∧ Opened world protocol sessionId origin
  once : ∀ thread other origin, Completed world thread → Completed world other →
    (descent world.trace).hand thread = some origin → (descent world.trace).hand other = some origin → thread = other

/-- Answers with a session in them. -/
inductive FindsOn (curve : Curve) (protocol : ProtocolType) (sessionId : String) :
    Entry (Action lib) (Action.Answer lib) → Prop where
  | remove {session} : FindsOn curve protocol sessionId ⟨.remove curve protocol sessionId, some session⟩
  | checkout {session} : FindsOn curve protocol sessionId ⟨.checkout curve protocol sessionId, .found session⟩

/-- No session of the other curve has been found under the id. -/
def FindsOnly (curve : Curve) (protocol : ProtocolType) (sessionId : String) (past : Past lib) : Prop :=
  ∀ found, ∀ entry ∈ past, FindsOn found protocol sessionId entry → found = curve

/-- Once a call has taken a session and completed it, later calls on the id fail until there
has been another first round, unless they find a session of the other curve. -/
def LaterFail (world : EngineWorld lib) : Prop :=
  ∀ thread curve protocol sessionId session later earlier,
    world.trace = later ++ (thread, ⟨.remove curve protocol sessionId, some session⟩) :: earlier →
    Completed world thread →
    (∀ opener call stored, Performed later opener (.insert curve protocol sessionId stored) () →
      world.Called opener call → call.round ≠ some 1) →
    ∀ other call outcome, other ≠ thread → world.Returned other call outcome →
      call.scope = some (protocol, sessionId) → call.round ≠ some 1 → past other earlier = [] →
      FindsOnly curve protocol sessionId (past other world.trace) → ∃ failure, outcome = .error failure

/-- A FROST call other than a first round puts its session back only when nothing has been
inserted under the id since it took it. -/
def PutsBackInPlace (world : EngineWorld lib) : Move Call Drift → Prop
  | .run thread => ∀ call protocol sessionId session, world.Called thread call → call.round ≠ some 1 →
      world.nextAction thread = some (.insert .ed25519 protocol sessionId session) →
      ∀ later earlier taken, world.trace = later ++ (thread, ⟨.remove .ed25519 protocol sessionId, taken⟩) :: earlier →
        ∀ other stored, ¬Performed later other (.insert .ed25519 protocol sessionId stored) ()
  | .start _ | .drift _ => True

/-- A session completes at most once. -/
def CompletesOnce (lib : Libraries) (Allowed : EngineWorld lib → Move Call Drift → Prop) : Prop :=
  ∀ world : EngineWorld lib, (machine lib).Reaches Allowed (.initial .empty) world →
    OneResult world ∧ LaterFail world

/-! ## Steps -/

section Steps

variable {call : Call}

private theorem routed_still {toEd25519 : Bool} {base : Past lib} (routed : Call.Routed lib call toEd25519 base) :
    ∀ entry ∈ base, ¬Moves entry.1 := by
  intro entry member
  obtain ⟨protocol, sessionId, same⟩ := routed.looks entry member
  rw [same]
  exact id

private theorem reads_still {reads : Past lib} (only : ∀ entry ∈ reads, entry.1.Reads) :
    ∀ entry ∈ reads, ¬Moves entry.1 := by
  intro entry member moves
  have reading := only entry member
  cases action : entry.1 with
  | insert => simp [action, Action.Reads] at reading
  | remove => simp [action, Action.Reads] at reading
  | _ => simp [action, Moves] at moves

private theorem clock_still {clock : Past lib} (only : ∀ entry ∈ clock, entry.1 = .now) :
    ∀ entry ∈ clock, ¬Moves entry.1 := by
  intro entry member
  rw [only entry member]
  exact id

private theorem sent_still {protocol : ProtocolType} {task : Nat} {messages : List Bytes} {past : Past lib}
    (still : ∀ entry ∈ past, ¬Moves entry.1) :
    ∀ entry ∈ MpcEngine.sent protocol task messages past, ¬Moves entry.1 := by
  intro entry member
  rw [MpcEngine.sent_eq] at member
  rcases List.mem_append.mp member with sends | before
  · obtain ⟨message, _, rfl⟩ := List.mem_map.mp sends
    exact id
  · exact still entry before

private theorem cons_still {entry : Entry (Action lib) (Action.Answer lib)} {past : Past lib}
    (first : ¬Moves entry.1) (still : ∀ entry ∈ past, ¬Moves entry.1) : ∀ other ∈ entry :: past, ¬Moves other.1 := by
  intro other member
  rcases List.mem_cons.mp member with rfl | before
  · exact first
  · exact still other before

private theorem append_still {more past : Past lib} (first : ∀ entry ∈ more, ¬Moves entry.1)
    (still : ∀ entry ∈ past, ¬Moves entry.1) : ∀ entry ∈ more ++ past, ¬Moves entry.1 := by
  intro entry member
  rcases List.mem_append.mp member with new | before
  · exact first entry new
  · exact still entry before

private theorem opens_still {protocol : ProtocolType} {ceremony : EngineEd25519.Ceremony lib protocol}
    {opens : Past lib → Session lib .ed25519 protocol → String → Prop}
    {completes : Session lib .ed25519 protocol → MpcRoundResult → Prop} {sessionId : String} {round : Int32}
    (performs : Call.Performs lib call protocol ceremony opens completes sessionId round) {reads : Past lib}
    {session : Session lib .ed25519 protocol} {inner : String} (opened : opens reads session inner) :
    ∀ entry ∈ reads, ¬Moves entry.1 := by
  cases performs with
  | keygen named =>
      obtain ⟨_, draw, _, rfl⟩ := opened
      simp [Moves]
  | recover named =>
      obtain ⟨_, _, share, oldKp, oldPkp, draw, _, _, _, rfl⟩ := opened
      simp [Moves]

private theorem looked_still {protocol : ProtocolType} {sessionId : String} {base past : Past lib}
    (looked : EngineEd25519.Looked protocol sessionId base past) (still : ∀ entry ∈ base, ¬Moves entry.1) :
    ∀ entry ∈ past, ¬Moves entry.1 := by
  rcases looked with ⟨_, rfl⟩ | ⟨_, cloned, rfl⟩
  · exact still
  · exact cons_still id still

/-- A call puts a session into a table as its only one, or puts back what it has just taken. -/
theorem put_once {past : Past lib} {curve : Curve} {protocol : ProtocolType} {sessionId : String}
    {session : Session lib curve protocol}
    (step : Call.Step lib call past (.insert curve protocol sessionId session)) :
    call.round = some 1 ∧ (∀ entry ∈ past, ¬Moves entry.1) ∨
      curve = .ed25519 ∧ call.round = some 2 ∧ ∃ old before,
        past = ⟨.remove curve protocol sessionId, some old⟩ :: before ∧ ∀ entry ∈ before, ¬Moves entry.1 := by
  cases curve with
  | ed25519 =>
      obtain ⟨base, routed, step⟩ := step.on_ed25519 rfl
      have still := routed_still routed
      cases step with
      | ceremony performs step =>
          have round := performs.names.2
          cases step with
          | read first reads reading => rcases reading with same | same <;> cases same
          | start first opened same =>
              left
              rw [same]
              exact ⟨first ▸ round, append_still (opens_still performs opened) still⟩
          | putBack second looked advances =>
              right
              exact ⟨rfl, second ▸ round, _, _, rfl, looked_still looked still⟩
      | sign named step =>
          cases step with
          | read first reads reading => rcases reading with ⟨key, same⟩ | same | same <;> cases same
          | start first reads same free =>
              left
              rw [same]
              exact ⟨by rw [named, Call.round, first], append_still (reads_still reads) still⟩
  | secp256k1 =>
      obtain ⟨base, routed, step⟩ := step.on_secp256k1 rfl
      have still := routed_still routed
      cases step with
      | keyshare names last other step => cases step
      | advance names later step => cases step
      | first names first step =>
          cases step with
          | read only same reading => exact reading.elim
          | opens only parsed step =>
              cases step with
              | insert clocked owns =>
                  left
                  refine ⟨first, append_still (clock_still clocked) (cons_still id (sent_still (cons_still id ?_)))⟩
                  exact append_still (reads_still only) still

private theorem injected_finds {protocol : ProtocolType} {sessionId : String} {base : Past lib}
    {session : Session lib .secp256k1 protocol} {messages : List Bytes} :
    ∃ entry ∈ MpcEngine.injected lib protocol sessionId base session messages, FindsOn .secp256k1 protocol sessionId entry :=
  ⟨_, MpcEngine.looked_mem_injected, .checkout⟩

theorem dkls_finds {base past : Past lib} {result : MpcRoundResult} (ended : Call.DklsEnd lib call base past (.ok result))
    (later : call.round ≠ some 1) {protocol : ProtocolType} {sessionId : String}
    (names : call.scope = some (protocol, sessionId)) : ∃ entry ∈ past, FindsOn .secp256k1 protocol sessionId entry := by
  cases ended with
  | first scope first ended => exact absurd first later
  | advance scope _ ended =>
      rw [names] at scope
      cases scope
      cases ended with
      | continued accepted reset =>
          obtain ⟨entry, member, finds⟩ := injected_finds
          refine ⟨entry, List.mem_cons_of_mem _ (List.mem_append_right _ ?_), finds⟩
          exact List.mem_cons_of_mem _ (List.mem_cons_of_mem _ (List.mem_cons_of_mem _ member))
      | @completed session env messages held last handle output result accepted joins made =>
          refine ⟨⟨.remove .secp256k1 protocol sessionId, some last⟩, ?_, .remove⟩
          exact List.mem_append_right [_, _, _, _] List.mem_cons_self
  | keyshare scope _ _ ended =>
      rw [names] at scope
      cases scope
      cases ended with
      | @completed last handle output result joins made =>
          refine ⟨⟨.remove .secp256k1 protocol sessionId, some last⟩, ?_, .remove⟩
          exact List.mem_append_right [_, _, _] List.mem_cons_self

/-- A later round that succeeds has found a session. -/
theorem ok_finds {past : Past lib} {reply : Reply} (ended : Call.End lib call past (.ok reply))
    (later : call.round ≠ some 1) {protocol : ProtocolType} {sessionId : String}
    (names : call.scope = some (protocol, sessionId)) :
    ∃ curve, ∃ entry ∈ past, FindsOn curve protocol sessionId entry := by
  cases ended with
  | exports none same =>
      rw [names] at none
      cases none
  | frost routed ended same =>
      cases ended with
      | ceremony performs ended =>
          obtain ⟨scope, round⟩ := performs.names
          rw [names] at scope
          cases scope
          cases ended with
          | failed => cases same
          | started first => exact absurd (first ▸ round) later
          | advanced => exact ⟨.ed25519, _, List.mem_cons_of_mem _ List.mem_cons_self, .remove⟩
          | completed => exact ⟨.ed25519, _, List.mem_cons_self, .remove⟩
      | sign named ended =>
          rw [named] at names later
          cases names
          cases ended with
          | failed => cases same
          | started first => exact absurd (congrArg some first) later
          | completed => exact ⟨.ed25519, _, List.mem_cons_of_mem _ List.mem_cons_self, .remove⟩
  | @dkls _ _ _ outcome routed ended same =>
      cases outcome with
      | error failure => cases same
      | ok result => exact ⟨.secp256k1, dkls_finds ended later names⟩

/-- A call that completes has taken its session, and put nothing back. -/
theorem completed_past {past : Past lib} {reply : Reply} (ended : Call.End lib call past (.ok reply))
    (completed : reply.status = "completed") :
    call.round ≠ some 1 ∧ ∃ curve protocol sessionId session after before,
      past = after ++ ⟨.remove curve protocol sessionId, some session⟩ :: before ∧
        (∀ entry ∈ after, ¬Moves entry.1) ∧ ∀ entry ∈ before, ¬Moves entry.1 := by
  cases ended with
  | @exports _ _ outcome none same =>
      cases outcome with
      | error failure => cases same
      | ok result =>
          cases same
          exact absurd completed (by simp [Reply.status])
  | frost routed ended same =>
      have still := routed_still routed
      cases ended with
      | ceremony performs ended =>
          have round := performs.names.2
          cases ended with
          | failed => cases same
          | started =>
              cases same
              exact absurd completed (by simp [Reply.status, EngineEd25519.makeInProgress])
          | advanced =>
              cases same
              exact absurd completed (by simp [Reply.status, EngineEd25519.makeInProgress])
          | completed last =>
              refine ⟨by rw [round, last]; decide, .ed25519, _, _, _, [], _, rfl, by simp, still⟩
      | sign named ended =>
          cases ended with
          | failed => cases same
          | started =>
              cases same
              exact absurd completed (by simp [Reply.status, EngineEd25519.makeInProgress])
          | completed second =>
              refine ⟨by rw [named, Call.round, second]; decide, .ed25519, _, _, _, [_], _, rfl, by simp [Moves], still⟩
  | dkls routed ended same =>
      have still := routed_still routed
      cases ended with
      | first names first ended =>
          cases ended with
          | failed => cases same
          | opened only parsed ended =>
              cases ended with
              | failed => cases same
              | opened =>
                  cases same
                  exact absurd completed (by simp [Reply.status, MpcEngine.makeInProgressBatch])
      | advance names later ended =>
          cases ended with
          | failed => cases same
          | continued =>
              cases same
              exact absurd completed (by simp [Reply.status, MpcEngine.makeInProgressBatch])
          | @completed session env messages held last handle output result accepted joins made =>
              refine ⟨later, .secp256k1, _, _, last, [_, _, _, _], _, rfl, by simp [Moves], ?_⟩
              exact cons_still id (cons_still id (cons_still id (sent_still (cons_still id still))))
      | keyshare names last other ended =>
          cases ended with
          | failed => cases same
          | @completed session handle output result joins made =>
              refine ⟨by rw [last]; decide, .secp256k1, _, _, session, [_, _, _], _, rfl, by simp [Moves], still⟩

end Steps

/-! ## Runs -/

variable {Allowed : EngineWorld lib → Move Call Drift → Prop} {world : EngineWorld lib}

/-- A lineage is live exactly when its table holds a session. -/
theorem slot_live (curve : Curve) (protocol : ProtocolType) (sessionId : String)
    (trace : List (Nat × Entry (Action lib) (Action.Answer lib))) :
    ((descent trace).slot (curve, protocol, sessionId)).isSome =
      (Custody.contents (tableHistory curve protocol trace) sessionId).isSome := by
  induction trace with
  | nil => rfl
  | cons event earlier ih =>
      obtain ⟨thread, action, answer⟩ := event
      rw [tableHistory_cons]
      cases action with
      | insert otherCurve other otherId session =>
          simp only [descent, List.filterMap_cons, lineageEvent, Lineage.state]
          by_cases same : (otherCurve, other) = (curve, protocol)
          · cases same
            rw [tableEvent_insert]
            by_cases here : sessionId = otherId
            · simp [Custody.contents, here]
            · simpa [Custody.contents, here, descent] using ih
          · have elsewhere : (curve, protocol, sessionId) ≠ (otherCurve, other, otherId) := by
              rintro ⟨rfl, rfl, rfl⟩
              exact same rfl
            simpa [tableEvent, same, elsewhere, descent] using ih
      | remove otherCurve other otherId =>
          simp only [descent, List.filterMap_cons, lineageEvent, Lineage.state]
          by_cases same : (otherCurve, other) = (curve, protocol)
          · cases same
            rw [tableEvent_remove]
            by_cases here : sessionId = otherId
            · simp [Custody.contents, here]
            · simpa [Custody.contents, here, descent] using ih
          · have elsewhere : (curve, protocol, sessionId) ≠ (otherCurve, other, otherId) := by
              rintro ⟨rfl, rfl, rfl⟩
              exact same rfl
            simpa [tableEvent, same, elsewhere, descent] using ih
      | checkout otherCurve other otherId =>
          cases answer with
          | missing => exact ih
          | found session => exact ih
          | expired =>
              simp only [descent, List.filterMap_cons, lineageEvent, Lineage.state]
              by_cases same : (otherCurve, other) = (curve, protocol)
              · cases same
                rw [tableEvent_expired]
                by_cases here : sessionId = otherId
                · simp [Custody.contents, here]
                · simpa [Custody.contents, here, descent] using ih
              · have elsewhere : (curve, protocol, sessionId) ≠ (otherCurve, other, otherId) := by
                  rintro ⟨rfl, rfl, rfl⟩
                  exact same rfl
                simpa [tableEvent, same, elsewhere, descent] using ih
      | acquire other otherId =>
          by_cases same : (.secp256k1, other) = (curve, protocol)
          · cases same
            rw [tableEvent_acquire]
            exact ih.trans (Custody.contents_amend_isSome _ _ _ _).symm
          · rw [show tableEvent curve protocol ⟨.acquire other otherId, answer⟩ = none by simp [tableEvent, same]]
            exact ih
      | resetConsumed otherId =>
          by_cases same : (.secp256k1, .dsg) = (curve, protocol)
          · cases same
            rw [tableEvent_resetConsumed]
            exact ih.trans (Custody.contents_amend_isSome _ _ _ _).symm
          · rw [show tableEvent curve protocol ⟨.resetConsumed otherId, answer⟩ = none by simp [tableEvent, same]]
            exact ih
      | _ => exact ih

private theorem holder_put {trace : List (Nat × Entry (Action lib) (Action.Answer lib))} {holder : Nat}
    (member : holder ∈ Lineage.holders (trace.filterMap lineageEvent)) :
    ∃ curve protocol sessionId session, Performed trace holder (.insert curve protocol sessionId session) () := by
  induction trace with
  | nil => cases member
  | cons event earlier ih =>
      obtain ⟨thread, action, answer⟩ := event
      have before (member : holder ∈ Lineage.holders (earlier.filterMap lineageEvent)) :
          ∃ curve protocol sessionId session,
            Performed ((thread, ⟨action, answer⟩) :: earlier) holder (.insert curve protocol sessionId session) () := by
        obtain ⟨curve, protocol, sessionId, session, performed⟩ := ih member
        exact ⟨curve, protocol, sessionId, session, performed.cons _⟩
      cases action with
      | insert curve protocol sessionId session =>
          simp only [List.filterMap_cons, lineageEvent, Lineage.holders] at member
          rcases List.mem_cons.mp member with rfl | member
          · exact ⟨curve, protocol, sessionId, session, List.mem_cons_self⟩
          · exact before member
      | checkout curve protocol sessionId => cases answer <;> exact before member
      | _ => exact before member

private theorem put_nodup (reached : (machine lib).Reaches Allowed (.initial .empty) world) :
    (Lineage.holders (world.trace.filterMap lineageEvent)).Nodup := by
  refine reached.invariant (fun world => (Lineage.holders (world.trace.filterMap lineageEvent)).Nodup)
    ?_ ?_ ?_ ?_ ?_
  · exact List.nodup_nil
  · intro world call _ once _
    exact once
  · intro world thread call action next state answer reached once _ found _
    cases action with
    | insert curve protocol sessionId session =>
        have step := (reached.follows Call.body_steps thread call _ found).1
        refine List.nodup_cons.mpr ⟨fun member => ?_, once⟩
        obtain ⟨other, otherProtocol, otherId, stored, performed⟩ := holder_put member
        have before := mem_past.mpr performed
        rcases put_once step with ⟨_, still⟩ | ⟨_, _, old, earlier, own, still⟩
        · exact still _ before trivial
        · rw [own] at before
          rcases List.mem_cons.mp before with impossible | before
          · cases impossible
          · exact still _ before trivial
    | checkout curve protocol sessionId => cases answer <;> exact once
    | _ => exact once
  · intro world thread call action next state _ once _ _ _
    exact once
  · intro world change _ once _
    exact once

/-- Sessions stay with the id they were opened for. -/
private structure Rooted (world : EngineWorld lib) : Prop where
  slots : ∀ curve protocol sessionId origin, (descent world.trace).slot (curve, protocol, sessionId) = some origin →
    Opened world protocol sessionId origin
  hands : ∀ thread call protocol sessionId origin, world.Called thread call →
    call.scope = some (protocol, sessionId) → (descent world.trace).hand thread = some origin →
      Opened world protocol sessionId origin
  held : ∀ thread curve protocol sessionId session before,
    past thread world.trace = ⟨.remove curve protocol sessionId, some session⟩ :: before →
      (descent world.trace).hand thread ≠ none

private theorem Opened.mono {before after : EngineWorld lib} {protocol : ProtocolType} {sessionId : String}
    {origin : Nat} (opened : Opened before protocol sessionId origin)
    (kept : ∀ thread call, before.Called thread call → after.Called thread call) :
    Opened after protocol sessionId origin := by
  obtain ⟨call, called, first, names⟩ := opened
  exact ⟨call, kept origin call called, first, names⟩

/-- A thread that moves no session leaves its hand as it is. -/
theorem idle_of_still {thread : Nat} {trace : List (Nat × Entry (Action lib) (Action.Answer lib))}
    (still : ∀ entry ∈ past thread trace, ¬Moves entry.1) :
    ∀ event ∈ trace.filterMap lineageEvent, event.holder ≠ some thread := by
  intro event member holds
  obtain ⟨⟨owner, action, answer⟩, performed, made⟩ := List.mem_filterMap.mp member
  cases action with
  | insert curve protocol sessionId session =>
      cases made
      cases holds
      exact still _ (mem_past.mpr performed) trivial
  | remove curve protocol sessionId =>
      cases made
      cases holds
      exact still _ (mem_past.mpr performed) trivial
  | checkout curve protocol sessionId =>
      cases answer with
      | expired =>
          cases made
          cases holds
      | _ => cases made
  | _ => cases made

theorem hand_empty {thread : Nat} {trace : List (Nat × Entry (Action lib) (Action.Answer lib))}
    (still : ∀ entry ∈ past thread trace, ¬Moves entry.1) : (descent trace).hand thread = none := by
  have kept := Lineage.hand_kept (trace.filterMap lineageEvent) [] (idle_of_still still)
  rw [List.append_nil] at kept
  exact kept

@[simp] theorem descent_insert (thread : Nat) (curve : Curve) (protocol : ProtocolType) (sessionId : String)
    (session : Session lib curve protocol) (answer : Unit)
    (trace : List (Nat × Entry (Action lib) (Action.Answer lib))) :
    descent ((thread, ⟨.insert curve protocol sessionId session, answer⟩) :: trace) =
      { slot := Function.update (descent trace).slot (curve, protocol, sessionId)
          (some (((descent trace).hand thread).getD thread))
        hand := Function.update (descent trace).hand thread none } := rfl

@[simp] theorem descent_remove (thread : Nat) (curve : Curve) (protocol : ProtocolType) (sessionId : String)
    (found : Option (Session lib curve protocol)) (trace : List (Nat × Entry (Action lib) (Action.Answer lib))) :
    descent ((thread, ⟨.remove curve protocol sessionId, found⟩) :: trace) =
      { slot := Function.update (descent trace).slot (curve, protocol, sessionId) none
        hand := Function.update (descent trace).hand thread ((descent trace).slot (curve, protocol, sessionId)) } := rfl

@[simp] theorem descent_expired (thread : Nat) (curve : Curve) (protocol : ProtocolType) (sessionId : String)
    (trace : List (Nat × Entry (Action lib) (Action.Answer lib))) :
    descent ((thread, ⟨.checkout curve protocol sessionId, .expired⟩) :: trace) =
      { descent trace with slot := Function.update (descent trace).slot (curve, protocol, sessionId) none } := rfl

/-- An operation that moves no session at most throws one away. -/
theorem descent_other {thread : Nat} {action : Action lib} {answer : Action.Answer lib action}
    {trace : List (Nat × Entry (Action lib) (Action.Answer lib))} (still : ¬Moves action) :
    (descent ((thread, ⟨action, answer⟩) :: trace)).hand = (descent trace).hand ∧
      ∀ place origin, (descent ((thread, ⟨action, answer⟩) :: trace)).slot place = some origin →
        (descent trace).slot place = some origin := by
  cases action with
  | insert curve protocol sessionId session => exact absurd trivial still
  | remove curve protocol sessionId => exact absurd trivial still
  | checkout curve protocol sessionId =>
      cases answer with
      | expired =>
          refine ⟨rfl, fun place origin live => ?_⟩
          rw [descent_expired] at live
          by_cases here : place = (curve, protocol, sessionId)
          · subst here
            simp at live
          · simpa [here] using live
      | _ => exact ⟨rfl, fun _ _ live => live⟩
  | _ => exact ⟨rfl, fun _ _ live => live⟩

namespace Rooted

variable {before after : EngineWorld lib} {thread : Nat} {call : Call}

private theorem started (rooted : Rooted before) (unseen : past before.threads.length before.trace = [])
    {program : EngineM lib Reply} (threads : after.threads = before.threads ++ [(call, program)])
    (trace : after.trace = before.trace) : Rooted after := by
  have still (thread : Nat) (owner : Call) (called : before.Called thread owner) : after.Called thread owner :=
    (World.called_start threads).mpr (.inl called)
  constructor
  · intro curve protocol sessionId origin live
    rw [trace] at live
    exact (rooted.slots curve protocol sessionId origin live).mono still
  · intro thread owner protocol sessionId origin called names holds
    rw [trace] at holds
    rcases (World.called_start threads).mp called with old | ⟨rfl, rfl⟩
    · exact (rooted.hands thread owner protocol sessionId origin old names holds).mono still
    · rw [hand_empty (by simp [unseen])] at holds
      cases holds
  · rw [trace]
    exact rooted.held

private theorem other {action : Action lib} {answer : Action.Answer lib action} (rooted : Rooted before)
    (same : ∀ thread owner, after.Called thread owner ↔ before.Called thread owner)
    (trace : after.trace = (thread, ⟨action, answer⟩) :: before.trace) (still : ¬Moves action) : Rooted after := by
  obtain ⟨hands, slots⟩ := @descent_other lib thread action answer before.trace still
  constructor
  · intro curve protocol sessionId origin live
    rw [trace] at live
    exact (rooted.slots curve protocol sessionId origin (slots _ _ live)).mono fun _ _ => (same _ _).mpr
  · intro thread owner protocol sessionId origin called names holds
    rw [trace, hands] at holds
    exact (rooted.hands thread owner protocol sessionId origin ((same _ _).mp called) names holds).mono
      fun _ _ => (same _ _).mpr
  · intro other curve protocol sessionId session earlier own
    rw [trace] at own ⊢
    rw [hands]
    by_cases this : thread = other
    · subst this
      rw [past_cons_self] at own
      have newest := congrArg Sigma.fst (List.cons.inj own).1
      cases newest
      exact absurd trivial still
    · rw [past_cons_of_ne this] at own
      exact rooted.held other _ _ _ _ _ own

variable {curve : Curve} {protocol : ProtocolType} {sessionId : String}

private theorem taken {found : Option (Session lib curve protocol)} (rooted : Rooted before)
    (same : ∀ thread owner, after.Called thread owner ↔ before.Called thread owner)
    (trace : after.trace = (thread, ⟨.remove curve protocol sessionId, found⟩) :: before.trace)
    (called : before.Called thread call) (names : call.scope = some (protocol, sessionId))
    (live : found.isSome = ((descent before.trace).slot (curve, protocol, sessionId)).isSome) : Rooted after := by
  constructor
  · intro otherCurve other otherId origin live
    rw [trace, descent_remove] at live
    by_cases here : (otherCurve, other, otherId) = (curve, protocol, sessionId)
    · cases here
      simp at live
    · simp only [Function.update_of_ne here] at live
      exact (rooted.slots _ _ _ _ live).mono fun _ _ => (same _ _).mpr
  · intro other owner otherProtocol otherId origin made otherNames holds
    rw [trace, descent_remove] at holds
    by_cases own : other = thread
    · subst own
      simp only [Function.update_self] at holds
      obtain rfl := World.called_unique ((same _ _).mp made) called
      rw [names] at otherNames
      cases otherNames
      exact (rooted.slots _ _ _ _ holds).mono fun _ _ => (same _ _).mpr
    · simp only [Function.update_of_ne own] at holds
      exact (rooted.hands other owner _ _ _ ((same _ _).mp made) otherNames holds).mono fun _ _ => (same _ _).mpr
  · intro other otherCurve otherProtocol otherId session earlier own
    rw [trace] at own ⊢
    rw [descent_remove]
    by_cases this : thread = other
    · subst this
      rw [past_cons_self] at own
      simp only [Function.update_self]
      cases own
      intro empty
      rw [empty] at live
      cases live
    · rw [past_cons_of_ne this] at own
      simp only [Function.update_of_ne (Ne.symm this)]
      exact rooted.held other _ _ _ _ _ own

private theorem put {session : Session lib curve protocol} {answer : Unit} (rooted : Rooted before)
    (same : ∀ thread owner, after.Called thread owner ↔ before.Called thread owner)
    (trace : after.trace = (thread, ⟨.insert curve protocol sessionId session, answer⟩) :: before.trace)
    (opened : Opened before protocol sessionId (((descent before.trace).hand thread).getD thread)) : Rooted after := by
  constructor
  · intro otherCurve other otherId origin live
    rw [trace, descent_insert] at live
    by_cases here : (otherCurve, other, otherId) = (curve, protocol, sessionId)
    · cases here
      simp only [Function.update_self] at live
      cases live
      exact opened.mono fun _ _ => (same _ _).mpr
    · simp only [Function.update_of_ne here] at live
      exact (rooted.slots _ _ _ _ live).mono fun _ _ => (same _ _).mpr
  · intro other owner otherProtocol otherId origin made names holds
    rw [trace, descent_insert] at holds
    by_cases own : other = thread
    · subst own
      simp at holds
    · simp only [Function.update_of_ne own] at holds
      exact (rooted.hands other owner _ _ _ ((same _ _).mp made) names holds).mono fun _ _ => (same _ _).mpr
  · intro other otherCurve otherProtocol otherId found earlier own
    rw [trace] at own ⊢
    rw [descent_insert]
    by_cases this : thread = other
    · subst this
      rw [past_cons_self] at own
      cases own
    · rw [past_cons_of_ne this] at own
      simp only [Function.update_of_ne (Ne.symm this)]
      exact rooted.held other _ _ _ _ _ own

end Rooted

private theorem rooted (reached : (machine lib).Reaches Allowed (.initial .empty) world) : Rooted world := by
  refine reached.invariant Rooted ?_ ?_ ?_ ?_ ?_
  · constructor
    · intro curve protocol sessionId origin live
      cases live
    · intro thread call protocol sessionId origin _ _ holds
      cases holds
    · intro thread curve protocol sessionId session earlier own
      cases own
  · intro world call reached rooted _
    exact rooted.started (past_eq_nil_of_fresh reached.trace_lt) rfl rfl
  · intro world thread call action next state answer reached rooted _ found moved
    have same (other : Nat) (owner : Call) : World.Called
        { shared := state, threads := world.threads.set thread (call, next answer)
          trace := (thread, ⟨action, answer⟩) :: world.trace } other owner ↔ world.Called other owner :=
      World.called_set found rfl
    have touches := (reached.follows Call.body_stays thread call _ found).1
    cases action with
    | insert curve protocol sessionId session =>
        have names := touches.names ⟨rfl, rfl⟩
        refine rooted.put same rfl ?_
        rcases put_once (reached.follows Call.body_steps thread call _ found).1 with
          ⟨first, still⟩ | ⟨_, _, old, before, own, _⟩
        · rw [hand_empty still]
          exact ⟨call, ⟨_, found⟩, first, names⟩
        · obtain ⟨origin, holds⟩ := Option.ne_none_iff_exists'.mp (rooted.held thread _ _ _ _ _ own)
          rw [holds]
          exact rooted.hands thread call protocol sessionId origin ⟨_, found⟩ names holds
    | remove curve protocol sessionId =>
        refine rooted.taken same rfl ⟨_, found⟩ (touches.names ⟨rfl, rfl⟩) ?_
        have taken : world.shared.sessions curve protocol sessionId = answer :=
          Engine.remove_answer (show world.shared.interpret thread _ = _ from moved)
        have recorded := reached_recorded curve protocol reached
        rw [← taken, slot_live, recorded.contents]
    | _ => exact rooted.other same rfl id
  · intro world thread call action next state _ rooted _ _ _
    exact ⟨rooted.slots, rooted.hands, rooted.held⟩
  · intro world change _ rooted _
    exact ⟨rooted.slots, rooted.hands, rooted.held⟩

private theorem completed_split (reached : (machine lib).Reaches Allowed (.initial .empty) world) {thread : Nat}
    (completed : Completed world thread) :
    ∃ curve protocol sessionId session later earlier,
      world.trace = later ++ (thread, ⟨.remove curve protocol sessionId, some session⟩) :: earlier ∧
        (∀ entry ∈ past thread later, ¬Moves entry.1) ∧ ∀ entry ∈ past thread earlier, ¬Moves entry.1 := by
  obtain ⟨call, reply, returned, status⟩ := completed
  have ended : Call.End lib call (past thread world.trace) (.ok reply) :=
    reached.follows Call.body_steps thread call _ returned
  obtain ⟨_, curve, protocol, sessionId, session, after, before, own, stillAfter, stillBefore⟩ :=
    completed_past ended status
  obtain ⟨later, earlier, split, rfl, rfl⟩ := past_split own
  exact ⟨curve, protocol, sessionId, session, later, earlier, split, stillAfter, stillBefore⟩

private theorem live_at_finding (reached : (machine lib).Reaches Allowed (.initial .empty) world)
    {later earlier : List (Nat × Entry (Action lib) (Action.Answer lib))} {thread : Nat} {curve : Curve}
    {protocol : ProtocolType} {sessionId : String} {entry : Entry (Action lib) (Action.Answer lib)}
    (split : world.trace = later ++ (thread, entry) :: earlier) (finds : FindsOn curve protocol sessionId entry) :
    ∃ session, Custody.contents (tableHistory curve protocol earlier) sessionId = some session := by
  cases finds with
  | @remove session =>
      obtain ⟨before, call, next, after, start, _, rfl, _, moved, _⟩ := reached.event_moved split
      rw [(reached_recorded curve protocol start).contents]
      exact ⟨session, Engine.remove_answer (show before.shared.interpret thread _ = _ from moved)⟩
  | @checkout session =>
      obtain ⟨before, call, next, after, start, _, rfl, _, moved, _⟩ := reached.event_moved split
      rw [(reached_recorded curve protocol start).contents]
      exact ⟨session, Engine.checkout_answer (show before.shared.interpret thread _ = _ from moved)⟩

private theorem completed_hand (reached : (machine lib).Reaches Allowed (.initial .empty) world) {thread : Nat}
    (completed : Completed world thread) : ∃ origin, (descent world.trace).hand thread = some origin := by
  obtain ⟨curve, protocol, sessionId, session, later, earlier, split, still, _⟩ := completed_split reached completed
  obtain ⟨_, found⟩ := live_at_finding reached split .remove
  have live := slot_live curve protocol sessionId earlier
  rw [found] at live
  obtain ⟨origin, held⟩ := Option.isSome_iff_exists.mp live
  refine ⟨origin, ?_⟩
  rw [split, descent, List.filterMap_append, Lineage.hand_kept _ _ (idle_of_still still)]
  exact (congrFun (congrArg Lineage.State.hand (descent_remove thread curve protocol sessionId _ earlier)) thread).trans
    (by simpa using held)

private theorem one_result (reached : (machine lib).Reaches Allowed (.initial .empty) world) : OneResult world := by
  constructor
  · intro thread call protocol sessionId completed called names
    obtain ⟨origin, held⟩ := completed_hand reached completed
    exact ⟨origin, held, (rooted reached).hands thread call protocol sessionId origin called names held⟩
  · intro thread other origin _ _ held again
    exact (Lineage.single (put_nodup reached)).one_hand held again

/-! ## After completion -/

section After

variable {curve : Curve} {protocol : ProtocolType} {sessionId : String}

private theorem tableHistory_append (later earlier : List (Nat × Entry (Action lib) (Action.Answer lib))) :
    tableHistory curve protocol (later ++ earlier) =
      tableHistory curve protocol later ++ tableHistory curve protocol earlier :=
  List.filterMap_append

private theorem empty_while {later earlier : List (Nat × Entry (Action lib) (Action.Answer lib))}
    (empty : Custody.contents (tableHistory curve protocol earlier) sessionId = none)
    (quiet : ∀ thread stored, ¬Performed later thread (.insert curve protocol sessionId stored) ()) :
    Custody.contents (tableHistory curve protocol (later ++ earlier)) sessionId = none := by
  cases held : Custody.contents (tableHistory curve protocol (later ++ earlier)) sessionId with
  | none => rfl
  | some session =>
      rw [tableHistory_append] at held
      obtain ⟨stored, member⟩ := Custody.put_since_empty empty held
      obtain ⟨thread, performed⟩ := inserted_of_put member
      exact absurd performed (quiet thread stored)

private theorem empty_after_removal (thread : Nat) (found : Option (Session lib curve protocol))
    (earlier : List (Nat × Entry (Action lib) (Action.Answer lib))) :
    Custody.contents (tableHistory curve protocol
      ((thread, ⟨.remove curve protocol sessionId, found⟩) :: earlier)) sessionId = none := by
  rw [tableHistory_cons, tableEvent_remove]
  simp [Custody.contents]

/-- Between two removals of which the second finds a session there is an insertion. -/
private theorem inserted_between (reached : (machine lib).Reaches Allowed (.initial .empty) world)
    {later middle earlier : List (Nat × Entry (Action lib) (Action.Answer lib))} {thread other : Nat}
    {session : Session lib curve protocol} {found : Option (Session lib curve protocol)}
    (split : world.trace = later ++ (thread, ⟨.remove curve protocol sessionId, some session⟩) ::
      (middle ++ (other, ⟨.remove curve protocol sessionId, found⟩) :: earlier)) :
    ∃ opener stored, Performed middle opener (.insert curve protocol sessionId stored) () := by
  by_contra none
  have quiet (opener : Nat) (stored : Session lib curve protocol) :
      ¬Performed middle opener (.insert curve protocol sessionId stored) () :=
    fun performed => none ⟨opener, stored, performed⟩
  obtain ⟨_, live⟩ := live_at_finding reached split .remove
  rw [empty_while (empty_after_removal other found earlier) quiet] at live
  cases live

/-- Nothing is put back under the id after its session has been taken for good. -/
private theorem quiet_after (reached : (machine lib).Reaches PutsBackInPlace (.initial .empty) world)
    {later earlier : List (Nat × Entry (Action lib) (Action.Answer lib))} {thread : Nat}
    {session : Session lib curve protocol}
    (split : world.trace = later ++ (thread, ⟨.remove curve protocol sessionId, some session⟩) :: earlier)
    (kept : ∀ entry ∈ past thread later, ¬Moves entry.1)
    (closed : ∀ opener call stored, Performed later opener (.insert curve protocol sessionId stored) () →
      world.Called opener call → call.round ≠ some 1) :
    ∀ thread stored, ¬Performed later thread (.insert curve protocol sessionId stored) () := by
  -- the induction is on how much of the trace has followed the removal
  have upTo (recent : List (Nat × Entry (Action lib) (Action.Answer lib))) :
      ∀ newer, later = newer ++ recent →
        ∀ other stored, ¬Performed recent other (.insert curve protocol sessionId stored) () := by
    induction recent with
    | nil =>
        intro newer _ other stored performed
        cases performed
    | cons event recent ih =>
        intro newer parts other stored performed
        have quiet := ih (newer ++ [event]) (by simp [parts])
        rcases List.mem_cons.mp performed with rfl | before
        · have inserted : (other, ⟨.insert curve protocol sessionId stored, ()⟩) ∈ later := by simp [parts]
          have notSelf : thread ≠ other := by
            rintro rfl
            exact kept _ (mem_past.mpr inserted) trivial
          rw [parts, List.append_assoc, List.cons_append] at split
          obtain ⟨before, call, next, after, start, allowed, atInsertion, found, _, onward⟩ :=
            reached.event_moved split
          obtain ⟨program, called⟩ := onward.call_stable found
          have round := closed other call stored inserted ⟨program, called⟩
          rcases put_once (start.follows Call.body_steps other call _ found).1 with
            ⟨first, _⟩ | ⟨rfl, _, old, operations, own, _⟩
          · exact round first
          · obtain ⟨since, older, atRemoval, _, _⟩ := @past_split _ _ other before.trace [] operations _ own
            have unreplaced := allowed call protocol sessionId stored ⟨_, found⟩ round
              (by simp [World.nextAction, found]) since older (some old) atRemoval
            rcases List.append_eq_append_iff.mp (atInsertion.symm.trans atRemoval) with
              ⟨middle, rfl, rest⟩ | ⟨middle, rfl, rest⟩
            · cases middle with
              | nil =>
                  cases rest
                  exact notSelf rfl
              | cons removal middle =>
                  -- it took the session before the call that completed
                  simp only [List.cons_append, List.cons.injEq] at rest
                  obtain ⟨rfl, rfl⟩ := rest
                  obtain ⟨opener, fresh, performed⟩ := inserted_between start atInsertion
                  exact unreplaced opener fresh (List.mem_append_right _ (List.mem_cons_of_mem _ performed))
            · cases middle with
              | nil =>
                  cases rest
                  exact notSelf rfl
              | cons removal middle =>
                  -- it took the session afterwards
                  simp only [List.cons_append, List.cons.injEq] at rest
                  obtain ⟨rfl, rfl⟩ := rest
                  obtain ⟨opener, fresh, performed⟩ := inserted_between start atRemoval
                  exact quiet opener fresh (List.mem_append_right _ (List.mem_cons_of_mem _ performed))
        · exact quiet other stored before
  exact upTo later [] rfl

private theorem kept_after_removal (reached : (machine lib).Reaches Allowed (.initial .empty) world)
    {later earlier : List (Nat × Entry (Action lib) (Action.Answer lib))} {thread : Nat}
    {session : Session lib curve protocol} (completed : Completed world thread)
    (split : world.trace = later ++ (thread, ⟨.remove curve protocol sessionId, some session⟩) :: earlier) :
    ∀ entry ∈ past thread later, ¬Moves entry.1 := by
  obtain ⟨_, _, _, _, after, before, own, stillAfter, stillBefore⟩ := completed_split reached completed
  have same := congrArg (past thread) (own.symm.trans split)
  rw [past_append, past_append, past_cons_self, past_cons_self] at same
  rcases List.append_eq_append_iff.mp same with ⟨middle, longer, rest⟩ | ⟨middle, shorter, rest⟩
  · cases middle with
    | nil =>
        rw [longer, List.append_nil]
        exact stillAfter
    | cons entry middle =>
        simp only [List.cons_append, List.cons.injEq] at rest
        have taken := stillBefore ⟨.remove curve protocol sessionId, some session⟩
          (by rw [rest.2]; exact List.mem_append_right _ List.mem_cons_self)
        exact absurd trivial taken
  · intro entry member
    exact stillAfter entry (by rw [shorter]; exact List.mem_append_left _ member)

private theorem later_fail (reached : (machine lib).Reaches PutsBackInPlace (.initial .empty) world) :
    LaterFail world := by
  intro thread curve protocol sessionId session later earlier split completed closed other call outcome different
    returned names round fresh only
  cases outcome with
  | error failure => exact ⟨failure, rfl⟩
  | ok reply =>
      have quiet := quiet_after reached split (kept_after_removal reached completed split) closed
      have ended : Call.End lib call (past other world.trace) (.ok reply) :=
        reached.follows Call.body_steps other call _ returned
      obtain ⟨found, entry, member, finds⟩ := ok_finds ended round names
      obtain rfl := only found entry member finds
      have recent : (other, entry) ∈ later := by
        have inTrace := mem_past.mp member
        rw [split] at inTrace
        rcases List.mem_append.mp inTrace with here | rest
        · exact here
        · rcases List.mem_cons.mp rest with same | before
          · exact absurd (congrArg Prod.fst same) different
          · have ownPast := mem_past.mpr before
            rw [fresh] at ownPast
            cases ownPast
      obtain ⟨newer, middle, rfl⟩ := List.append_of_mem recent
      rw [List.append_assoc, List.cons_append] at split
      obtain ⟨_, live⟩ := live_at_finding reached split finds
      have gone := empty_while (empty_after_removal thread (some session) earlier) fun thread stored performed =>
        quiet thread stored (List.mem_append_right newer (List.mem_cons_of_mem (other, entry) performed))
      rw [gone] at live
      cases live

end After

theorem completes_once (lib : Libraries) : CompletesOnce lib PutsBackInPlace := by
  intro world reached
  exact ⟨one_result reached, later_fail reached⟩

/-! ## A round 2 that puts an old session back -/

def keygenCall (round : Int32) : Call :=
  .keygen .engineEd25519 "s" round
    "\x7b\"session_id\":\"s\",\"protocol\":\"dkg\",\"round\":1,\"from_id\":1,\"payload_encoding\":\"\",\"payload\":\"\"\x7d"

/-- Call 1 takes the first session and puts it back after call 4 has completed the second. -/
private def replayed : EngineWorld Toy.libraries :=
  (machine Toy.libraries).run
    ([.start (keygenCall 1), .run 0, .run 0, .run 0, .start (keygenCall 2), .run 1,
      .start (keygenCall 1), .run 2, .run 2, .run 2, .start (keygenCall 2), .run 3, .run 3,
      .start (keygenCall 0), .run 4, .run 1, .start (keygenCall 0), .run 5]) (.initial .empty)

def keygenOnly : Action Toy.libraries → Bool
  | .now | .random => true
  | .insert curve protocol sessionId _ | .remove curve protocol sessionId =>
      curve = .ed25519 && protocol = .dkg && sessionId = "s"
  | _ => false

theorem keygenOnly_within {action : Action Toy.libraries} (only : keygenOnly action = true) :
    action.Within .ed25519 .dkg "s" := by
  cases action with
  | now | random => trivial
  | insert _ _ _ _ | remove _ _ _ => simpa [keygenOnly, Action.Within, and_assoc] using only
  | _ => cases only

theorem completes_again : ¬CompletesOnce Toy.libraries Machine.Any := by
  intro once
  have reached : (machine Toy.libraries).Reaches Machine.Any (.initial .empty) replayed := Machine.reaches_run _ _
  have order : replayed.trace.map Prod.fst = [5, 1, 4, 3, 3, 2, 2, 2, 1, 0, 0, 0] := by decide +kernel
  have calls : replayed.threads.map Prod.fst =
      [keygenCall 1, keygenCall 2, keygenCall 1, keygenCall 2, keygenCall 0, keygenCall 0] := by decide +kernel
  have only : replayed.trace.all (fun event => keygenOnly event.2.1) = true := by decide +kernel
  have finished (thread : Nat) (status : Toy.status replayed thread = some "completed") : Completed replayed thread := by
    unfold Toy.status at status
    split at status
    · next call reply found => exact ⟨call, reply, found, Option.some.inj status⟩
    · cases status
  have completed : Completed replayed 4 := finished 4 (by decide +kernel)
  obtain ⟨call, reply, returned, _⟩ : Completed replayed 5 := finished 5 (by decide +kernel)
  obtain ⟨curve, protocol, sessionId, session, later, earlier, split, _, _⟩ := completed_split reached completed
  have within := fun event member => keygenOnly_within (List.all_eq_true.mp only event member)
  obtain ⟨rfl, rfl, rfl⟩ := within (4, ⟨.remove curve protocol sessionId, some session⟩) (by simp [split])
  have places : later.map Prod.fst = [5, 1] ∧ earlier.map Prod.fst = [3, 3, 2, 2, 2, 1, 0, 0, 0] := by
    rw [split, List.map_append, List.map_cons] at order
    match later with
    | [] => simp at order
    | [_] => simp at order
    | [_, _] => simpa [and_assoc] using order
    | _ :: _ :: _ :: rest =>
        have again : 4 ∈ [3, 3, 2, 2, 2, 1, 0, 0, 0] := by
          simp only [List.map_cons, List.cons_append, List.cons.injEq] at order
          rw [← order.2.2.2]
          simp
        simp at again
  have notFirst (opener : Nat) (call : Call) (stored : FrostKeygenSession Toy.libraries)
      (performed : Performed later opener (.insert .ed25519 .dkg "s" stored) ()) (called : replayed.Called opener call) :
      call.round ≠ some 1 := by
    have thread : opener ∈ later.map Prod.fst := List.mem_map_of_mem performed
    rw [places.1] at thread
    have listed := World.called_iff.mp called
    rw [calls] at listed
    rcases List.mem_pair.mp thread with rfl | rfl
    · cases listed
      decide
    · cases listed
      decide
  have fresh : past 5 earlier = [] := by
    refine List.eq_nil_iff_forall_not_mem.mpr fun entry member => ?_
    have thread : 5 ∈ earlier.map Prod.fst := List.mem_map_of_mem (mem_past.mp member)
    rw [places.2] at thread
    simp at thread
  have listed := World.called_iff.mp ⟨_, returned⟩
  rw [calls] at listed
  cases listed
  have only : FindsOnly .ed25519 .dkg "s" (past 5 replayed.trace) := by
    intro found entry member finds
    have onFrost := within _ (mem_past.mp member)
    cases finds <;> exact onFrost.1
  obtain ⟨failure, failed⟩ := (once replayed reached).2 4 .ed25519 .dkg "s" session later earlier split completed
    notFirst 5 _ _ (by decide) returned rfl (by decide) fresh only
  cases failed

end CeresMpc.Lifecycle
