import CeresMpc.Api.Footprint
import CeresMpc.SessionProperties

/-!
# Runs of the engine

What holds in every state the process can reach: the tables are what the trace
says, draws are never repeated, and exported keys stay registered.
-/

set_option autoImplicit false

namespace CeresMpc

open Interleaving Api

variable {lib : Libraries}

/-- Draws of randomness an operation makes. -/
def Action.drawn : Action lib → Nat
  | .random => 1
  | _ => 0

/-- Keys an operation registers as exported. -/
def Action.registered : Action lib → List String
  | .exportedInsert key => [key]
  | _ => []

/-- Tasks an operation starts. -/
def Action.spawned : Action lib → Nat
  | .spawn .. => 1
  | _ => 0

namespace Engine

/-- Only the operations on channels take more than one step. -/
theorem pending_channel {thread : Nat} {action : Action lib} {engine after : Engine lib}
    (moved : engine.interpret thread action = .pending after) :
    (∃ protocol task message, action = .send protocol task message) ∨
      ∃ protocol receiver signal, action = .collect protocol receiver signal := by
  cases action with
  | send protocol task message => exact .inl ⟨protocol, task, message, rfl⟩
  | collect protocol receiver signal => exact .inr ⟨protocol, receiver, signal, rfl⟩
  | now | random | exportedContains _ | exportedInsert _ | roundSign _ _ _ | release _ | spawn _ _
  | abort _ _ | dropSender _ _ | dropReceiver _ _ => cases moved
  | contains _ _ _ | insert _ _ _ _ | remove _ _ _ | checkout _ _ _ =>
      simp only [interpret] at moved
      split at moved <;> cases moved
  | acquire _ _ | resetConsumed _ =>
      simp only [interpret] at moved
      split at moved
      · cases moved
      · split at moved <;> cases moved
  | join _ _ =>
      simp only [interpret] at moved
      split at moved
      · split at moved <;> cases moved
      · cases moved

/-- Progress inside an operation is progress of a relay. -/
theorem interpret_pending {thread : Nat} {action : Action lib} {engine after : Engine lib}
    (moved : engine.interpret thread action = .pending after) :
    ∃ tasks, after = { engine with tasks } := by
  rcases pending_channel moved with ⟨protocol, task, message, rfl⟩ | ⟨protocol, receiver, signal, rfl⟩
  · simp only [interpret] at moved
    split at moved
    · cases moved
    · split at moved <;> cases moved
      exact ⟨_, rfl⟩
  · simp only [interpret, collect] at moved
    split at moved
    · split at moved
      · cases moved
        exact ⟨_, by rw [mapTask_frame, mapTask_frame engine]⟩
      · split at moved <;> cases moved
        exact ⟨_, mapTask_frame _ _ _ _⟩
    · cases moved

@[simp] theorem drift_sessions (change : Drift) (engine : Engine lib) :
    (Engine.drift lib change engine).sessions = engine.sessions := by
  cases change <;> simp [Engine.drift]

@[simp] theorem drift_draws (change : Drift) (engine : Engine lib) :
    (Engine.drift lib change engine).draws = engine.draws := by
  cases change with
  | tick elapsed => rfl
  | poll protocol task => rw [Engine.drift, mapTask_frame]

@[simp] theorem drift_exportedKeys (change : Drift) (engine : Engine lib) :
    (Engine.drift lib change engine).exportedKeys = engine.exportedKeys := by
  cases change with
  | tick elapsed => rfl
  | poll protocol task => rw [Engine.drift, mapTask_frame]

/-- What an operation makes of the counters and of the registry. -/
theorem interpret_registers {thread : Nat} {action : Action lib}
    {answer : Action.Answer lib action} {engine after : Engine lib}
    (moved : engine.interpret thread action = .reply after answer) :
    after.draws = engine.draws + action.drawn ∧
      after.exportedKeys = action.registered ++ engine.exportedKeys ∧
        after.clock = engine.clock ∧ after.nextTask = engine.nextTask + action.spawned := by
  cases action with
  | now | random | exportedContains _ | exportedInsert _ | roundSign _ _ _ | release _ | spawn _ _ =>
      obtain ⟨rfl, rfl⟩ := Reaction.reply.inj moved
      exact ⟨rfl, rfl, rfl, rfl⟩
  | abort _ _ | dropSender _ _ | dropReceiver _ _ =>
      obtain ⟨rfl, rfl⟩ := Reaction.reply.inj moved
      rw [mapTask_frame]
      exact ⟨rfl, rfl, rfl, rfl⟩
  | contains _ _ _ | remove _ _ _ =>
      simp only [interpret] at moved
      split at moved <;> cases moved
      exact ⟨rfl, rfl, rfl, rfl⟩
  | insert _ _ _ _ =>
      simp only [interpret] at moved
      split at moved <;> cases moved
      rw [dropSession_frame]
      exact ⟨rfl, rfl, rfl, rfl⟩
  | checkout curve protocol sessionId =>
      simp only [interpret] at moved
      split at moved <;> cases moved
      simp only [checkout]
      split
      · exact ⟨rfl, rfl, rfl, rfl⟩
      split
      · cases curve
        · dsimp only
          rw [dropSession_frame, mapTask_frame]
          exact ⟨rfl, rfl, rfl, rfl⟩
        · exact ⟨rfl, rfl, rfl, rfl⟩
      · cases curve
        · dsimp only
          split
          · exact ⟨rfl, rfl, rfl, rfl⟩
          · rw [mapTask_frame]
            exact ⟨rfl, rfl, rfl, rfl⟩
        · exact ⟨rfl, rfl, rfl, rfl⟩
  | acquire _ _ | resetConsumed _ =>
      simp only [interpret] at moved
      split at moved
      · cases moved
      · split at moved <;> cases moved <;> exact ⟨rfl, rfl, rfl, rfl⟩
  | join _ _ =>
      simp only [interpret] at moved
      split at moved
      · split at moved <;> cases moved
        exact ⟨rfl, rfl, rfl, rfl⟩
      · cases moved
  | send _ _ _ =>
      simp only [interpret] at moved
      split at moved
      · cases moved
      · split at moved <;> cases moved
        exact ⟨rfl, rfl, rfl, rfl⟩
  | collect _ _ _ =>
      simp only [interpret, collect] at moved
      split at moved
      · split at moved
        · cases moved
        · split at moved <;> cases moved
          rw [mapTask_frame, mapTask_frame]
          exact ⟨rfl, rfl, rfl, rfl⟩
      · cases moved

end Engine

/-! ## Tables and their histories -/

variable {Allowed : EngineWorld lib → Move Call Drift → Prop} {world : EngineWorld lib}
  {curve : Curve} {protocol : ProtocolType}

theorem reached_recorded (curve : Curve) (protocol : ProtocolType)
    (reached : (machine lib).Reaches Allowed (.initial .empty) world) :
    Recorded curve protocol world.shared (tableHistory curve protocol world.trace) := by
  refine reached.invariant (fun world =>
    Recorded curve protocol world.shared (tableHistory curve protocol world.trace))
    ⟨rfl, trivial⟩ ?_ ?_ ?_ ?_
  · intro world call _ recorded _
    exact recorded.unchanged rfl
  · intro world thread call action next state answer _ recorded _ _ moved
    have after := Engine.interpret_recorded recorded moved
    rw [tableHistory, List.filterMap_cons]
    cases event : tableEvent curve protocol ⟨action, answer⟩ <;> rw [event] at after <;>
      exact after
  · intro world thread call action next state _ recorded _ _ moved
    obtain ⟨tasks, rfl⟩ := Engine.interpret_pending moved
    exact recorded.unchanged rfl
  · intro world change _ recorded _
    refine recorded.unchanged ?_
    exact congrFun (congrFun (Engine.drift_sessions change world.shared) curve) protocol

theorem insert_of_tableEvent {entry : Entry (Action lib) (Action.Answer lib)} {sessionId : String}
    {session : Session lib curve protocol}
    (put : tableEvent curve protocol entry = some (.put sessionId session)) :
    entry = ⟨.insert curve protocol sessionId session, ()⟩ := by
  unfold tableEvent at put
  split at put
  · split at put
    · next same =>
      cases same
      cases put
      rfl
    · cases put
  all_goals first | cases put | (split at put <;> cases put)

theorem remove_of_tableEvent {entry : Entry (Action lib) (Action.Answer lib)} {sessionId : String}
    {found : Option (Session lib curve protocol)}
    (take : tableEvent curve protocol entry = some (.take sessionId found)) :
    entry = ⟨.remove curve protocol sessionId, found⟩ := by
  unfold tableEvent at take
  split at take
  · split at take <;> cases take
  · split at take
    · next same =>
      cases same
      cases take
      rfl
    · cases take
  all_goals first | cases take | (split at take <;> cases take)

/-- A session is changed in place by the SEC-01 flag alone. -/
theorem amend_of_tableEvent {entry : Entry (Action lib) (Action.Answer lib)} {sessionId : String}
    {change : Session lib .secp256k1 protocol → Session lib .secp256k1 protocol}
    (amend : tableEvent .secp256k1 protocol entry = some (.amend sessionId change)) :
    (entry.1 = .acquire protocol sessionId ∧ change = markConsumed lib true .secp256k1 protocol) ∨
      (protocol = .dsg ∧ entry.1 = .resetConsumed sessionId) := by
  unfold tableEvent at amend
  split at amend
  · split at amend <;> cases amend
  · split at amend <;> cases amend
  · split at amend <;> cases amend
  · split at amend
    · next same =>
      cases same
      cases amend
      exact .inl ⟨rfl, rfl⟩
    · cases amend
  · split at amend
    · next same =>
      cases same
      cases amend
      exact .inr ⟨rfl, rfl⟩
    · cases amend
  · cases amend

/-- What an operation leaves in a slot of a table. -/
theorem slot_after_reply {thread : Nat} {action : Action lib} {answer : Action.Answer lib action}
    {after : Engine lib} (reached : (machine lib).Reaches Allowed (.initial .empty) world)
    (moved : world.shared.interpret thread action = .reply after answer) (sessionId : String) :
    (tableEvent curve protocol ⟨action, answer⟩ = none ∧
        after.sessions curve protocol sessionId = world.shared.sessions curve protocol sessionId) ∨
      ∃ event, tableEvent curve protocol ⟨action, answer⟩ = some event ∧
        after.sessions curve protocol sessionId =
          event.effect (world.shared.sessions curve protocol) sessionId := by
  have before := reached_recorded curve protocol reached
  have recorded := Engine.interpret_recorded before moved
  cases effect : tableEvent curve protocol ⟨action, answer⟩ with
  | none =>
      rw [effect] at recorded
      exact .inl ⟨rfl, by rw [← recorded.contents, ← before.contents]; rfl⟩
  | some event =>
      rw [effect] at recorded
      refine .inr ⟨event, rfl, ?_⟩
      rw [← recorded.contents, ← before.contents]
      exact Custody.contents_effect event _ sessionId

/-- Operations that work on an id's entry in one protocol's tables. -/
def Action.OnEntry (protocol : ProtocolType) (sessionId : String) : Action lib → Prop
  | .insert _ other otherId _ | .remove _ other otherId | .checkout _ other otherId | .acquire other otherId =>
      other = protocol ∧ otherId = sessionId
  | .resetConsumed otherId => .dsg = protocol ∧ otherId = sessionId
  | _ => False

theorem onEntry_of_tableEvent {entry : Entry (Action lib) (Action.Answer lib)}
    {event : Custody.Event String (Session lib curve protocol)}
    (effect : tableEvent curve protocol entry = some event) : entry.1.OnEntry protocol event.key := by
  unfold tableEvent at effect
  split at effect <;> try cases effect
  all_goals
    split at effect
    · next same =>
      cases same
      cases effect
      exact ⟨rfl, rfl⟩
    · cases effect

/-- Other operations leave the entry alone. -/
theorem entry_kept {thread : Nat} {action : Action lib} {answer : Action.Answer lib action} {after : Engine lib}
    {sessionId : String} (reached : (machine lib).Reaches Allowed (.initial .empty) world)
    (moved : world.shared.interpret thread action = .reply after answer)
    (elsewhere : ¬action.OnEntry protocol sessionId) :
    after.sessions curve protocol sessionId = world.shared.sessions curve protocol sessionId := by
  rcases slot_after_reply reached moved sessionId with ⟨_, same⟩ | ⟨event, effect, same⟩
  · exact same
  · rw [same]
    refine event.effect_of_ne ?_
    rintro rfl
    exact elsewhere (onEntry_of_tableEvent effect)

/-- A call works on the entries of its own id. -/
theorem Api.Call.Touches.entry {call : Call} {action : Action lib} {protocol other : ProtocolType}
    {sessionId otherId : String} (touches : call.Touches action)
    (names : call.scope = some (protocol, sessionId)) (entry : action.OnEntry other otherId) :
    other = protocol ∧ otherId = sessionId := by
  rw [Call.Touches, names] at touches
  rcases touches with rfl | ⟨curve, within⟩
  · exact entry.elim
  · cases action with
    | insert _ _ _ _ | remove _ _ _ | checkout _ _ _ | acquire _ _ =>
        obtain ⟨rfl, rfl⟩ := entry
        exact ⟨within.2.1, within.2.2⟩
    | resetConsumed _ =>
        obtain ⟨rfl, rfl⟩ := entry
        exact ⟨within.2.1, within.2.2⟩
    | _ => exact entry.elim

theorem Api.Call.Touches.names {call : Call} {action : Action lib} {protocol : ProtocolType} {sessionId : String}
    (touches : call.Touches action) (entry : action.OnEntry protocol sessionId) :
    call.scope = some (protocol, sessionId) := by
  cases named : call.scope with
  | none =>
      rw [Call.Touches, named] at touches
      cases action <;> first | exact entry.elim | exact touches.elim
  | some target =>
      obtain ⟨rfl, rfl⟩ := touches.entry named entry
      rfl

theorem Api.Call.body_stays (call : Call) :
    (call.body lib).Follows (fun _ action => call.Touches action) (fun _ _ => True) [] :=
  (Call.body_touches call).follows (fun _ _ touches => touches) fun _ _ => trivial

/-- Everything in a table's history was inserted by some thread. -/
theorem inserted_of_put {trace : List (Nat × Entry (Action lib) (Action.Answer lib))}
    {sessionId : String} {session : Session lib curve protocol}
    (member : (sessionId, session) ∈ Custody.put (tableHistory curve protocol trace)) :
    ∃ thread, Performed trace thread (.insert curve protocol sessionId session) () := by
  induction trace with
  | nil => cases member
  | cons event earlier ih =>
      obtain ⟨thread, entry⟩ := event
      have older (member : (sessionId, session) ∈ Custody.put (tableHistory curve protocol earlier)) :
          ∃ other, Performed ((thread, entry) :: earlier) other
            (.insert curve protocol sessionId session) () :=
        (ih member).imp fun _ performed => performed.cons _
      rw [tableHistory, List.filterMap_cons] at member
      cases effect : tableEvent curve protocol entry with
      | none =>
          simp only [effect] at member
          exact older member
      | some happened =>
          simp only [effect] at member
          cases happened with
          | put slot stored =>
              rcases List.mem_cons.mp member with here | member
              · cases here
                exact ⟨thread, by simp [Performed, insert_of_tableEvent effect]⟩
              · exact older member
          | take slot found => exact older member
          | evict slot => exact older member
          | amend slot change => exact older member

theorem tableHistory_cons (event : Nat × Entry (Action lib) (Action.Answer lib))
    (earlier : List (Nat × Entry (Action lib) (Action.Answer lib))) :
    tableHistory curve protocol (event :: earlier) =
      (tableEvent curve protocol event.2).toList ++ tableHistory curve protocol earlier := by
  rw [tableHistory, List.filterMap_cons]
  cases tableEvent curve protocol event.2 <;> rfl

private theorem taken_tail {event : Nat × Entry (Action lib) (Action.Answer lib)}
    {earlier : List (Nat × Entry (Action lib) (Action.Answer lib))} :
    (Custody.taken (tableHistory curve protocol earlier)).Sublist
      (Custody.taken (tableHistory curve protocol (event :: earlier))) := by
  rw [tableHistory_cons]
  cases tableEvent curve protocol event.2 with
  | none => exact List.Sublist.refl _
  | some happened => exact Custody.taken_sublist happened _

theorem taken_of_removed {trace : List (Nat × Entry (Action lib) (Action.Answer lib))}
    {thread : Nat} {sessionId : String} {session : Session lib curve protocol}
    (removed : Performed trace thread (.remove curve protocol sessionId) (some session)) :
    session ∈ Custody.taken (tableHistory curve protocol trace) := by
  induction trace with
  | nil => cases removed
  | cons event earlier ih =>
      rcases List.mem_cons.mp removed with rfl | before
      · rw [tableHistory_cons, tableEvent_remove]
        exact List.mem_cons_self
      · exact taken_tail.subset (ih before)

/-- Where tokens are taken once, one token is never removed by two calls. -/
theorem removed_once {Token : Type} {token : Session lib curve protocol → Token}
    {trace : List (Nat × Entry (Action lib) (Action.Answer lib))}
    (once : ((Custody.taken (tableHistory curve protocol trace)).map token).Nodup)
    {thread other : Nat} {sessionId otherId : String} {session copy : Session lib curve protocol}
    (removed : Performed trace thread (.remove curve protocol sessionId) (some session))
    (again : Performed trace other (.remove curve protocol otherId) (some copy))
    (same : token session = token copy) : thread = other := by
  induction trace with
  | nil => cases removed
  | cons event earlier ih =>
      have onceBefore := once.sublist (taken_tail.map token)
      have clash {taker : Nat} {id : String} {first : Session lib curve protocol}
          (newest : event = (taker, ⟨.remove curve protocol id, some first⟩))
          (member : token first ∈ (Custody.taken (tableHistory curve protocol earlier)).map token) :
          False := by
        subst newest
        rw [tableHistory_cons, tableEvent_remove] at once
        exact (List.nodup_cons.mp once).1 member
      rcases List.mem_cons.mp removed with here | before <;>
        rcases List.mem_cons.mp again with there | earlierAgain
      · rw [← here] at there
        exact (congrArg Prod.fst there).symm
      · exact (clash here.symm (same ▸ List.mem_map_of_mem (taken_of_removed earlierAgain))).elim
      · exact (clash there.symm (same ▸ List.mem_map_of_mem (taken_of_removed before))).elim
      · exact ih onceBefore before earlierAgain

/-- A session in a table was inserted under the same id. -/
theorem inserted_of_session (reached : (machine lib).Reaches Allowed (.initial .empty) world)
    {sessionId : String} {session : Session lib curve protocol}
    (live : world.shared.sessions curve protocol sessionId = some session) :
    ∃ thread stored, Performed world.trace thread (.insert curve protocol sessionId stored) () ∧
      lasting curve protocol stored = lasting curve protocol session := by
  have recorded := reached_recorded curve protocol reached
  rw [← recorded.contents] at live
  obtain ⟨stored, member, same⟩ := Custody.put_of_contents recorded.faithful live
  obtain ⟨thread, performed⟩ := inserted_of_put member
  exact ⟨thread, stored, performed, same⟩

/-- After an operation a table holds what it just inserted, or what was there. -/
theorem session_after_reply {thread : Nat} {action : Action lib} {answer : Action.Answer lib action}
    {after : Engine lib} (reached : (machine lib).Reaches Allowed (.initial .empty) world)
    (moved : world.shared.interpret thread action = .reply after answer)
    {sessionId : String} {session : Session lib curve protocol}
    (live : after.sessions curve protocol sessionId = some session) :
    action = .insert curve protocol sessionId session ∨
      ∃ old, world.shared.sessions curve protocol sessionId = some old ∧
        lasting curve protocol old = lasting curve protocol session := by
  have before := reached_recorded curve protocol reached
  have recorded := Engine.interpret_recorded before moved
  cases effect : tableEvent curve protocol ⟨action, answer⟩ with
  | none =>
      rw [effect] at recorded
      rw [← recorded.contents] at live
      exact .inr ⟨session, before.contents ▸ live, rfl⟩
  | some event =>
      rw [effect] at recorded
      rw [← recorded.contents] at live
      rcases Custody.contents_cons recorded.faithful live with rfl | ⟨old, held, same⟩
      · exact .inl (congrArg Sigma.fst (insert_of_tableEvent effect))
      · exact .inr ⟨old, before.contents ▸ held, same⟩

/-- A session that was removed had been inserted under the same id. -/
theorem inserted_before_removal (reached : (machine lib).Reaches Allowed (.initial .empty) world)
    {later earlier : List (Nat × Entry (Action lib) (Action.Answer lib))} {thread : Nat}
    {sessionId : String} {session : Session lib curve protocol}
    (split : world.trace =
      later ++ (thread, ⟨.remove curve protocol sessionId, some session⟩) :: earlier) :
    ∃ other stored, Performed earlier other (.insert curve protocol sessionId stored) () ∧
      lasting curve protocol stored = lasting curve protocol session := by
  have faithful := (reached_recorded curve protocol reached).faithful
  rw [split, tableHistory, List.filterMap_append] at faithful
  have atRemoval := faithful.suffix
  rw [List.filterMap_cons, tableEvent_remove] at atRemoval
  obtain ⟨stored, member, same⟩ := Custody.put_of_contents atRemoval.2 atRemoval.1.symm
  obtain ⟨other, performed⟩ := inserted_of_put member
  exact ⟨other, stored, performed, same⟩

/-- Operations that leave every table as it is. -/
def Action.Tableless : Action lib → Prop
  | .insert .. | .remove .. | .checkout .. | .acquire .. | .resetConsumed _ => False
  | _ => True

theorem Engine.tableless_sessions {thread : Nat} {action : Action lib}
    {answer : Action.Answer lib action} {engine after : Engine lib}
    (moved : engine.interpret thread action = .reply after answer) (tableless : action.Tableless) :
    after.sessions = engine.sessions := by
  cases action with
  | insert | remove | checkout | acquire | resetConsumed => exact tableless.elim
  | now | random | exportedContains _ | exportedInsert _ | roundSign _ _ _ | release _ =>
      cases moved
      rfl
  | contains _ _ _ =>
      simp only [Engine.interpret] at moved
      split at moved <;> cases moved
      rfl
  | spawn _ _ =>
      cases moved
      rfl
  | abort _ _ | dropSender _ _ | dropReceiver _ _ =>
      cases moved
      exact Engine.mapTask_sessions _ _ _ _
  | join _ _ =>
      simp only [Engine.interpret] at moved
      split at moved
      · split at moved <;> cases moved
        rfl
      · cases moved
  | send _ _ _ =>
      simp only [Engine.interpret] at moved
      split at moved
      · cases moved
      · split at moved <;> cases moved
        rfl
  | collect _ _ _ => exact Engine.collect_sessions moved

/-- The steps of a thread leave the tables if its operations do. -/
theorem step_sessions {thread : Nat} {before : EngineWorld lib}
    (onward : (machine lib).Reaches Allowed ((machine lib).step before (.run thread)) world)
    (leaves : ∀ (action : Action lib) (answer : Action.Answer lib action) (engine after : Engine lib),
      Performed world.trace thread action answer → engine.interpret thread action = .reply after answer →
        after.sessions = engine.sessions) :
    ((machine lib).step before (.run thread)).shared.sessions = before.shared.sessions := by
  simp only [Machine.step] at onward ⊢
  split
  · next call action next found =>
    simp only [found] at onward
    split
    · rfl
    · next state moved =>
      obtain ⟨tasks, rfl⟩ := Engine.interpret_pending moved
      rfl
    · next state answer moved =>
      simp only [moved] at onward
      exact leaves action answer _ _ (onward.performed List.mem_cons_self) moved
  · rfl

end CeresMpc
