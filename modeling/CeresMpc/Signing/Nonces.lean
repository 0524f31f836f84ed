import CeresMpc.Signing.Specification
import CeresMpc.Toy

/-!
# Nonces are used once

A draw makes one session, the session is taken by one call, and that call signs
once. The tables' custody law carries the middle step.
-/

set_option autoImplicit false

namespace CeresMpc.Signing

open Encoding Interleaving Program Api

variable {lib : Libraries} {Allowed : EngineWorld lib → Move Call Drift → Prop}
  {world : EngineWorld lib}

/-- The draw a session's nonces come from. -/
def nonceDraw (session : FrostSignSession lib) : Option Nat :=
  session.nonces.map (·.draw)

/-! ## Draws -/

private theorem draws_bounded (reached : (machine lib).Reaches Allowed (.initial .empty) world) :
    ∀ thread (draw : Nat), Performed world.trace thread .random draw → draw < world.shared.draws := by
  refine reached.invariant (fun world =>
    ∀ thread (draw : Nat), Performed world.trace thread .random draw → draw < world.shared.draws)
    ?_ ?_ ?_ ?_ ?_
  · intro thread draw drawn
    cases drawn
  · intro world call _ bounded _
    exact bounded
  · intro world thread call action next state answer _ bounded _ _ moved other draw drawn
    have registers := Engine.interpret_registers moved
    rcases List.mem_cons.mp drawn with here | before
    · cases here
      obtain ⟨rfl, rfl⟩ := Reaction.reply.inj moved
      exact Nat.lt_succ_self _
    · have smaller := bounded other draw before
      exact Nat.lt_of_lt_of_le smaller (registers.1 ▸ Nat.le_add_right _ _)
  · intro world thread call action next state _ bounded _ _ moved
    obtain ⟨tasks, rfl⟩ := Engine.interpret_pending moved
    exact bounded
  · intro world change _ bounded _ thread draw drawn
    exact Nat.lt_of_lt_of_eq (bounded thread draw drawn) (Engine.drift_draws change world.shared).symm

/-- No two calls are given the same draw. -/
theorem draw_thread (reached : (machine lib).Reaches Allowed (.initial .empty) world) :
    ∀ thread other (draw : Nat), Performed world.trace thread .random draw →
      Performed world.trace other .random draw → thread = other := by
  refine reached.invariant (fun world => ∀ thread other (draw : Nat),
    Performed world.trace thread .random draw → Performed world.trace other .random draw →
      thread = other) ?_ ?_ ?_ ?_ ?_
  · intro thread other draw drawn
    cases drawn
  · intro world call _ distinct _
    exact distinct
  · intro world thread call action next state answer reached distinct _ _ moved first second draw
      drawn again
    have bounded := draws_bounded reached
    rcases List.mem_cons.mp drawn with here | before <;>
      rcases List.mem_cons.mp again with there | earlier
    · cases here
      cases there
      rfl
    · cases here
      obtain ⟨rfl, rfl⟩ := Reaction.reply.inj moved
      exact absurd (bounded second _ earlier) (Nat.lt_irrefl _)
    · cases there
      obtain ⟨rfl, rfl⟩ := Reaction.reply.inj moved
      exact absurd (bounded first _ before) (Nat.lt_irrefl _)
    · exact distinct first second draw before earlier
  · intro world thread call action next state _ distinct _ _ _
    exact distinct
  · intro world change _ distinct _
    exact distinct

/-! ## Openings -/

private theorem opening (reached : (machine lib).Reaches Allowed (.initial .empty) world)
    {thread : Nat} {sessionId : String} {session : FrostSignSession lib}
    (inserted : Performed world.trace thread (.insert .ed25519 .dsg sessionId session) ()) :
    ∃ share messageHex before nonces, FrostOpening lib share messageHex before session nonces ∧
      Performed world.trace thread .random nonces.draw := by
  obtain ⟨call, program, before, _, allowed, happened⟩ :=
    reached.performed_permitted body_follows inserted
  obtain ⟨entry, serverPayload, share, messageHex, nonces, _, opened⟩ := allowed
  exact ⟨share, messageHex, before, nonces, opened, happened (by simp [opened.past])⟩

/-- Only one call inserts a given session. -/
theorem inserter_unique (reached : (machine lib).Reaches Allowed (.initial .empty) world)
    {thread other : Nat} {sessionId otherId : String} {session : FrostSignSession lib}
    (inserted : Performed world.trace thread (.insert .ed25519 .dsg sessionId session) ())
    (again : Performed world.trace other (.insert .ed25519 .dsg otherId session) ()) :
    thread = other := by
  obtain ⟨_, _, _, nonces, opened, drawn⟩ := opening reached inserted
  obtain ⟨_, _, _, otherNonces, otherOpened, otherDrawn⟩ := opening reached again
  obtain rfl : nonces = otherNonces := by simpa [opened.stored] using otherOpened.stored
  exact draw_thread reached thread other _ drawn otherDrawn

private theorem first_insertion {call : Call} {past : Past lib} {sessionId : String}
    {session : FrostSignSession lib}
    (allowed : Permitted lib call past (.insert .ed25519 .dsg sessionId session))
    {otherId : String} {other : FrostSignSession lib} :
    ⟨.insert .ed25519 .dsg otherId other, ()⟩ ∉ past := by
  obtain ⟨entry, serverPayload, share, messageHex, nonces, _, opened⟩ := allowed
  simp [opened.past]

theorem insertions_distinct (reached : (machine lib).Reaches Allowed (.initial .empty) world) :
    ((Custody.put (tableHistory .ed25519 .dsg world.trace)).map
      fun entry => nonceDraw entry.2).Nodup := by
  refine reached.invariant (fun world =>
    ((Custody.put (tableHistory .ed25519 .dsg world.trace)).map
      fun entry => nonceDraw entry.2).Nodup) ?_ ?_ ?_ ?_ ?_
  · exact List.nodup_nil
  · intro world call _ distinct _
    exact distinct
  · intro world thread call action next state answer reached distinct _ found _
    have follows := reached.follows body_follows thread call _ found
    rw [tableHistory, List.filterMap_cons]
    cases effect : tableEvent .ed25519 .dsg ⟨action, answer⟩ with
    | none => exact distinct
    | some event =>
        cases event with
        | take slot taken => exact distinct
        | evict slot => exact distinct
        | amend slot change => exact distinct
        | put slot session =>
            cases insert_of_tableEvent effect
            simp only [Custody.put, List.map_cons, List.nodup_cons]
            refine ⟨fun member => ?_, distinct⟩
            obtain ⟨⟨otherId, other⟩, wasPut, sameDraw⟩ := List.mem_map.mp member
            obtain ⟨inserter, inserted⟩ := inserted_of_put wasPut
            obtain ⟨share, messageHex, before, otherNonces, opened, otherDrawn⟩ :=
              opening reached inserted
            obtain ⟨entry, serverPayload, share, messageHex, nonces, _, opening⟩ := follows.1
            have drawn : Performed world.trace thread .random nonces.draw := by
              refine mem_past.mp ?_
              simp [opening.past]
            have draws : otherNonces.draw = nonces.draw := by
              simpa [nonceDraw, opened.stored, opening.stored] using sameDraw
            obtain rfl : inserter = thread :=
              draw_thread reached inserter thread _ (draws ▸ otherDrawn) drawn
            exact first_insertion follows.1 (mem_past.mpr inserted)
  · intro world thread call action next state _ distinct _ _ _
    exact distinct
  · intro world change _ distinct _
    exact distinct

/-! ## Custody -/

theorem nonces_custody (reached : (machine lib).Reaches Allowed (.initial .empty) world) :
    Custody.Unique nonceDraw (tableHistory .ed25519 .dsg world.trace) :=
  Custody.unique ((reached_recorded .ed25519 .dsg reached).faithful.comp nonceDraw)
    (insertions_distinct reached)

/-! ## Uses -/

/-- The nonces of a draw are passed to `round2::sign`. -/
def uses (draw : Nat) (event : Nat × Entry (Action lib) (Action.Answer lib)) : Bool :=
  match event.2.1 with
  | .roundSign _ nonces _ => nonces.draw = draw
  | _ => false

private theorem roundSign_of_uses {draw : Nat} {event : Nat × Entry (Action lib) (Action.Answer lib)}
    (used : uses draw event = true) :
    ∃ thread package nonces keyPackage answer,
      event = (thread, ⟨.roundSign package nonces keyPackage, answer⟩) ∧ nonces.draw = draw := by
  obtain ⟨thread, action, answer⟩ := event
  unfold uses at used
  split at used
  · next package nonces keyPackage isUse =>
    obtain rfl : action = .roundSign package nonces keyPackage := isUse
    exact ⟨thread, package, nonces, keyPackage, answer, rfl, by simpa using used⟩
  · cases used

private theorem taken_of_permitted {call : Call} {past : Past lib} {package : lib.frost.SigningPackage}
    {nonces : SigningNonces lib} {keyPackage : lib.frost.KeyPackage}
    (allowed : Permitted lib call past (.roundSign package nonces keyPackage)) :
    (∃ sessionId session, nonceDraw session = some nonces.draw ∧ session.nonces = some nonces ∧
        session.keyPackage = keyPackage ∧
        ⟨.remove .ed25519 .dsg sessionId, some session⟩ ∈ past) ∧
      ∀ otherPackage otherNonces otherKey answer,
        ⟨.roundSign otherPackage otherNonces otherKey, answer⟩ ∉ past := by
  obtain ⟨entry, sessionId, serverPayload, share, messageHex, session, _, holds, taken⟩ := allowed
  obtain ⟨earlier, rfl, dispatched⟩ := taken.past
  refine ⟨⟨sessionId, session, by simp [nonceDraw, taken.stored], taken.stored, holds, by simp⟩, ?_⟩
  rcases dispatched with rfl | rfl <;> simp

private theorem taken_of_use (reached : (machine lib).Reaches Allowed (.initial .empty) world)
    {thread : Nat} {package : lib.frost.SigningPackage} {nonces : SigningNonces lib}
    {keyPackage : lib.frost.KeyPackage} {answer}
    (used : Performed world.trace thread (.roundSign package nonces keyPackage) answer) :
    ∃ sessionId session, nonceDraw session = some nonces.draw ∧ session.nonces = some nonces ∧
      session.keyPackage = keyPackage ∧
      Performed world.trace thread (.remove .ed25519 .dsg sessionId) (some session) := by
  obtain ⟨call, program, before, _, allowed, happened⟩ :=
    reached.performed_permitted body_follows used
  obtain ⟨sessionId, session, draws, stored, holds, member⟩ := (taken_of_permitted allowed).1
  exact ⟨sessionId, session, draws, stored, holds, happened member⟩

theorem uses_at_most_once (reached : (machine lib).Reaches Allowed (.initial .empty) world)
    (draw : Nat) : world.trace.countP (uses draw) ≤ 1 := by
  refine reached.invariant (fun world => world.trace.countP (uses draw) ≤ 1) ?_ ?_ ?_ ?_ ?_
  · exact Nat.zero_le 1
  · intro world call _ bounded _
    exact bounded
  · intro world thread call action next state answer reached bounded _ found _
    have follows := reached.follows body_follows thread call _ found
    by_cases newest : uses draw (thread, ⟨action, answer⟩) = true
    · rw [List.countP_cons_of_pos newest]
      suffices unused : world.trace.countP (uses draw) = 0 by omega
      refine List.countP_eq_zero.mpr fun event member earlier => ?_
      obtain ⟨_, package, nonces, keyPackage, _, same, drawn⟩ := roundSign_of_uses newest
      cases same
      obtain ⟨other, otherPackage, otherNonces, otherKey, otherAnswer, rfl, otherDrawn⟩ :=
        roundSign_of_uses earlier
      obtain ⟨⟨sessionId, session, draws, _, _, removed⟩, first⟩ := taken_of_permitted follows.1
      obtain ⟨otherId, otherSession, otherDraws, _, _, otherRemoved⟩ := taken_of_use reached member
      obtain rfl : thread = other :=
        removed_once (nonces_custody reached).taken_once (mem_past.mp removed) otherRemoved
          (by rw [draws, otherDraws, drawn, otherDrawn])
      exact first _ _ _ _ (mem_past.mpr member)
    · rw [List.countP_cons_of_neg newest]
      exact bounded
  · intro world thread call action next state _ bounded _ _ _
    exact bounded
  · intro world change _ bounded _
    exact bounded

/-! ## Round-2 calls -/

/-- A round-2 call of the FROST engine that gets past decoding takes the session. -/
private def TakesSession (call : Call) (past : Past lib) (_ : Except String Reply) : Prop :=
  match call with
  | .sign entry sessionId round serverPayload _ _ => round = 2 → OnFrost entry sessionId past →
      ∀ decoded, EngineEd25519.decodeSignRound2 lib serverPayload = .ok decoded →
        ∃ found, ⟨.remove .ed25519 .dsg sessionId, found⟩ ∈ past
  | _ => True

private theorem ed25519_sign_takes {entry : EntryPoint} {sessionId serverPayload : String}
    {round : Int32} {share messageHex : Option String} {before : Past lib} :
    Follows (fun _ _ => True) (fun past outcome =>
        TakesSession (.sign entry sessionId round serverPayload share messageHex) past
          (outcome.map .round)) before
      (EngineEd25519.sign lib sessionId round serverPayload share messageHex) := by
  have only : (EngineEd25519.sign lib sessionId round serverPayload share messageHex).Only
      (Action.Within .ed25519 .dsg sessionId) := EngineEd25519.sign_within _ _ _ _ _
  by_cases isSecond : round = 2
  · subst isSecond
    change (EngineEd25519.signRound2 lib sessionId serverPayload).Only _ at only
    change Follows _ _ before (EngineEd25519.signRound2 lib sessionId serverPayload)
    simp only [EngineEd25519.signRound2, bind_eq, liftM_eq, request_bind] at only ⊢
    rw [only_lift_bind] at only
    rw [follows_lift_bind]
    refine ⟨fun decoded isDecoded => ⟨trivial, fun found => ?_⟩, fun failure undecoded => ?_⟩
    · refine ((only decoded isDecoded).2 found).follows (fun _ _ _ => trivial) ?_
      intro extra outcome _ _ _ _
      exact ⟨found, by simp⟩
    · intro _ _ decoded isDecoded
      rw [undecoded] at isDecoded
      cases isDecoded
  · exact only.follows (fun _ _ _ => trivial) fun _ _ impossible => absurd impossible isSecond

private theorem body_takes (call : Call) :
    (call.body lib).Follows (fun _ _ => True) (TakesSession call) [] := by
  have unrestricted (call : Call) (free : ∀ (past : Past lib) outcome, TakesSession call past outcome) :
      (call.body lib).Follows (fun _ _ => True) (TakesSession call) [] :=
    (Call.body_touches call).follows (fun _ _ _ => trivial) fun _ _ => free _ _
  cases call with
  | keygen entry sessionId round serverPayload => exact unrestricted _ fun _ _ => trivial
  | recover entry sessionId round serverPayload backupShare rotationVersion =>
      exact unrestricted _ fun _ _ => trivial
  | exportPrivateKey entry localShare serverShare => exact unrestricted _ fun _ _ => trivial
  | sign entry sessionId round serverPayload share messageHex =>
      by_cases isSecond : round = 2
      · subst isSecond
        cases entry with
        | engineEd25519 => exact (follows_map _ _).mpr ed25519_sign_takes
        | mpcEngine =>
            refine (follows_map _ _).mpr ⟨trivial, fun found => ?_⟩
            cases found with
            | true => exact ed25519_sign_takes
            | false =>
                refine (MpcEngine.advance_continues _ _).follows (fun _ _ _ => trivial) ?_
                intro extra outcome _ onFrost
                simp [OnFrost] at onFrost
      · exact unrestricted _ fun _ _ impossible => absurd impossible isSecond

/-- Every nonces value a round-1 call made is passed to `round2::sign` at most
once in a whole run, and it is in no table once a call has taken its session. -/
theorem nonces_single_use (reached : (machine lib).Reaches Allowed (.initial .empty) world) :
    (∀ draw, world.trace.countP (uses draw) ≤ 1) ∧
      (∀ thread package nonces keyPackage answer,
        Performed world.trace thread (.roundSign package nonces keyPackage) answer →
          nonces.value = (lib.frost.commit keyPackage nonces.draw).1 ∧
            ∃ maker, Performed world.trace maker .random nonces.draw) ∧
      ∀ thread entry sessionId serverPayload share messageHex outcome decoded,
        world.Returned thread (.sign entry sessionId 2 serverPayload share messageHex) outcome →
          OnFrost entry sessionId (past thread world.trace) →
          EngineEd25519.decodeSignRound2 lib serverPayload = .ok decoded →
          ∃ found, Performed world.trace thread (.remove .ed25519 .dsg sessionId) found ∧
            ∀ session, found = some session → ∀ otherId live,
              world.shared.sessions .ed25519 .dsg otherId = some live →
                nonceDraw live ≠ nonceDraw session := by
  refine ⟨uses_at_most_once reached, ?_, ?_⟩
  · intro thread package nonces keyPackage answer used
    obtain ⟨sessionId, session, _, stored, holds, removed⟩ := taken_of_use reached used
    obtain ⟨later, earlier, split⟩ := List.append_of_mem removed
    obtain ⟨maker, opened, inserted, same⟩ := inserted_before_removal reached split
    obtain rfl : opened = session := same
    have inTrace : Performed world.trace maker (.insert .ed25519 .dsg sessionId opened) () := by
      rw [Performed, split]
      exact List.mem_append_right _ (List.mem_cons_of_mem _ inserted)
    obtain ⟨share, messageHex, before, made, opening, drawn⟩ := opening reached inTrace
    obtain rfl : made = nonces := by simpa [opening.stored] using stored
    exact ⟨holds ▸ opening.committed, maker, drawn⟩
  · intro thread entry sessionId serverPayload share messageHex outcome decoded found onFrost isDecoded
    have takes := reached.follows body_takes thread _ _ found
    obtain ⟨taken, removed⟩ := takes rfl onFrost decoded isDecoded
    refine ⟨taken, mem_past.mp removed, ?_⟩
    rintro session rfl otherId live held same
    have recorded := reached_recorded .ed25519 .dsg reached
    rw [← recorded.contents] at held
    refine (nonces_custody reached).gone held ?_
    rw [same]
    exact List.mem_map_of_mem (taken_of_removed (mem_past.mp removed))

/-- A run in which round 2 signs and is replayed. -/
theorem nonces_single_use_replayed :
    Toy.status (Toy.run Toy.signingCalls) 1 = some "completed" ∧
      ∀ draw, (Toy.run Toy.signingCalls).trace.countP (uses draw) ≤ 1 := by
  have reached : (machine Toy.libraries).Reaches Machine.Any (.initial .empty)
      (Toy.run Toy.signingCalls) := Machine.reaches_run _ _
  exact ⟨Toy.signing_completed, (nonces_single_use reached).1⟩

end CeresMpc.Signing
