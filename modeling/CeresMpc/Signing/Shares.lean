import CeresMpc.Signing.Specification

/-!
# What calls take their shares to be

Signing, recovery and export each read a share in one call. What the call then does shows
the key material that it has read.
-/

set_option autoImplicit false

namespace CeresMpc.Signing

open Encoding Interleaving Program Api

variable (lib : Libraries)

/-- The calls of the unified engine that read a share, and what each takes it to be. -/
inductive ReadsShare : Call → String → Except String (KeyMaterial lib) → Prop where
  | sign {sessionId serverPayload share messageHex} :
      ReadsShare (.sign .mpcEngine sessionId 1 serverPayload (some share) messageHex) share (signReads lib share)
  | recover {sessionId serverPayload share rotationVersion} :
      ReadsShare (.recover .mpcEngine sessionId 1 serverPayload (some share) rotationVersion) share (recoverReads lib share)
  | exports {share serverShare} : ReadsShare (.exportPrivateKey .mpcEngine share serverShare) share (exportReads lib share)

/-- The operation works on this key material: it stores a session made of it, or registers
its public key. -/
inductive WorksOn (past : Past lib) : Action lib → KeyMaterial lib → Prop where
  | signsFrost {sessionId session} :
      WorksOn past (.insert .ed25519 .dsg sessionId session) (.frost session.keyPackage session.publicKeyPackage)
  | signsDkls {sessionId session inst seed keyshare} :
      ⟨.spawn .dsg (lib.dkls.sign inst seed keyshare session.digest), session.task⟩ ∈ past →
      WorksOn past (.insert .secp256k1 .dsg sessionId session) (.dkls keyshare)
  | recoversFrost {sessionId session keyPackage publicKeyPackage draw inner} :
      lib.frost.recoveryPart1 keyPackage publicKeyPackage draw = .ok (session.libState, inner) →
      WorksOn past (.insert .ed25519 .rotation sessionId session) (.frost keyPackage publicKeyPackage)
  | recoversDkls {sessionId session inst seed keyshare} :
      ⟨.spawn .rotation (lib.dkls.keyRefresh inst seed keyshare), session.task⟩ ∈ past →
      WorksOn past (.insert .secp256k1 .rotation sessionId session) (.dkls keyshare)
  | exports {key material} : material.publicKeyHex = .ok key → WorksOn past (.exportedInsert key) material

/-- One of the operations has worked on this key material. -/
def Took (past : Past lib) (material : KeyMaterial lib) : Prop :=
  ∃ later earlier entry, past = later ++ entry :: earlier ∧ WorksOn lib earlier entry.1 material

/-- A call that returns a result has worked on what it has read. -/
def TookRead {Result : Type} (read : Except String (KeyMaterial lib)) (past : Past lib)
    (outcome : Except String Result) : Prop :=
  ∀ result, outcome = .ok result → ∃ material, read = .ok material ∧ Took lib past material

variable {lib}

/-! ## Rounds -/

section Rounds

variable {read : Except String (KeyMaterial lib)} {sessionId serverPayload share : String} {base : Past lib}

private abbrev Takes {Result : Type} (read : Except String (KeyMaterial lib)) (past : Past lib)
    (program : EngineM lib Result) : Prop :=
  program.Follows (fun _ _ => True) (TookRead lib read) past

private theorem stops {Result : Type} (past : Past lib) (failure : String) :
    TookRead lib read past (.error failure : Except String Result) := by
  intro result returned
  cases returned

private theorem took {Result : Type} {past : Past lib} {entry : Entry (Action lib) (Action.Answer lib)}
    {material : KeyMaterial lib} {outcome : Except String Result} (same : read = .ok material)
    (works : WorksOn lib past entry.1 material) : TookRead lib read (entry :: past) outcome :=
  fun _ _ => ⟨material, same, [], past, entry, rfl, works⟩

private theorem replies {program : EngineM lib MpcRoundResult} (takes : Takes read base program) :
    Takes read base (Reply.round <$> program) := by
  refine (follows_map _ _).mpr (takes.mono (fun _ _ permitted => permitted) ?_)
  intro past outcome tookRead reply returned
  cases outcome with
  | error failure => cases returned
  | ok result => exact tookRead result rfl

private theorem frost_sign_takes {messageHex : Option String} :
    Takes (signReads lib share) base (EngineEd25519.signRound1 lib sessionId serverPayload (some share) messageHex) := by
  simp only [EngineEd25519.signRound1, bind_eq, liftM_eq, request_bind, follows_lift_bind, okOr_eq_ok]
  refine ⟨fun env _ => ⟨fun r1 _ => ⟨fun serverCommitments _ => ?_, fun _ _ => stops _ _⟩, fun _ _ => stops _ _⟩,
    fun _ _ => stops _ _⟩
  refine ⟨?_, fun _ _ => stops _ _⟩
  intro given same
  cases same
  refine ⟨fun msgHex _ => ⟨fun message _ => ?_, fun _ _ => stops _ _⟩, fun _ _ => stops _ _⟩
  refine ⟨fun packages material => ?_, fun _ _ => stops _ _⟩
  obtain ⟨keyPackage, publicKeyPackage⟩ := packages
  refine ⟨fun vkBytes _ => ⟨trivial, fun exported => ?_⟩, fun _ _ => stops _ _⟩
  rw [follows_ensure_bind]
  refine ⟨fun _ => ?_, fun _ => stops _ _⟩
  refine ⟨trivial, fun draw => ⟨trivial, fun createdAt => ⟨trivial, fun _ => ?_⟩⟩⟩
  simp only [follows_lift_bind]
  refine ⟨fun commitments _ => ?_, fun _ _ => stops _ _⟩
  exact took (reads_of_material material).1 .signsFrost

private theorem frost_recover_takes {rotationVersion : Option Int32} :
    Takes (recoverReads lib share) base
      (EngineEd25519.recoverRound1 lib sessionId serverPayload (some share) rotationVersion) := by
  simp only [EngineEd25519.recoverRound1, bind_eq, liftM_eq, request_bind, follows_lift_bind, okOr_eq_ok]
  refine ⟨fun env _ => ?_, fun _ _ => stops _ _⟩
  refine ⟨?_, fun _ _ => stops _ _⟩
  intro given same
  cases same
  refine ⟨fun version _ => ⟨fun packages material => ?_, fun _ _ => stops _ _⟩, fun _ _ => stops _ _⟩
  obtain ⟨oldKp, oldPkp⟩ := packages
  refine ⟨trivial, fun draw => ?_⟩
  simp only [follows_lift_bind, mapErr_eq_ok]
  refine ⟨fun made part1 => ?_, fun _ _ => stops _ _⟩
  obtain ⟨libState, inner⟩ := made
  refine ⟨trivial, fun createdAt => ⟨trivial, fun _ => ?_⟩⟩
  exact took (reads_of_material material).2.1 (.recoversFrost part1)

private theorem dkls_sign_takes {messageHex : Option String} :
    Takes (signReads lib share) base (MpcEngine.signRound1 lib sessionId serverPayload (some share) messageHex) := by
  simp only [MpcEngine.signRound1, bind_eq, liftM_eq, request_bind, follows_lift_bind, okOr_eq_ok]
  refine ⟨fun received _ => ?_, fun _ _ => stops _ _⟩
  refine ⟨?_, fun _ _ => stops _ _⟩
  intro given same
  cases same
  refine ⟨fun hashHex _ => ⟨fun digest _ => ?_, fun _ _ => stops _ _⟩, fun _ _ => stops _ _⟩
  refine ⟨fun keyshare reads => ⟨trivial, fun exported => ?_⟩, fun _ _ => stops _ _⟩
  simp only [follows_ensure_bind, follows_lift_bind]
  refine ⟨fun _ => ⟨fun inst _ => ⟨trivial, fun seed => ?_⟩, fun _ _ => stops _ _⟩, fun _ => stops _ _⟩
  refine MpcEngine.openSession_follows (fun _ _ _ => trivial) stops (fun _ => trivial)
    fun extra task clientMsgs => ⟨trivial, fun _ => ?_⟩
  exact took (signReads_of_signKeyshare reads) (.signsDkls (List.mem_append_right _ List.mem_cons_self))

private theorem dkls_recover_takes {rotationVersion : Option Int32}
    (dispatched : ¬MpcEngine.isEd25519Share lib (some share) = true) :
    Takes (recoverReads lib share) base
      (MpcEngine.recoverRound1 lib sessionId serverPayload (some share) rotationVersion) := by
  simp only [MpcEngine.recoverRound1, bind_eq, liftM_eq, request_bind, follows_lift_bind, okOr_eq_ok]
  refine ⟨fun received _ => ?_, fun _ _ => stops _ _⟩
  refine ⟨?_, fun _ _ => stops _ _⟩
  intro given same
  cases same
  refine ⟨fun version _ => ⟨fun keyshare reads => ?_, fun _ _ => stops _ _⟩, fun _ _ => stops _ _⟩
  refine ⟨fun inst _ => ⟨trivial, fun seed => ?_⟩, fun _ _ => stops _ _⟩
  refine MpcEngine.openSession_follows (fun _ _ _ => trivial) stops (fun _ => trivial)
    fun extra task clientMsgs => ⟨trivial, fun createdAt => ⟨trivial, fun _ => ?_⟩⟩
  have same : recoverReads lib share = .ok (.dkls keyshare) := by
    rw [recoverReads, if_neg dispatched, reads]
    rfl
  have spawned : ⟨.spawn .rotation (lib.dkls.keyRefresh inst seed keyshare), task⟩ ∈
      (⟨.now, createdAt⟩ : Entry (Action lib) (Action.Answer lib)) ::
        (extra ++ ⟨.spawn .rotation (lib.dkls.keyRefresh inst seed keyshare), task⟩ :: ⟨.random, seed⟩ :: base) :=
    List.mem_cons_of_mem _ (List.mem_append_right _ List.mem_cons_self)
  exact took same (.recoversDkls spawned)

end Rounds

/-! ## Calls -/

/-- Every call that reads a share works on the key material it has read. -/
theorem body_takes_read {call : Call} {share : String} {read : Except String (KeyMaterial lib)}
    (reads : ReadsShare lib call share read) : (call.body lib).Follows (fun _ _ => True) (TookRead lib read) [] := by
  cases reads with
  | @sign sessionId serverPayload share messageHex =>
      rw [Call.unified_first rfl rfl]
      split
      · exact replies frost_sign_takes
      · exact replies dkls_sign_takes
  | @recover sessionId serverPayload share rotationVersion =>
      rw [Call.unified_first rfl rfl]
      split
      · exact replies frost_recover_takes
      · next dispatched => exact replies (dkls_recover_takes dispatched)
  | @exports share serverShare =>
      refine (body_follows _).mono (fun _ _ _ => trivial) ?_
      intro past outcome finished reply returned
      obtain ⟨key, ⟨material, read, named⟩, registered⟩ := finished reply returned
      obtain ⟨later, earlier, split⟩ := List.append_of_mem registered
      exact ⟨material, read, later, earlier, _, split, .exports named⟩

section Runs

variable {Allowed : EngineWorld lib → Move Call Drift → Prop} {world : EngineWorld lib}

/-- A call that has returned a result has read its share, and worked on what it read. -/
theorem took_of_returned (reached : (machine lib).Reaches Allowed (.initial .empty) world) {thread : Nat} {call : Call}
    {share : String} {read : Except String (KeyMaterial lib)} {reply : Reply} (reads : ReadsShare lib call share read)
    (returned : world.Returned thread call (.ok reply)) :
    ∃ material, read = .ok material ∧ Took lib (past thread world.trace) material := by
  have replays := reached.replays thread call _ returned
  exact (body_takes_read reads).along replays reply rfl

/-- Two calls that both succeed with a share take it to be the same, unless it is an envelope
around a DKLs23 keyshare. -/
theorem calls_take_alike (distinct : KeysharesNotEnvelopes lib)
    (reached : (machine lib).Reaches Allowed (.initial .empty) world) {thread other : Nat} {call again : Call}
    {share : String} {read readAgain : Except String (KeyMaterial lib)} {reply replyAgain : Reply}
    (unwrapped : ¬WrapsKeyshare lib share) (reads : ReadsShare lib call share read)
    (readsAgain : ReadsShare lib again share readAgain) (returned : world.Returned thread call (.ok reply))
    (returnedAgain : world.Returned other again (.ok replyAgain)) :
    ∃ material, Took lib (past thread world.trace) material ∧ Took lib (past other world.trace) material := by
  obtain ⟨material, same, took⟩ := took_of_returned reached reads returned
  obtain ⟨found, sameAgain, tookAgain⟩ := took_of_returned reached readsAgain returnedAgain
  have recovers {call : Call} {read : Except String (KeyMaterial lib)} {material : KeyMaterial lib}
      (reads : ReadsShare lib call share read) (same : read = .ok material) : recoverReads lib share = .ok material := by
    cases reads with
    | sign => exact (signReads_iff_recoverReads distinct unwrapped).mp same
    | recover => exact same
    | exports => exact recoverReads_eq_exportReads.mpr same
  obtain rfl := Except.ok.inj ((recovers reads same).symm.trans (recovers readsAgain sameAgain))
  exact ⟨material, took, tookAgain⟩

/-- With such an envelope recovery and export fail. -/
theorem wrapped_refused (distinct : KeysharesNotEnvelopes lib)
    (reached : (machine lib).Reaches Allowed (.initial .empty) world) {thread : Nat} {call : Call} {share : String}
    {read : Except String (KeyMaterial lib)} {outcome : Except String Reply} (wraps : WrapsKeyshare lib share)
    (reads : ReadsShare lib call share read) (unsigned : ∀ sessionId, call.scope ≠ some (.dsg, sessionId))
    (returned : world.Returned thread call outcome) : ∃ failure, outcome = .error failure := by
  cases outcome with
  | error failure => exact ⟨failure, rfl⟩
  | ok reply =>
      obtain ⟨material, same, _⟩ := took_of_returned reached reads returned
      have refuses := (reads_of_wraps distinct wraps).2 material
      cases reads with
      | sign => exact absurd rfl (unsigned _)
      | recover => exact absurd same refuses
      | exports => exact absurd (recoverReads_eq_exportReads.mpr same) refuses

end Runs

end CeresMpc.Signing
