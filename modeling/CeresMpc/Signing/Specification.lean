import CeresMpc.Api.MpcEngineProperties
import CeresMpc.Api.Shares
import CeresMpc.Api.Runs

/-!
# What signing and export calls do

Each operation that matters for signatures, tied to the operations the same call
performed before it and to the call's own arguments.
-/

set_option autoImplicit false

namespace CeresMpc.Signing

open Encoding Interleaving Program Api

variable (lib : Libraries)

/-- The call was sent to the FROST engine, directly or by a lookup. -/
def Dispatched (sessionId : String) (past : Past lib) : Prop :=
  past = [] ∨ past = [⟨.contains .ed25519 .dsg sessionId, true⟩]

/-- The FROST session round 1 makes from a share and a message. -/
structure FrostOpening (share messageHex : String) (past : Past lib)
    (session : FrostSignSession lib) (nonces : SigningNonces lib) : Prop where
  material : EngineEd25519.extractShareMaterial lib share =
    .ok (session.keyPackage, session.publicKeyPackage)
  verifyingKey : ∃ vkBytes,
    EngineEd25519.verifyingKeyBytes lib session.publicKeyPackage = .ok vkBytes ∧
      session.verifyingKeyHex = lib.text.encodeHex vkBytes
  message : lib.text.decodeHex messageHex = .ok session.message
  stored : session.nonces = some nonces
  committed : nonces.value = (lib.frost.commit session.keyPackage nonces.draw).1
  past : past = [⟨.now, session.createdAt⟩, ⟨.random, nonces.draw⟩,
    ⟨.exportedContains session.verifyingKeyHex, false⟩]

/-- The FROST session a round-2 call has taken and signs with. -/
structure FrostTaken (sessionId : String) (past : Past lib) (session : FrostSignSession lib)
    (package : lib.frost.SigningPackage) (nonces : SigningNonces lib) : Prop where
  past : ∃ before, past = ⟨.remove .ed25519 .dsg sessionId, some session⟩ :: before ∧
    Dispatched lib sessionId before
  stored : session.nonces = some nonces
  message : lib.frost.packageMessage package = session.message

/-- The DKLs23 session round 1 makes from a share and a message hash. -/
structure DklsOpening (share messageHex : String) (past : Past lib) (session : SignSession)
    (keyshare : lib.dkls.Keyshare) : Prop where
  reads : signReads lib share = .ok (.dkls keyshare)
  publicKey : session.publicKeyHex = MpcEngine.compressedHex lib keyshare
  digest : MessageDigest.fromHex lib.text messageHex = .ok session.digest
  unexported : ⟨.exportedContains session.publicKeyHex, false⟩ ∈ past
  spawned : ∃ inst seed,
    ⟨.spawn .dsg (lib.dkls.sign inst seed keyshare session.digest), session.task⟩ ∈ past
  handle : session.taskHandle = some session.task

/-- The public key an export registers, in the form the registry holds it. -/
def ExportsKey (localShare key : String) : Prop :=
  ∃ material, exportReads lib localShare = .ok material ∧ material.publicKeyHex = .ok key

/-- When a call may insert a signing session, use nonces or register a key. -/
def Permitted (call : Call) (past : Past lib) : Action lib → Prop
  | .insert .ed25519 .dsg sessionId session => ∃ entry serverPayload share messageHex nonces,
      call = .sign entry sessionId 1 serverPayload (some share) (some messageHex) ∧
        FrostOpening lib share messageHex past session nonces
  | .insert .secp256k1 .dsg sessionId session => ∃ serverPayload share messageHex keyshare,
      call = .sign .mpcEngine sessionId 1 serverPayload (some share) (some messageHex) ∧
        DklsOpening lib share messageHex past session keyshare
  | .roundSign package nonces keyPackage => ∃ entry sessionId serverPayload share messageHex session,
      call = .sign entry sessionId 2 serverPayload share messageHex ∧
        session.keyPackage = keyPackage ∧ FrostTaken lib sessionId past session package nonces
  | .exportedInsert key => ∃ entry localShare serverShare,
      call = .exportPrivateKey entry localShare serverShare ∧ ExportsKey lib localShare key
  | _ => True

/-- A FROST signature and where it came from. -/
structure FrostSigned (sessionId : String) (past : Past lib) (session : FrostSignSession lib)
    (sigBytes : Bytes) (result : MpcRoundResult) : Prop where
  aggregated : ∃ package nonces own server signature before,
    past = ⟨.roundSign package nonces session.keyPackage, .ok own⟩ :: before ∧
      FrostTaken lib sessionId before session package nonces ∧
      lib.frost.aggregate package [(1, own), (2, server)] session.publicKeyPackage = .ok signature ∧
      lib.frost.serializeSignature signature = .ok sigBytes
  length : sigBytes.length = 64
  result : result = EngineEd25519.makeCompleted lib 2
    { r := lib.text.encodeHex (sigBytes.take 32), s := lib.text.encodeHex (sigBytes.drop 32)
      recid := none, curve := "ed25519" : SignCompletedPayload }.toJson

/-- A call that returned a signature took a session and finished it. -/
def SignFinished (entry : EntryPoint) (sessionId : String) (round : Int32) (past : Past lib)
    (outcome : Except String Reply) : Prop :=
  ∀ result, outcome = .ok (.round result) → result.status = "completed" →
    (∃ session sigBytes, round = 2 ∧ FrostSigned lib sessionId past session sigBytes result) ∨
      ∃ session last output wireRound, entry = .mpcEngine ∧
        past.getLast? = some ⟨.contains .ed25519 .dsg sessionId, false⟩ ∧
        MpcEngine.Joined .dsg sessionId past session last output ∧
        MpcEngine.signCompleted lib session wireRound output = .ok result

/-- A call that returned a private key has registered the public key. -/
def ExportFinished (localShare : String) (past : Past lib) (outcome : Except String Reply) : Prop :=
  ∀ reply, outcome = .ok reply →
    ∃ key, ExportsKey lib localShare key ∧ ⟨.exportedInsert key, ()⟩ ∈ past

/-- What a call that has returned did. -/
def Finished (call : Call) (past : Past lib) (outcome : Except String Reply) : Prop :=
  match call with
  | .sign entry sessionId round _ _ _ => SignFinished lib entry sessionId round past outcome
  | .exportPrivateKey _ localShare _ => ExportFinished lib localShare past outcome
  | .keygen .. | .recover .. => True

variable {lib}

/-- The call was made to the FROST engine, or was sent there by the lookup it
starts with. -/
def OnFrost (entry : EntryPoint) (sessionId : String) (own : Past lib) : Prop :=
  entry = .engineEd25519 ∨ own.getLast? = some ⟨.contains .ed25519 .dsg sessionId, true⟩

/-! ## The FROST engine -/

section

variable {entry : EntryPoint} {sessionId serverPayload : String} {round : Int32}
  {share messageHex : Option String} {before : Past lib}

/-- The specification of a signing call, for the engine functions it is built from. -/
private abbrev Meets (call : Call) (before : Past lib) (program : EngineM lib MpcRoundResult) : Prop :=
  Follows (Permitted lib call) (fun past outcome => Finished lib call past (outcome.map .round))
    before program

private theorem failed (past : Past lib) (failure : String) :
    SignFinished lib entry sessionId round past (.error failure) :=
  nofun

private theorem in_progress (past : Past lib) {result : MpcRoundResult}
    (continues : result.status = "continue") :
    SignFinished lib entry sessionId round past (.ok (.round result)) := by
  intro returned same completed
  cases same
  rw [continues] at completed
  exact absurd completed (by decide)

private theorem signRound1_meets :
    Meets (.sign entry sessionId 1 serverPayload share messageHex) []
      (EngineEd25519.signRound1 lib sessionId serverPayload share messageHex) := by
  simp only [Meets, EngineEd25519.signRound1, bind_eq, liftM_eq, request_bind, follows_lift_bind,
    okOr_eq_ok, mapErr_eq_ok]
  refine ⟨fun env _ => ?_, fun _ _ => failed _ _⟩
  refine ⟨fun r1 _ => ?_, fun _ _ => failed _ _⟩
  refine ⟨fun serverCommitments _ => ?_, fun _ _ => failed _ _⟩
  refine ⟨?_, fun _ _ => failed _ _⟩
  rintro shareStr rfl
  refine ⟨?_, fun _ _ => failed _ _⟩
  rintro msgHex rfl
  refine ⟨fun message decoded => ?_, fun _ _ => failed _ _⟩
  refine ⟨fun packages material => ?_, fun _ _ => failed _ _⟩
  obtain ⟨keyPackage, publicKeyPackage⟩ := packages
  refine ⟨fun vkBytes serialized => ?_, fun _ _ => failed _ _⟩
  refine ⟨trivial, fun exported => ?_⟩
  rw [follows_ensure_bind]
  refine ⟨?_, fun _ => failed _ _⟩
  rintro rfl
  refine ⟨trivial, fun draw => ⟨trivial, fun createdAt => ⟨?_, fun _ => ?_⟩⟩⟩
  · exact ⟨entry, serverPayload, shareStr, msgHex, _, rfl, material, ⟨vkBytes, serialized, rfl⟩,
      decoded, rfl, rfl, rfl⟩
  · simp only [follows_lift_bind]
    exact ⟨fun commitments _ => in_progress _ rfl, fun _ _ => failed _ _⟩

private theorem signRound2_meets (dispatched : Dispatched lib sessionId before) :
    Meets (.sign entry sessionId 2 serverPayload share messageHex) before
      (EngineEd25519.signRound2 lib sessionId serverPayload) := by
  simp only [Meets, EngineEd25519.signRound2, bind_eq, liftM_eq, request_bind, follows_lift_bind]
  refine ⟨fun decoded _ => ⟨trivial, fun found => ?_⟩, fun _ _ => failed _ _⟩
  obtain ⟨package, serverSigShare⟩ := decoded
  simp only [follows_lift_bind, okOr_eq_ok, follows_ensure_bind]
  refine ⟨?_, fun _ _ => failed _ _⟩
  rintro session rfl
  refine ⟨fun _ => ?_, fun _ => failed _ _⟩
  refine ⟨fun agrees => ?_, fun _ => failed _ _⟩
  refine ⟨fun nonces stored => ?_, fun _ _ => failed _ _⟩
  have taken : FrostTaken lib sessionId
      (⟨.remove .ed25519 .dsg sessionId, some session⟩ :: before) session package nonces :=
    ⟨⟨before, rfl, dispatched⟩, stored, agrees⟩
  refine ⟨⟨entry, sessionId, serverPayload, share, messageHex, session, rfl, rfl, taken⟩,
    fun signed => ?_⟩
  simp only [follows_lift_bind, mapErr_eq_ok, follows_ensure_bind]
  refine ⟨?_, fun _ _ => failed _ _⟩
  rintro own rfl
  refine ⟨fun signature aggregated => ?_, fun _ _ => failed _ _⟩
  refine ⟨fun sigBytes serialized => ?_, fun _ _ => failed _ _⟩
  refine ⟨fun length => ?_, fun _ => failed _ _⟩
  rintro result made _
  cases made
  exact .inl ⟨session, sigBytes, rfl,
    ⟨package, nonces, own, serverSigShare, signature, _, rfl, taken, aggregated, serialized⟩,
    length, rfl⟩

private theorem ed25519_sign_meets (dispatched : Dispatched lib sessionId before)
    (first : round = 1 → before = []) :
    Meets (.sign entry sessionId round serverPayload share messageHex) before
      (EngineEd25519.sign lib sessionId round serverPayload share messageHex) := by
  unfold EngineEd25519.sign
  split
  · next isFirst =>
    obtain rfl := first isFirst
    subst isFirst
    exact signRound1_meets
  split
  · next isSecond =>
    subst isSecond
    exact signRound2_meets dispatched
  · exact failed _ _

/-! ## The DKLs23 path -/

private theorem quiet_permitted (call : Call) (past : Past lib) (action : Action lib)
    (quiet : action.Quiet) : Permitted lib call past action := by
  cases action <;> trivial

private theorem dkls_signRound1_meets :
    Meets (.sign .mpcEngine sessionId 1 serverPayload share messageHex) []
      (MpcEngine.signRound1 lib sessionId serverPayload share messageHex) := by
  simp only [Meets, MpcEngine.signRound1, bind_eq, liftM_eq, request_bind, follows_lift_bind,
    okOr_eq_ok]
  refine ⟨fun received _ => ?_, fun _ _ => failed _ _⟩
  refine ⟨?_, fun _ _ => failed _ _⟩
  rintro shareB64 rfl
  refine ⟨?_, fun _ _ => failed _ _⟩
  rintro hashHex rfl
  refine ⟨fun digest fromHex => ?_, fun _ _ => failed _ _⟩
  refine ⟨fun keyshare reads => ?_, fun _ _ => failed _ _⟩
  refine ⟨trivial, fun exported => ?_⟩
  simp only [follows_ensure_bind, follows_lift_bind]
  refine ⟨?_, fun _ => failed _ _⟩
  rintro rfl
  refine ⟨fun inst _ => ?_, fun _ _ => failed _ _⟩
  refine ⟨trivial, fun seed => ?_⟩
  refine MpcEngine.openSession_follows (quiet_permitted _) failed (fun _ => trivial)
    fun extra task clientMsgs => ⟨?_, fun _ => in_progress _ rfl⟩
  exact ⟨serverPayload, shareB64, hashHex, keyshare, rfl, signReads_of_signKeyshare reads, rfl, fromHex, by simp,
    ⟨inst, seed, by simp⟩, rfl⟩

private theorem mpcEngine_sign_meets :
    Meets (.sign .mpcEngine sessionId round serverPayload share messageHex) []
      (MpcEngine.sign lib sessionId round serverPayload share messageHex) := by
  have advances : Meets (.sign .mpcEngine sessionId round serverPayload share messageHex)
      [⟨.contains .ed25519 .dsg sessionId, false⟩]
      (MpcEngine.advance lib .dsg sessionId serverPayload (MpcEngine.signCompleted lib)) := by
    refine MpcEngine.advance_follows (quiet_permitted _) failed
      (fun _ _ _ => in_progress _ rfl) ?_
    intro extra session last output wireRound result joined made returned same _
    cases same
    exact .inr ⟨session, last, output, wireRound, rfl, by simp, joined, made⟩
  simp only [Meets, MpcEngine.sign, MpcEngine.routeToEd25519, bind_eq]
  by_cases isFirst : round = 1
  · subst isFirst
    simp only [if_true, pure_eq, done_ok_bind]
    split
    · exact ed25519_sign_meets (.inl rfl) fun _ => rfl
    · exact dkls_signRound1_meets
  · simp only [isFirst, if_false, request_bind]
    refine ⟨trivial, fun found => ?_⟩
    cases found with
    | true => exact ed25519_sign_meets (.inr rfl) fun impossible => absurd impossible isFirst
    | false => exact advances

end

/-! ## Exports -/

section

variable {entry : EntryPoint} {localShare serverShare : String}

private theorem export_failed (past : Past lib) (failure : String) :
    ExportFinished lib localShare past (.error failure) :=
  nofun

private theorem register_follows {key : String} {result : ExportResult} {past : Past lib}
    (exports : ExportsKey lib localShare key) :
    Follows (Permitted lib (.exportPrivateKey entry localShare serverShare))
      (fun past outcome => ExportFinished lib localShare past (outcome.map .exported)) past
      (.perform (.exportedInsert key) fun _ => .done (.ok result)) := by
  refine ⟨⟨entry, localShare, serverShare, rfl, exports⟩, fun registered => ?_⟩
  intro reply _
  exact ⟨key, exports, by simp⟩

private theorem ed25519_export_follows :
    Follows (Permitted lib (.exportPrivateKey entry localShare serverShare))
      (fun past outcome => ExportFinished lib localShare past (outcome.map .exported)) []
      (EngineEd25519.exportPrivateKey lib localShare serverShare) := by
  simp only [EngineEd25519.exportPrivateKey, bind_eq, liftM_eq, request_bind, follows_lift_bind,
    follows_ensure_bind]
  refine ⟨fun localPackages material => ?_, fun _ _ => export_failed _ _⟩
  obtain ⟨localKp, localPkp⟩ := localPackages
  refine ⟨fun serverPackages _ => ?_, fun _ _ => export_failed _ _⟩
  refine ⟨fun localVk serialized => ?_, fun _ _ => export_failed _ _⟩
  refine ⟨fun serverVk _ => ⟨fun _ => ?_, fun _ => export_failed _ _⟩, fun _ _ => export_failed _ _⟩
  refine ⟨fun x1 _ => ?_, fun _ _ => export_failed _ _⟩
  refine ⟨fun x2 _ => ?_, fun _ _ => export_failed _ _⟩
  refine ⟨fun s1 _ => ?_, fun _ _ => export_failed _ _⟩
  refine ⟨fun s2 _ => ⟨fun _ => ⟨fun _ => ?_, fun _ => export_failed _ _⟩,
    fun _ => export_failed _ _⟩, fun _ _ => export_failed _ _⟩
  refine ⟨fun address _ => ?_, fun _ _ => export_failed _ _⟩
  refine register_follows ⟨_, (reads_of_material material).2.2, ?_⟩
  rw [KeyMaterial.publicKeyHex, serialized]
  rfl

private theorem reads_of_exportKeyshares {ks0 ks1 : lib.dkls.Keyshare}
    (read : MpcEngine.exportKeyshares lib localShare serverShare = .ok (ks0, ks1)) :
    ∃ raw, lib.text.decodeBase64 localShare = .ok raw ∧ lib.dkls.fromBytes raw = some ks0 := by
  simp only [MpcEngine.exportKeyshares, bind_eq_ok, mapErr_eq_ok, okOr_eq_ok] at read
  obtain ⟨raw, decoded, serverRaw, _, local0, keyshare, server0, _, same⟩ := read
  split at same
  · cases same
  · cases same
    exact ⟨raw, decoded, keyshare⟩

private theorem secp256k1_export_follows
    (other : ∀ bytes, ShareEnvelope.decode lib.text localShare ≠ .ok (.ed25519, bytes)) :
    Follows (Permitted lib (.exportPrivateKey entry localShare serverShare))
      (fun past outcome => ExportFinished lib localShare past (outcome.map .exported)) []
      (MpcEngine.exportSecp256k1 lib localShare serverShare) := by
  simp only [MpcEngine.exportSecp256k1, bind_eq, liftM_eq, request_bind, follows_lift_bind]
  refine ⟨fun keyshares read => ?_, fun _ _ => export_failed _ _⟩
  obtain ⟨ks0, ks1⟩ := keyshares
  refine ⟨fun own0 _ => ?_, fun _ _ => export_failed _ _⟩
  refine ⟨fun own1 _ => ?_, fun _ _ => export_failed _ _⟩
  refine ⟨fun privateKey _ => ?_, fun _ _ => export_failed _ _⟩
  refine ⟨fun address _ => ?_, fun _ _ => export_failed _ _⟩
  obtain ⟨raw, decoded, keyshare⟩ := reads_of_exportKeyshares read
  exact register_follows ⟨_, (exportReads_dkls other).mpr ⟨raw, ks0, decoded, keyshare, rfl⟩, rfl⟩

private theorem mpcEngine_export_follows :
    Follows (Permitted lib (.exportPrivateKey entry localShare serverShare))
      (fun past outcome => ExportFinished lib localShare past (outcome.map .exported)) []
      (MpcEngine.exportPrivateKey lib localShare serverShare) := by
  unfold MpcEngine.exportPrivateKey
  split
  · exact ed25519_export_follows
  · next other => exact secp256k1_export_follows other

end

private theorem within_permitted {protocol : ProtocolType} (other : protocol ≠ .dsg) (call : Call)
    (sessionId : String) (past : Past lib) (action : Action lib)
    (touches : action = .contains .ed25519 protocol sessionId ∨
      ∃ curve, action.Within curve protocol sessionId) : Permitted lib call past action := by
  rcases touches with rfl | ⟨curve, within⟩
  · trivial
  cases action with
  | insert curve inserted insertedId session =>
      obtain ⟨rfl, rfl, rfl⟩ := within
      cases curve <;> cases inserted <;> trivial
  | roundSign package nonces keyPackage => exact absurd within.2.symm other
  | exportedInsert key => exact within.elim
  | _ => trivial

/-- Every call of the engine meets the specification. -/
theorem body_follows (call : Call) :
    (call.body lib).Follows (Permitted lib call) (Finished lib call) [] := by
  cases call with
  | keygen entry sessionId round serverPayload =>
      refine (Call.body_touches _).follows (fun extra action touches => ?_) fun _ _ => trivial
      exact within_permitted (by decide) _ sessionId (extra ++ []) action touches
  | recover entry sessionId round serverPayload backupShare rotationVersion =>
      refine (Call.body_touches _).follows (fun extra action touches => ?_) fun _ _ => trivial
      exact within_permitted (by decide) _ sessionId (extra ++ []) action touches
  | sign entry sessionId round serverPayload share messageHex =>
      cases entry with
      | mpcEngine => exact (follows_map _ _).mpr mpcEngine_sign_meets
      | engineEd25519 => exact (follows_map _ _).mpr (ed25519_sign_meets (.inl rfl) fun _ => rfl)
  | exportPrivateKey entry localShare serverShare =>
      cases entry with
      | mpcEngine => exact (follows_map _ _).mpr mpcEngine_export_follows
      | engineEd25519 => exact (follows_map _ _).mpr ed25519_export_follows

end CeresMpc.Signing
