import CeresMpc.Api.ExportEd25519
import CeresMpc.Signing.ExportLock

/-!
# The guard on exported keys

A first round of signing looks its key up among the exported ones. The lookup finds it exactly when
an export of that key has returned.
-/

set_option autoImplicit false

namespace CeresMpc.Signing

open Encoding Interleaving Program Api

variable (lib : Libraries)

/-! ## Keys and their registry strings -/

/-- Both are of one curve and one public key. -/
inductive SameKey : KeyMaterial lib → KeyMaterial lib → Prop where
  | frost {keyPackage otherKp publicKeyPackage otherPkp vkBytes} :
      lib.frost.verifyingKey publicKeyPackage = .ok vkBytes → lib.frost.verifyingKey otherPkp = .ok vkBytes →
      SameKey (.frost keyPackage publicKeyPackage) (.frost otherKp otherPkp)
  | dkls {keyshare other} : lib.dkls.publicKey keyshare = lib.dkls.publicKey other →
      SameKey (.dkls keyshare) (.dkls other)

/-- The documented forms of public keys: 33 bytes compressed, which determine the point, and 32 bytes
for a verifying key. -/
structure KeyForms : Prop where
  hex : ∀ bytes, lib.text.decodeHex (lib.text.encodeHex bytes) = .ok bytes
  compressed : Function.Injective (lib.dkls.encodePoint true)
  compressedLength : ∀ raw keyshare, lib.dkls.fromBytes raw = some keyshare →
    (lib.dkls.encodePoint true (lib.dkls.publicKey keyshare)).length = 33
  verifyingKeyLength : ∀ publicKeyPackage vkBytes, lib.frost.verifyingKey publicKeyPackage = .ok vkBytes →
    vkBytes.length = 32

/-- A keyshare is read from bytes. -/
def Parsed : KeyMaterial lib → Prop
  | .frost _ _ => True
  | .dkls keyshare => ∃ raw, lib.dkls.fromBytes raw = some keyshare

variable {lib}

theorem publicKeyHex_frost {keyPackage : lib.frost.KeyPackage} {publicKeyPackage : lib.frost.PublicKeyPackage}
    {key : String} : (KeyMaterial.frost keyPackage publicKeyPackage).publicKeyHex = .ok key ↔
      ∃ vkBytes, lib.frost.verifyingKey publicKeyPackage = .ok vkBytes ∧ key = lib.text.encodeHex vkBytes := by
  simp only [KeyMaterial.publicKeyHex, bind_eq_ok, EngineEd25519.verifyingKeyBytes_eq_ok]
  constructor
  · intro found
    obtain ⟨vkBytes, serialized, made⟩ := found
    cases made
    exact ⟨vkBytes, serialized, rfl⟩
  · intro found
    obtain ⟨vkBytes, serialized, made⟩ := found
    exact ⟨vkBytes, serialized, by rw [made]; rfl⟩

/-- One registry string is one key. -/
theorem sameKey_iff (forms : KeyForms lib) {first second : KeyMaterial lib} (firstParsed : Parsed lib first)
    (secondParsed : Parsed lib second) {key other : String} (firstKey : first.publicKeyHex = .ok key)
    (secondKey : second.publicKeyHex = .ok other) : key = other ↔ SameKey lib first second := by
  have plain {bytes again : Bytes} (same : lib.text.encodeHex bytes = lib.text.encodeHex again) : bytes = again := by
    have read := forms.hex bytes
    rw [same, forms.hex again] at read
    exact (Except.ok.inj read).symm
  cases first with
  | frost keyPackage publicKeyPackage =>
      obtain ⟨vkBytes, serialized, rfl⟩ := publicKeyHex_frost.mp firstKey
      cases second with
      | frost otherKp otherPkp =>
          obtain ⟨otherBytes, serializedToo, rfl⟩ := publicKeyHex_frost.mp secondKey
          constructor
          · intro same
            obtain rfl := plain same
            exact .frost serialized serializedToo
          · intro same
            cases same with
            | frost one two =>
                rw [Except.ok.inj (serialized.symm.trans one), Except.ok.inj (serializedToo.symm.trans two)]
      | dkls keyshare =>
          cases secondKey
          obtain ⟨raw, parsed⟩ := secondParsed
          constructor
          · intro same
            have lengths := congrArg List.length (plain same)
            rw [forms.verifyingKeyLength _ _ serialized, forms.compressedLength raw keyshare parsed] at lengths
            omega
          · intro same
            cases same
  | dkls keyshare =>
      cases firstKey
      obtain ⟨raw, parsed⟩ := firstParsed
      cases second with
      | frost otherKp otherPkp =>
          obtain ⟨otherBytes, serializedToo, rfl⟩ := publicKeyHex_frost.mp secondKey
          constructor
          · intro same
            have lengths := congrArg List.length (plain same)
            rw [forms.verifyingKeyLength _ _ serializedToo, forms.compressedLength raw keyshare parsed] at lengths
            omega
          · intro same
            cases same
      | dkls other =>
          cases secondKey
          constructor
          · exact fun same => .dkls (forms.compressed (plain same))
          · intro same
            cases same with
            | dkls same => rw [MpcEngine.compressedHex, MpcEngine.compressedHex, same]

theorem parsed_of_exportReads {share : String} {material : KeyMaterial lib}
    (read : exportReads lib share = .ok material) : Parsed lib material := by
  by_cases dispatched : ∃ bytes, ShareEnvelope.decode lib.text share = .ok (.ed25519, bytes)
  · obtain ⟨bytes, decoded⟩ := dispatched
    rw [(reads_frost decoded).2.2, frostMaterial, bind_eq_ok] at read
    obtain ⟨packages, _, made⟩ := read
    cases made
    trivial
  · obtain ⟨raw, keyshare, _, parsed, rfl⟩ := (exportReads_dkls (not_exists.mp dispatched)).mp read
    exact ⟨raw, parsed⟩

/-! ## Registration is the end of an export -/

/-- No key has been registered. -/
def Unregistering (past : Past lib) : Prop :=
  ∀ key, ⟨.exportedInsert key, ()⟩ ∉ past

/-- Where a key has been registered, there is a result. -/
def RegisteredEnd {Result : Type} (past : Past lib) (outcome : Except String Result) : Prop :=
  ∀ key, ⟨.exportedInsert key, ()⟩ ∈ past → ∃ result, outcome = .ok result

section Exports

variable {localShare serverShare : String}

private theorem unregistered_end {Result : Type} (outcome : Except String Result) :
    RegisteredEnd ([] : Past lib) outcome := by
  intro key member
  cases member

private theorem register_last (key : String) (result : ExportResult) :
    Follows (fun past _ => Unregistering past) RegisteredEnd ([] : Past lib)
      (.perform (.exportedInsert key) fun _ => .done (.ok result) : EngineM lib ExportResult) := by
  constructor
  · intro other member
    cases member
  · exact fun _ _ _ => ⟨result, rfl⟩

private theorem ed25519_registers_last : (EngineEd25519.exportPrivateKey lib localShare serverShare).Follows
    (fun past _ => Unregistering past) RegisteredEnd [] := by
  simp only [EngineEd25519.exportPrivateKey, bind_eq, liftM_eq, request_bind, follows_lift_bind, follows_ensure_bind]
  refine ⟨fun localPackages _ => ?_, fun _ _ => unregistered_end _⟩
  refine ⟨fun serverPackages _ => ?_, fun _ _ => unregistered_end _⟩
  refine ⟨fun localVk _ => ?_, fun _ _ => unregistered_end _⟩
  refine ⟨fun serverVk _ => ⟨fun _ => ?_, fun _ => unregistered_end _⟩, fun _ _ => unregistered_end _⟩
  refine ⟨fun x1 _ => ?_, fun _ _ => unregistered_end _⟩
  refine ⟨fun x2 _ => ?_, fun _ _ => unregistered_end _⟩
  refine ⟨fun s1 _ => ?_, fun _ _ => unregistered_end _⟩
  refine ⟨fun s2 _ => ⟨fun _ => ⟨fun _ => ?_, fun _ => unregistered_end _⟩, fun _ => unregistered_end _⟩,
    fun _ _ => unregistered_end _⟩
  exact ⟨fun address _ => register_last _ _, fun _ _ => unregistered_end _⟩

private theorem secp256k1_registers_last : (MpcEngine.exportSecp256k1 lib localShare serverShare).Follows
    (fun past _ => Unregistering past) RegisteredEnd [] := by
  simp only [MpcEngine.exportSecp256k1, bind_eq, liftM_eq, request_bind, follows_lift_bind]
  refine ⟨fun keyshares _ => ?_, fun _ _ => unregistered_end _⟩
  refine ⟨fun own0 _ => ?_, fun _ _ => unregistered_end _⟩
  refine ⟨fun own1 _ => ?_, fun _ _ => unregistered_end _⟩
  refine ⟨fun privateKey _ => ?_, fun _ _ => unregistered_end _⟩
  exact ⟨fun address _ => register_last _ _, fun _ _ => unregistered_end _⟩

end Exports

/-- After a key is registered the call does nothing more, and returns a result. -/
theorem registers_last (call : Call) :
    (call.body lib).Follows (fun past _ => Unregistering past) RegisteredEnd [] := by
  cases names : call.scope with
  | some target =>
      have never (past : Past lib) (within : ∀ entry ∈ past, call.Touches entry.1) : Unregistering past := by
        intro key member
        have touches := within _ member
        rw [Call.Touches, names] at touches
        rcases touches with impossible | ⟨curve, within⟩
        · cases impossible
        · exact within
      apply (Call.body_touches call).follows_within
      · intro extra action within _
        rw [List.append_nil]
        exact never extra within
      · intro extra outcome within key member
        rw [List.append_nil] at member
        exact absurd member (never extra within key)
  | none =>
      have maps {program : EngineM lib ExportResult}
          (follows : program.Follows (fun past _ => Unregistering past) RegisteredEnd []) :
          (Reply.exported <$> program).Follows (fun past _ => Unregistering past) RegisteredEnd [] := by
        refine (follows_map _ _).mpr (follows.mono (fun _ _ quiet => quiet) ?_)
        intro past outcome ends key member
        obtain ⟨result, rfl⟩ := ends key member
        exact ⟨_, rfl⟩
      cases call with
      | exportPrivateKey entry localShare serverShare =>
          cases entry with
          | engineEd25519 => exact maps ed25519_registers_last
          | mpcEngine =>
              apply maps
              unfold MpcEngine.exportPrivateKey
              split
              · exact ed25519_registers_last
              · exact secp256k1_registers_last
      | _ => cases names

/-! ## Registered keys and returned exports -/

section Runs

variable {Allowed : EngineWorld lib → Move Call Drift → Prop} {world : EngineWorld lib}

/-- A key is among the exported ones if and only if a call has registered it. -/
theorem performed_of_registered (reached : (machine lib).Reaches Allowed (.initial .empty) world) :
    ∀ key ∈ world.shared.exportedKeys, ∃ thread, Performed world.trace thread (.exportedInsert key) () := by
  refine reached.invariant (fun world => ∀ key ∈ world.shared.exportedKeys,
    ∃ thread, Performed world.trace thread (.exportedInsert key) ()) ?_ ?_ ?_ ?_ ?_
  · intro key member
    cases member
  · exact fun _ _ _ registered _ => registered
  · intro world thread call action next state answer _ registered _ _ moved key member
    have member : key ∈ state.exportedKeys := member
    rw [(Engine.interpret_registers moved).2.1] at member
    rcases List.mem_append.mp member with new | before
    · cases action with
      | exportedInsert own =>
          rw [Action.registered, List.mem_singleton] at new
          subst new
          exact ⟨thread, List.mem_cons_self⟩
      | _ => cases new
    · obtain ⟨other, performed⟩ := registered key before
      exact ⟨other, performed.cons _⟩
  · intro world thread call action next state _ registered _ _ moved
    obtain ⟨tasks, rfl⟩ := Engine.interpret_pending moved
    exact registered
  · intro world change _ registered _ key member
    exact registered key (Engine.drift_exportedKeys change world.shared ▸ member)

variable (lib) in
/-- An export of this key has returned its private key. -/
def Exported (world : EngineWorld lib) (material : KeyMaterial lib) : Prop :=
  ∃ thread entry localShare serverShare reply exported,
    world.Returned thread (.exportPrivateKey entry localShare serverShare) (.ok reply) ∧
      exportReads lib localShare = .ok exported ∧ SameKey lib exported material

/-- The registry holds the keys whose export has returned. -/
theorem registered_iff_exported (forms : KeyForms lib) (reached : (machine lib).Reaches Allowed (.initial .empty) world)
    {material : KeyMaterial lib} (parsed : Parsed lib material) {key : String} (named : material.publicKeyHex = .ok key) :
    key ∈ world.shared.exportedKeys ↔ Exported lib world material := by
  constructor
  · intro member
    obtain ⟨thread, performed⟩ := performed_of_registered reached key member
    obtain ⟨call, program, before, called, permitted, _⟩ := reached.performed_permitted body_follows performed
    obtain ⟨entry, localShare, serverShare, rfl, exported, read, sameString⟩ := permitted
    have follows := (registers_last _).along (reached.replays thread _ program called)
    have member := mem_past.mpr performed
    cases program with
    | perform action next => exact absurd member (follows.1 key)
    | done outcome =>
        obtain ⟨reply, rfl⟩ := follows key member
        refine ⟨thread, entry, localShare, serverShare, reply, exported, called, read, ?_⟩
        exact (sameKey_iff forms (parsed_of_exportReads read) parsed sameString named).mp rfl
  · intro found
    obtain ⟨thread, entry, localShare, serverShare, reply, exported, returned, read, same⟩ := found
    obtain ⟨other, ⟨again, readAgain, sameString⟩, performed⟩ := reached.follows body_follows thread _ _ returned reply rfl
    cases read.symm.trans readAgain
    obtain rfl := (sameKey_iff forms (parsed_of_exportReads read) parsed sameString named).mpr same
    exact registered_of_performed reached thread other (mem_past.mp performed)

end Runs


/-! ## The guard -/

def rejection : String := "signing rejected: keyshare has been exported"

/-- A first round whose envelope, share and message are in order, and the key it signs with. -/
inductive Valid : Call → KeyMaterial lib → Prop where
  | frost {entry sessionId serverPayload share messageHex env r1 serverCommitments message keyPackage
      publicKeyPackage vkBytes} :
      EngineEd25519.parseWire lib serverPayload = .ok env →
      EngineEd25519.decodePayload lib EngineEd25519.SignR1Payload.fromJson env = .ok r1 →
      EngineEd25519.deserPkg lib lib.frost.deserializeCommitments r1.commitments = .ok serverCommitments →
      lib.text.decodeHex messageHex = .ok message →
      EngineEd25519.extractShareMaterial lib share = .ok (keyPackage, publicKeyPackage) →
      lib.frost.verifyingKey publicKeyPackage = .ok vkBytes →
      Valid (.sign entry sessionId 1 serverPayload (some share) (some messageHex)) (.frost keyPackage publicKeyPackage)
  | dkls {sessionId serverPayload share messageHashHex opened digest keyshare} :
      MpcEngine.parseServerEnvelopeBatch lib serverPayload = .ok opened →
      MessageDigest.fromHex lib.text messageHashHex = .ok digest →
      MpcEngine.signKeyshare lib share = .ok keyshare →
      Valid (.sign .mpcEngine sessionId 1 serverPayload (some share) (some messageHashHex)) (.dkls keyshare)

/-- Any other end than the rejection. -/
def Passes {Result : Type} (_ : Past lib) (outcome : Except String Result) : Prop :=
  outcome ≠ .error rejection

private theorem injectAll_passes (protocol : ProtocolType) (task : Nat) (messages : List Bytes) (past : Past lib) :
    (MpcEngine.injectAll lib protocol task messages).Follows (fun _ _ => True) Passes past := by
  induction messages generalizing past with
  | nil => intro impossible; cases impossible
  | cons message rest ih =>
      simp only [MpcEngine.injectAll, bind_eq, request_bind, follows_perform, follows_ensure_bind]
      refine ⟨trivial, fun sent => ⟨fun _ => ih _, fun _ => ?_⟩⟩
      intro same
      exact absurd (Except.error.inj same) (by decide)

private theorem openSession_passes {sessionId : String} {serverEnv : WireEnvelope} {serverMsgs : List Bytes}
    {protocolRun : lib.dkls.Protocol .dsg} (make : Nat → SignSession) (past : Past lib) :
    (MpcEngine.openSession lib .dsg sessionId serverEnv serverMsgs protocolRun
      (fun _ => .fail "sign task closed before producing first message") fun task => .done (.ok (make task))).Follows
      (fun _ _ => True) Passes past := by
  simp only [MpcEngine.openSession, bind_eq, request_bind, done_ok_bind]
  refine ⟨trivial, fun task => ?_⟩
  rw [follows_bind, MpcEngine.firstBatch, follows_onFailure]
  simp only [bind_eq]
  rw [follows_bind, follows_onFailure]
  refine (injectAll_passes .dsg task serverMsgs _).mono (fun _ _ _ => trivial) ?_
  intro done outcome passes
  cases outcome with
  | error failure => exact ⟨trivial, fun _ => ⟨trivial, fun _ => ⟨trivial, fun _ => fun same => passes (Except.error.inj same ▸ rfl)⟩⟩⟩
  | ok _ =>
      refine ⟨trivial, fun batch => ?_⟩
      cases batch with
      | none => exact ⟨trivial, fun _ => ⟨trivial, fun _ same => absurd (Except.error.inj same) (by decide)⟩⟩
      | some batch =>
          refine ⟨trivial, fun _ => ?_⟩
          intro impossible
          cases impossible

private theorem serPkg_passes {Result : Type} {commitments : lib.frost.SigningCommitments} {failure : String}
    (past : Past lib) (refused : EngineEd25519.serPkg lib lib.frost.serializeCommitments commitments = .error failure) :
    Passes past (.error failure : Except String Result) := by
  intro same
  rw [Except.error.inj same] at refused
  unfold EngineEd25519.serPkg at refused
  cases serialized : lib.frost.serializeCommitments commitments with
  | ok bytes =>
      rw [serialized] at refused
      cases refused
  | error failure =>
      rw [serialized] at refused
      have texts := congrArg String.toList (Except.error.inj refused)
      simp [rejection] at texts

private theorem instanceId_passes {Result : Type} {sessionId failure : String} (past : Past lib)
    (malformed : MpcEngine.instanceIdFromSession lib sessionId = .error failure) :
    Passes past (.error failure : Except String Result) := by
  intro same
  rw [Except.error.inj same] at malformed
  unfold MpcEngine.instanceIdFromSession at malformed
  cases decoded : lib.text.decodeHex sessionId with
  | error failure =>
      rw [decoded] at malformed
      have texts := congrArg String.toList (Except.error.inj malformed)
      simp [rejection] at texts
  | ok bytes =>
      rw [decoded] at malformed
      change (if exact : bytes.length = 32 then .ok ⟨bytes, exact⟩
        else .error "session_id must be exactly 32 bytes (64 hex chars)" : Except String InstanceId) =
          .error rejection at malformed
      split at malformed
      · cases malformed
      · exact absurd (Except.error.inj malformed) (by decide)

private theorem valid_body {call : Call} {material : KeyMaterial lib} (valid : Valid call material) :
    ∃ key rest, material.publicKeyHex = .ok key ∧
      call.body lib = .perform (.exportedContains key) (fun exported =>
        (Program.ensure (exported = false) rejection).bind fun _ => rest) ∧
      ∀ past, rest.Follows (fun _ _ => True) Passes past := by
  cases valid with
  | @frost entry sessionId serverPayload share messageHex env r1 serverCommitments message keyPackage publicKeyPackage
      vkBytes parsed payload commitments decoded read serialized =>
      have body : (Call.sign entry sessionId 1 serverPayload (some share) (some messageHex)).body lib =
          Reply.round <$> EngineEd25519.signRound1 lib sessionId serverPayload (some share) (some messageHex) := by
        cases entry with
        | engineEd25519 => rfl
        | mpcEngine =>
            rw [Call.unified_first rfl rfl]
            refine if_pos ?_
            obtain ⟨⟨curve, bytes⟩, opened, rest⟩ := bind_eq_ok.mp read
            cases curve with
            | secp256k1 => cases rest
            | ed25519 => exact isEd25519Share_iff.mpr ⟨bytes, opened⟩
      have verifying := EngineEd25519.verifyingKeyBytes_eq_ok.mpr serialized
      have message_read : mapErr "message_hex decode failed: " (lib.text.decodeHex messageHex) = .ok message := by
        rw [decoded]
        rfl
      refine ⟨_, ?_, publicKeyHex_frost.mpr ⟨vkBytes, serialized, rfl⟩, body.trans ?_, ?_⟩
      rotate_left
      · simp only [EngineEd25519.signRound1, bind_eq, liftM_eq, request_bind, parsed, payload, commitments, okOr, read,
          message_read, verifying, Program.lift, done_ok_bind, map_eq, perform_bind, Program.bind_assoc]
        rfl
      · intro past
        refine ⟨trivial, fun draw => ⟨trivial, fun createdAt => ⟨trivial, fun _ => ?_⟩⟩⟩
        rw [follows_bind]
        cases serialized : EngineEd25519.serPkg lib lib.frost.serializeCommitments (lib.frost.commit keyPackage draw).2 with
        | error failure => exact serPkg_passes past serialized
        | ok written =>
            intro impossible
            cases impossible
  | @dkls sessionId serverPayload share messageHashHex opened digest keyshare parsed decoded read =>
      have undetected : ¬MpcEngine.isEd25519Share lib (some share) = true := by
        intro dispatched
        obtain ⟨bytes, opened⟩ := isEd25519Share_iff.mp dispatched
        obtain ⟨⟨curve, raw⟩, openedToo, rest⟩ := bind_eq_ok.mp read
        cases opened.symm.trans openedToo
        cases rest
      have body : (Call.sign .mpcEngine sessionId 1 serverPayload (some share) (some messageHashHex)).body lib =
          Reply.round <$> MpcEngine.signRound1 lib sessionId serverPayload (some share) (some messageHashHex) :=
        (Call.unified_first rfl rfl).trans (if_neg undetected)
      refine ⟨_, ?_, rfl, body.trans ?_, ?_⟩
      rotate_left
      · simp only [MpcEngine.signRound1, bind_eq, liftM_eq, request_bind, parsed, decoded, okOr, read, Program.lift,
          done_ok_bind, map_eq, perform_bind, Program.bind_assoc]
        rfl
      · intro past
        refine (follows_lift_bind _ _).mpr ?_
        constructor
        · intro instanceId _
          refine ⟨trivial, fun seed => ?_⟩
          rw [follows_bind]
          refine (openSession_passes _ _).mono (fun _ _ _ => trivial) ?_
          intro done outcome passes
          cases outcome with
          | error failure => exact fun same => passes (congrArg _ (Except.error.inj same))
          | ok result =>
              intro impossible
              cases impossible
        · intro failure malformed
          exact instanceId_passes past malformed

section Guard

variable {call : Call} {material : KeyMaterial lib} {key : String}

private theorem valid_ended (valid : Valid call material) (named : material.publicKeyHex = .ok key) {past : Past lib}
    {outcome : Except String Reply} (replays : (call.body lib).Replays past (.done outcome)) :
    ∃ later found, past = later ++ [⟨.exportedContains key, found⟩] ∧
      (outcome = .error rejection ↔ found = true) ∧ (found = true → later = []) := by
  obtain ⟨own, rest, owns, body, passes⟩ := valid_body valid
  cases named.symm.trans owns
  rw [body] at replays
  rcases Replays.of_perform replays with ⟨-, same⟩ | ⟨found, later, rfl, onward⟩
  · cases same
  refine ⟨later, found, rfl, ?_⟩
  cases found with
  | true =>
      obtain ⟨rfl, same⟩ := onward.of_done
      cases same
      simp
  | false =>
      have passed : outcome ≠ .error rejection := (passes []).along onward
      simp [passed]

private theorem parsed_of_valid (valid : Valid call material) : Parsed lib material := by
  cases valid with
  | frost => trivial
  | dkls opened digest read =>
      obtain ⟨⟨curve, raw⟩, _, rest⟩ := bind_eq_ok.mp read
      cases curve with
      | ed25519 => cases rest
      | secp256k1 => exact ⟨raw, okOr_eq_ok.mp rest⟩

end Guard

/-- A valid first round is rejected if and only if its key has been exported. -/
structure GuardExact (lib : Libraries) : Prop where
  /-- The first step of the call rejects it, or the export of its key has not returned. -/
  first : ∀ world : EngineWorld lib, (machine lib).Reaches Machine.Any (.initial .empty) world →
    ∀ thread call material, Valid call material → world.threads[thread]? = some (call, call.body lib) →
      (((machine lib).step world (.run thread)).Returned thread call (.error rejection) ↔ Exported lib world material)
  /-- A call that has returned was rejected if and only if the export had returned when it looked the
  key up. A rejected call has done nothing else. -/
  ended : ∀ world : EngineWorld lib, (machine lib).Reaches Machine.Any (.initial .empty) world →
    ∀ thread call material outcome, Valid call material → world.Returned thread call outcome →
      ∃ key before, (machine lib).Reaches Machine.Any (.initial .empty) before ∧
        (machine lib).Reaches Machine.Any before world ∧
        before.nextAction thread = some (.exportedContains key) ∧
        (outcome = .error rejection ↔ Exported lib before material) ∧
        (outcome = .error rejection → past thread world.trace = [⟨.exportedContains key, true⟩])
  /-- Once the export has returned, every later call is rejected. -/
  later : ∀ middle world : EngineWorld lib, (machine lib).Reaches Machine.Any (.initial .empty) middle →
    (machine lib).Reaches Machine.Any middle world → ∀ material, Exported lib middle material →
      ∀ thread call outcome, Valid call material → middle.threads.length ≤ thread →
        world.Returned thread call outcome → outcome = .error rejection

section Proof

variable {world : EngineWorld lib}

private theorem found_registered {middle : EngineWorld lib} {key : String}
    (before : (machine lib).Reaches Machine.Any (.initial .empty) middle) (registered : key ∈ middle.shared.exportedKeys)
    (after : (machine lib).Reaches Machine.Any middle world) :
    key ∈ world.shared.exportedKeys ∧ ∀ thread found, middle.threads.length ≤ thread →
      Performed world.trace thread (.exportedContains key) found → found = true := by
  refine after.invariant (fun world => key ∈ world.shared.exportedKeys ∧ ∀ thread found,
    middle.threads.length ≤ thread → Performed world.trace thread (.exportedContains key) found → found = true)
    ?_ ?_ ?_ ?_ ?_
  · refine ⟨registered, fun thread found later performed => ?_⟩
    exact absurd later (Nat.not_le_of_lt (before.trace_lt _ performed))
  · intro world call _ kept _
    exact kept
  · intro world thread call action next state answer reached kept _ _ moved
    obtain ⟨known, others⟩ := kept
    have moved : world.shared.interpret thread action = .reply state answer := moved
    constructor
    · show key ∈ state.exportedKeys
      rw [(Engine.interpret_registers moved).2.1]
      exact List.mem_append_right _ known
    · intro other found later performed
      rcases List.mem_cons.mp performed with here | earlier
      · cases here
        cases moved
        exact decide_eq_true known
      · exact others other found later earlier
  · intro world thread call action next state _ kept _ _ moved
    obtain ⟨tasks, rfl⟩ := Engine.interpret_pending moved
    exact kept
  · intro world change _ kept _
    obtain ⟨known, others⟩ := kept
    exact ⟨Engine.drift_exportedKeys change world.shared ▸ known, others⟩

theorem exported_keys_rejected (forms : KeyForms lib) : GuardExact lib := by
  constructor
  · intro world reached thread call material valid found
    obtain ⟨key, rest, named, body, passes⟩ := valid_body valid
    rw [← registered_iff_exported forms reached (parsed_of_valid valid) named]
    rw [body] at found
    rw [World.Returned, Machine.step_reply found rfl, List.getElem?_set_self (List.getElem?_eq_some_iff.mp found).1]
    by_cases there : key ∈ world.shared.exportedKeys
    · simp [there, Program.ensure]
    · have passed : rest ≠ .done (.error rejection) := by
        intro same
        have passes := passes []
        rw [same] at passes
        exact passes rfl
      simp [there, Program.ensure, passed]
  · intro world reached thread call material outcome valid returned
    obtain ⟨key, rest, named, body, passes⟩ := valid_body valid
    obtain ⟨later, found, whole, rejects, nothing⟩ := valid_ended valid named (reached.replays thread _ _ returned)
    have looked : ⟨.exportedContains key, found⟩ ∈ past thread world.trace := by
      rw [whole]
      simp
    obtain ⟨after, earlier, split⟩ := List.append_of_mem (mem_past.mp looked)
    obtain ⟨before, owner, next, state, reachedBefore, _, _, here, moved, onward⟩ := reached.event_moved split
    refine ⟨key, before, reachedBefore, onward, by simp [World.nextAction, here], ?_, ?_⟩
    · rw [rejects, ← registered_iff_exported forms reachedBefore (parsed_of_valid valid) named]
      cases moved
      exact decide_eq_true_iff
    · intro rejected
      obtain rfl := rejects.mp rejected
      rw [whole, nothing rfl]
      rfl
  · intro middle world before after material exported thread call outcome valid started returned
    obtain ⟨key, rest, named, body, passes⟩ := valid_body valid
    have reached := before.trans after
    have registered := (registered_iff_exported forms before (parsed_of_valid valid) named).mpr exported
    obtain ⟨later, found, whole, rejects, nothing⟩ := valid_ended valid named (reached.replays thread _ _ returned)
    have looked : ⟨.exportedContains key, found⟩ ∈ past thread world.trace := by
      rw [whole]
      simp
    exact rejects.mpr ((found_registered before registered after).2 thread found started (mem_past.mp looked))

end Proof

theorem exported_keys_rejected_on_toy : GuardExact Toy.libraries := by
  apply exported_keys_rejected
  constructor
  · intro bytes
    exact decodeHex_encodeHex bytes
  · intro point other same
    exact (List.cons.inj same).2
  · intro raw keyshare parsed
    have length : keyshare.key.length = 32 := by
      change Toy.Keyshare.fromBytes raw = some keyshare at parsed
      unfold Toy.Keyshare.fromBytes at parsed
      split at parsed
      · split at parsed
        · next whole =>
          cases parsed
          exact whole.2
        · cases parsed
      · cases parsed
    change (0x02 :: keyshare.key).length = 33
    rw [List.length_cons, length]
  · intro publicKeyPackage vkBytes serialized
    cases serialized
    exact EngineEd25519.leBytes_length 32 _

end CeresMpc.Signing
