import CeresMpc.Api.Runs
import CeresMpc.Arithmetic.Ed25519Order
import CeresMpc.Arithmetic.Interpolation
import CeresMpc.Toy

/-!
# Exporting an ed25519 key

The exported scalar is the value at zero of the line through the two shares.
-/

set_option autoImplicit false

namespace CeresMpc.Api.EngineEd25519

open Encoding Interleaving Program

/-! ## Numbers as bytes -/

theorem leBytes_length (length value : Nat) : (leBytes length value).length = length := by
  induction length generalizing value with
  | zero => rfl
  | succ length ih => simp [leBytes, ih]

theorem leValue_leBytes (length value : Nat) : leValue (leBytes length value) = value % 256 ^ length := by
  induction length generalizing value with
  | zero => simp [leBytes, leValue, Nat.mod_one]
  | succ length ih =>
      have rest := ih (value / 256)
      simp only [leValue] at rest
      simp only [leBytes, leValue, List.foldr_cons, rest]
      rw [Nat.pow_succ', Nat.mod_mul]
      simp

theorem toScalar_leBytes (x : Scalar) (label : String) : toScalar (leBytes 32 x.val) label = .ok x := by
  have : NeZero ed25519Order := ⟨by decide⟩
  have small : x.val < ed25519Order := x.val_lt
  have fits : x.val % 256 ^ 32 = x.val := by
    refine Nat.mod_eq_of_lt (Nat.lt_trans small ?_)
    decide
  unfold toScalar
  rw [leBytes_length, leValue_leBytes, fits, if_neg (by simp), if_pos small, ZMod.natCast_zmod_val]

/-! ## Inverses -/

theorem squareMultiply_eq_pow (base : Scalar) (bits : Nat) {exponent : Nat} (small : exponent < 2 ^ bits) :
    squareMultiply base bits exponent = base ^ exponent := by
  induction bits generalizing base exponent with
  | zero =>
      obtain rfl : exponent = 0 := by omega
      simp [squareMultiply]
  | succ bits ih =>
      have half : exponent / 2 < 2 ^ bits := by
        rw [Nat.pow_succ] at small
        omega
      have power : (base * base) ^ (exponent / 2) = base ^ (2 * (exponent / 2)) := by rw [← pow_two, ← pow_mul]
      simp only [squareMultiply, ih (base * base) half, power]
      split
      · next odd => rw [← pow_succ', show 2 * (exponent / 2) + 1 = exponent by omega]
      · next even => rw [show 2 * (exponent / 2) = exponent by omega]

theorem invert_eq [Fact ed25519Order.Prime] (x : Scalar) : invert x = x⁻¹ := by
  have small : ed25519Order - 2 < 2 ^ 253 := by decide
  rw [invert, squareMultiply_eq_pow x 253 small]
  exact Arithmetic.pow_eq_inv x (by decide)

theorem reconstruct_line {x1 x2 : Scalar} (distinct : x1 ≠ x2) {f : Polynomial Scalar} (line : f.natDegree ≤ 1) :
    reconstruct x1 x2 (f.eval x1) (f.eval x2) = f.eval 0 := by
  have : Fact ed25519Order.Prime := ⟨ed25519Order_prime⟩
  simp only [reconstruct, invert_eq]
  exact Arithmetic.line_at_zero distinct line

/-! ## The export -/

section

variable (lib : Libraries) (localShare serverShare : String)

/-- What both shares of an export say. -/
structure Pair (localKp serverKp : lib.frost.KeyPackage) (localPkp serverPkp : lib.frost.PublicKeyPackage)
    (verifyingKey : Bytes) : Prop where
  localMaterial : extractShareMaterial lib localShare = .ok (localKp, localPkp)
  serverMaterial : extractShareMaterial lib serverShare = .ok (serverKp, serverPkp)
  localKey : lib.frost.verifyingKey localPkp = .ok verifyingKey
  serverKey : lib.frost.verifyingKey serverPkp = .ok verifyingKey

/-- An export fails before it has done anything, or registers the key and returns the secret. -/
inductive Exported : EngineM lib ExportResult → Prop where
  | refused {failure} : Exported (.done (.error failure))
  | released {localKp serverKp localPkp serverPkp verifyingKey x1 x2 s1 s2 address} :
      Pair lib localShare serverShare localKp serverKp localPkp serverPkp verifyingKey →
      toScalar (lib.frost.identifier localKp) "local identifier" = .ok x1 →
      toScalar (lib.frost.identifier serverKp) "server identifier" = .ok x2 →
      toScalar (lib.frost.signingShare localKp) "local signing_share" = .ok s1 →
      toScalar (lib.frost.signingShare serverKp) "server signing_share" = .ok s2 →
      x1 ≠ x2 → lib.frost.mulBase (reconstruct x1 x2 s1 s2) = verifyingKey →
      deriveSolanaAddress lib verifyingKey = .ok address →
      Exported (.perform (.exportedInsert (lib.text.encodeHex verifyingKey)) fun _ =>
        .done (.ok { privateKey := lib.text.encodeHex (leBytes 32 (reconstruct x1 x2 s1 s2).val), address
                     exported := true }))

variable {lib localShare serverShare}

theorem verifyingKeyBytes_eq_ok {publicKeyPackage : lib.frost.PublicKeyPackage} {bytes : Bytes} :
    verifyingKeyBytes lib publicKeyPackage = .ok bytes ↔ lib.frost.verifyingKey publicKeyPackage = .ok bytes := by
  unfold verifyingKeyBytes
  cases lib.frost.verifyingKey publicKeyPackage <;> simp [mapErr]

theorem exportPrivateKey_exported : Exported lib localShare serverShare (exportPrivateKey lib localShare serverShare) := by
  have stops {Value : Type} (outcome : Except String Value) (next : Value → EngineM lib ExportResult)
      (goes : ∀ value, outcome = .ok value → Exported lib localShare serverShare (next value)) :
      Exported lib localShare serverShare ((Program.lift outcome).bind next) := by
    cases outcome with
    | error failure => exact .refused
    | ok value => exact goes value rfl
  have guards (condition : Prop) [Decidable condition] (failure : String) (next : Unit → EngineM lib ExportResult)
      (goes : condition → Exported lib localShare serverShare (next ())) :
      Exported lib localShare serverShare ((Program.ensure condition failure).bind next) := by
    unfold Program.ensure
    split
    · next holds => exact goes holds
    · exact .refused
  simp only [exportPrivateKey, bind_eq, liftM_eq, request_bind, pure_eq]
  refine stops _ _ fun localMaterial localRead => ?_
  refine stops _ _ fun serverMaterial serverRead => ?_
  refine stops _ _ fun localVk localKey => ?_
  refine stops _ _ fun serverVk serverKey => ?_
  refine guards _ _ _ fun same => ?_
  refine stops _ _ fun x1 first => ?_
  refine stops _ _ fun x2 second => ?_
  refine stops _ _ fun s1 firstShare => ?_
  refine stops _ _ fun s2 secondShare => ?_
  refine guards _ _ _ fun apart => ?_
  refine guards _ _ _ fun matching => ?_
  refine stops _ _ fun address derived => ?_
  subst same
  refine .released ⟨localRead, serverRead, verifyingKeyBytes_eq_ok.mp localKey, verifyingKeyBytes_eq_ok.mp serverKey⟩
    first second firstShare secondShare ?_ matching derived
  rintro rfl
  exact apart (sub_self x1)

end

/-! ## Inversion -/

def reconstructWith (inv : Scalar → Scalar) (x1 x2 s1 s2 : Scalar) : Scalar :=
  let l1 := -x2 * inv (x1 - x2)
  let l2 := -x1 * inv (x2 - x1)
  l1 * s1 + l2 * s2

/-- The export on another inversion. -/
def exportWith (lib : Libraries) (inv : Scalar → Scalar) (localShare serverShare : String) : EngineM lib ExportResult := do
  let (localKp, localPkp) ← extractShareMaterial lib localShare
  let (serverKp, serverPkp) ← extractShareMaterial lib serverShare
  let localVk ← verifyingKeyBytes lib localPkp
  let serverVk ← verifyingKeyBytes lib serverPkp
  .ensure (localVk = serverVk)
    "ed25519 export failed: verifying_key mismatch between local and server share"
  let x1 ← toScalar (lib.frost.identifier localKp) "local identifier"
  let x2 ← toScalar (lib.frost.identifier serverKp) "server identifier"
  let s1 ← toScalar (lib.frost.signingShare localKp) "local signing_share"
  let s2 ← toScalar (lib.frost.signingShare serverKp) "server signing_share"
  .ensure (x1 - x2 ≠ 0) "ed25519 export failed: identical identifiers in 2-of-2 setup"
  let secret := reconstructWith inv x1 x2 s1 s2
  .ensure (lib.frost.mulBase secret = localVk)
    "ed25519 export failed: reconstructed scalar does not match verifying_key (sanity check failed)"
  let address ← deriveSolanaAddress lib localVk
  EngineM.exportedInsert (lib.text.encodeHex localVk)
  return { privateKey := lib.text.encodeHex (leBytes 32 secret.val), address, exported := true }

variable {lib : Libraries} {localShare serverShare : String}

@[simp] theorem exportWith_invert : exportWith lib invert localShare serverShare = exportPrivateKey lib localShare serverShare := rfl

/-- What an inversion makes of zero does not matter. -/
theorem exportWith_congr {inv other : Scalar → Scalar} (alike : ∀ x, x ≠ 0 → inv x = other x) :
    exportWith lib inv localShare serverShare = exportWith lib other localShare serverShare := by
  simp only [exportWith, bind_eq, liftM_eq, request_bind, pure_eq]
  congr 1; funext localMaterial
  congr 1; funext serverMaterial
  congr 1; funext localVk
  congr 1; funext serverVk
  congr 1; funext same
  congr 1; funext x1
  congr 1; funext x2
  congr 1; funext s1
  congr 1; funext s2
  by_cases apart : x1 - x2 ≠ 0
  · have flipped : x2 - x1 ≠ 0 := by
      rw [← neg_sub]
      exact neg_ne_zero.mpr apart
    have same : reconstructWith inv x1 x2 s1 s2 = reconstructWith other x1 x2 s1 s2 := by
      simp only [reconstructWith, alike _ apart, alike _ flipped]
    rw [same]
  · simp only [Program.ensure, if_neg apart, done_error_bind]

/-! ## Exports in a run -/

/-- The call that registers a key and returns its secret. -/
def releases (lib : Libraries) (verifyingKey : Bytes) (secret : Scalar) : EngineM lib Reply :=
  .perform (.exportedInsert (lib.text.encodeHex verifyingKey)) fun _ =>
    .done (.ok (.exported
      { privateKey := lib.text.encodeHex (leBytes 32 secret.val), address := lib.encodeBase58 verifyingKey
        exported := true }))

structure ExportExact (lib : Libraries) : Prop where
  /-- Two points of a line give its value at zero, whichever share is local. -/
  reconstructs : ∀ entry localShare serverShare localKp serverKp localPkp serverPkp verifyingKey x1 x2
    (f : Polynomial Scalar), Pair lib localShare serverShare localKp serverKp localPkp serverPkp verifyingKey →
      lib.frost.identifier localKp = leBytes 32 x1.val → lib.frost.identifier serverKp = leBytes 32 x2.val → x1 ≠ x2 →
      lib.frost.signingShare localKp = leBytes 32 (f.eval x1).val →
      lib.frost.signingShare serverKp = leBytes 32 (f.eval x2).val →
      f.natDegree ≤ 1 → lib.frost.mulBase (f.eval 0) = verifyingKey →
      (Call.exportPrivateKey entry localShare serverShare).body lib = releases lib verifyingKey (f.eval 0)
  /-- Any two decodable shares are refused, or give the secret of the key both carry. -/
  sound : ∀ entry localShare serverShare localKp serverKp localPkp serverPkp,
    extractShareMaterial lib localShare = .ok (localKp, localPkp) →
    extractShareMaterial lib serverShare = .ok (serverKp, serverPkp) →
      (∃ failure, (Call.exportPrivateKey entry localShare serverShare).body lib = .done (.error failure)) ∨
      ∃ verifyingKey secret,
        Pair lib localShare serverShare localKp serverKp localPkp serverPkp verifyingKey ∧
          lib.frost.mulBase secret = verifyingKey ∧
          (Call.exportPrivateKey entry localShare serverShare).body lib = releases lib verifyingKey secret
  /-- Zero is not inverted: what its inverse would be makes no difference. -/
  inverts : ∀ inv, (∀ x, x ≠ 0 → inv x = invert x) → ∀ localShare serverShare,
    exportWith lib inv localShare serverShare = exportPrivateKey lib localShare serverShare
  /-- All exports of one public key that are not refused are the same. -/
  refreshed : ∀ entry localShare serverShare localKp serverKp localPkp serverPkp verifyingKey
    other again backup againKp backupKp againPkp backupPkp,
      Pair lib localShare serverShare localKp serverKp localPkp serverPkp verifyingKey →
      Pair lib again backup againKp backupKp againPkp backupPkp verifyingKey →
      (∀ failure, (Call.exportPrivateKey entry localShare serverShare).body lib ≠ .done (.error failure)) →
      (∀ failure, (Call.exportPrivateKey other again backup).body lib ≠ .done (.error failure)) →
        (Call.exportPrivateKey entry localShare serverShare).body lib = (Call.exportPrivateKey other again backup).body lib
  /-- A step of an export leaves the engine as it is, or registers the key and returns. -/
  registers : ∀ world : EngineWorld lib, (machine lib).Reaches Machine.Any (.initial .empty) world →
    ∀ thread entry localShare serverShare localKp localPkp verifyingKey,
      world.Called thread (.exportPrivateKey entry localShare serverShare) →
      extractShareMaterial lib localShare = .ok (localKp, localPkp) →
      lib.frost.verifyingKey localPkp = .ok verifyingKey →
        (machine lib).step world (.run thread) = world ∨
        ∃ reply, (∀ outcome, ¬world.Returned thread (.exportPrivateKey entry localShare serverShare) outcome) ∧
          ((machine lib).step world (.run thread)).Returned thread (.exportPrivateKey entry localShare serverShare)
            (.ok reply) ∧
          ((machine lib).step world (.run thread)).shared =
            { world.shared with exportedKeys := lib.text.encodeHex verifyingKey :: world.shared.exportedKeys }

private theorem export_body (entry : EntryPoint) {localMaterial : lib.frost.KeyPackage × lib.frost.PublicKeyPackage}
    (read : extractShareMaterial lib localShare = .ok localMaterial) :
    (Call.exportPrivateKey entry localShare serverShare).body lib =
      Reply.exported <$> exportPrivateKey lib localShare serverShare := by
  cases entry with
  | engineEd25519 => rfl
  | mpcEngine =>
      obtain ⟨⟨curve, bytes⟩, decoded, rest⟩ := bind_eq_ok.mp read
      cases curve with
      | secp256k1 => cases rest
      | ed25519 => simp only [Call.body, MpcEngine.exportPrivateKey, decoded]

private theorem solana_ok {verifyingKey : Bytes} {address : String}
    (derived : deriveSolanaAddress lib verifyingKey = .ok address) : address = lib.encodeBase58 verifyingKey := by
  unfold deriveSolanaAddress at derived
  split at derived
  · cases derived
    rfl
  · cases derived

private theorem export_sound (entry : EntryPoint) {localKp serverKp : lib.frost.KeyPackage}
    {localPkp serverPkp : lib.frost.PublicKeyPackage}
    (localRead : extractShareMaterial lib localShare = .ok (localKp, localPkp))
    (serverRead : extractShareMaterial lib serverShare = .ok (serverKp, serverPkp)) :
    (∃ failure, (Call.exportPrivateKey entry localShare serverShare).body lib = .done (.error failure)) ∨
      ∃ verifyingKey secret, Pair lib localShare serverShare localKp serverKp localPkp serverPkp verifyingKey ∧
        lib.frost.mulBase secret = verifyingKey ∧
        (Call.exportPrivateKey entry localShare serverShare).body lib = releases lib verifyingKey secret := by
  rw [export_body entry localRead]
  have exported : Exported lib localShare serverShare _ := exportPrivateKey_exported
  generalize exportPrivateKey lib localShare serverShare = program at exported
  cases exported with
  | refused => exact .inl ⟨_, rfl⟩
  | @released otherKp againKp otherPkp againPkp verifyingKey x1 x2 s1 s2 address pair _ _ _ _ _ matching derived =>
      right
      have sameLocal := localRead.symm.trans pair.localMaterial
      have sameServer := serverRead.symm.trans pair.serverMaterial
      cases sameLocal
      cases sameServer
      obtain rfl := solana_ok derived
      exact ⟨verifyingKey, _, pair, matching, rfl⟩

private theorem export_line (points : ∀ x, (lib.frost.mulBase x).length = 32) (entry : EntryPoint)
    {localKp serverKp : lib.frost.KeyPackage} {localPkp serverPkp : lib.frost.PublicKeyPackage} {verifyingKey : Bytes}
    {x1 x2 : Scalar} {f : Polynomial Scalar}
    (pair : Pair lib localShare serverShare localKp serverKp localPkp serverPkp verifyingKey)
    (localId : lib.frost.identifier localKp = leBytes 32 x1.val)
    (serverId : lib.frost.identifier serverKp = leBytes 32 x2.val) (distinct : x1 ≠ x2)
    (localPoint : lib.frost.signingShare localKp = leBytes 32 (f.eval x1).val)
    (serverPoint : lib.frost.signingShare serverKp = leBytes 32 (f.eval x2).val) (line : f.natDegree ≤ 1)
    (matching : lib.frost.mulBase (f.eval 0) = verifyingKey) :
    (Call.exportPrivateKey entry localShare serverShare).body lib = releases lib verifyingKey (f.eval 0) := by
  have localVk := verifyingKeyBytes_eq_ok.mpr pair.localKey
  have serverVk := verifyingKeyBytes_eq_ok.mpr pair.serverKey
  have apart : x1 - x2 ≠ 0 := sub_ne_zero.mpr distinct
  have whole : verifyingKey.length = 32 := matching ▸ points _
  have derived : deriveSolanaAddress lib verifyingKey = .ok (lib.encodeBase58 verifyingKey) := if_pos whole
  rw [export_body entry pair.localMaterial]
  simp only [exportPrivateKey, pair.localMaterial, pair.serverMaterial, localVk, serverVk, localId, serverId,
    localPoint, serverPoint, toScalar_leBytes, reconstruct_line distinct line, matching, derived, Program.ensure,
    if_pos apart, if_true, Program.lift, liftM_eq, bind_eq, done_ok_bind, request_bind, pure_eq, map_eq, perform_bind]
  rfl

private theorem export_step {world : EngineWorld lib}
    (reached : (machine lib).Reaches Machine.Any (.initial .empty) world) {thread : Nat} {entry : EntryPoint}
    (called : world.Called thread (.exportPrivateKey entry localShare serverShare)) {localKp : lib.frost.KeyPackage}
    {localPkp : lib.frost.PublicKeyPackage} {verifyingKey : Bytes}
    (localRead : extractShareMaterial lib localShare = .ok (localKp, localPkp))
    (localKey : lib.frost.verifyingKey localPkp = .ok verifyingKey) :
    (machine lib).step world (.run thread) = world ∨
      ∃ reply, (∀ outcome, ¬world.Returned thread (.exportPrivateKey entry localShare serverShare) outcome) ∧
        ((machine lib).step world (.run thread)).Returned thread (.exportPrivateKey entry localShare serverShare)
          (.ok reply) ∧
        ((machine lib).step world (.run thread)).shared =
          { world.shared with exportedKeys := lib.text.encodeHex verifyingKey :: world.shared.exportedKeys } := by
  obtain ⟨program, found⟩ := called
  cases program with
  | done outcome =>
      left
      have returned : world.Returned thread (.exportPrivateKey entry localShare serverShare) outcome := found
      exact Machine.run_returned returned 1
  | perform action next =>
      right
      have replays := reached.replays thread _ _ found
      change ((Call.exportPrivateKey entry localShare serverShare).body lib).Replays _ _ at replays
      rw [export_body entry localRead] at replays
      have exported : Exported lib localShare serverShare _ := exportPrivateKey_exported
      generalize exportPrivateKey lib localShare serverShare = body at exported replays
      generalize past thread world.trace = sofar at replays
      cases exported with
      | refused => cases replays.of_done.2
      | released pair =>
          obtain rfl : _ = verifyingKey := by
            have same := localRead.symm.trans pair.localMaterial
            cases same
            exact Except.ok.inj (pair.localKey.symm.trans localKey)
          rcases Replays.of_perform replays with ⟨-, same⟩ | ⟨answer, later, -, onward⟩
          · cases same
            rw [Machine.step_reply found rfl]
            refine ⟨_, ?_, List.getElem?_set_self (List.getElem?_eq_some_iff.mp found).1, rfl⟩
            intro outcome returned
            rw [World.Returned, found] at returned
            cases returned
          · cases onward.of_done.2

theorem export_exact (points : ∀ x, (lib.frost.mulBase x).length = 32) (faithful : Function.Injective lib.frost.mulBase) :
    ExportExact lib := by
  constructor
  · intro entry localShare serverShare localKp serverKp localPkp serverPkp verifyingKey x1 x2 f pair localId serverId
      distinct localPoint serverPoint line matching
    exact export_line points entry pair localId serverId distinct localPoint serverPoint line matching
  · intro entry localShare serverShare localKp serverKp localPkp serverPkp localRead serverRead
    exact export_sound entry localRead serverRead
  · intro inv alike localShare serverShare
    rw [exportWith_congr alike, exportWith_invert]
  · intro entry localShare serverShare localKp serverKp localPkp serverPkp verifyingKey other again backup againKp
      backupKp againPkp backupPkp pair copy returns returnsAgain
    rcases export_sound entry pair.localMaterial pair.serverMaterial with ⟨failure, refused⟩ | ⟨key, secret, owns,
      matching, body⟩
    · exact absurd refused (returns failure)
    rcases export_sound other copy.localMaterial copy.serverMaterial with ⟨failure, refused⟩ | ⟨otherKey, secretAgain,
      ownsAgain, matchingAgain, bodyAgain⟩
    · exact absurd refused (returnsAgain failure)
    obtain rfl : key = verifyingKey := Except.ok.inj (owns.localKey.symm.trans pair.localKey)
    obtain rfl : otherKey = key := Except.ok.inj (ownsAgain.localKey.symm.trans copy.localKey)
    obtain rfl : secret = secretAgain := faithful (matching.trans matchingAgain.symm)
    rw [body, bodyAgain]
  · intro world reached thread entry localShare serverShare localKp localPkp verifyingKey called localRead localKey
    exact export_step reached called localRead localKey

theorem export_exact_on_toy : ExportExact Toy.libraries := by
  refine export_exact (fun x => leBytes_length 32 x.val) ?_
  intro x y same
  have read := toScalar_leBytes x ""
  change leBytes 32 x.val = leBytes 32 y.val at same
  rw [same, toScalar_leBytes] at read
  exact (Except.ok.inj read).symm

end CeresMpc.Api.EngineEd25519
