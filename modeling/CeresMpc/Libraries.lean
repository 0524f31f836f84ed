import Mathlib.Data.ZMod.Basic
import CeresMpc.Api.Types
import CeresMpc.Relay

/-!
# Cryptographic libraries

The protocol crates as parameters. A library call that draws randomness takes
the index of the draw, so an arbitrary library covers arbitrary randomness, and
two draws can be told apart.
-/

set_option autoImplicit false

namespace CeresMpc

open Encoding Api

/-- Order of the ed25519 base point. -/
def ed25519Order : Nat := 7237005577332262213973186563042994240857116359379907606001950938285454250989

abbrev Scalar := ZMod ed25519Order

/-- `frost-ed25519`, `ceres_wallet_frost_mpc` and `curve25519-dalek`. Party
identifiers are numbers: the client is 1, the server 2. -/
structure Frost where
  KeyPackage : Type
  PublicKeyPackage : Type
  SigningNonces : Type
  SigningCommitments : Type
  SigningPackage : Type
  SignatureShare : Type
  Signature : Type
  KeygenSessionState : Type
  RecoverySessionState : Type
  keygenPart1 : Nat → Nat → Except String (KeygenSessionState × String)
  keygenPart2 : KeygenSessionState → String → Except String (KeygenSessionState × String)
  keygenPart3 : KeygenSessionState → String → Except String (KeyPackage × PublicKeyPackage)
  recoveryPart1 : KeyPackage → PublicKeyPackage → Nat → Except String (RecoverySessionState × String)
  recoveryPart2 : RecoverySessionState → String → Except String (RecoverySessionState × String)
  recoveryPart3 : RecoverySessionState → String → Except String (KeyPackage × PublicKeyPackage)
  oldPubKeyPkg : RecoverySessionState → PublicKeyPackage
  /-- `verifying_key().serialize()`. -/
  verifyingKey : PublicKeyPackage → Except String Bytes
  commit : KeyPackage → Nat → SigningNonces × SigningCommitments
  serializeCommitments : SigningCommitments → Except String Bytes
  deserializeCommitments : Bytes → Except String SigningCommitments
  deserializeSigningPackage : Bytes → Except String SigningPackage
  packageMessage : SigningPackage → Bytes
  packageCommitments : SigningPackage → List (Nat × SigningCommitments)
  deserializeSignatureShare : Bytes → Except String SignatureShare
  sign : SigningPackage → SigningNonces → KeyPackage → Except String SignatureShare
  aggregate : SigningPackage → List (Nat × SignatureShare) → PublicKeyPackage → Except String Signature
  serializeSignature : Signature → Except String Bytes
  deserializeKeyPackage : Bytes → Except String KeyPackage
  deserializePublicKeyPackage : Bytes → Except String PublicKeyPackage
  buildShareEnvelope : KeyPackage → PublicKeyPackage → Except String String
  /-- `identifier().serialize()`. -/
  identifier : KeyPackage → Bytes
  /-- `signing_share().serialize()`. -/
  signingShare : KeyPackage → Bytes
  /-- The compressed multiple of the base point. -/
  mulBase : Scalar → Bytes
  /-- Verification of a signature under a serialized verifying key. -/
  verify : Bytes → Bytes → Bytes → Bool

/-- What a DKLs23 protocol run ends with: keyshare bytes, or signature bytes
and recovery id. -/
abbrev Dkls.Output : ProtocolType → Type
  | .dkg => Bytes
  | .rotation => Bytes
  | .dsg => Bytes × UInt8

/-- Exactly 32 bytes. -/
structure InstanceId where
  bytes : Bytes
  length_eq : bytes.length = 32

/-- `sl-dkls23` and `k256`. A protocol run starts from its instance and its seed. -/
structure Dkls where
  Keyshare : Type
  Point : Type
  pointEq : DecidableEq Point
  NonZeroScalar : Type
  Scalar : Type
  fromBytes : Bytes → Option Keyshare
  publicKey : Keyshare → Point
  /-- `to_encoded_point(compress)`. -/
  encodePoint : Bool → Point → Bytes
  xIList : Keyshare → List NonZeroScalar
  rankList : Keyshare → List UInt8
  partyId : Keyshare → UInt8
  sI : Keyshare → Scalar
  combineShares : List (NonZeroScalar × Nat) → List Scalar → Point → Option Scalar
  scalarBytes : Scalar → Bytes
  /-- A suspended protocol run. -/
  Protocol : ProtocolType → Type
  resume : {protocol : ProtocolType} → Protocol protocol →
    ProtocolStep (Protocol protocol) (Dkls.Output protocol)
  keygen : InstanceId → Nat → Protocol .dkg
  keyRefresh : InstanceId → Nat → Keyshare → Protocol .rotation
  sign : InstanceId → Nat → Keyshare → MessageDigest → Protocol .dsg
  /-- Verification of an ECDSA signature `r`, `s` over a digest. -/
  verify : Point → Bytes → Bytes → Bytes → Bool

attribute [instance] Dkls.pointEq

structure Libraries where
  text : Encodings
  frost : Frost
  dkls : Dkls
  keccak256 : Bytes → Bytes
  encodeBase58 : Bytes → String

end CeresMpc
