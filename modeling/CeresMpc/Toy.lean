import CeresMpc.Api.Calls
import CeresMpc.Encoding.Standard

/-!
# Small libraries

Protocol libraries without cryptography, on concrete encodings: a secret is its own
public key, and a signature is the key and the message. They do what the engine relies
on, so that runs can be evaluated.
-/

set_option autoImplicit false

namespace CeresMpc.Toy

open Encoding Interleaving Api

/-- Bytes cut or padded to a length. -/
def fit (length : Nat) (bytes : Bytes) : Bytes :=
  (bytes ++ List.replicate length 0).take length

def signature (key message : Bytes) : Bytes :=
  fit 32 key ++ fit 32 message

theorem fit_length (length : Nat) (bytes : Bytes) : (fit length bytes).length = length := by
  simp [fit]

/-! ## FROST -/

structure KeyPackage where
  identifier : UInt8
  share : UInt8
  deriving DecidableEq

structure SigningPackage where
  commitments : UInt8 × UInt8
  message : Bytes

/-- What is left of a three-part run, and the key it works for. -/
structure Parts (Key : Type) where
  next : Nat
  key : Key

def Parts.advance {Key : Type} (parts : Parts Key) (expected : Nat) : Except String (Parts Key) :=
  if parts.next = expected then .ok { parts with next := expected + 1 } else .error "out of order"

def scalarBytes (value : Nat) : Bytes :=
  EngineEd25519.leBytes 32 value

/-- Shares of the secret 3 on the lines `3 + 2 x` and, after a refresh, `3 + 3 x`. -/
def clientShare (refreshed : Bool) : KeyPackage :=
  { identifier := 1, share := if refreshed then 6 else 5 }

def serializeKeyPackage (package : KeyPackage) : Bytes :=
  [package.identifier, package.share]

def deserializeKeyPackage : Bytes → Except String KeyPackage
  | [identifier, share] => .ok { identifier, share }
  | _ => .error "invalid key package"

def deserializePublicKey : Bytes → Except String UInt8
  | [publicKey] => .ok publicKey
  | _ => .error "invalid public key package"

/-- The key in the form of its curve. -/
def verifyingKey (publicKey : UInt8) : Bytes :=
  scalarBytes publicKey.toNat

def deserializeSigningPackage : Bytes → Except String SigningPackage
  | first :: second :: message => .ok { commitments := (first, second), message }
  | _ => .error "invalid signing package"

def deserializeCommitments : Bytes → Except String UInt8
  | [commitments] => .ok commitments
  | _ => .error "invalid commitments"

/-- The v2 envelope around both packages. -/
def shareEnvelope (package : KeyPackage) (publicKey : UInt8) : String :=
  let material : EngineEd25519.Ed25519KeyMaterial :=
    { kp := encodeBase64 (serializeKeyPackage package), pkp := encodeBase64 [publicKey] }
  ShareEnvelope.encode standard
    (ShareEnvelope.new standard .ed25519 (utf8 (standard.renderJson material.toJson)))

def frost : Frost where
  KeyPackage := KeyPackage
  PublicKeyPackage := UInt8
  SigningNonces := Nat
  SigningCommitments := UInt8
  SigningPackage := SigningPackage
  SignatureShare := Bytes
  Signature := Bytes
  KeygenSessionState := Parts Unit
  RecoverySessionState := Parts UInt8
  keygenPart1 := fun _ _ => .ok ({ next := 2, key := () }, "cGFydDE=")
  keygenPart2 := fun parts _ => do
    let parts ← parts.advance 2
    return (parts, "cGFydDI=")
  keygenPart3 := fun parts _ => do
    let _ ← parts.advance 3
    return (clientShare false, 3)
  recoveryPart1 := fun _ publicKey _ => .ok ({ next := 2, key := publicKey }, "cGFydDE=")
  recoveryPart2 := fun parts _ => do
    let parts ← parts.advance 2
    return (parts, "cGFydDI=")
  recoveryPart3 := fun parts _ => do
    let parts ← parts.advance 3
    return (clientShare true, parts.key)
  oldPubKeyPkg := Parts.key
  verifyingKey := fun publicKey => .ok (verifyingKey publicKey)
  commit := fun _ draw => (draw, UInt8.ofNat draw)
  serializeCommitments := fun commitments => .ok [commitments]
  deserializeCommitments
  deserializeSigningPackage
  packageMessage := SigningPackage.message
  packageCommitments := fun package => [(1, package.commitments.1), (2, package.commitments.2)]
  deserializeSignatureShare := .ok
  sign := fun _ _ package => .ok [package.share]
  aggregate := fun package _ publicKey => .ok (signature (verifyingKey publicKey) package.message)
  serializeSignature := .ok
  deserializeKeyPackage
  deserializePublicKeyPackage := deserializePublicKey
  buildShareEnvelope := fun package publicKey => .ok (shareEnvelope package publicKey)
  identifier := fun package => scalarBytes package.identifier.toNat
  signingShare := fun package => scalarBytes package.share.toNat
  mulBase := fun scalar => scalarBytes scalar.val
  verify := fun key message sigBytes => sigBytes = signature key message

/-- The shares `(1, 5)` and `(2, 7)` of the secret 3, as `shareEnvelope` writes them. -/
def clientShareText : String :=
  "eyJ2IjoyLCJjdXJ2ZSI6ImVkMjU1MTkiLCJzaGFyZSI6ImV5SnJjQ0k2SWtGUlZUMGlMQ0p3YTNBaU9pSkJkejA5SW4wPSJ9"

def serverShareText : String :=
  "eyJ2IjoyLCJjdXJ2ZSI6ImVkMjU1MTkiLCJzaGFyZSI6ImV5SnJjQ0k2SWtGbll6MGlMQ0p3YTNBaU9pSkJkejA5SW4wPSJ9"

/-! ## DKLs23 -/

structure Keyshare where
  party : UInt8
  rotation : UInt8
  key : Bytes

def Keyshare.toBytes (keyshare : Keyshare) : Bytes :=
  0xff :: keyshare.party :: keyshare.rotation :: keyshare.key

/-- A keyshare starts with a byte no text contains. -/
def Keyshare.fromBytes : Bytes → Option Keyshare
  | mark :: party :: rotation :: key =>
      if mark = 0xff ∧ key.length = 32 then some { party, rotation, key } else none
  | _ => none

inductive Operation where
  | receive
  | send (message : Bytes)

/-- A run is a list of operations and a result. -/
structure Script (Output : Type) where
  operations : List Operation
  result : Output

/-- A run whose input is closed fails. -/
inductive Run (Output : Type) where
  | active (script : Script Output)
  | failed

def Run.resume {Output : Type} : Run Output → ProtocolStep (Run Output) Output
  | .failed => .finish (.error "input closed")
  | .active script =>
      match script.operations with
      | [] => .finish (.ok script.result)
      | .send message :: rest => .send message fun _ => .active { script with operations := rest }
      | .receive :: rest =>
          .receive fun received =>
            match received with
            | some _ => .active { script with operations := rest }
            | none => .failed

/-- Two messages in answer to the first one, and a result after the second. -/
def twoRounds {Output : Type} (result : Output) : Run Output :=
  .active { operations := [.receive, .send [1], .send [2], .receive], result }

def dkls : Dkls where
  Keyshare := Keyshare
  Point := Bytes
  pointEq := inferInstance
  NonZeroScalar := Unit
  Scalar := Bytes
  fromBytes := Keyshare.fromBytes
  publicKey := Keyshare.key
  encodePoint := fun compress point => if compress then 0x02 :: point else 0x04 :: (point ++ point)
  xIList := fun _ => [(), ()]
  rankList := fun _ => [0, 0]
  partyId := Keyshare.party
  sI := Keyshare.key
  combineShares := fun _ scalars point => if scalars.head? = some point then some point else none
  scalarBytes := id
  Protocol := fun protocol => Run (Dkls.Output protocol)
  resume := Run.resume
  keygen := fun _ seed =>
    twoRounds { party := 0, rotation := 0, key := scalarBytes seed : Keyshare }.toBytes
  keyRefresh := fun _ _ keyshare =>
    twoRounds { keyshare with rotation := keyshare.rotation + 1 }.toBytes
  sign := fun _ _ keyshare digest => twoRounds (signature keyshare.key digest.bytes, 0)
  verify := fun point digest r s => r ++ s = signature point digest

/-- The hash is not one, and base58 is hexadecimal. -/
def libraries : Libraries where
  text := standard
  frost := frost
  dkls := dkls
  keccak256 := fit 32
  encodeBase58 := encodeHex

/-- Party 0's keyshare of the key 7. -/
def keyshare : Keyshare :=
  { party := 0, rotation := 0, key := scalarBytes 7 }

theorem fromBytes_toBytes (keyshare : Keyshare) (length : keyshare.key.length = 32) :
    Keyshare.fromBytes keyshare.toBytes = some keyshare := by
  simp [Keyshare.fromBytes, Keyshare.toBytes, length]

theorem fromBytes_mark {bytes : Bytes} {keyshare : Keyshare}
    (read : Keyshare.fromBytes bytes = some keyshare) : ∃ rest, bytes = 0xff :: rest := by
  unfold Keyshare.fromBytes at read
  split at read
  · next mark party rotation key =>
    split at read
    · next shape => exact ⟨_, by rw [shape.1]⟩
    · cases read
  · cases read

/-! ## Runs -/

/-- One call after another, each run until it has returned. -/
def sequential : (thread : Nat) → List Call → List (Move Call Drift)
  | _, [] => []
  | thread, call :: rest =>
      .start call :: (List.replicate 8 (.run thread) ++ sequential (thread + 1) rest)

theorem sequential_started (thread : Nat) (calls : List Call) :
    (sequential thread calls).filterMap Move.started = calls := by
  induction calls generalizing thread with
  | nil => rfl
  | cons call rest ih =>
      have moves : (List.replicate 8 (Move.run thread : Move Call Drift)).filterMap Move.started = [] := rfl
      rw [sequential, List.filterMap_cons, List.filterMap_append, moves, List.nil_append, ih]
      rfl

theorem sequential_append (thread : Nat) (first second : List Call) :
    sequential thread (first ++ second) =
      sequential thread first ++ sequential (thread + first.length) second := by
  induction first generalizing thread with
  | nil => rfl
  | cons call rest ih =>
      have next : thread + 1 + rest.length = thread + (rest.length + 1) := by omega
      simp only [List.cons_append, sequential, ih, next, List.length_cons, List.append_assoc]

def run (calls : List Call) : EngineWorld libraries :=
  (machine libraries).run (sequential 0 calls) (.initial .empty)

/-- A run goes on when more calls are made. -/
theorem run_reaches (first second : List Call) :
    (machine libraries).Reaches Machine.Any (run first) (run (first ++ second)) := by
  rw [run, run, sequential_append, Machine.run_append]
  exact Machine.reaches_run _ _

theorem run_called (calls : List Call) : (run calls).threads.map Prod.fst = calls := by
  rw [run, Machine.run_calls, sequential_started]
  rfl

/-- The status of a round, once the call has returned. -/
def status (world : EngineWorld libraries) (thread : Nat) : Option String :=
  match world.threads[thread]? with
  | some (_, .done (.ok reply)) => some reply.status
  | _ => none

theorem call_of_called {calls : List Call} {thread : Nat} {call : Call}
    (called : (run calls).Called thread call) : calls[thread]? = some call := by
  rw [← run_called calls]
  exact World.called_iff.mp called

theorem returned_of_status {calls : List Call} {thread : Nat} {call : Call} {text : String}
    (made : calls[thread]? = some call) (ended : status (run calls) thread = some text) :
    ∃ reply, (run calls).Returned thread call (.ok reply) ∧ reply.status = text := by
  unfold status at ended
  split at ended
  · next other reply found =>
    have same := (call_of_called ⟨_, found⟩).symm.trans made
    cases same
    exact ⟨reply, found, Option.some.inj ended⟩
  · cases ended

theorem completed_of_status {calls : List Call} {thread : Nat} {call : Call}
    (made : calls[thread]? = some call) (ended : status (run calls) thread = some "completed") :
    ∃ result, (run calls).Returned thread call (.ok (.round result)) ∧ result.status = "completed" := by
  obtain ⟨reply, returned, completed⟩ := returned_of_status made ended
  cases reply with
  | round result => exact ⟨result, returned, completed⟩
  | exported result =>
      have empty : "" = "completed" := completed
      exact absurd empty (by decide)

/-! ## A signing session -/

def signRound1 : Call :=
  .sign .engineEd25519 "s" 1
    "\x7b\"session_id\":\"s\",\"protocol\":\"dsg\",\"round\":1,\"from_id\":1,\"payload_encoding\":\"\",\"payload\":\"eyJjb21taXRtZW50cyI6IjA5In0=\"\x7d"
    (some clientShareText) (some "aabb")

def signRound2 : Call :=
  .sign .engineEd25519 "s" 2
    "\x7b\"session_id\":\"s\",\"protocol\":\"dsg\",\"round\":2,\"from_id\":1,\"payload_encoding\":\"\",\"payload\":\"eyJzaWduaW5nX3BrZyI6IjAwMDlhYWJiIiwic2lnX3NoYXJlIjoiMDcifQ==\"\x7d"
    none none

/-- Both rounds, and round 2 once more. -/
def signingCalls : List Call := [signRound1, signRound2, signRound2]

theorem signing_completed : status (run signingCalls) 1 = some "completed" := by
  decide +kernel

theorem clientShareText_material :
    EngineEd25519.extractShareMaterial libraries clientShareText =
      .ok (clientShare false, (3 : UInt8)) := by
  have decided : (EngineEd25519.extractShareMaterial libraries clientShareText :
      Except String (frost.KeyPackage × frost.PublicKeyPackage)) = .ok (clientShare false, (3 : UInt8)) :=
    (of_decide_eq_true (by decide +kernel) : @Eq (Except String (KeyPackage × UInt8)) _ _)
  exact decided

/-- An export between the two rounds. -/
def exportCalls : List Call :=
  [signRound1, .exportPrivateKey .engineEd25519 clientShareText serverShareText, signRound2]

theorem export_returned : status (run (exportCalls.take 2)) 1 = some "" := by
  decide +kernel

theorem export_completed : status (run exportCalls) 2 = some "completed" := by
  decide +kernel

end CeresMpc.Toy
