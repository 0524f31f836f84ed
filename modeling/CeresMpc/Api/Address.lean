import CeresMpc.Encoding.Hex
import CeresMpc.Libraries

/-! # Chain addresses -/

set_option autoImplicit false

namespace CeresMpc.Api

open Encoding

def deriveSolanaAddress (lib : Libraries) (verifyingKey : Bytes) : Except String String :=
  if verifyingKey.length = 32 then .ok (lib.encodeBase58 verifyingKey)
  else .error ("Solana pubkey must be exactly 32 bytes, got " ++ toString verifyingKey.length)

/-- The nibble of the checksum hash that decides the case of character `i`. -/
def checksumNibble (hash : Bytes) (i : Nat) : UInt8 :=
  ((hash[i / 2]?.getD 0) >>> (if i % 2 = 0 then 4 else 0)) &&& 0xf

def checksummed (hash : Bytes) (hexAddr : List Char) : List Char :=
  hexAddr.mapIdx fun i c => if 8 ≤ checksumNibble hash i then c.toUpper else c

/-- EIP-55 address of an uncompressed secp256k1 public key. -/
def deriveEvmAddress (lib : Libraries) (uncompressedPubkey : Bytes) : Except String String :=
  if uncompressedPubkey.length ≠ 65 ∨ uncompressedPubkey[0]? ≠ some 0x04 then
    .error "Expected 65-byte uncompressed public key with 0x04 prefix"
  else
    let hash := lib.keccak256 (uncompressedPubkey.drop 1)
    let hexAddr := hexChars (hash.drop 12)
    let checksumHash := lib.keccak256 (utf8 (String.ofList hexAddr))
    .ok (String.ofList ('0' :: 'x' :: checksummed checksumHash hexAddr))

end CeresMpc.Api
