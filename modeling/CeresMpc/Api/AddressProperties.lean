import CeresMpc.Api.Address
import CeresMpc.Toy

/-!
# EVM addresses and their checksum

The case of each character is a digit of the hash of the lower-case text, so an
address carries its bytes and a checksum of them.
-/

set_option autoImplicit false

namespace CeresMpc.Api

open Encoding

variable (lib : Libraries)

/-- 65 bytes with the prefix of an uncompressed point. -/
def UncompressedKey (key : Bytes) : Prop := key.length = 65 ∧ key[0]? = some 0x04

/-- The last 20 bytes of the hash of the coordinates. -/
def addressBytes (key : Bytes) : Bytes :=
  let hash := lib.keccak256 (key.drop 1)
  hash.drop (hash.length - 20)

/-- EIP-55 over a lower-case text. -/
def eip55 (hexAddr : List Char) : List Char :=
  checksummed (lib.keccak256 (utf8 (String.ofList hexAddr))) hexAddr

theorem checksumNibble_eq {hash : Bytes} {i : Nat} {value : UInt8} (found : nibble hash i = some value) :
    checksumNibble hash i = value := by
  obtain ⟨byte, inside, rfl⟩ := Option.map_eq_some_iff.mp found
  rw [checksumNibble, inside, Option.getD_some]
  have table : ∀ number < 256, (UInt8.ofNat number >>> (4 : UInt8)) &&& (0xf : UInt8) = UInt8.ofNat number >>> 4 ∧
      (UInt8.ofNat number >>> (0 : UInt8)) &&& (0xf : UInt8) = UInt8.ofNat number &&& 0xf := by decide +kernel
  obtain ⟨high, low⟩ := table byte.toNat byte.toNat_lt
  rw [UInt8.ofNat_toNat] at high low
  split
  · exact high
  · exact low

section Checksums

variable {hash : Bytes} {bytes : Bytes}

theorem lower_checksummed : (checksummed hash (hexChars bytes)).map Char.toLower = hexChars bytes := by
  refine List.ext_getElem? fun i => ?_
  rw [checksummed, List.getElem?_map, List.getElem?_mapIdx, Option.map_map]
  cases found : (hexChars bytes)[i]? with
  | none => rfl
  | some c =>
      obtain ⟨value, small, rfl⟩ := digit_of_mem (List.mem_of_getElem? found)
      obtain ⟨lower, raised, _⟩ := hexDigit_case small
      simp only [Option.map_some, Function.comp_apply]
      split
      · rw [raised]
      · rw [lower]

/-- A letter is upper case exactly where the digit of the hash is at least 8. -/
theorem upper_checksummed {i : Nat} {c : Char} (read : (checksummed hash (hexChars bytes))[i]? = some c)
    (letter : c.isAlpha) {digit : UInt8} (decides : nibble hash i = some digit) : c.isUpper ↔ 8 ≤ digit.toNat := by
  rw [checksummed, List.getElem?_mapIdx, Option.map_eq_some_iff] at read
  obtain ⟨lower, found, rfl⟩ := read
  obtain ⟨value, small, rfl⟩ := digit_of_mem (List.mem_of_getElem? found)
  obtain ⟨_, _, notUpper, raised⟩ := hexDigit_case small
  rw [checksumNibble_eq decides] at letter ⊢
  have same : (8 : UInt8) ≤ digit ↔ 8 ≤ digit.toNat := UInt8.le_iff_toNat_le
  split at letter
  · next large => simp [large, same.mp large, raised letter]
  · next less =>
    have below : ¬8 ≤ digit.toNat := fun large => less (same.mpr large)
    simp [less, below, notUpper]

end Checksums

/-! ## Addresses -/

variable {lib}

theorem deriveEvmAddress_of_key {key : Bytes} (digest : ∀ input, (lib.keccak256 input).length = 32)
    (uncompressed : UncompressedKey key) :
    deriveEvmAddress lib key = .ok (String.ofList ('0' :: 'x' :: eip55 lib (hexChars (addressBytes lib key)))) := by
  have accepted : ¬(key.length ≠ 65 ∨ key[0]? ≠ some 0x04) := by
    rintro (short | other)
    · exact short uncompressed.1
    · exact other uncompressed.2
  simp only [deriveEvmAddress, accepted, if_false, eip55, addressBytes, digest]

theorem deriveEvmAddress_of_other {key : Bytes} (other : ¬UncompressedKey key) :
    ∃ failure, deriveEvmAddress lib key = .error failure := by
  have rejected : key.length ≠ 65 ∨ key[0]? ≠ some 0x04 := by
    rw [UncompressedKey, not_and_or] at other
    exact other
  exact ⟨_, if_pos rejected⟩

theorem length_addressBytes (digest : ∀ input, (lib.keccak256 input).length = 32) (key : Bytes) :
    (addressBytes lib key).length = 20 := by
  simp [addressBytes, digest]

variable (lib) in
/-- The characters after the prefix of a key's address. The hash has a byte for every index
the loop reads, and checksumming the lower-case text again changes nothing. -/
structure Checksums (key : Bytes) (chars : List Char) : Prop where
  length_eq : chars.length = 40
  lower : chars.map Char.toLower = hexChars (addressBytes lib key)
  inRange : ∀ i < 40, i / 2 < (lib.keccak256 (utf8 (String.ofList (chars.map Char.toLower)))).length
  cased : ∀ (i : Nat) (c : Char), chars[i]? = some c → ∃ digit value,
    (hexChars (lib.keccak256 (utf8 (String.ofList (chars.map Char.toLower)))))[i]? = some digit ∧
      hexValue digit = some value ∧ (c.isAlpha → (c.isUpper ↔ 8 ≤ value))
  again : eip55 lib (chars.map Char.toLower) = chars

theorem eip55_checksums (digest : ∀ input, (lib.keccak256 input).length = 32) (key : Bytes) :
    Checksums lib key (eip55 lib (hexChars (addressBytes lib key))) := by
  have lower : (eip55 lib (hexChars (addressBytes lib key))).map Char.toLower = hexChars (addressBytes lib key) :=
    lower_checksummed
  have length : (eip55 lib (hexChars (addressBytes lib key))).length = 40 := by
    simp [eip55, checksummed, length_addressBytes digest]
  refine ⟨length, lower, fun i inside => ?_, fun i c read => ?_, by rw [lower]⟩
  · rw [digest]
    omega
  · rw [lower]
    have inside : i < 40 := by
      rw [← length]
      exact (List.getElem?_eq_some_iff.mp read).1
    have half : i / 2 < (lib.keccak256 (utf8 (String.ofList (hexChars (addressBytes lib key))))).length := by
      rw [digest]
      omega
    obtain ⟨digit, decides⟩ : ∃ digit,
        nibble (lib.keccak256 (utf8 (String.ofList (hexChars (addressBytes lib key))))) i = some digit := by
      rw [nibble, List.getElem?_eq_getElem half]
      exact ⟨_, rfl⟩
    refine ⟨hexDigit digit, digit.toNat, ?_, hexValue_digit (nibble_lt decides), fun letter => ?_⟩
    · rw [getElem?_hexChars, decides]
      rfl
    · exact upper_checksummed read letter decides

/-- An uncompressed key has the checksummed address of the last 20 bytes of its hash, equal for
equal bytes only; any other input is refused. -/
theorem evm_addresses_checksummed (digest : ∀ input, (lib.keccak256 input).length = 32) :
    (∀ key, UncompressedKey key → ∃ chars,
      deriveEvmAddress lib key = .ok (String.ofList ('0' :: 'x' :: chars)) ∧ Checksums lib key chars) ∧
    (∀ key other, UncompressedKey key → UncompressedKey other →
      (deriveEvmAddress lib key = deriveEvmAddress lib other ↔ addressBytes lib key = addressBytes lib other)) ∧
    ∀ key, ¬UncompressedKey key → ∃ failure, deriveEvmAddress lib key = .error failure := by
  refine ⟨fun key uncompressed => ?_, fun key other uncompressed otherKey => ?_, fun key => deriveEvmAddress_of_other⟩
  · exact ⟨_, deriveEvmAddress_of_key digest uncompressed, eip55_checksums digest key⟩
  · rw [deriveEvmAddress_of_key digest uncompressed, deriveEvmAddress_of_key digest otherKey]
    constructor
    · intro same
      have text := congrArg String.toList (Except.ok.inj same)
      rw [String.toList_ofList, String.toList_ofList] at text
      have chars : eip55 lib (hexChars (addressBytes lib key)) = eip55 lib (hexChars (addressBytes lib other)) :=
        List.cons.inj (List.cons.inj text).2 |>.2
      have lower := congrArg (List.map Char.toLower) chars
      rw [(eip55_checksums digest key).lower, (eip55_checksums digest other).lower] at lower
      exact hexChars_injective lower
    · intro same
      rw [same]

theorem evm_addresses_checksummed_once : ∃ chars,
    deriveEvmAddress Toy.libraries (0x04 :: List.replicate 64 0xab) = .ok (String.ofList ('0' :: 'x' :: chars)) ∧
      Checksums Toy.libraries (0x04 :: List.replicate 64 0xab) chars :=
  (evm_addresses_checksummed fun input => Toy.fit_length 32 input).1 _ ⟨rfl, rfl⟩

end CeresMpc.Api
