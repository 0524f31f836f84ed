import CeresMpc.Encoding.Utf8

/-! # Hexadecimal text -/

set_option autoImplicit false

namespace CeresMpc.Encoding

/-- Lower-case digits of a nibble. -/
def hexDigit (nibble : UInt8) : Char :=
  ("0123456789abcdef".toList)[nibble.toNat]?.getD '0'

/-- `hex::encode`, as characters. -/
def hexChars (bytes : Bytes) : List Char :=
  bytes.flatMap fun byte : UInt8 => [hexDigit (byte >>> 4), hexDigit (byte &&& 0xf)]

/-- Digits of either case. -/
def hexValue (c : Char) : Option Nat :=
  if '0' ≤ c ∧ c ≤ '9' then some (c.toNat - '0'.toNat)
  else if 'a' ≤ c ∧ c ≤ 'f' then some (c.toNat - 'a'.toNat + 10)
  else if 'A' ≤ c ∧ c ≤ 'F' then some (c.toNat - 'A'.toNat + 10)
  else none

def hexBytes : List Char → Option Bytes
  | [] => some []
  | high :: low :: rest => do
      let highValue ← hexValue high
      let lowValue ← hexValue low
      let bytes ← hexBytes rest
      return UInt8.ofNat (16 * highValue + lowValue) :: bytes
  | [_] => none

def encodeHex (bytes : Bytes) : String :=
  String.ofList (hexChars bytes)

def decodeHex (text : String) : Except String Bytes :=
  okOr "invalid hex" (hexBytes (characters text))

theorem hexValue_digit {nibble : UInt8} (small : nibble.toNat < 16) :
    hexValue (hexDigit nibble) = some nibble.toNat := by
  have table : ∀ value < 16, hexValue (hexDigit (UInt8.ofNat value)) = some value := by decide
  simpa using table nibble.toNat small

private theorem byte_of_nibbles (byte : UInt8) :
    (byte >>> 4).toNat < 16 ∧ (byte &&& 0xf).toNat < 16 ∧
      UInt8.ofNat (16 * (byte >>> 4).toNat + (byte &&& 0xf).toNat) = byte := by
  have table : ∀ value < 256, (UInt8.ofNat value >>> 4).toNat < 16 ∧
      (UInt8.ofNat value &&& 0xf).toNat < 16 ∧
      16 * (UInt8.ofNat value >>> 4).toNat + (UInt8.ofNat value &&& 0xf).toNat = value := by
    decide +kernel
  obtain ⟨high, low, whole⟩ := table byte.toNat byte.toNat_lt
  rw [UInt8.ofNat_toNat] at high low whole
  exact ⟨high, low, by rw [whole, UInt8.ofNat_toNat]⟩

theorem hexBytes_chars (bytes : Bytes) : hexBytes (hexChars bytes) = some bytes := by
  induction bytes with
  | nil => rfl
  | cons byte rest ih =>
      obtain ⟨high, low, whole⟩ := byte_of_nibbles byte
      have unfolded : hexChars (byte :: rest) =
          hexDigit (byte >>> 4) :: hexDigit (byte &&& 0xf) :: hexChars rest := rfl
      rw [unfolded, hexBytes, hexValue_digit high, hexValue_digit low, ih]
      exact congrArg (fun first => some (first :: rest)) whole

/-! ## Digits of a text -/

theorem hexChars_injective : Function.Injective hexChars := by
  intro bytes others same
  have read := hexBytes_chars bytes
  rw [same, hexBytes_chars] at read
  exact (Option.some.inj read).symm

@[simp] theorem length_hexChars (bytes : Bytes) : (hexChars bytes).length = 2 * bytes.length := by
  induction bytes with
  | nil => rfl
  | cons byte rest ih =>
      have unfolded : hexChars (byte :: rest) = hexDigit (byte >>> 4) :: hexDigit (byte &&& 0xf) :: hexChars rest := rfl
      rw [unfolded, List.length_cons, List.length_cons, List.length_cons, ih]
      omega

/-- The nibble behind digit `i`. -/
def nibble (bytes : Bytes) (i : Nat) : Option UInt8 :=
  bytes[i / 2]?.map fun byte : UInt8 => if i % 2 = 0 then byte >>> 4 else byte &&& 0xf

theorem getElem?_hexChars (bytes : Bytes) (i : Nat) : (hexChars bytes)[i]? = (nibble bytes i).map hexDigit := by
  induction bytes generalizing i with
  | nil => rfl
  | cons byte rest ih =>
      have unfolded : hexChars (byte :: rest) = hexDigit (byte >>> 4) :: hexDigit (byte &&& 0xf) :: hexChars rest := rfl
      rw [unfolded]
      match i with
      | 0 => rfl
      | 1 => rfl
      | i + 2 =>
          have half : (i + 2) / 2 = i / 2 + 1 := by omega
          have side : (i + 2) % 2 = i % 2 := by omega
          simp only [nibble, half, side, List.getElem?_cons_succ]
          exact ih i

theorem nibble_lt {bytes : Bytes} {i : Nat} {value : UInt8} (found : nibble bytes i = some value) : value.toNat < 16 := by
  obtain ⟨byte, _, rfl⟩ := Option.map_eq_some_iff.mp found
  obtain ⟨high, low, _⟩ := byte_of_nibbles byte
  split
  · exact high
  · exact low

/-- Every character is the digit of a nibble. -/
theorem digit_of_mem {bytes : Bytes} {c : Char} (member : c ∈ hexChars bytes) :
    ∃ value : UInt8, value.toNat < 16 ∧ c = hexDigit value := by
  obtain ⟨i, found⟩ := List.mem_iff_getElem?.mp member
  rw [getElem?_hexChars] at found
  obtain ⟨value, isNibble, rfl⟩ := Option.map_eq_some_iff.mp found
  exact ⟨value, nibble_lt isNibble, rfl⟩

/-- The writer's digits are lower case, and a digit in upper case has only its case changed. -/
theorem hexDigit_case {value : UInt8} (small : value.toNat < 16) :
    (hexDigit value).toLower = hexDigit value ∧ (hexDigit value).toUpper.toLower = hexDigit value ∧
      (hexDigit value).isUpper = false ∧ ((hexDigit value).toUpper.isAlpha → (hexDigit value).toUpper.isUpper) := by
  have table : ∀ number < 16, (hexDigit (UInt8.ofNat number)).toLower = hexDigit (UInt8.ofNat number) ∧
      (hexDigit (UInt8.ofNat number)).toUpper.toLower = hexDigit (UInt8.ofNat number) ∧
      (hexDigit (UInt8.ofNat number)).isUpper = false ∧
      ((hexDigit (UInt8.ofNat number)).toUpper.isAlpha → (hexDigit (UInt8.ofNat number)).toUpper.isUpper) := by decide
  simpa using table value.toNat small

theorem decodeHex_encodeHex (bytes : Bytes) : decodeHex (encodeHex bytes) = .ok bytes := by
  simp [decodeHex, encodeHex, hexBytes_chars, okOr]

end CeresMpc.Encoding
