import CeresMpc.Encoding.Utf8

/-!
# Base64

The standard alphabet with padding. Decoding takes nothing but what encoding
writes: padding is required and unused bits are zero.
-/

set_option autoImplicit false

namespace CeresMpc.Encoding

def base64Symbol (digit : Nat) : Char :=
  if digit < 26 then Char.ofNat (digit + 'A'.toNat)
  else if digit < 52 then Char.ofNat (digit - 26 + 'a'.toNat)
  else if digit < 62 then Char.ofNat (digit - 52 + '0'.toNat)
  else if digit = 62 then '+'
  else '/'

def base64Value (symbol : Char) : Option Nat :=
  if 'A' ≤ symbol ∧ symbol ≤ 'Z' then some (symbol.toNat - 'A'.toNat)
  else if 'a' ≤ symbol ∧ symbol ≤ 'z' then some (symbol.toNat - 'a'.toNat + 26)
  else if '0' ≤ symbol ∧ symbol ≤ '9' then some (symbol.toNat - '0'.toNat + 52)
  else if symbol = '+' then some 62
  else if symbol = '/' then some 63
  else none

/-- Three bytes are four digits of six bits. -/
def base64Chars : Bytes → List Char
  | [] => []
  | [a] => [base64Symbol (a.toNat / 4), base64Symbol (a.toNat % 4 * 16), '=', '=']
  | [a, b] =>
      [base64Symbol (a.toNat / 4), base64Symbol (a.toNat % 4 * 16 + b.toNat / 16),
        base64Symbol (b.toNat % 16 * 4), '=']
  | a :: b :: c :: rest =>
      base64Symbol (a.toNat / 4) :: base64Symbol (a.toNat % 4 * 16 + b.toNat / 16) ::
        base64Symbol (b.toNat % 16 * 4 + c.toNat / 64) :: base64Symbol (c.toNat % 64) ::
        base64Chars rest

/-- The last four characters of a text. -/
def base64Tail (w x y z : Char) : Option Bytes := do
  let first ← base64Value w
  let second ← base64Value x
  if y = '=' then
    if z = '=' ∧ second % 16 = 0 then return [UInt8.ofNat (first * 4 + second / 16)]
    else none
  else do
    let third ← base64Value y
    if z = '=' then
      if third % 4 = 0 then
        return [UInt8.ofNat (first * 4 + second / 16), UInt8.ofNat (second % 16 * 16 + third / 4)]
      else none
    else do
      let fourth ← base64Value z
      return [UInt8.ofNat (first * 4 + second / 16), UInt8.ofNat (second % 16 * 16 + third / 4),
        UInt8.ofNat (third % 4 * 64 + fourth)]

def base64Bytes : List Char → Option Bytes
  | [] => some []
  | [w, x, y, z] => base64Tail w x y z
  | w :: x :: y :: z :: rest => do
      let first ← base64Value w
      let second ← base64Value x
      let third ← base64Value y
      let fourth ← base64Value z
      let bytes ← base64Bytes rest
      return UInt8.ofNat (first * 4 + second / 16) :: UInt8.ofNat (second % 16 * 16 + third / 4) ::
        UInt8.ofNat (third % 4 * 64 + fourth) :: bytes
  | _ => none

def encodeBase64 (bytes : Bytes) : String :=
  String.ofList (base64Chars bytes)

def decodeBase64 (text : String) : Except String Bytes :=
  okOr "invalid base64" (base64Bytes (characters text))

theorem base64Value_symbol : ∀ digit < 64, base64Value (base64Symbol digit) = some digit := by
  decide +kernel

private theorem symbol_ne_padding : ∀ digit < 64, base64Symbol digit ≠ '=' := by
  decide +kernel

private theorem ofNat_eq {value : Nat} {byte : UInt8} (same : value = byte.toNat) :
    UInt8.ofNat value = byte := by
  rw [same, UInt8.ofNat_toNat]

private theorem digits_of_bytes (a b c : UInt8) :
    (a.toNat / 4 < 64 ∧ a.toNat % 4 * 16 + b.toNat / 16 < 64 ∧
      b.toNat % 16 * 4 + c.toNat / 64 < 64 ∧ c.toNat % 64 < 64) ∧
    UInt8.ofNat (a.toNat / 4 * 4 + (a.toNat % 4 * 16 + b.toNat / 16) / 16) = a ∧
    UInt8.ofNat ((a.toNat % 4 * 16 + b.toNat / 16) % 16 * 16 +
      (b.toNat % 16 * 4 + c.toNat / 64) / 4) = b ∧
    UInt8.ofNat ((b.toNat % 16 * 4 + c.toNat / 64) % 4 * 64 + c.toNat % 64) = c := by
  have := a.toNat_lt
  have := b.toNat_lt
  have := c.toNat_lt
  refine ⟨by omega, ofNat_eq ?_, ofNat_eq ?_, ofNat_eq ?_⟩ <;> omega

private theorem base64Bytes_group {w x y z : Char} {rest : List Char} {first second third fourth : Nat}
    {bytes : Bytes} (isFirst : base64Value w = some first) (isSecond : base64Value x = some second)
    (isThird : base64Value y = some third) (isFourth : base64Value z = some fourth)
    (noPadding : y ≠ '=' ∧ z ≠ '=') (others : base64Bytes rest = some bytes) :
    base64Bytes (w :: x :: y :: z :: rest) =
      some (UInt8.ofNat (first * 4 + second / 16) :: UInt8.ofNat (second % 16 * 16 + third / 4) ::
        UInt8.ofNat (third % 4 * 64 + fourth) :: bytes) := by
  cases rest with
  | nil =>
      obtain rfl : [] = bytes := by simpa [base64Bytes] using others
      simp [base64Bytes, base64Tail, isFirst, isSecond, isThird, isFourth, noPadding]
  | cons next rest =>
      rw [base64Bytes, isFirst, isSecond, isThird, isFourth, others]
      · rfl
      · simp

theorem base64Bytes_chars (bytes : Bytes) : base64Bytes (base64Chars bytes) = some bytes := by
  induction bytes using base64Chars.induct with
  | case1 => rfl
  | case2 a =>
      have bound := a.toNat_lt
      have first : base64Value (base64Symbol (a.toNat / 4)) = some _ := base64Value_symbol _ (by omega)
      have second : base64Value (base64Symbol (a.toNat % 4 * 16)) = some _ :=
        base64Value_symbol _ (by omega)
      have whole : UInt8.ofNat (a.toNat / 4 * 4 + a.toNat % 4) = a := ofNat_eq (by omega)
      simp [base64Chars, base64Bytes, base64Tail, first, second, whole, -UInt8.ofNat_add,
        -UInt8.ofNat_mul]
  | case3 a b =>
      have bound := a.toNat_lt
      have nextBound := b.toNat_lt
      have first : base64Value (base64Symbol (a.toNat / 4)) = some _ := base64Value_symbol _ (by omega)
      have second : base64Value (base64Symbol (a.toNat % 4 * 16 + b.toNat / 16)) = some _ :=
        base64Value_symbol _ (by omega)
      have third : base64Value (base64Symbol (b.toNat % 16 * 4)) = some _ :=
        base64Value_symbol _ (by omega)
      have unpadded := symbol_ne_padding (b.toNat % 16 * 4) (by omega)
      have whole : UInt8.ofNat (a.toNat / 4 * 4 + (a.toNat % 4 * 16 + b.toNat / 16) / 16) = a :=
        ofNat_eq (by omega)
      have next : UInt8.ofNat (b.toNat / 16 % 16 * 16 + b.toNat % 16) = b := ofNat_eq (by omega)
      simp [base64Chars, base64Bytes, base64Tail, first, second, third, unpadded, whole, next,
        -UInt8.ofNat_add, -UInt8.ofNat_mul]
  | case4 a b c rest ih =>
      obtain ⟨⟨first, second, third, fourth⟩, whole, next, last⟩ := digits_of_bytes a b c
      rw [base64Chars, base64Bytes_group (base64Value_symbol _ first) (base64Value_symbol _ second)
        (base64Value_symbol _ third) (base64Value_symbol _ fourth)
        ⟨symbol_ne_padding _ third, symbol_ne_padding _ fourth⟩ ih, whole, next, last]

theorem decodeBase64_encodeBase64 (bytes : Bytes) : decodeBase64 (encodeBase64 bytes) = .ok bytes := by
  simp [decodeBase64, encodeBase64, base64Bytes_chars, okOr]

/-- A digit comes from one character only. -/
theorem base64Symbol_value {symbol : Char} {digit : Nat} (read : base64Value symbol = some digit) :
    digit < 64 ∧ base64Symbol digit = symbol := by
  have code : Char.ofNat symbol.toNat = symbol := Char.ofNat_toNat symbol
  unfold base64Value at read
  split at read
  · next upper =>
    obtain rfl := Option.some.inj read
    have low : 65 ≤ symbol.toNat := upper.1
    have high : symbol.toNat ≤ 90 := upper.2
    have back : symbol.toNat - 'A'.toNat + 'A'.toNat = symbol.toNat := Nat.sub_add_cancel low
    have small : symbol.toNat - 'A'.toNat < 26 := by
      show symbol.toNat - 65 < 26
      omega
    exact ⟨by omega, by rw [base64Symbol, if_pos small, back, code]⟩
  split at read
  · next lower =>
    obtain rfl := Option.some.inj read
    have low : 97 ≤ symbol.toNat := lower.1
    have high : symbol.toNat ≤ 122 := lower.2
    have a : 'a'.toNat = 97 := rfl
    have range : ¬symbol.toNat - 'a'.toNat + 26 < 26 ∧ symbol.toNat - 'a'.toNat + 26 < 52 := by omega
    have back : symbol.toNat - 'a'.toNat + 26 - 26 + 'a'.toNat = symbol.toNat := by omega
    exact ⟨by omega, by rw [base64Symbol, if_neg range.1, if_pos range.2, back, code]⟩
  split at read
  · next numeral =>
    obtain rfl := Option.some.inj read
    have low : 48 ≤ symbol.toNat := numeral.1
    have high : symbol.toNat ≤ 57 := numeral.2
    have a : '0'.toNat = 48 := rfl
    have range : ¬symbol.toNat - '0'.toNat + 52 < 26 ∧ ¬symbol.toNat - '0'.toNat + 52 < 52 ∧
        symbol.toNat - '0'.toNat + 52 < 62 := by omega
    have back : symbol.toNat - '0'.toNat + 52 - 52 + '0'.toNat = symbol.toNat := by omega
    exact ⟨by omega, by rw [base64Symbol, if_neg range.1, if_neg range.2.1, if_pos range.2.2, back, code]⟩
  split at read
  · next plus =>
    obtain rfl := Option.some.inj read
    exact ⟨by decide, plus.symm⟩
  split at read
  · next slash =>
    obtain rfl := Option.some.inj read
    exact ⟨by decide, slash.symm⟩
  · cases read

private theorem digits_of_digits {first second third fourth : Nat} (bounds : first < 64 ∧ second < 64 ∧ third < 64 ∧ fourth < 64) :
    (UInt8.ofNat (first * 4 + second / 16)).toNat / 4 = first ∧
      (UInt8.ofNat (first * 4 + second / 16)).toNat % 4 * 16 +
        (UInt8.ofNat (second % 16 * 16 + third / 4)).toNat / 16 = second ∧
      (UInt8.ofNat (second % 16 * 16 + third / 4)).toNat % 16 * 4 +
        (UInt8.ofNat (third % 4 * 64 + fourth)).toNat / 64 = third ∧
      (UInt8.ofNat (third % 4 * 64 + fourth)).toNat % 64 = fourth := by
  simp only [UInt8.toNat_ofNat']
  omega

private theorem base64Chars_tail {w x y z : Char} {bytes : Bytes} (read : base64Tail w x y z = some bytes) :
    base64Chars bytes = [w, x, y, z] := by
  simp only [base64Tail, Option.bind_eq_bind, Option.bind_eq_some_iff] at read
  obtain ⟨first, isFirst, second, isSecond, read⟩ := read
  obtain ⟨firstBound, rfl⟩ := base64Symbol_value isFirst
  obtain ⟨secondBound, rfl⟩ := base64Symbol_value isSecond
  split at read
  · next padded =>
    split at read
    · next whole =>
      cases read
      obtain ⟨top, rest, _, _⟩ := @digits_of_digits first second 0 0 ⟨firstBound, secondBound, by omega, by omega⟩
      rw [padded, whole.1, base64Chars, top]
      have low : (UInt8.ofNat (first * 4 + second / 16)).toNat % 4 * 16 = second := by
        rw [UInt8.toNat_ofNat']
        omega
      rw [low]
    · cases read
  · simp only [Option.bind_eq_some_iff] at read
    obtain ⟨third, isThird, read⟩ := read
    obtain ⟨thirdBound, rfl⟩ := base64Symbol_value isThird
    split at read
    · next padded =>
      split at read
      · next whole =>
        cases read
        obtain ⟨top, next, _, _⟩ := @digits_of_digits first second third 0 ⟨firstBound, secondBound, thirdBound, by omega⟩
        have low : (UInt8.ofNat (second % 16 * 16 + third / 4)).toNat % 16 * 4 = third := by
          rw [UInt8.toNat_ofNat']
          omega
        rw [padded, base64Chars, top, next, low]
      · cases read
    · simp only [Option.bind_eq_some_iff] at read
      obtain ⟨fourth, isFourth, made⟩ := read
      obtain ⟨fourthBound, rfl⟩ := base64Symbol_value isFourth
      cases made
      obtain ⟨top, next, low, last⟩ := digits_of_digits ⟨firstBound, secondBound, thirdBound, fourthBound⟩
      rw [base64Chars, top, next, low, last, base64Chars]

theorem base64Chars_bytes {chars : List Char} {bytes : Bytes} (read : base64Bytes chars = some bytes) :
    base64Chars bytes = chars := by
  induction chars using base64Bytes.induct generalizing bytes with
  | case1 =>
      cases read
      rfl
  | case2 w x y z => exact base64Chars_tail read
  | case3 w x y z rest more ih =>
      rw [base64Bytes] at read
      · simp only [Option.bind_eq_bind, Option.bind_eq_some_iff] at read
        obtain ⟨first, isFirst, second, isSecond, third, isThird, fourth, isFourth, others, read, made⟩ := read
        obtain ⟨firstBound, rfl⟩ := base64Symbol_value isFirst
        obtain ⟨secondBound, rfl⟩ := base64Symbol_value isSecond
        obtain ⟨thirdBound, rfl⟩ := base64Symbol_value isThird
        obtain ⟨fourthBound, rfl⟩ := base64Symbol_value isFourth
        cases made
        obtain ⟨top, next, low, last⟩ := digits_of_digits ⟨firstBound, secondBound, thirdBound, fourthBound⟩
        rw [base64Chars, top, next, low, last, ih read]
      · exact more
  | case4 chars short =>
      simp_all [base64Bytes]

/-- Every text that decodes is what encoding writes. -/
theorem encodeBase64_of_decodeBase64 {text : String} {bytes : Bytes} (read : decodeBase64 text = .ok bytes) :
    encodeBase64 bytes = text := by
  rw [decodeBase64, okOr_eq_ok] at read
  rw [encodeBase64, base64Chars_bytes read, characters_eq, String.ofList_toList]

end CeresMpc.Encoding
