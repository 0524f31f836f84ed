import CeresMpc.Encoding.Encodings

/-!
# UTF-8

A decoder that reads bytes one character at a time. It takes what `String` is
made of, so it reads every text.
-/

set_option autoImplicit false

namespace CeresMpc.Encoding

/-- A byte after the first one of a character. -/
def continuation (byte : UInt8) : Option Nat :=
  if 0x80 ≤ byte.toNat ∧ byte.toNat < 0xc0 then some (byte.toNat - 0x80) else none

def decodeUtf8 : Bytes → Option (List Char)
  | [] => some []
  | first :: rest =>
      if first.toNat < 0x80 then do
        let others ← decodeUtf8 rest
        return Char.ofNat first.toNat :: others
      else match rest with
        | [] => none
        | second :: rest =>
            if first.toNat < 0xe0 then do
              let low ← continuation second
              let value := (first.toNat - 0xc0) * 64 + low
              if 0xc0 ≤ first.toNat ∧ 0x80 ≤ value then
                let others ← decodeUtf8 rest
                return Char.ofNat value :: others
              else none
            else match rest with
              | [] => none
              | third :: rest =>
                  if first.toNat < 0xf0 then do
                    let middle ← continuation second
                    let low ← continuation third
                    let value := ((first.toNat - 0xe0) * 64 + middle) * 64 + low
                    if 0x800 ≤ value ∧ (value < 0xd800 ∨ 0xe000 ≤ value) then
                      let others ← decodeUtf8 rest
                      return Char.ofNat value :: others
                    else none
                  else match rest with
                    | [] => none
                    | fourth :: rest => do
                        let high ← continuation second
                        let middle ← continuation third
                        let low ← continuation fourth
                        let value := (((first.toNat - 0xf0) * 64 + high) * 64 + middle) * 64 + low
                        if 0x10000 ≤ value ∧ value < 0x110000 then
                          let others ← decodeUtf8 rest
                          return Char.ofNat value :: others
                        else none

private theorem continuation_ofNat (value : Nat) :
    continuation (UInt8.ofNat (value % 64 + 128)) = some (value % 64) := by
  have read := UInt8.toNat_ofNat_of_lt' (show value % 64 + 128 < 256 by omega)
  rw [continuation, read, if_pos (by omega)]
  simp

/-- A character is read back in front of any bytes. -/
theorem decodeUtf8_char (c : Char) (rest : Bytes) :
    decodeUtf8 (String.utf8EncodeChar c ++ rest) = (decodeUtf8 rest).map (c :: ·) := by
  have valid : c.toNat < 0xd800 ∨ 0xdfff < c.toNat ∧ c.toNat < 0x110000 := c.valid
  have done {value : Nat} (same : value = c.toNat) : (do
      let others ← decodeUtf8 rest
      return Char.ofNat value :: others) = (decodeUtf8 rest).map (c :: ·) := by
    rw [same, Char.ofNat_toNat]
    cases decodeUtf8 rest <;> rfl
  change decodeUtf8 ((if c.toNat ≤ 127 then [UInt8.ofNat c.toNat]
    else if c.toNat ≤ 2047 then
      [UInt8.ofNat (c.toNat / 64 % 32 + 192), UInt8.ofNat (c.toNat % 64 + 128)]
    else if c.toNat ≤ 65535 then
      [UInt8.ofNat (c.toNat / 4096 % 16 + 224), UInt8.ofNat (c.toNat / 64 % 64 + 128),
        UInt8.ofNat (c.toNat % 64 + 128)]
    else
      [UInt8.ofNat (c.toNat / 262144 % 8 + 240), UInt8.ofNat (c.toNat / 4096 % 64 + 128),
        UInt8.ofNat (c.toNat / 64 % 64 + 128), UInt8.ofNat (c.toNat % 64 + 128)]) ++ rest) = _
  split_ifs with one two three
  · have first := UInt8.toNat_ofNat_of_lt' (show c.toNat < 256 by omega)
    rw [List.singleton_append, decodeUtf8.eq_def]
    dsimp only
    rw [first, if_pos (by omega)]
    exact done rfl
  · have first := UInt8.toNat_ofNat_of_lt' (show c.toNat / 64 % 32 + 192 < 256 by omega)
    rw [List.cons_append, List.singleton_append, decodeUtf8.eq_def]
    dsimp only
    rw [first, if_neg (by omega), if_pos (by omega), continuation_ofNat]
    dsimp only [bind, Option.bind]
    rw [if_pos (by omega)]
    exact done (by omega)
  · have first := UInt8.toNat_ofNat_of_lt' (show c.toNat / 4096 % 16 + 224 < 256 by omega)
    rw [List.cons_append, List.cons_append, List.singleton_append, decodeUtf8.eq_def]
    dsimp only
    rw [first, if_neg (by omega), if_neg (by omega), if_pos (by omega), continuation_ofNat,
      continuation_ofNat]
    dsimp only [bind, Option.bind]
    rw [if_pos (by omega)]
    exact done (by omega)
  · have first := UInt8.toNat_ofNat_of_lt' (show c.toNat / 262144 % 8 + 240 < 256 by omega)
    rw [List.cons_append, List.cons_append, List.cons_append, List.singleton_append, decodeUtf8.eq_def]
    dsimp only
    rw [first, if_neg (by omega), if_neg (by omega), if_neg (by omega), continuation_ofNat,
      continuation_ofNat, continuation_ofNat]
    dsimp only [bind, Option.bind]
    rw [if_pos (by omega)]
    exact done (by omega)

theorem decodeUtf8_chars (chars : List Char) :
    decodeUtf8 (chars.flatMap String.utf8EncodeChar) = some chars := by
  induction chars with
  | nil => rfl
  | cons c chars ih => rw [List.flatMap_cons, decodeUtf8_char, ih, Option.map_some]

theorem decodeUtf8_utf8 (text : String) : decodeUtf8 (utf8 text) = some text.toList := by
  have bytes : utf8 text = text.toList.flatMap String.utf8EncodeChar := by
    have encoded := congrArg (fun bytes : ByteArray => bytes.data.toList) (String.utf8Encode_toList (b := text))
    simpa [utf8, List.utf8Encode] using encoded.symm
  rw [bytes, decodeUtf8_chars]

/-- The characters of a text, by way of its bytes. -/
def characters (text : String) : List Char :=
  (decodeUtf8 (utf8 text)).getD []

@[simp] theorem characters_eq (text : String) : characters text = text.toList := by
  rw [characters, decodeUtf8_utf8, Option.getD_some]

/-- No character starts with this byte. -/
theorem decodeUtf8_mark (rest : Bytes) : decodeUtf8 (0xff :: rest) = none := by
  rcases rest with _ | ⟨second, _ | ⟨third, _ | ⟨fourth, rest⟩⟩⟩
  · rfl
  · rfl
  · rfl
  · have mark : (0xff : UInt8).toNat = 255 := rfl
    rw [decodeUtf8.eq_def]
    dsimp only
    rw [mark, if_neg (by decide), if_neg (by decide), if_neg (by decide)]
    cases continuation second with
    | none => rfl
    | some high =>
        cases continuation third with
        | none => rfl
        | some middle =>
            cases continuation fourth with
            | none => rfl
            | some low =>
                dsimp only [bind, Option.bind]
                exact if_neg (by omega)

end CeresMpc.Encoding
