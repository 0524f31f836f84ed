import CeresMpc.Encoding.Base64
import CeresMpc.Encoding.Hex
import CeresMpc.Encoding.JsonText

/-!
# Concrete encodings

JSON, base64 and hex as the engine's libraries write them. The JSON reader takes less than
`serde_json` does, which skips what stands in fields it ignores: here such a string, too, is well
formed (no lone surrogate escapes, no bytes that are not UTF-8).
-/

set_option autoImplicit false

namespace CeresMpc.Encoding

/-- `serde_json` on bytes, which have to be text. -/
def parseBytes (bytes : Bytes) : Except String Json := do
  let chars ← okOr "invalid unicode code point" (decodeUtf8 bytes)
  JsonText.read chars

def standard : Encodings :=
  { renderJson := fun value => String.ofList (JsonText.write value)
    parseJson := fun text => JsonText.read (characters text)
    parseJsonBytes := parseBytes
    mismatch := fun _ => "unexpected shape"
    encodeBase64, decodeBase64, encodeHex, decodeHex }

theorem standard_lawful : standard.Lawful :=
  { json := fun value flat => by simp [standard, JsonText.read_written flat]
    jsonBytes := fun value flat => by
      simp only [standard, parseBytes, decodeUtf8_utf8, okOr, bind, Except.bind,
        String.toList_ofList, JsonText.read_written flat]
    base64 := decodeBase64_encodeBase64
    hex := decodeHex_encodeHex }

theorem standard_canonicalBase64 : standard.CanonicalBase64 :=
  fun _ _ => encodeBase64_of_decodeBase64

/-- A byte string that starts with `0xff` is no JSON text. -/
theorem parseBytes_mark (rest : Bytes) (value : Json) : parseBytes (0xff :: rest) ≠ .ok value := by
  simp [parseBytes, decodeUtf8_mark, okOr, bind, Except.bind]

end CeresMpc.Encoding
