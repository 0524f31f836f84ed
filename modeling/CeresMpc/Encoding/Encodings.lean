import CeresMpc.Encoding.Json

/-!
# Text encodings

The encoding crates the engine links against, as one parameter, and the laws of
their documentation the development relies on.
-/

set_option autoImplicit false

namespace CeresMpc.Encoding

/-- The bytes of a string. -/
def utf8 (text : String) : Bytes := text.toUTF8.data.toList

variable {Value : Type}

/-- `map_err` with a text put before the error. -/
def mapErr (context : String) : Except String Value → Except String Value
  | .ok value => .ok value
  | .error message => .error (context ++ message)

def okOr (message : String) : Option Value → Except String Value
  | some value => .ok value
  | none => .error message

@[simp] theorem mapErr_eq_ok {context : String} {outcome : Except String Value} {value : Value} :
    mapErr context outcome = .ok value ↔ outcome = .ok value := by
  cases outcome <;> simp [mapErr]

@[simp] theorem okOr_eq_ok {message : String} {found : Option Value} {value : Value} :
    okOr message found = .ok value ↔ found = some value := by
  cases found <;> simp [okOr]

/-- Peel the first of two fallible computations off. -/
theorem bind_eq_ok {Failure Final : Type} {first : Except Failure Value} {next : Value → Except Failure Final}
    {result : Final} :
    (first >>= next) = .ok result ↔ ∃ value, first = .ok value ∧ next value = .ok result := by
  cases first <;> simp [bind, Except.bind]

/-- One item that cannot be read fails the whole list. -/
theorem mapM_fails {Final : Type} {read : Value → Except String Final} {items : List Value} {item : Value} {failure : String}
    (member : item ∈ items) (bad : read item = .error failure) : ∃ first, items.mapM read = .error first := by
  induction items with
  | nil => cases member
  | cons head rest ih =>
      rw [List.mapM_cons]
      cases decoded : read head with
      | error first => exact ⟨first, rfl⟩
      | ok value =>
          rcases List.mem_cons.mp member with rfl | later
          · rw [bad] at decoded
            cases decoded
          · obtain ⟨first, fails⟩ := ih later
            exact ⟨first, by rw [fails]; rfl⟩

/-- Readers return the text of their error on failure. -/
structure Encodings where
  renderJson : Json → String
  parseJson : String → Except String Json
  parseJsonBytes : Bytes → Except String Json
  /-- Error text for a JSON value that does not have the shape of the record read. -/
  mismatch : Json → String
  encodeBase64 : Bytes → String
  decodeBase64 : String → Except String Bytes
  encodeHex : Bytes → String
  decodeHex : String → Except String Bytes

namespace Encodings

/-- Every reader returns what its writer was given. -/
structure Lawful (text : Encodings) : Prop where
  json : ∀ value : Json, value.Flat → text.parseJson (text.renderJson value) = .ok value
  jsonBytes : ∀ value : Json, value.Flat →
    text.parseJsonBytes (utf8 (text.renderJson value)) = .ok value
  base64 : ∀ bytes, text.decodeBase64 (text.encodeBase64 bytes) = .ok bytes
  hex : ∀ bytes, text.decodeHex (text.encodeHex bytes) = .ok bytes

/-- The base64 reader takes nothing but what the writer writes. -/
def CanonicalBase64 (text : Encodings) : Prop :=
  ∀ input bytes, text.decodeBase64 input = .ok bytes → text.encodeBase64 bytes = input

variable (text : Encodings)

/-- `serde_json::from_str` into a record. -/
def fromStr (read : Json → Option Value) (input : String) : Except String Value :=
  match text.parseJson input with
  | .error message => .error message
  | .ok value =>
      match read value with
      | some record => .ok record
      | none => .error (text.mismatch value)

/-- `serde_json::from_slice` into a record. -/
def fromSlice (read : Json → Option Value) (input : Bytes) : Except String Value :=
  match text.parseJsonBytes input with
  | .error message => .error message
  | .ok value =>
      match read value with
      | some record => .ok record
      | none => .error (text.mismatch value)

variable {text}

theorem fromStr_renderJson (lawful : text.Lawful) {read : Json → Option Value}
    {value : Json} {record : Value} (flat : value.Flat) (readable : read value = some record) :
    text.fromStr read (text.renderJson value) = .ok record := by
  simp [fromStr, lawful.json value flat, readable]

theorem fromSlice_renderJson (lawful : text.Lawful) {read : Json → Option Value}
    {value : Json} {record : Value} (flat : value.Flat) (readable : read value = some record) :
    text.fromSlice read (utf8 (text.renderJson value)) = .ok record := by
  simp [fromSlice, lawful.jsonBytes value flat, readable]

end Encodings

end CeresMpc.Encoding
