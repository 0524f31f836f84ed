import CeresMpc.Encoding.Encodings

/-!
# What the client takes from Dart

Errors, casts of decoded JSON, and the JSON codec of `dart:convert`. A decoded
map has each key once, and a missing key reads as `null`.
-/

set_option autoImplicit false

namespace CeresMpc.Client

open Encoding

/-- What a call of the host application can end with instead of a result. -/
inductive Thrown where
  /-- `MpcTransportException`. -/
  | transport (message method : String)
  /-- `MpcRpcException`. -/
  | rpc (code : Int) (message : String) (data : Json)
  /-- `MpcProtocolException`. -/
  | protocol (message : String) (round : Option Int)
  /-- A cast that failed. -/
  | typeError
  | argumentError (message : String)
  /-- Text that is no JSON. -/
  | formatException (message : String)
  /-- The `Err` of a Rust function, as the bridge throws it. -/
  | rust (message : String)

/-- `dart:convert`, and the text of an error. A number beyond 64 bits decodes to a `real`. -/
structure Convert where
  jsonEncode : Json → String
  jsonDecode : String → Except String Json
  describe : Thrown → String

/-- The decoder reads what the Rust side writes of its records. -/
def Convert.Reads (convert : Convert) (text : Encodings) : Prop :=
  ∀ members : List (String × Json), (Json.obj members).Flat → (members.map Prod.fst).Nodup →
    convert.jsonDecode (text.renderJson (.obj members)) = .ok (.obj members)

section Binds

variable {Value Final : Type}

@[simp] theorem ok_bind (value : Value) (next : Value → Except Thrown Final) : (.ok value >>= next) = next value := rfl

@[simp] theorem error_bind (error : Thrown) (next : Value → Except Thrown Final) :
    (.error error >>= next) = .error error := rfl

end Binds

/-! ## Casts -/

def asString : Json → Except Thrown String
  | .str value => .ok value
  | _ => .error .typeError

def asInt : Json → Except Thrown Int
  | .int value => .ok value
  | _ => .error .typeError

def asBool : Json → Except Thrown Bool
  | .bool value => .ok value
  | _ => .error .typeError

def asMap : Json → Except Thrown (List (String × Json))
  | .obj members => .ok members
  | _ => .error .typeError

/-- A cast to a nullable type. -/
def orNull {Value : Type} (cast : Json → Except Thrown Value) : Json → Except Thrown (Option Value)
  | .null => .ok none
  | value => some <$> cast value

/-- `jsonDecode(text) as Map<String, dynamic>`. -/
def decodeMap (convert : Convert) (text : String) : Except Thrown (List (String × Json)) :=
  match convert.jsonDecode text with
  | .ok value => asMap value
  | .error message => .error (.formatException message)

theorem decodeMap_written {convert : Convert} {text : Encodings} (reads : convert.Reads text)
    {members : List (String × Json)} (flat : (Json.obj members).Flat) (distinct : (members.map Prod.fst).Nodup) :
    decodeMap convert (text.renderJson (.obj members)) = .ok members := by
  rw [decodeMap, reads members flat distinct]
  rfl

/-! ## Key names -/

/-- `replaceAllMapped(RegExp(r'_([a-z])'), ..)` over the characters of a key. -/
def camelChars : List Char → List Char
  | [] => []
  | [c] => [c]
  | c :: next :: rest =>
      if c = '_' ∧ 'a' ≤ next ∧ next ≤ 'z' then next.toUpper :: camelChars rest
      else c :: camelChars (next :: rest)

def snakeToCamelKeys (map : List (String × Json)) : List (String × Json) :=
  map.map fun entry => (String.ofList (camelChars entry.1.toList), entry.2)

end CeresMpc.Client
