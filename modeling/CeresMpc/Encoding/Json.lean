import Mathlib.Algebra.Group.Int.Defs
import Mathlib.Data.List.Basic

/-!
# JSON values

An object keeps every member in order, duplicates included, since the two sides
of the FFI boundary treat a repeated key differently. `real` is a number written
with a fraction or an exponent; no reader of the project accepts one as an
integer.
-/

set_option autoImplicit false

namespace CeresMpc.Encoding

abbrev Bytes := List UInt8

inductive Json where
  | null
  | bool (value : Bool)
  | int (value : Int)
  | real (mantissa exponent : Int)
  | str (value : String)
  | arr (items : List Json)
  | obj (members : List (String × Json))

namespace Json

/-! ## Reading records as derived deserializers do -/

/-- The members of a record. A derived reader also takes an array with one
element for each declared field. -/
def record (fields : List String) : Json → Option (List (String × Json))
  | .obj members => some members
  | .arr items => if items.length = fields.length then some (fields.zip items) else none
  | _ => none

/-- The outer option is a failed read (a repeated key), the inner one an absent key. -/
def member (members : List (String × Json)) (name : String) : Option (Option Json) :=
  match members.filter fun entry => entry.1 = name with
  | [] => some none
  | [entry] => some (some entry.2)
  | _ => none

def asStr : Json → Option String
  | .str value => some value
  | _ => none

def asUInt8 : Json → Option UInt8
  | .int value => if 0 ≤ value ∧ value < 256 then some (UInt8.ofNat value.toNat) else none
  | _ => none

def asInt32 : Json → Option Int32
  | .int value => if -2 ^ 31 ≤ value ∧ value < 2 ^ 31 then some (Int32.ofInt value) else none
  | _ => none

def asStrings : Json → Option (List String)
  | .arr items => items.mapM asStr
  | _ => none

@[simp] theorem asStrings_map (items : List String) : asStrings (.arr (items.map .str)) = some items := by
  rw [asStrings]
  induction items with
  | nil => rfl
  | cons item rest ih => simp [asStr, ih]

@[simp] theorem asUInt8_toNat (value : UInt8) : asUInt8 (.int value.toNat) = some value := by
  have bound := value.toNat_lt
  have byte : (0 : Int) ≤ value.toNat ∧ (value.toNat : Int) < 256 := by omega
  simp [asUInt8, byte]

@[simp] theorem asInt32_toInt (value : Int32) : asInt32 (.int value.toInt) = some value := by
  have low := value.le_toInt
  have high := value.toInt_lt
  rw [asInt32, if_pos ⟨by omega, by omega⟩, Int32.ofInt_toInt]

/-- A field without a default. -/
def required {Value : Type} (read : Json → Option Value) (members : List (String × Json))
    (name : String) : Option Value :=
  match member members name with
  | some (some value) => read value
  | _ => none

/-- An `Option` field: absent and `null` both read as `none`. -/
def optional {Value : Type} (read : Json → Option Value) (members : List (String × Json))
    (name : String) : Option (Option Value) :=
  match member members name with
  | some none | some (some .null) => some none
  | some (some value) => (read value).map some
  | none => none

/-- An `Option` field written even when it is `none`. -/
def nullable {Value : Type} (write : Value → Json) : Option Value → Json
  | some value => write value
  | none => .null

/-- An `Option` field left out when it is `none`. -/
def present {Value : Type} (write : Value → Json) (name : String) :
    Option Value → List (String × Json)
  | some value => [(name, write value)]
  | none => []

section Records

variable {Value : Type} {read : Json → Option Value} {write : Value → Json} {first second : List (String × Json)}
  {name : String}

theorem member_append_left (absent : ∀ entry ∈ second, entry.1 ≠ name) :
    member (first ++ second) name = member first name := by
  have unmatched : second.filter (fun entry => entry.1 = name) = [] :=
    List.filter_eq_nil_iff.mpr fun entry listed => by simpa using absent entry listed
  rw [member, member, List.filter_append, unmatched, List.append_nil]

theorem member_append_right (absent : ∀ entry ∈ first, entry.1 ≠ name) :
    member (first ++ second) name = member second name := by
  have unmatched : first.filter (fun entry => entry.1 = name) = [] :=
    List.filter_eq_nil_iff.mpr fun entry listed => by simpa using absent entry listed
  rw [member, member, List.filter_append, unmatched, List.nil_append]

theorem present_name {value : Option Value} {entry : String × Json} (listed : entry ∈ present write name value) :
    entry.1 = name := by
  cases value with
  | none => cases listed
  | some value => rw [List.mem_singleton.mp listed]

/-- A field that is left out when it is `none` is read back. -/
theorem optional_present (reads : ∀ value, read (write value) = some value) (solid : ∀ value, write value ≠ .null)
    (value : Option Value) : optional read (present write name value) name = some value := by
  cases value with
  | none => rfl
  | some value => simp [optional, present, member, reads, solid]

end Records

/-- Values every JSON library of the project reads back as they were written. -/
def Plain : Json → Prop
  | .null | .bool _ | .str _ => True
  | .int value => -2 ^ 63 ≤ value ∧ value < 2 ^ 63
  | .arr items => ∀ item ∈ items, ∃ text, item = .str text
  | .real .. | .obj _ => False

theorem plain_int32 (value : Int32) : (int value.toInt).Plain := by
  have low := value.le_toInt
  have high := value.toInt_lt
  simp only [Plain]
  omega

theorem plain_nullable (value : Option String) : (nullable .str value).Plain := by
  cases value <;> trivial

/-- Objects without nested objects, as all records of the project are. -/
def Flat : Json → Prop
  | .obj members => ∀ entry ∈ members, entry.2.Plain
  | _ => False

/-! ## Reading maps, where the last of several equal keys wins -/

def lookup (members : List (String × Json)) (name : String) : Option Json :=
  ((members.filter fun entry => entry.1 = name).getLast?).map (·.2)

/-- A missing key reads as `null`. -/
def get (members : List (String × Json)) (name : String) : Json :=
  (lookup members name).getD .null

@[simp] theorem lookup_nil (name : String) : lookup [] name = none := rfl

end Json

end CeresMpc.Encoding
