import CeresMpc.Encoding.Hex

/-!
# JSON text

The compact writer and a reader of the full grammar, with the law that records
of the project read back as they were written.
-/

set_option autoImplicit false

namespace CeresMpc.Encoding.JsonText

/-! ## Writing -/

def escape (c : Char) : List Char :=
  if c = '"' then ['\\', '"']
  else if c = '\\' then ['\\', '\\']
  else if c.toNat = 8 then ['\\', 'b']
  else if c.toNat = 9 then ['\\', 't']
  else if c.toNat = 10 then ['\\', 'n']
  else if c.toNat = 12 then ['\\', 'f']
  else if c.toNat = 13 then ['\\', 'r']
  else if c.toNat < 32 then
    ['\\', 'u', '0', '0', hexDigit (UInt8.ofNat (c.toNat / 16)), hexDigit (UInt8.ofNat (c.toNat % 16))]
  else [c]

def writeString (text : String) : List Char :=
  '"' :: (text.toList.flatMap escape ++ ['"'])

def writeInt : Int → List Char
  | .ofNat magnitude => Nat.toDigits 10 magnitude
  | .negSucc predecessor => '-' :: Nat.toDigits 10 (predecessor + 1)

mutual

def write : Json → List Char
  | .null => ['n', 'u', 'l', 'l']
  | .bool true => ['t', 'r', 'u', 'e']
  | .bool false => ['f', 'a', 'l', 's', 'e']
  | .int value => writeInt value
  | .real mantissa exponent => writeInt mantissa ++ 'e' :: writeInt exponent
  | .str text => writeString text
  | .arr items => '[' :: (writeItems items ++ [']'])
  | .obj members => '{' :: (writeMembers members ++ ['}'])

def writeItems : List Json → List Char
  | [] => []
  | [item] => write item
  | item :: rest => write item ++ ',' :: writeItems rest

def writeMembers : List (String × Json) → List Char
  | [] => []
  | [(name, value)] => writeString name ++ ':' :: write value
  | (name, value) :: rest => writeString name ++ ':' :: (write value ++ ',' :: writeMembers rest)

end

/-! ## Reading -/

def skip : List Char → List Char
  | [] => []
  | c :: rest => if c = ' ' ∨ c = '\t' ∨ c = '\n' ∨ c = '\r' then skip rest else c :: rest

def simpleEscape (c : Char) : Option Nat :=
  if c = '"' ∨ c = '\\' ∨ c = '/' then some c.toNat
  else if c = 'b' then some 8
  else if c = 't' then some 9
  else if c = 'n' then some 10
  else if c = 'f' then some 12
  else if c = 'r' then some 13
  else none

def hexUnit (a b c d : Char) : Option Nat := do
  let first ← hexValue a
  let second ← hexValue b
  let third ← hexValue c
  let fourth ← hexValue d
  return ((first * 16 + second) * 16 + third) * 16 + fourth

/-- A string after its opening quote, as code units. -/
def units : List Char → Option (List Nat × List Char)
  | [] => none
  | c :: rest =>
      if c = '"' then some ([], rest)
      else if c = '\\' then
        match rest with
        | [] => none
        | e :: rest =>
            if e = 'u' then
              match rest with
              | a :: b :: c :: d :: rest => do
                  let unit ← hexUnit a b c d
                  let (others, after) ← units rest
                  return (unit :: others, after)
              | _ => none
            else do
              let unit ← simpleEscape e
              let (others, after) ← units rest
              return (unit :: others, after)
      else if c.toNat < 32 then none
      else do
        let (others, after) ← units rest
        return (c.toNat :: others, after)

/-- Surrogates come in pairs or not at all. -/
def scalars : List Nat → Option (List Char)
  | [] => some []
  | unit :: rest =>
      if 0xd800 ≤ unit ∧ unit < 0xdc00 then
        match rest with
        | [] => none
        | low :: rest =>
            if 0xdc00 ≤ low ∧ low < 0xe000 then do
              let others ← scalars rest
              return Char.ofNat (0x10000 + (unit - 0xd800) * 1024 + (low - 0xdc00)) :: others
            else none
      else if 0xdc00 ≤ unit ∧ unit < 0xe000 then none
      else do
        let others ← scalars rest
        return Char.ofNat unit :: others

def readString (input : List Char) : Option (String × List Char) := do
  let (code, rest) ← units input
  let chars ← scalars code
  return (String.ofList chars, rest)

def digits (input : List Char) : List Char × List Char :=
  (input.takeWhile Char.isDigit, input.dropWhile Char.isDigit)

def fraction : List Char → Option (List Char × List Char)
  | [] => some ([], [])
  | c :: rest =>
      if c = '.' then
        if (digits rest).1 = [] then none else some (digits rest)
      else some ([], c :: rest)

/-- The sign of an exponent may be a plus. -/
def signed : List Char → Int × List Char
  | [] => (1, [])
  | c :: rest => if c = '-' then (-1, rest) else if c = '+' then (1, rest) else (1, c :: rest)

def exponent : List Char → Option (Option Int × List Char)
  | [] => some (none, [])
  | c :: rest =>
      if c = 'e' ∨ c = 'E' then
        let (sign, unsigned) := signed rest
        let (whole, after) := digits unsigned
        if whole = [] then none else some (some (sign * Nat.ofDigitChars 10 whole 0), after)
      else some (none, c :: rest)

/-- A number without its sign. An integer beyond 64 bits is read as a float, and so is
a negative zero. -/
def magnitude (sign : Int) (input : List Char) : Option (Json × List Char) := do
  let (whole, rest) := digits input
  if whole = [] ∨ whole.head? = some '0' ∧ whole.length ≠ 1 then none
  else do
    let (part, rest) ← fraction rest
    let (power, rest) ← exponent rest
    let value := sign * Nat.ofDigitChars 10 (whole ++ part) 0
    if part = [] ∧ power = none ∧ -2 ^ 63 ≤ value ∧ value < 2 ^ 64 ∧ (sign = 1 ∨ value ≠ 0) then
      return (.int value, rest)
    else return (.real value (power.getD 0 - part.length), rest)

def number : List Char → Option (Json × List Char)
  | [] => none
  | c :: rest => if c = '-' then magnitude (-1) rest else magnitude 1 (c :: rest)

def keyword (word : List Char) (value : Json) (input : List Char) : Option (Json × List Char) :=
  if word.isPrefixOf input then some (value, input.drop word.length) else none

mutual

def readValue : Nat → List Char → Option (Json × List Char)
  | 0, _ => none
  | fuel + 1, input =>
      match skip input with
      | [] => none
      | c :: rest =>
          if c = '"' then do
            let (text, after) ← readString rest
            return (.str text, after)
          else if c = '[' then
            if (skip rest).head? = some ']' then some (.arr [], (skip rest).tail)
            else do
              let (items, after) ← readItems fuel rest
              return (.arr items, after)
          else if c = '{' then
            if (skip rest).head? = some '}' then some (.obj [], (skip rest).tail)
            else do
              let (members, after) ← readMembers fuel rest
              return (.obj members, after)
          else if c = 'n' then keyword ['n', 'u', 'l', 'l'] .null (c :: rest)
          else if c = 't' then keyword ['t', 'r', 'u', 'e'] (.bool true) (c :: rest)
          else if c = 'f' then keyword ['f', 'a', 'l', 's', 'e'] (.bool false) (c :: rest)
          else number (c :: rest)

def readItems : Nat → List Char → Option (List Json × List Char)
  | 0, _ => none
  | fuel + 1, input => do
      let (item, rest) ← readValue fuel input
      match skip rest with
      | [] => none
      | c :: rest =>
          if c = ']' then return ([item], rest)
          else if c = ',' then do
            let (others, after) ← readItems fuel rest
            return (item :: others, after)
          else none

def readMembers : Nat → List Char → Option (List (String × Json) × List Char)
  | 0, _ => none
  | fuel + 1, input =>
      match skip input with
      | [] => none
      | quote :: rest =>
          if quote = '"' then do
            let (name, rest) ← readString rest
            match skip rest with
            | [] => none
            | colon :: rest =>
                if colon = ':' then do
                  let (value, rest) ← readValue fuel rest
                  match skip rest with
                  | [] => none
                  | c :: rest =>
                      if c = '}' then return ([(name, value)], rest)
                      else if c = ',' then do
                        let (others, after) ← readMembers fuel rest
                        return ((name, value) :: others, after)
                      else none
                else none
          else none

end

/-- One value and nothing after it. Every call of the reader eats a character, so
the length of the text is fuel enough. -/
def read (input : List Char) : Except String Json :=
  match readValue (input.length + 1) input with
  | none => .error "invalid JSON"
  | some (value, rest) => if skip rest = [] then .ok value else .error "trailing characters"

/-! ## Strings -/

private theorem hexValue_ofNat {digit : Nat} (small : digit < 16) :
    hexValue (hexDigit (UInt8.ofNat digit)) = some digit := by
  have same : (UInt8.ofNat digit).toNat = digit := by
    rw [UInt8.toNat_ofNat']
    omega
  have read : hexValue (hexDigit (UInt8.ofNat digit)) = some (UInt8.ofNat digit).toNat :=
    hexValue_digit (by omega)
  rwa [same] at read

private theorem units_quote (rest : List Char) : units ('"' :: rest) = some ([], rest) := by
  rw [units.eq_def]
  rfl

private theorem units_plain {c : Char} (quote : c ≠ '"') (backslash : c ≠ '\\')
    (printable : ¬c.toNat < 32) (rest : List Char) :
    units (c :: rest) = (units rest).map fun read => (c.toNat :: read.1, read.2) := by
  rw [units.eq_def]
  simp only [quote, backslash, printable, if_false]
  cases units rest <;> rfl

private theorem units_simple {e : Char} {unit : Nat} (simple : simpleEscape e = some unit)
    (rest : List Char) :
    units ('\\' :: e :: rest) = (units rest).map fun read => (unit :: read.1, read.2) := by
  have notHex : e ≠ 'u' := by
    rintro rfl
    have noEscape : simpleEscape 'u' = none := rfl
    rw [noEscape] at simple
    cases simple
  rw [units.eq_def]
  simp only [notHex, simple, if_false]
  cases units rest <;> rfl

private theorem units_hex {a b c d : Char} {unit : Nat} (hex : hexUnit a b c d = some unit)
    (rest : List Char) :
    units ('\\' :: 'u' :: a :: b :: c :: d :: rest) =
      (units rest).map fun read => (unit :: read.1, read.2) := by
  rw [units.eq_def]
  simp only [hex]
  cases units rest <;> rfl

/-- One character, escaped or not, is one code unit. -/
theorem units_escape (c : Char) (tail : List Char) :
    units (escape c ++ tail) = (units tail).map fun read => (c.toNat :: read.1, read.2) := by
  unfold escape
  split_ifs with quote backslash backspace tab newline feed carriage control
  · subst quote
    exact units_simple rfl tail
  · subst backslash
    exact units_simple rfl tail
  · rw [backspace]
    exact units_simple rfl tail
  · rw [tab]
    exact units_simple rfl tail
  · rw [newline]
    exact units_simple rfl tail
  · rw [feed]
    exact units_simple rfl tail
  · rw [carriage]
    exact units_simple rfl tail
  · refine units_hex ?_ tail
    have zero : hexValue '0' = some 0 := by decide
    have whole : c.toNat / 16 * 16 + c.toNat % 16 = c.toNat := by omega
    simp [hexUnit, zero, hexValue_ofNat (show c.toNat / 16 < 16 by omega),
      hexValue_ofNat (show c.toNat % 16 < 16 by omega), whole]
  · exact units_plain quote backslash control tail

theorem units_written (chars rest : List Char) :
    units (chars.flatMap escape ++ '"' :: rest) = some (chars.map Char.toNat, rest) := by
  induction chars with
  | nil => exact units_quote rest
  | cons c chars ih => simp [units_escape, ih]

theorem scalars_chars (chars : List Char) : scalars (chars.map Char.toNat) = some chars := by
  induction chars with
  | nil => rfl
  | cons c chars ih =>
      have valid : c.toNat < 0xd800 ∨ 0xdfff < c.toNat ∧ c.toNat < 0x110000 := c.valid
      have noHigh : ¬(0xd800 ≤ c.toNat ∧ c.toNat < 0xdc00) := by omega
      have noLow : ¬(0xdc00 ≤ c.toNat ∧ c.toNat < 0xe000) := by omega
      rw [List.map_cons, scalars.eq_def]
      simp [noHigh, noLow, ih]

theorem readString_written (text : String) (rest : List Char) :
    readString (text.toList.flatMap escape ++ '"' :: rest) = some (text, rest) := by
  simp [readString, units_written, scalars_chars]

/-! ## Numbers -/

/-- What may come after a value inside an array or an object. -/
def Delimited (rest : List Char) : Prop :=
  ∀ c, rest.head? = some c → c = ',' ∨ c = ']' ∨ c = '}'

private theorem digits_written (whole : Nat) {rest : List Char} (delimited : Delimited rest) :
    digits (Nat.toDigits 10 whole ++ rest) = (Nat.toDigits 10 whole, rest) := by
  have numeric : ∀ c ∈ Nat.toDigits 10 whole, c.isDigit = true := fun c member =>
    Nat.isDigit_of_mem_toDigits (by decide) (by decide) member
  have stops : rest.takeWhile Char.isDigit = [] ∧ rest.dropWhile Char.isDigit = rest := by
    cases rest with
    | nil => exact ⟨rfl, rfl⟩
    | cons c rest => rcases delimited c rfl with rfl | rfl | rfl <;> exact ⟨rfl, rfl⟩
  simp [digits, List.takeWhile_append_of_pos numeric, List.dropWhile_append_of_pos numeric, stops]

private theorem plain_number {rest : List Char} (delimited : Delimited rest) :
    fraction rest = some ([], rest) ∧ exponent rest = some (none, rest) := by
  cases rest with
  | nil => exact ⟨rfl, rfl⟩
  | cons c rest => rcases delimited c rfl with rfl | rfl | rfl <;> exact ⟨rfl, rfl⟩

private theorem eq_zero_of_leading {whole : Nat}
    (leading : (Nat.toDigits 10 whole).head? = some '0') : whole = 0 := by
  induction whole using Nat.strongRecOn with
  | ind whole ih =>
      rcases Nat.lt_or_ge whole 10 with small | large
      · have single : ∀ digit < 10, [Nat.digitChar digit].head? = some '0' → digit = 0 := by decide
        rw [Nat.toDigits_of_lt_base small] at leading
        exact single whole small leading
      · have nonempty : Nat.toDigits 10 (whole / 10) ≠ [] := Nat.toDigits_ne_nil
        rw [Nat.toDigits_of_base_le (by decide) large, List.head?_append_of_ne_nil _ nonempty] at leading
        have smaller := ih (whole / 10) (by omega) leading
        omega

private theorem magnitude_written (sign : Int) (whole : Nat) {rest : List Char}
    (delimited : Delimited rest) (inRange : -2 ^ 63 ≤ sign * whole ∧ sign * whole < 2 ^ 64)
    (signed : sign = 1 ∨ sign * whole ≠ 0) :
    magnitude sign (Nat.toDigits 10 whole ++ rest) = some (.int (sign * whole), rest) := by
  have canonical : ¬(Nat.toDigits 10 whole = [] ∨
      (Nat.toDigits 10 whole).head? = some '0' ∧ (Nat.toDigits 10 whole).length ≠ 1) := by
    rintro (empty | ⟨leading, long⟩)
    · exact Nat.toDigits_ne_nil empty
    · rw [eq_zero_of_leading leading] at long
      exact long rfl
  have value : Nat.ofDigitChars 10 (Nat.toDigits 10 whole) 0 = whole :=
    Nat.ofDigitChars_toDigits (by decide) (by decide)
  obtain ⟨noFraction, noExponent⟩ := plain_number delimited
  rw [magnitude, digits_written whole delimited]
  dsimp only
  rw [if_neg canonical, noFraction]
  dsimp only [bind, Option.bind]
  rw [noExponent, List.append_nil, value]
  exact if_pos ⟨rfl, rfl, inRange.1, inRange.2, signed⟩

theorem number_written {value : Int} (inRange : -2 ^ 63 ≤ value ∧ value < 2 ^ 63) {rest : List Char}
    (delimited : Delimited rest) : number (writeInt value ++ rest) = some (.int value, rest) := by
  cases value with
  | ofNat whole =>
      have bound : (whole : Int) < 2 ^ 63 := inRange.2
      have read := magnitude_written 1 whole delimited (by omega) (.inl rfl)
      rw [Int.one_mul] at read
      obtain ⟨c, more, text⟩ := List.exists_cons_of_ne_nil (Nat.toDigits_ne_nil (n := whole) (b := 10))
      have unsigned : c ≠ '-' := by
        rintro rfl
        have numeric := Nat.isDigit_of_mem_toDigits (n := whole) (by decide) (by decide)
          (text ▸ List.mem_cons_self)
        exact absurd numeric (by decide)
      rw [writeInt]
      rw [text] at read ⊢
      rw [List.cons_append, number, if_neg unsigned]
      exact read
  | negSucc predecessor =>
      have same : (-1 : Int) * (predecessor + 1 : Nat) = Int.negSucc predecessor := by omega
      have read := magnitude_written (-1) (predecessor + 1) delimited (by omega) (.inr (by omega))
      rw [writeInt, List.cons_append, number, if_pos rfl, read, same]

/-! ## Values -/

/-- The reader takes a written value off the front of a text, given fuel beyond its
length. -/
def Reads (value : Json) : Prop :=
  ∀ fuel rest, (write value).length < fuel → Delimited rest →
    readValue fuel (write value ++ rest) = some (value, rest)

/-- A character that starts a value. -/
def Opens (c : Char) : Prop :=
  c = '"' ∨ c = '[' ∨ c = '{' ∨ c = 'n' ∨ c = 't' ∨ c = 'f' ∨ c = '-' ∨ c.isDigit = true

private theorem not_space {c : Char} (opens : Opens c) :
    ¬(c = ' ' ∨ c = '\t' ∨ c = '\n' ∨ c = '\r') := by
  rintro (rfl | rfl | rfl | rfl) <;> revert opens <;> unfold Opens <;> decide

private theorem skip_opens {c : Char} (opens : Opens c) (rest : List Char) :
    skip (c :: rest) = c :: rest :=
  if_neg (not_space opens)

theorem writeInt_head (value : Int) :
    ∃ c more, writeInt value = c :: more ∧ (c = '-' ∨ c.isDigit = true) := by
  cases value with
  | negSucc predecessor => exact ⟨'-', _, rfl, .inl rfl⟩
  | ofNat whole =>
      obtain ⟨c, more, text⟩ := List.exists_cons_of_ne_nil (Nat.toDigits_ne_nil (n := whole) (b := 10))
      exact ⟨c, more, text, .inr (Nat.isDigit_of_mem_toDigits (n := whole) (by decide) (by decide)
        (text ▸ List.mem_cons_self))⟩

theorem write_head (value : Json) : ∃ c more, write value = c :: more ∧ Opens c := by
  cases value with
  | null => exact ⟨'n', _, rfl, by simp [Opens]⟩
  | bool value => cases value <;> exact ⟨_, _, rfl, by simp [Opens]⟩
  | int value =>
      obtain ⟨c, more, text, opens⟩ := writeInt_head value
      exact ⟨c, more, by rw [write, text], by simp [Opens, opens]⟩
  | real mantissa exponent =>
      obtain ⟨c, more, text, opens⟩ := writeInt_head mantissa
      exact ⟨c, _, by rw [write, text, List.cons_append], by simp [Opens, opens]⟩
  | str text => exact ⟨'"', _, rfl, by simp [Opens]⟩
  | arr items => exact ⟨'[', _, rfl, by simp [Opens]⟩
  | obj members => exact ⟨'{', _, rfl, by simp [Opens]⟩

theorem reads_null : Reads .null := by
  intro fuel rest enough _
  obtain ⟨fuel, rfl⟩ := Nat.exists_eq_add_one_of_ne_zero (Nat.ne_zero_of_lt enough)
  rfl

theorem reads_bool (value : Bool) : Reads (.bool value) := by
  intro fuel rest enough _
  obtain ⟨fuel, rfl⟩ := Nat.exists_eq_add_one_of_ne_zero (Nat.ne_zero_of_lt enough)
  cases value <;> rfl

theorem reads_str (text : String) : Reads (.str text) := by
  intro fuel rest enough _
  obtain ⟨fuel, rfl⟩ := Nat.exists_eq_add_one_of_ne_zero (Nat.ne_zero_of_lt enough)
  have read := readString_written text rest
  rw [write, writeString, List.cons_append, List.append_assoc, List.singleton_append, readValue]
  change (do
    let (text, after) ← readString (text.toList.flatMap escape ++ '"' :: rest)
    return (Json.str text, after)) = _
  rw [read]
  rfl

theorem reads_int {value : Int} (inRange : -2 ^ 63 ≤ value ∧ value < 2 ^ 63) : Reads (.int value) := by
  intro fuel rest enough delimited
  obtain ⟨fuel, rfl⟩ := Nat.exists_eq_add_one_of_ne_zero (Nat.ne_zero_of_lt enough)
  have read := number_written inRange delimited
  obtain ⟨c, more, text, opens⟩ := writeInt_head value
  have solid : Opens c := by simp [Opens, opens]
  have other : c ≠ '"' ∧ c ≠ '[' ∧ c ≠ '{' ∧ c ≠ 'n' ∧ c ≠ 't' ∧ c ≠ 'f' := by
    refine ⟨?_, ?_, ?_, ?_, ?_, ?_⟩ <;> rintro rfl <;> revert opens <;> decide
  obtain ⟨quote, bracket, brace, nul, tru, fals⟩ := other
  rw [text] at read
  rw [write, text, List.cons_append, readValue, skip_opens solid]
  dsimp only
  rw [if_neg quote, if_neg bracket, if_neg brace, if_neg nul, if_neg tru, if_neg fals]
  exact read

/-! ## Arrays and objects -/

private theorem skip_end {c : Char} (ends : c = ',' ∨ c = ']' ∨ c = '}' ∨ c = ':') (rest : List Char) :
    skip (c :: rest) = c :: rest := by
  rcases ends with rfl | rfl | rfl | rfl <;> rfl

private theorem writeItems_cons (item next : Json) (others : List Json) :
    writeItems (item :: next :: others) = write item ++ ',' :: writeItems (next :: others) := by
  rw [writeItems]
  simp

theorem readItems_written {items : List Json} (nonempty : items ≠ [])
    (read : ∀ item ∈ items, Reads item) :
    ∀ fuel rest, (writeItems items).length + 1 < fuel →
      readItems fuel (writeItems items ++ ']' :: rest) = some (items, rest) := by
  induction items with
  | nil => exact absurd rfl nonempty
  | cons item others ih =>
      intro fuel rest enough
      obtain ⟨fuel, rfl⟩ := Nat.exists_eq_add_one_of_ne_zero (Nat.ne_zero_of_lt enough)
      have first := read item List.mem_cons_self fuel
      cases others with
      | nil =>
          rw [writeItems] at enough ⊢
          rw [readItems, first (']' :: rest) (by omega) (by simp [Delimited])]
          rfl
      | cons next others =>
          rw [writeItems_cons] at enough ⊢
          simp only [List.length_append, List.length_cons] at enough
          have later := ih (by simp) (fun item member => read item (List.mem_cons_of_mem _ member))
            fuel rest (by omega)
          rw [List.append_assoc, List.cons_append, readItems, first _ (by omega) (by simp [Delimited])]
          dsimp only [bind, Option.bind]
          rw [skip_end (by simp)]
          dsimp only
          rw [if_neg (by decide), if_pos rfl, later]
          rfl

private theorem writeItems_head (item : Json) (others : List Json) :
    ∃ c more, writeItems (item :: others) = c :: more ∧ Opens c := by
  obtain ⟨c, more, text, opens⟩ := write_head item
  cases others with
  | nil => exact ⟨c, more, by rw [writeItems, text], opens⟩
  | cons next others =>
      exact ⟨c, more ++ ',' :: writeItems (next :: others), by rw [writeItems_cons, text]; rfl, opens⟩

theorem reads_arr {items : List Json} (read : ∀ item ∈ items, Reads item) : Reads (.arr items) := by
  intro fuel rest enough _
  obtain ⟨fuel, rfl⟩ := Nat.exists_eq_add_one_of_ne_zero (Nat.ne_zero_of_lt enough)
  rw [write] at enough ⊢
  cases items with
  | nil => rfl
  | cons item others =>
      simp only [List.length_cons, List.length_append, List.length_nil] at enough
      have body := readItems_written (by simp) read fuel rest (by omega)
      obtain ⟨c, more, text, opens⟩ := writeItems_head item others
      have unclosed : ¬(skip (writeItems (item :: others) ++ ']' :: rest)).head? = some ']' := by
        rw [text, List.cons_append, skip_opens opens]
        rintro ⟨⟩
        revert opens
        unfold Opens
        decide
      rw [List.cons_append, List.append_assoc, List.singleton_append, readValue]
      change (if (skip (writeItems (item :: others) ++ ']' :: rest)).head? = some ']' then _ else _) = _
      rw [if_neg unclosed, body]
      rfl

private theorem writeMembers_cons (name : String) (value : Json) (next : String × Json)
    (others : List (String × Json)) :
    writeMembers ((name, value) :: next :: others) =
      writeString name ++ ':' :: (write value ++ ',' :: writeMembers (next :: others)) := by
  rw [writeMembers]
  simp

private theorem readMembers_cons {fuel : Nat} {name : String} {value : Json} {rest : List Char}
    (read : readValue fuel (write value ++ rest) = some (value, rest)) :
    readMembers (fuel + 1) (writeString name ++ ':' :: (write value ++ rest)) =
      match skip rest with
      | [] => none
      | c :: rest =>
          if c = '}' then some ([(name, value)], rest)
          else if c = ',' then do
            let (others, after) ← readMembers fuel rest
            return ((name, value) :: others, after)
          else none := by
  have named := readString_written name (':' :: (write value ++ rest))
  rw [writeString, List.cons_append, List.append_assoc, List.singleton_append, readMembers]
  change (do
    let (name, rest) ← readString (name.toList.flatMap escape ++ '"' :: ':' :: (write value ++ rest))
    _) = _
  rw [named]
  dsimp only [bind, Option.bind]
  rw [skip_end (by simp)]
  dsimp only
  rw [if_pos rfl, read]
  rfl

theorem readMembers_written {members : List (String × Json)} (nonempty : members ≠ [])
    (read : ∀ entry ∈ members, Reads entry.2) :
    ∀ fuel rest, (writeMembers members).length + 1 < fuel →
      readMembers fuel (writeMembers members ++ '}' :: rest) = some (members, rest) := by
  induction members with
  | nil => exact absurd rfl nonempty
  | cons entry others ih =>
      intro fuel rest enough
      obtain ⟨fuel, rfl⟩ := Nat.exists_eq_add_one_of_ne_zero (Nat.ne_zero_of_lt enough)
      obtain ⟨name, value⟩ := entry
      have first : ∀ rest, (write value).length < fuel → Delimited rest →
          readValue fuel (write value ++ rest) = some (value, rest) :=
        read (name, value) List.mem_cons_self fuel
      cases others with
      | nil =>
          rw [writeMembers] at enough ⊢
          simp only [List.length_append, List.length_cons] at enough
          rw [List.append_assoc, List.cons_append,
            readMembers_cons (first ('}' :: rest) (by omega) (by simp [Delimited]))]
          rfl
      | cons next others =>
          rw [writeMembers_cons] at enough ⊢
          simp only [List.length_append, List.length_cons] at enough
          have later := ih (by simp) (fun entry member => read entry (List.mem_cons_of_mem _ member))
            fuel rest (by omega)
          rw [List.append_assoc, List.cons_append, List.append_assoc, List.cons_append,
            readMembers_cons (first _ (by omega) (by simp [Delimited])), skip_end (by simp)]
          dsimp only
          rw [if_neg (by decide), if_pos rfl, later]
          rfl

theorem reads_obj {members : List (String × Json)} (read : ∀ entry ∈ members, Reads entry.2) :
    Reads (.obj members) := by
  intro fuel rest enough _
  obtain ⟨fuel, rfl⟩ := Nat.exists_eq_add_one_of_ne_zero (Nat.ne_zero_of_lt enough)
  rw [write] at enough ⊢
  cases members with
  | nil => rfl
  | cons entry others =>
      simp only [List.length_cons, List.length_append, List.length_nil] at enough
      have body := readMembers_written (by simp) read fuel rest (by omega)
      have unclosed : ¬(skip (writeMembers (entry :: others) ++ '}' :: rest)).head? = some '}' := by
        obtain ⟨name, value⟩ := entry
        cases others with
        | nil =>
            rw [writeMembers, writeString, List.cons_append, List.cons_append,
              skip_opens (by simp [Opens])]
            rintro ⟨⟩
        | cons next others =>
            rw [writeMembers_cons, writeString, List.cons_append, List.cons_append,
              skip_opens (by simp [Opens])]
            rintro ⟨⟩
      rw [List.cons_append, List.append_assoc, List.singleton_append, readValue]
      change (if (skip (writeMembers (entry :: others) ++ '}' :: rest)).head? = some '}' then _ else _) = _
      rw [if_neg unclosed, body]
      rfl

/-! ## Records of the project -/

theorem reads_plain {value : Json} (plain : value.Plain) : Reads value := by
  cases value with
  | null => exact reads_null
  | bool value => exact reads_bool value
  | int value => exact reads_int plain
  | real mantissa exponent => exact plain.elim
  | str text => exact reads_str text
  | arr items =>
      refine reads_arr fun item member => ?_
      obtain ⟨text, rfl⟩ := plain item member
      exact reads_str text
  | obj members => exact plain.elim

theorem read_written {value : Json} (flat : value.Flat) : read (write value) = .ok value := by
  obtain ⟨members, rfl⟩ : ∃ members, value = .obj members := by
    cases value with
    | obj members => exact ⟨members, rfl⟩
    | _ => exact flat.elim
  have reads := reads_obj (fun entry member => reads_plain (flat entry member))
    ((write (.obj members)).length + 1) [] (by omega) (by simp [Delimited])
  rw [List.append_nil] at reads
  rw [JsonText.read, reads]
  rfl

end CeresMpc.Encoding.JsonText
