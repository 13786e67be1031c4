import MessageBroker.Json.Basic

/-!
# JSON text

The reading of JSON.  Every reader takes characters from the front of a text and gives what it
read and the characters that are left; it gives nothing if the text is not well formed.
-/

namespace MessageBroker.JsonValue

/-- The characters that may stand between the parts of a text. -/
def isBlank (c : Char) : Bool :=
  c = ' ' ∨ c = '\t' ∨ c = '\n' ∨ c = '\r'

/-- The characters after those that may be passed over. -/
def skipBlanks (chars : List Char) : List Char :=
  chars.dropWhile isBlank

/-- Takes the characters of a word. -/
def expect (word : List Char) (chars : List Char) : Option (List Char) :=
  if word.isPrefixOf chars then some (chars.drop word.length) else none

/-! ### Numbers -/

/-- Takes digits, of which there has to be one at least. -/
def readDigits (chars : List Char) : Option (List Char × List Char) :=
  match chars.span Char.isDigit with
  | ([], _) => none
  | (digits, rest) => some (digits, rest)

/-- The number that digits stand for. -/
def ofDigits (digits : List Char) : Nat :=
  digits.foldl (fun n digit => 10 * n + (digit.toNat - '0'.toNat)) 0

/-- Takes a fraction, if there is one. -/
def readFraction : List Char → Option (Bool × List Char)
  | '.' :: chars => (readDigits chars).map fun (_, rest) => (true, rest)
  | chars => some (false, chars)

/-- The characters after a sign, if there is one. -/
def skipSign : List Char → List Char
  | '+' :: chars => chars
  | '-' :: chars => chars
  | chars => chars

/-- Takes an exponent, if there is one. -/
def readExponent : List Char → Option (Bool × List Char)
  | 'e' :: chars => (readDigits (skipSign chars)).map fun (_, rest) => (true, rest)
  | 'E' :: chars => (readDigits (skipSign chars)).map fun (_, rest) => (true, rest)
  | chars => some (false, chars)

/-- Takes an unsigned number.  No further digit may follow a leading zero. -/
def readUnsigned (chars : List Char) : Option (Option Nat × List Char) := do
  let (digits, rest) ← readDigits chars
  if digits.head? = some '0' ∧ 1 < digits.length then none
  let (fraction, rest) ← readFraction rest
  let (exponent, rest) ← readExponent rest
  return (if fraction || exponent then none else some (ofDigits digits), rest)

/-- Takes a number. -/
def readNumber : List Char → Option (Option Nat × List Char)
  | '-' :: chars => (readUnsigned chars).map fun (_, rest) => (none, rest)
  | chars => readUnsigned chars

/-! ### Texts -/

/-- A part of a text: a character, or half of one beyond the sixteen-bit range. -/
inductive TextUnit where
  /-- A character. -/
  | char (c : Char)
  /-- The first half of a character, less its mark. -/
  | high (n : Nat)
  /-- The second half of a character, less its mark. -/
  | low (n : Nat)

/-- The unit that an escape by number stands for. -/
def TextUnit.ofNumber (n : Nat) : TextUnit :=
  if 0xd800 ≤ n ∧ n < 0xdc00 then .high (n - 0xd800)
  else if 0xdc00 ≤ n ∧ n < 0xe000 then .low (n - 0xdc00)
  else .char (Char.ofNat n)

/-- The characters that units make up; none if a half has no counterpart. -/
def join : List TextUnit → Option (List Char)
  | [] => some []
  | .char c :: units => (join units).map (c :: ·)
  | .high h :: .low l :: units => (join units).map (Char.ofNat (0x10000 + h * 0x400 + l) :: ·)
  | _ => none

/-- The value of a hexadecimal digit. -/
def hexValue? (c : Char) : Option Nat :=
  if '0' ≤ c ∧ c ≤ '9' then some (c.toNat - '0'.toNat)
  else if 'a' ≤ c ∧ c ≤ 'f' then some (c.toNat - 'a'.toNat + 10)
  else if 'A' ≤ c ∧ c ≤ 'F' then some (c.toNat - 'A'.toNat + 10)
  else none

/-- The value of four hexadecimal digits. -/
def hexNumber? (a b c d : Char) : Option Nat := do
  return (((← hexValue? a) * 16 + (← hexValue? b)) * 16 + (← hexValue? c)) * 16 + (← hexValue? d)

/-- The character that an escape by letter stands for. -/
def escaped? : Char → Option Char
  | '"' => some '"'
  | '\\' => some '\\'
  | '/' => some '/'
  | 'b' => some '\x08'
  | 'f' => some '\x0c'
  | 'n' => some '\n'
  | 'r' => some '\r'
  | 't' => some '\t'
  | _ => none

/-- Takes the units of a text, up to its closing quotation mark. -/
def readUnits : List Char → Option (List TextUnit × List Char)
  | '"' :: rest => some ([], rest)
  | '\\' :: 'u' :: a :: b :: c :: d :: rest => do
    let n ← hexNumber? a b c d
    let (units, rest) ← readUnits rest
    return (.ofNumber n :: units, rest)
  | '\\' :: letter :: rest => do
    let c ← escaped? letter
    let (units, rest) ← readUnits rest
    return (.char c :: units, rest)
  | c :: rest => do
    if c = '\\' ∨ c.toNat < 0x20 then none
    let (units, rest) ← readUnits rest
    return (.char c :: units, rest)
  | [] => none

/-- Takes a text, after its opening quotation mark. -/
def readText (chars : List Char) : Option (Option String × List Char) := do
  let (units, rest) ← readUnits chars
  return ((join units).map String.ofList, rest)

/-! ### Values -/

mutual

/-- Takes a value, at whose front there are no blanks. -/
def readValue : Nat → List Char → Option (JsonValue × List Char)
  | 0, _ => none
  | fuel + 1, chars =>
    match chars with
    | '{' :: rest =>
      match skipBlanks rest with
      | '}' :: rest => some (.object [], rest)
      | rest => do
        let (members, rest) ← readMembers fuel rest
        return (.object members, rest)
    | '[' :: rest =>
      match skipBlanks rest with
      | ']' :: rest => some (.array [], rest)
      | rest => do
        let (items, rest) ← readItems fuel rest
        return (.array items, rest)
    | '"' :: rest => do
      let (value, rest) ← readText rest
      return (.text value, rest)
    | 'n' :: rest => (expect ['u', 'l', 'l'] rest).map (.null, ·)
    | 't' :: rest => (expect ['r', 'u', 'e'] rest).map (.bool true, ·)
    | 'f' :: rest => (expect ['a', 'l', 's', 'e'] rest).map (.bool false, ·)
    | _ => do
      let (value, rest) ← readNumber chars
      return (.number value, rest)

/-- Takes the items of an array, up to its closing bracket. -/
def readItems : Nat → List Char → Option (List JsonValue × List Char)
  | 0, _ => none
  | fuel + 1, chars => do
    let (item, rest) ← readValue fuel chars
    match skipBlanks rest with
    | ']' :: rest => return ([item], rest)
    | ',' :: rest => do
      let (items, rest) ← readItems fuel (skipBlanks rest)
      return (item :: items, rest)
    | _ => none

/-- Takes the members of an object, up to its closing brace. -/
def readMembers : Nat → List Char → Option (List (Option String × JsonValue) × List Char)
  | 0, _ => none
  | fuel + 1, chars =>
    match chars with
    | '"' :: rest => do
      let (key, rest) ← readText rest
      let rest ← expect [':'] (skipBlanks rest)
      let (value, rest) ← readValue fuel (skipBlanks rest)
      match skipBlanks rest with
      | '}' :: rest => return ([(key, value)], rest)
      | ',' :: rest => do
        let (members, rest) ← readMembers fuel (skipBlanks rest)
        return ((key, value) :: members, rest)
      | _ => none
    | _ => none

end

/-- The value that a text holds, with nothing but blanks around it.  Every call of a reader
follows a character that was taken, or a call to a reader of a larger kind at the same place, so
that twice the number of characters bounds the depth of the calls. -/
def parse? (text : String) : Option JsonValue :=
  let chars := text.toList
  match readValue (2 * chars.length + 2) (skipBlanks chars) with
  | some (value, rest) => if (skipBlanks rest).isEmpty then some value else none
  | none => none

end MessageBroker.JsonValue
