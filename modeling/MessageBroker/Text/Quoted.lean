import MessageBroker.Octets
import MessageBroker.Text.Hex

/-!
# Quoted text

Byte strings and texts between quotation marks, with escapes for what does not print.  Octets
outside printable ASCII are written `\xhh`; control characters of a text are written as
`\u` and their code point in braces.
-/

namespace MessageBroker

/-- The escapes that bytes and texts share. -/
def escape? : Char → Option String
  | '\n' => some "\\n"
  | '\r' => some "\\r"
  | '\t' => some "\\t"
  | '\\' => some "\\\\"
  | '"' => some "\\\""
  | '\x00' => some "\\0"
  | _ => none

/-- An octet inside a quoted byte string. -/
def quotedOctet (octet : UInt8) : String :=
  match escape? (Char.ofNat octet.toNat) with
  | some escape => escape
  | none =>
    if 0x20 ≤ octet ∧ octet ≤ 0x7e then String.singleton (Char.ofNat octet.toNat)
    else "\\x" ++ hexDigits 2 octet.toNat

/-- A byte string between `b"` and `"`. -/
def quotedBytes (bytes : Bytes) : String :=
  "b\"" ++ String.join (bytes.map quotedOctet) ++ "\""

/-- A character inside a quoted text. -/
def quotedChar (c : Char) : String :=
  match escape? c with
  | some escape => escape
  | none =>
    if c.toNat < 0x20 ∨ c.toNat = 0x7f then "\\u\x7b" ++ hexDigits 1 c.toNat ++ "\x7d"
    else String.singleton c

/-- A text between quotation marks. -/
def quotedText (text : String) : String :=
  "\"" ++ String.join (text.toList.map quotedChar) ++ "\""

end MessageBroker
