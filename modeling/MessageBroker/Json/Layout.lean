import MessageBroker.Text.Hex

/-!
# Laid out JSON text

The writing of JSON over several lines: every member of a record or list stands on a line of its
own, indented by two blanks more than the record or list itself.
-/

namespace MessageBroker.JsonLayout

/-- A character inside a text. -/
def character (c : Char) : String :=
  match c with
  | '"' => "\\\""
  | '\\' => "\\\\"
  | '\x08' => "\\b"
  | '\t' => "\\t"
  | '\n' => "\\n"
  | '\x0c' => "\\f"
  | '\r' => "\\r"
  | c => if c.toNat < 0x20 then "\\u" ++ hexDigits 4 c.toNat else String.singleton c

/-- A text between quotation marks. -/
def text (content : String) : String :=
  "\"" ++ String.join (content.toList.map character) ++ "\""

/-- A truth value. -/
def bool : Bool → String
  | true => "true"
  | false => "false"

/-- The blanks in front of a line at a depth. -/
def indent (depth : Nat) : String :=
  String.ofList (List.replicate (2 * depth) ' ')

/-- Lines at one more than a depth between an opening and a closing bracket; nothing stands
between the brackets if there are no lines. -/
def block (opening closing : String) (depth : Nat) : List String → String
  | [] => opening ++ closing
  | lines =>
    opening ++ "\n" ++ ",\n".intercalate (lines.map (indent (depth + 1) ++ ·)) ++ "\n" ++
      indent depth ++ closing

/-- A list at a depth. -/
def list (depth : Nat) (items : List String) : String :=
  block "[" "]" depth items

/-- A record at a depth, of keys and what stands under them. -/
def record (depth : Nat) (members : List (String × String)) : String :=
  block "\x7b" "\x7d" depth (members.map fun (key, value) => text key ++ ": " ++ value)

end MessageBroker.JsonLayout
