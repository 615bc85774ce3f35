import CheckedFormat.Json.Value
import CheckedFormat.Text.Hex
/-! Writing JSON.

The compact form has no blank space. The indented form puts every item and member
on a line of its own, two blanks deeper than what holds it; an empty array or object
stays on one line. Quotes, backslashes and control characters are escaped and every
other character stands for itself. -/
namespace CheckedFormat
namespace Json

/-- The text of ASCII bytes. -/
def asciiText (bytes : List Byte) : String := String.ofList (bytes.map Byte.toChar)

def escapeChar (c : Char) : String :=
  match c with
  | '"' => "\\\""
  | '\\' => "\\\\"
  | '\n' => "\\n"
  | '\r' => "\\r"
  | '\t' => "\\t"
  | '\x08' => "\\b"
  | '\x0c' => "\\f"
  | c => if c.toNat < 32 then "\\u00" ++ Hex.padded 2 c.toNat else String.singleton c

def quote (s : String) : String :=
  (s.foldl (fun text c => text ++ escapeChar c) "\"") ++ "\""

def leafText : Value → String
  | .null => "null"
  | .bool b => if b then "true" else "false"
  | .number n => asciiText n.text
  | .string s => quote s
  | _ => ""

/-- Items between brackets, if there are any, each on a line of its own. -/
def block (opening closing : String) (indent : Nat) (items : List String) : String :=
  if items.isEmpty then opening ++ closing
  else
    let line := "\n" ++ String.ofList (List.replicate (2 * (indent + 1)) ' ')
    opening ++ line ++ (("," ++ line).intercalate items) ++ "\n" ++
      String.ofList (List.replicate (2 * indent) ' ') ++ closing

mutual

def Value.compact : Value → String
  | .array items => "[" ++ ",".intercalate (compactItems items) ++ "]"
  | .object members => "\x7b" ++ ",".intercalate (compactMembers members) ++ "\x7d"
  | v => leafText v

def compactItems : List Value → List String
  | [] => []
  | v :: rest => v.compact :: compactItems rest

def compactMembers : List (String × Value) → List String
  | [] => []
  | (key, v) :: rest => (quote key ++ ":" ++ v.compact) :: compactMembers rest

end

mutual

/-- The indented form, inside of `indent` arrays and objects. -/
def Value.indented (indent : Nat) : Value → String
  | .array items => block "[" "]" indent (indentedItems (indent + 1) items)
  | .object members => block "\x7b" "\x7d" indent (indentedMembers (indent + 1) members)
  | v => leafText v

def indentedItems (indent : Nat) : List Value → List String
  | [] => []
  | v :: rest => v.indented indent :: indentedItems indent rest

def indentedMembers (indent : Nat) : List (String × Value) → List String
  | [] => []
  | (key, v) :: rest => (quote key ++ ": " ++ v.indented indent) :: indentedMembers indent rest

end

/-- The indented form of a whole text. -/
def Value.pretty (v : Value) : String := v.indented 0

namespace Value

def ofNat (n : Nat) : Value := .number (.natural n)

def ofInt (n : Int) : Value :=
  .number (if n < 0 then .negative n.natAbs else .natural n.natAbs)

/-- The value, or null where there is none. -/
def ofOption (v : Option Value) : Value := v.getD .null

end Value

end Json
end CheckedFormat
