import CheckedFormat.Json.Number
import CheckedFormat.Keyed
import CheckedFormat.Text.Utf8
/-! JSON values, as they are written and as they are meant.

A text is read into a tree that still holds its strings and numbers as tokens
(`Tree`), by a machine that goes through the tokens once and keeps the open arrays
and objects on a stack. What a part of the tree means is decided where it is used:
a part that nobody wants may hold a number too large or half a character. A value
(`Value`) has its members sorted by key, and of two with one key the later one. -/
namespace CheckedFormat
namespace Json

/-- A JSON text with its tokens. -/
inductive Tree where
  | null
  | bool (b : Bool)
  | number (n : Numeral)
  | string (parts : List StringPart)
  | array (items : List Tree)
  | object (members : List (List StringPart × Tree))
  deriving Repr

namespace Tree

/-- An array or object that is still open, with what it holds so far, latest
first. -/
inductive Open where
  | array (items : List Tree)
  | object (members : List (List StringPart × Tree))
  /-- An object whose latest key waits for its value. -/
  | pending (members : List (List StringPart × Tree)) (key : List StringPart)

/-- What may come next. -/
inductive Expect where
  | value
  /-- A value, or the end of an array that has none. -/
  | firstValue
  | key
  /-- A key, or the end of an object that has none. -/
  | firstKey
  | colon
  /-- A comma or the end of the innermost array or object. -/
  | separator
  /-- Nothing: the text is complete. -/
  | nothing (result : Tree)

structure Machine where
  stack : List Open
  expect : Expect

namespace Machine

def initial : Machine := ⟨[], .value⟩

/-- Takes a value where one was expected. -/
def accept (stack : List Open) (t : Tree) : Option Machine :=
  match stack with
  | [] => some ⟨[], .nothing t⟩
  | .array items :: rest => some ⟨.array (t :: items) :: rest, .separator⟩
  | .pending members key :: rest => some ⟨.object ((key, t) :: members) :: rest, .separator⟩
  | .object _ :: _ => none

/-- Closes the innermost array. -/
def closeArray (stack : List Open) : Option Machine :=
  match stack with
  | .array items :: rest => accept rest (.array items.reverse)
  | _ => none

/-- Closes the innermost object. -/
def closeObject (stack : List Open) : Option Machine :=
  match stack with
  | .object members :: rest => accept rest (.object members.reverse)
  | _ => none

/-- Takes the token that a value starts with. -/
def begin (stack : List Open) (token : Token) : Option Machine :=
  match token with
  | .null => accept stack .null
  | .true => accept stack (.bool true)
  | .false => accept stack (.bool false)
  | .number n => accept stack (.number n)
  | .string parts => accept stack (.string parts)
  | .openArray => some ⟨.array [] :: stack, .firstValue⟩
  | .openObject => some ⟨.object [] :: stack, .firstKey⟩
  | _ => none

/-- Takes a key. -/
def takeKey (stack : List Open) (token : Token) : Option Machine :=
  match stack, token with
  | .object members :: rest, .string key => some ⟨.pending members key :: rest, .colon⟩
  | _, _ => none

/-- What follows a comma. -/
def afterComma (stack : List Open) : Option Machine :=
  match stack with
  | .array _ :: _ => some ⟨stack, .value⟩
  | .object _ :: _ => some ⟨stack, .key⟩
  | _ => none

def step (m : Machine) (token : Token) : Option Machine :=
  match m.expect, token with
  | .value, token => begin m.stack token
  | .firstValue, .closeArray => closeArray m.stack
  | .firstValue, token => begin m.stack token
  | .key, token => takeKey m.stack token
  | .firstKey, .closeObject => closeObject m.stack
  | .firstKey, token => takeKey m.stack token
  | .colon, .colon => some { m with expect := .value }
  | .separator, .comma => afterComma m.stack
  | .separator, .closeArray => closeArray m.stack
  | .separator, .closeObject => closeObject m.stack
  | _, _ => none

end Machine

/-- Reads a text that is one value and nothing else. -/
def parse? (text : List Byte) : Option Tree := do
  let m ← (← tokens? text).foldlM Machine.step Machine.initial
  match m.expect with
  | .nothing t => some t
  | _ => none

end Tree

/-! ### Strings -/

def isHighSurrogate (code : Nat) : Bool := 0xD800 ≤ code && code < 0xDC00

def isLowSurrogate (code : Nat) : Bool := 0xDC00 ≤ code && code < 0xE000

/-- The bytes of a character. -/
def charBytes (code : Nat) : List Byte := Utf8.encode (String.singleton (Char.ofNat code))

/-- The bytes of a string. Surrogates must come in pairs. -/
def stringBytes? : List StringPart → Option (List Byte)
  | [] => some []
  | .byte b :: rest => (stringBytes? rest).map (b :: ·)
  | .unit high :: .unit low :: rest =>
    if isHighSurrogate high then
      if isLowSurrogate low then
        (stringBytes? rest).map
          (charBytes (0x10000 + (high - 0xD800) * 0x400 + (low - 0xDC00)) ++ ·)
      else none
    else if isLowSurrogate high then none
    else (stringBytes? (.unit low :: rest)).map (charBytes high ++ ·)
  | .unit code :: rest =>
    if isHighSurrogate code || isLowSurrogate code then none
    else (stringBytes? rest).map (charBytes code ++ ·)

/-- The text of a string, if it is one. -/
def text? (parts : List StringPart) : Option String := do Utf8.decode? (← stringBytes? parts)

/-! ### Values -/

inductive Value where
  | null
  | bool (b : Bool)
  | number (n : Number)
  | string (s : String)
  | array (items : List Value)
  | object (members : List (String × Value))
  deriving Repr

namespace Value

/-- An object with members in any order. -/
def ofMembers (members : List (String × Value)) : Value :=
  .object (members.foldl (fun sorted (k, v) => Keyed.insert k v sorted) [])

end Value

/-- How deep arrays and objects may be nested where their meaning is asked for. -/
def depthLimit : Nat := 128

mutual

/-- What a tree means; fewer than `depth` arrays and objects may still be entered. -/
def Tree.value? (depth : Nat) : Tree → Option Value
  | .null => some .null
  | .bool b => some (.bool b)
  | .number n => n.value?.map .number
  | .string parts => (text? parts).map .string
  | .array items => if depth ≤ 1 then none else (itemValues? (depth - 1) items).map .array
  | .object members =>
    if depth ≤ 1 then none else (memberValues? (depth - 1) members).map Value.ofMembers

def itemValues? (depth : Nat) : List Tree → Option (List Value)
  | [] => some []
  | t :: rest => do return (← t.value? depth) :: (← itemValues? depth rest)

def memberValues? (depth : Nat) : List (List StringPart × Tree) → Option (List (String × Value))
  | [] => some []
  | (key, t) :: rest => do
    return (← text? key, ← t.value? depth) :: (← memberValues? depth rest)

end

end Json
end CheckedFormat
