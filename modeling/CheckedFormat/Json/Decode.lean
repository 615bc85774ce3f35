import CheckedFormat.Json.Value
/-! Reading JSON trees at a type.

A record may be written as an object, whose unknown members are ignored and whose
known ones may come once, or as an array of all its fields in order. A choice may be
written by its name alone, or as an object with one member, the name. Everything
that is asked for counts towards the depth limit; what is ignored does not. -/
namespace CheckedFormat
namespace Json

/-- Reads a tree at a type, below a depth limit. -/
abbrev Reads (α : Type) := (depth : Nat) → Tree → Option α

namespace Reads

def string : Reads String
  | _, .string parts => text? parts
  | _, _ => none

/-- A whole number from `low` to `high`. -/
def int (low high : Int) : Reads Int
  | _, .number n =>
    match n.value? with
    | some (.natural n) => if (n : Int) ≤ high then some n else none
    | some (.negative n) => if low ≤ -(n : Int) then some (-n) else none
    | _ => none
  | _, _ => none

/-- A whole number up to `high`. -/
def nat (high : Nat) : Reads Nat := fun depth t => (int 0 high depth t).map Int.toNat

/-- A double, given by its bits; a whole number is rounded to one. -/
def double : Reads Word
  | _, .number n =>
    n.value?.map fun
      | .natural n => BitVec.ofNat 64 (nearestDouble ⟨n, 1⟩)
      | .negative n =>
        BitVec.ofNat 64 (FloatFormat.binary64.withSign true (nearestDouble ⟨n, 1⟩))
      | .float bits => bits
  | _, _ => none

def bool : Reads Bool
  | _, .bool b => some b
  | _, _ => none

/-- Any value. -/
def value : Reads Value := Tree.value?

/-- A value, or none where null stands. -/
def nullable {α : Type} (read : Reads α) : Reads (Option α)
  | _, .null => some none
  | depth, t => (read depth t).map some

/-- An array of values of one type. -/
def list {α : Type} (read : Reads α) : Reads (List α)
  | depth, .array items => if depth ≤ 1 then none else items.mapM (read (depth - 1))
  | _, _ => none

end Reads

/-- The fields of a record that are there, with the depth limit within it. -/
structure Fields where
  depth : Nat
  present : List (String × Tree)

namespace Fields

/-- Takes a member of a record with the given field names. -/
def takeMember (names : List String) (found : List (String × Tree))
    (entry : List StringPart × Tree) : Option (List (String × Tree)) := do
  let key ← text? entry.1
  if !names.contains key then return found
  else if found.any (·.1 == key) then none
  else return (key, entry.2) :: found

/-- The fields of a record with the given field names. -/
def of? (names : List String) (depth : Nat) : Tree → Option Fields
  | .object members =>
    if depth ≤ 1 then none else (members.foldlM (takeMember names) []).map (⟨depth - 1, ·⟩)
  | .array items =>
    if depth ≤ 1 ∨ items.length ≠ names.length then none
    else some ⟨depth - 1, names.zip items⟩
  | _ => none

def find? (f : Fields) (name : String) : Option Tree :=
  (f.present.find? (·.1 == name)).map (·.2)

/-- A field that must be there. -/
def required {α : Type} (f : Fields) (name : String) (read : Reads α) : Option α := do
  read f.depth (← f.find? name)

/-- A field with a value to use where it is missing. -/
def orElse {α : Type} (f : Fields) (name : String) (default : α) (read : Reads α) : Option α :=
  match f.find? name with
  | none => some default
  | some t => read f.depth t

/-- A field that may be missing or null. -/
def optional {α : Type} (f : Fields) (name : String) (read : Reads α) : Option (Option α) :=
  f.orElse name none (.nullable read)

end Fields

/-- A choice with what comes with it. -/
structure Choice where
  name : String
  depth : Nat
  /-- What the choice is made with, unless it is written by its name alone. -/
  payload : Option Tree

namespace Choice

def of? : Reads Choice
  | depth, .string parts => (text? parts).map fun name => ⟨name, depth, none⟩
  | depth, .object [(key, t)] =>
    if depth ≤ 1 then none else (text? key).map fun name => ⟨name, depth - 1, some t⟩
  | _, _ => none

/-- The choice has nothing with it. -/
def alone (c : Choice) : Option Unit :=
  match c.payload with
  | none | some .null => some ()
  | some _ => none

/-- What the choice is made with. -/
def made {α : Type} (c : Choice) (read : Reads α) : Option α := do read c.depth (← c.payload)

end Choice

/-- One of several choices that have nothing with them, by its name. -/
def Reads.named {α : Type} (all : List α) (name : α → String) : Reads α := fun depth t => do
  let c ← Choice.of? depth t
  c.alone
  all.find? (name · == c.name)

/-- Reads a text that is one value of a type. -/
def read? {α : Type} (read : Reads α) (text : List Byte) : Option α := do
  read depthLimit (← Tree.parse? text)

end Json
end CheckedFormat
