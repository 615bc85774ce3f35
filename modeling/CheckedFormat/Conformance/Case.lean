import CheckedFormat.Check.Level
import CheckedFormat.Errno
import CheckedFormat.Json.Decode
import CheckedFormat.Json.Printer
/-! Conformance cases and their written form.

A case is one formatted call with the output and the error number that the standard
asks for. A suite holds the cases of a family of functions and is written as JSON:
its parts are records with the fields in a fixed order, a value that is not there is
null, and an argument is written by its type. -/
namespace CheckedFormat
namespace Conformance

open Json (Value Fields Choice Reads)

/-- An object that a call stores to. -/
inductive Destination where
  | i8 | i16 | i32 | i64
  | u8 | u16 | u32 | u64
  | f32 | f64
  /-- Room for characters. -/
  | bytes
  deriving DecidableEq, Repr

namespace Destination

def all : List Destination := [i8, i16, i32, i64, u8, u16, u32, u64, f32, f64, bytes]

def name : Destination → String
  | i8 => "i8"
  | i16 => "i16"
  | i32 => "i32"
  | i64 => "i64"
  | u8 => "u8"
  | u16 => "u16"
  | u32 => "u32"
  | u64 => "u64"
  | f32 => "f32"
  | f64 => "f64"
  | bytes => "bytes"

/-- The bytes that the object takes. -/
def size : Destination → Nat
  | i8 | u8 => 1
  | i16 | u16 => 2
  | i32 | u32 | f32 => 4
  | i64 | u64 | f64 => 8
  | bytes => 64

end Destination

/-- An argument of a case, after promotion. -/
inductive CaseArgument where
  | int (v : Int)
  | unsignedInt (v : Nat)
  | long (v : Int)
  | unsignedLong (v : Nat)
  | double (bits : Word)
  /-- The address of a string. -/
  | string (s : String)
  /-- The address zero. -/
  | null
  /-- The address of a zeroed object, which is read back after the call. -/
  | destination (d : Destination)
  deriving DecidableEq, Repr

structure Case where
  name : String
  /-- The name of the function that is called. -/
  function : String
  /-- The clause of the standard that the case exercises. -/
  clause : String
  format : String
  arguments : List CaseArgument
  /-- The text that a scanning call reads. -/
  input : Option String
  /-- The size of the buffer that a printing call fills. -/
  bufferSize : Option Nat
  expectedOutput : String
  expectedErrno : Errno
  /-- The level at which the case is run, or the word for both. -/
  mode : String
  deriving DecidableEq, Repr

/-- The cases of a family of functions. -/
structure Suite where
  version : String
  family : String
  capturedAt : String
  cases : List Case
  deriving DecidableEq, Repr

/-! ### Reading -/

/-- A whole number of 32 bits. -/
def int32 : Reads Int := .int (-intMax - 1) intMax

def Destination.reads : Reads Destination := .named all name

def CaseArgument.reads : Reads CaseArgument := fun depth t => do
  let choice ← Choice.of? depth t
  match choice.name with
  | "int" => return int (← choice.made int32)
  | "uint" => return unsignedInt (← choice.made (.nat 0xFFFFFFFF))
  | "long" => return long (← choice.made (.int (-longMax - 1) longMax))
  | "ulong" => return unsignedLong (← choice.made (.nat wordMax))
  | "double" => return double (← choice.made .double)
  | "str" => return string (← choice.made .string)
  | "null" => do
    choice.alone
    return null
  | "out" => return destination (← choice.made Destination.reads)
  | _ => none

def Case.reads : Reads Case := fun depth t => do
  let f ← Fields.of?
    ["name", "function", "spec_section", "format", "args", "input", "buffer_size",
      "expected_output", "expected_errno", "mode"] depth t
  return {
    name := ← f.required "name" .string
    function := ← f.required "function" .string
    clause := ← f.required "spec_section" .string
    format := ← f.required "format" .string
    arguments := ← f.orElse "args" [] (.list CaseArgument.reads)
    input := ← f.optional "input" .string
    bufferSize := ← f.optional "buffer_size" (.nat wordMax)
    expectedOutput := ← f.required "expected_output" .string
    expectedErrno := ← f.orElse "expected_errno" 0 int32
    mode := ← f.required "mode" .string }

def Suite.reads : Reads Suite := fun depth t => do
  let f ← Fields.of? ["version", "family", "captured_at", "cases"] depth t
  return {
    version := ← f.required "version" .string
    family := ← f.required "family" .string
    capturedAt := ← f.required "captured_at" .string
    cases := ← f.required "cases" (.list Case.reads) }

/-- Reads the text of a suite. -/
def Suite.parse? (text : List Byte) : Option Suite := Json.read? reads text

/-! ### Writing -/

/-- An argument under the name of its type. -/
def tagged (name : String) (v : Value) : Value := .object [(name, v)]

def CaseArgument.json : CaseArgument → Value
  | int v => tagged "int" (.ofInt v)
  | unsignedInt v => tagged "uint" (.ofNat v)
  | long v => tagged "long" (.ofInt v)
  | unsignedLong v => tagged "ulong" (.ofNat v)
  | double bits => tagged "double" (.number (.float bits))
  | string s => tagged "str" (.string s)
  | null => .string "null"
  | destination d => tagged "out" (.string d.name)

def Case.json (c : Case) : Value :=
  .object [
    ("name", .string c.name),
    ("function", .string c.function),
    ("spec_section", .string c.clause),
    ("format", .string c.format),
    ("args", .array (c.arguments.map (·.json))),
    ("input", .ofOption (c.input.map .string)),
    ("buffer_size", .ofOption (c.bufferSize.map .ofNat)),
    ("expected_output", .string c.expectedOutput),
    ("expected_errno", .ofInt c.expectedErrno),
    ("mode", .string c.mode)]

def Suite.json (s : Suite) : Value :=
  .object [
    ("version", .string s.version),
    ("family", .string s.family),
    ("captured_at", .string s.capturedAt),
    ("cases", .array (s.cases.map (·.json)))]

/-! ### Levels -/

/-- Whether a case is run at a level. A mode that names no level means the strict one. -/
def Case.runsAt (c : Case) (level : CheckLevel) : Bool :=
  c.mode.map Char.toLower == "both" || CheckLevel.ofText c.mode == level

end Conformance
end CheckedFormat
