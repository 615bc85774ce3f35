import CheckedFormat.Host.Session
/-! Walking the arguments of a variadic call.

A call site lays its promoted arguments out as an array of descriptors. A callee
opens a list over them, reads it at the types that it wants, copies it and ends it,
each time by the handle of the list. -/
namespace CheckedFormat
namespace Host

/-- An argument as a call site lays it out. -/
structure RawArgument where
  /-- The number of its type. -/
  tag : Nat
  bits : Word
  deriving DecidableEq, Repr

/-- The arguments of a call site. -/
inductive ArgumentArray where
  /-- A null pointer, with the count that was passed along. -/
  | null (count : Nat)
  | at (arguments : List RawArgument)
  deriving DecidableEq, Repr

namespace RawArgument

/-- The argument as a slot, if its tag is that of a type. -/
def slot? (a : RawArgument) : Option Slot := (ArgumentType.ofTag? a.tag).map (⟨·, a.bits⟩)

end RawArgument

namespace ArgumentArray

/-- The slots of a well-formed array. -/
def slots? : ArgumentArray → Option (List Slot)
  | null count => if count = 0 then some [] else none
  | .at arguments => arguments.mapM RawArgument.slot?

/-- The list over a well-formed array, in a process of a level. -/
def list? (a : ArgumentArray) (level : CheckLevel) : Option ArgumentList :=
  a.slots?.map (.start level)

end ArgumentArray

namespace Session

variable {F D : Type}

/-- Opens a list and gives its handle, or zero. -/
def vaStart (arguments : ArgumentArray) : Call Nat F D := fun s =>
  match arguments.list? s.level with
  | none => fail Errno.invalidArgument null s
  | some list =>
    let (handle, lists) := s.lists.issue list
    (handle, { s with lists })

/-- Reads the next argument at a type; zero where that fails. -/
def vaArg (list : Nat) (type : ArgumentType) : Call Word F D :=
  withList list "va_arg" 0 fun arguments s =>
    let s := s.note (arguments.observe type)
    match arguments.next type with
    | .ok (bits, arguments) => (bits, arguments, s)
    | .error _ => (0, arguments, { s with errno := Errno.invalidArgument })

/-- Makes a copy of a list. -/
def copyOf (arguments : ArgumentList) (s : Session F D) :
    Option ArgumentList × ArgumentList × Session F D :=
  let s := s.note arguments.observeUse
  match arguments.copy with
  | .ok copy => (some copy, arguments, s)
  | .error _ => (none, arguments, { s with errno := Errno.invalidArgument })

/-- Opens a second list at the place of the first and gives its handle, or zero. -/
def vaCopy (list : Nat) : Call Nat F D := fun s =>
  match withList list "va_copy" none copyOf s with
  | (none, s) => (null, s)
  | (some copy, s) =>
    let (handle, lists) := s.lists.issue copy
    (handle, { s with lists })

/-- Ends a list. Ending it again is reported and is otherwise no error. -/
def vaEnd (list : Nat) : Call Unit F D := fun s =>
  match s.lists.find? list with
  | some arguments => ((), { s with lists := s.lists.remove list }.note arguments.observeUse)
  | none =>
    if s.wasIssued list then ((), noteStaleList list "va_end" s)
    else fail Errno.invalidArgument () s

end Session
end Host
end CheckedFormat
