import CheckedFormat.Argument.Slot
import CheckedFormat.Check.Level
import CheckedFormat.Check.Telemetry
/-! Reading the arguments of a variadic call in order.

An argument list is a cursor over the slots of a call. A read names the type it
wants and meets one of four things (`inspect`): the list has ended, there is no
slot, the slot has an incompatible type, or the slot matches. A checked list
refuses the first three, and then nothing about it changes; an unchecked one reads
zero bits past the end and takes any slot as it comes. What a read leaves in the
counters and the journal follows from the same inspection (`observe`). -/
namespace CheckedFormat

/-- A broken rule of argument lists. -/
inductive ArgumentError where
  | underrun (index count : Nat)
  | typeMismatch (index : Nat) (requested passed : ArgumentType)
  | useAfterEnd
  deriving DecidableEq, Repr

namespace ArgumentError

def message : ArgumentError → String
  | underrun index count =>
    s!"argument underrun: slot {index} requested but only {count} supplied"
  | typeMismatch index requested passed =>
    s!"argument type mismatch at slot {index}: requested {requested.name}, passed {passed.name}"
  | useAfterEnd => "va_list used after va_end"

def kind : ArgumentError → FaultKind
  | underrun .. => .argumentUnderrun
  | typeMismatch .. => .argumentTypeMismatch
  | useAfterEnd => .useAfterEnd

/-- The fault that reports the error. -/
def fault (e : ArgumentError) : Fault := ⟨e.kind, "va_arg", e.message⟩

/-- The counter of the rule. -/
def counter : ArgumentError → Counter
  | underrun .. => .underruns
  | typeMismatch .. => .typeMismatches
  | useAfterEnd => .usesAfterEnd

end ArgumentError

/-- A cursor over the slots of a call. -/
structure ArgumentList where
  slots : List Slot
  level : CheckLevel
  /-- The index of the next slot. -/
  cursor : Nat
  ended : Bool
  deriving DecidableEq, Repr

namespace ArgumentList

/-- The list at the start of a call. -/
def start (level : CheckLevel) (slots : List Slot) : ArgumentList := ⟨slots, level, 0, false⟩

def size (l : ArgumentList) : Nat := l.slots.length

/-- How many slots are yet to be read. -/
def remaining (l : ArgumentList) : Nat := l.size - l.cursor

def nextSlot? (l : ArgumentList) : Option Slot := l.slots[l.cursor]?

def advance (l : ArgumentList) : ArgumentList := { l with cursor := l.cursor + 1 }

/-- Whether the list was ended and minds. -/
def refusesUse (l : ArgumentList) : Bool := l.ended && l.level.reportsFaults

/-- What stands before a read at some type. -/
inductive Inspection where
  | ended
  | missing
  | mismatched (slot : Slot)
  | matching (slot : Slot)

def inspect (l : ArgumentList) (requested : ArgumentType) : Inspection :=
  if l.refusesUse then .ended
  else
    match l.nextSlot? with
    | none => .missing
    | some slot => if slot.type.compatible requested then .matching slot else .mismatched slot

/-- The rule that a read would break, if it breaks one. -/
def violation? (l : ArgumentList) (requested : ArgumentType) : Option ArgumentError :=
  match l.inspect requested with
  | .ended => some .useAfterEnd
  | .missing => some (.underrun l.cursor l.size)
  | .mismatched slot => some (.typeMismatch l.cursor requested slot.type)
  | .matching _ => none

/-- The bits of the next slot, zero past the last one. -/
def nextBits (l : ArgumentList) : Word := (l.nextSlot?.map (·.bits)).getD 0

/-- Reads the next argument at a type. -/
def next (l : ArgumentList) (requested : ArgumentType) : Except ArgumentError (Word × ArgumentList) :=
  match l.violation? requested with
  | some e => if l.level.reportsFaults then .error e else .ok (l.nextBits, l.advance)
  | none => .ok (l.nextBits, l.advance)

/-- A second cursor at the same place. A copy of an ended list is not ended. -/
def copy (l : ArgumentList) : Except ArgumentError ArgumentList :=
  if l.refusesUse then .error .useAfterEnd else .ok { l with ended := false }

/-- Ends the list. Ending it twice is a use after its end. -/
def finish (l : ArgumentList) : Except ArgumentError ArgumentList :=
  if l.refusesUse then .error .useAfterEnd else .ok { l with ended := true }

/-- Counts a broken rule, and journals it for a list that reports faults. -/
def noteViolation (l : ArgumentList) (e : ArgumentError) (t : Telemetry) : Telemetry :=
  let t := t.count e.counter
  if l.level.reportsFaults then t.record e.fault else t

/-- Counts a read that delivered a slot; one past the last slot delivers none. -/
def noteDelivery (l : ArgumentList) (t : Telemetry) : Telemetry :=
  if l.nextSlot?.isSome then t.count .argumentsRead else t

/-- What a read at a type leaves in the telemetry. -/
def observe (l : ArgumentList) (requested : ArgumentType) (t : Telemetry) : Telemetry :=
  match l.violation? requested with
  | some e =>
    let t := l.noteViolation e t
    if l.level.reportsFaults then t else l.noteDelivery t
  | none => l.noteDelivery t

/-- What copying or ending the list leaves in the telemetry. -/
def observeUse (l : ArgumentList) (t : Telemetry) : Telemetry :=
  if l.refusesUse then l.noteViolation .useAfterEnd t else t

end ArgumentList

/-- The arguments, the memory and the observations of one formatted call. -/
structure Frame (M : Type) where
  arguments : ArgumentList
  memory : M
  telemetry : Telemetry

namespace Frame

/-- Takes the next argument at a type. -/
def fetch {M : Type} (frame : Frame M) (requested : ArgumentType) :
    Except ArgumentError Word × Frame M :=
  let telemetry := frame.arguments.observe requested frame.telemetry
  match frame.arguments.next requested with
  | .ok (bits, arguments) => (.ok bits, { frame with arguments, telemetry })
  | .error e => (.error e, { frame with telemetry })

def note {M : Type} (frame : Frame M) (f : Telemetry → Telemetry) : Frame M :=
  { frame with telemetry := f frame.telemetry }

/-- Whether failures of the call are journaled. -/
def reportsFaults {M : Type} (frame : Frame M) : Bool := frame.arguments.level.reportsFaults

end Frame
end CheckedFormat
