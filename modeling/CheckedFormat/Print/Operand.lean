import CheckedFormat.Argument.Cursor
import CheckedFormat.Directive.Print
/-! What a printing directive asks of the arguments.

A conversion asks for one argument of a type that follows from its kind and its
length modifier, and narrows an integer to the modified size. -/
namespace CheckedFormat

/-- The kinds of values that directives print. -/
inductive OperandKind where
  | signed
  | unsigned
  | float
  | character
  | string
  | pointer
  /-- The address that the count of bytes so far goes to. -/
  | count
  deriving DecidableEq, Repr

namespace OperandKind

def ofConversion : Conversion → OperandKind
  | .d | .i => signed
  | .u | .o | .x | .X => unsigned
  | .f | .F | .e | .E | .g | .G => float
  | .c => character
  | .s => string
  | .p => pointer
  | .n | .a | .A => count

/-- The kind that a letter names; a letter that prints nothing means a count. -/
def ofLetter (letter : Byte) : OperandKind :=
  ((Conversion.ofLetter? letter).map ofConversion).getD count

/-- The type that the argument is read at. -/
def argumentType (kind : OperandKind) (length : LengthModifier) : ArgumentType :=
  match kind with
  | signed => if length.isWide then .long else .int
  | unsigned => if length.isWide then .unsignedLong else .unsignedInt
  | float => .double
  | character => .int
  | string | pointer | count => .pointer

end OperandKind

/-- A value to print. -/
inductive Operand where
  | signed (value : Int)
  | unsigned (value : Nat)
  | float (bits : Word)
  | character (b : Byte)
  | string (address : Nat)
  | pointer (address : Nat)
  | count (address : Nat)
  deriving DecidableEq, Repr

/-- The value that an argument's bits mean to a directive. An integer is narrowed to
the size of its length modifier. -/
def Operand.ofBits (kind : OperandKind) (length : LengthModifier) (bits : Word) : Operand :=
  match kind with
  | .signed => .signed (bits.setWidth (8 * length.integerSize)).toInt
  | .unsigned => .unsigned (bits.setWidth (8 * length.integerSize)).toNat
  | .float => .float bits
  | .character => .character bits.toNat.toUInt8
  | .string => .string bits.asAddress
  | .pointer => .pointer bits.asAddress
  | .count => .count bits.asAddress

namespace Frame

/-- Takes the argument that a directive prints. -/
def fetchOperand {M : Type} (frame : Frame M) (kind : OperandKind) (length : LengthModifier) :
    Except ArgumentError Operand × Frame M :=
  let (bits, frame) := frame.fetch (kind.argumentType length)
  (bits.map (Operand.ofBits kind length), frame)

end Frame
end CheckedFormat
