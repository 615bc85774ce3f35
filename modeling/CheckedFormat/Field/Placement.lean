import CheckedFormat.Directive.Print
/-! Placing a body in a field.

A body is what a value says, in two parts: a lead (a sign or a radix mark) and the
rest. A field as wide as its body or narrower is the body; a wider one is filled
with blanks on one side, or with zeros behind the lead where the body takes them. -/
namespace CheckedFormat

/-- What a value says, without any padding for width. -/
structure Body where
  /-- The sign or radix mark, which zeros come behind. -/
  lead : List Byte
  rest : List Byte
  /-- Whether the `0` flag may fill the field with zeros. -/
  takesZeros : Bool
  deriving DecidableEq, Repr

namespace Body

/-- A body that is only ever filled with blanks. -/
def plain (bytes : List Byte) : Body := ⟨[], bytes, false⟩

def bytes (b : Body) : List Byte := b.lead ++ b.rest

def length (b : Body) : Nat := b.lead.length + b.rest.length

/-- The field of at least `width` bytes that holds the body. -/
def place (b : Body) (flags : Flags) (width : Nat) : List Byte :=
  let fill := width - b.length
  if flags.left then b.lead ++ b.rest ++ List.replicate fill 32
  else if flags.zero && b.takesZeros then b.lead ++ List.replicate fill 48 ++ b.rest
  else List.replicate fill 32 ++ b.lead ++ b.rest

/-- The field that a layout gives the body; a width still to be taken from the
arguments is none. -/
def placeIn (b : Body) (layout : Layout) : List Byte := b.place layout.flags (layout.width.getD 0)

theorem length_place (b : Body) (flags : Flags) (width : Nat) :
    (b.place flags width).length = max b.length width := by
  unfold place
  have : b.length = b.lead.length + b.rest.length := rfl
  split
  · simp; omega
  · split <;> simp <;> omega

/-- A field of no width is its body. -/
theorem place_zero (b : Body) (flags : Flags) : b.place flags 0 = b.bytes := by
  simp [place, bytes]

end Body

namespace Flags

/-- The sign in front of a number: a minus, or what the flags ask for. -/
def sign (f : Flags) (negative : Bool) : List Byte :=
  if negative then ascii "-"
  else if f.plus then ascii "+"
  else if f.blank then ascii " "
  else []

end Flags
end CheckedFormat
