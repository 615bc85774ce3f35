import CheckedFormat.Field.Integer
/-! Fields of strings, characters and addresses. Only blanks fill them. -/
namespace CheckedFormat
namespace Field

/-- A string, cut to the precision. -/
def string (text : List Byte) (layout : Layout) : List Byte :=
  (Body.plain (text.take (layout.precision.getD text.length))).placeIn layout

def character (b : Byte) (layout : Layout) : List Byte := (Body.plain [b]).placeIn layout

/-- What stands for the null address. -/
def nullAddress : List Byte := ascii "(nil)"

/-- What stands for a null string. -/
def nullString : List Byte := ascii "(null)"

def addressText (address : Nat) : List Byte :=
  if address = 0 then nullAddress else Radix.hexLower.mark ++ Radix.hexLower.numeral address

def pointer (address : Nat) (layout : Layout) : List Byte :=
  (Body.plain (addressText address)).placeIn layout

/-- A null string, which is left out rather than cut. -/
def stringAtNull (layout : Layout) : List Byte :=
  match layout.precision with
  | .given places => string (if places < nullString.length then [] else nullString) layout
  | _ => string nullString layout

end Field
end CheckedFormat
