import CheckedFormat.Byte
/-! Numbers and bytes in hexadecimal. Digits are written in lower case and read in
either. -/
namespace CheckedFormat
namespace Hex

/-- A number without leading zeros. -/
def numeral (n : Nat) : String := String.ofList (Nat.toDigits 16 n)

/-- A number with zeros in front up to a number of digits. -/
def padded (digits n : Nat) : String :=
  let numeral := Nat.toDigits 16 n
  String.ofList (List.replicate (digits - numeral.length) '0' ++ numeral)

/-- Two digits for every byte. -/
def ofBytes (bytes : List Byte) : String :=
  String.ofList (bytes.flatMap fun b =>
    [Nat.digitChar (b.toNat / 16), Nat.digitChar (b.toNat % 16)])

/-- Reads a number of any number of digits. -/
def read? (text : String) : Option Nat :=
  text.toList.foldlM (fun n c => (Byte.digit? 16 c.toUInt8).map (n * 16 + ·)) 0

end Hex
end CheckedFormat
