import CheckedFormat.Text.Attaching
import CheckedFormat.Text.Hex
import CheckedFormat.Text.Hidden
/-! Making every character of a text visible.

Quotes, backslashes and the common control characters have escapes of their own;
characters that would not show are written by their number. A mark that attaches
to the character before it is escaped only at the start of a text. -/
namespace CheckedFormat
namespace Escape

/-- A character by its number. -/
def byNumber (c : Char) : String := "\\u\x7b" ++ Hex.numeral c.toNat ++ "\x7d"

/-- A character made visible; `first` at the start of a text. -/
def char (first : Bool) (c : Char) : String :=
  match c with
  | '\x00' => "\\0"
  | '\t' => "\\t"
  | '\r' => "\\r"
  | '\n' => "\\n"
  | '\\' => "\\\\"
  | '"' => "\\\""
  | '\'' => "\\'"
  | c =>
    if (first && CodeRanges.attaching.contains c.toNat) || CodeRanges.hidden.contains c.toNat then
      byNumber c
    else String.singleton c

def text (s : String) : String :=
  match s.toList with
  | [] => ""
  | c :: rest => char true c ++ String.join (rest.map (char false))

end Escape
end CheckedFormat
