import CheckedFormat.Errno
import CheckedFormat.Text.Escape
/-! The text that shows how a result differs from what was expected.

Outputs are compared as whole texts, and made visible so that each stays on one
line. -/
namespace CheckedFormat
namespace Conformance

/-- How many characters two texts have in common at their start. -/
def commonLength : List Char → List Char → Nat
  | a :: as, b :: bs => if a = b then commonLength as bs + 1 else 0
  | _, _ => 0

/-- The difference of two outputs. -/
def outputDifference (expected actual : String) : String :=
  if expected = actual then "[identical]"
  else
    String.join [
      "--- expected\n",
      "+++ actual\n",
      "@@ first difference at char ", toString (commonLength expected.toList actual.toList), " @@\n",
      "-", Escape.text expected, "\n",
      "+", Escape.text actual, "\n"]

/-- The difference of two error numbers. -/
def errnoDifference (expected actual : Errno) : String :=
  s!"errno: expected {expected}, got {actual}\n"

end Conformance
end CheckedFormat
