import CheckedFormat.Json.Value
/-! Looking into JSON values. -/
namespace CheckedFormat
namespace Json
namespace Value

/-- The member of an object under a key. -/
def member? (key : String) : Value → Option Value
  | .object members => (members.find? (·.1 == key)).map (·.2)
  | _ => none

def string? : Value → Option String
  | .string s => some s
  | _ => none

/-- A whole number. -/
def int? : Value → Option Int
  | .number (.natural n) => some n
  | .number (.negative n) => some (-n)
  | _ => none

def bool? : Value → Option Bool
  | .bool b => some b
  | _ => none

/-- The items of an array. -/
def items? : Value → Option (List Value)
  | .array items => some items
  | _ => none

end Value
end Json
end CheckedFormat
