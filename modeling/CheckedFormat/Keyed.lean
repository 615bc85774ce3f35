/-! Values kept under keys, in the order of the keys.

The keys are texts and are ordered by their characters. Every key stands once, so
the order in which keys were added does not show. -/
namespace CheckedFormat

/-- Values under keys that ascend. -/
abbrev Keyed (α : Type) := List (String × α)

namespace Keyed

variable {α : Type}

/-- Puts a value under a key, made from the one that stands there. -/
def update (key : String) (f : Option α → α) : Keyed α → Keyed α
  | [] => [(key, f none)]
  | (k, a) :: rest =>
    if k = key then (key, f (some a)) :: rest
    else if key < k then (key, f none) :: (k, a) :: rest
    else (k, a) :: update key f rest

/-- Puts a value under a key in place of the one that stands there. -/
def insert (key : String) (a : α) (members : Keyed α) : Keyed α := update key (fun _ => a) members

end Keyed
end CheckedFormat
