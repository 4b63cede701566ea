/-! # Sets of characters as ranges -/

namespace Salvage.Text

abbrev Ranges := List (Nat × Nat)

namespace Ranges

/-- The ranges that are given by steps: in turn the number of codes before a range, counted from
`start` or from the range before it, and the number of codes in the range behind its first. -/
def ofSteps (start : Nat) : List Nat → Ranges
  | gap :: size :: r => (start + gap, start + gap + size) :: ofSteps (start + gap + size + 1) r
  | _ => []

def mem (code : Nat) : Ranges → Bool
  | [] => false
  | (low, high) :: r => if code < low then false else if code ≤ high then true else mem code r

def offset? (code : Nat) : Ranges → Option Nat
  | [] => none
  | (low, high) :: r =>
    if code < low then none else if code ≤ high then some (code - low) else offset? code r

end Ranges

end Salvage.Text
