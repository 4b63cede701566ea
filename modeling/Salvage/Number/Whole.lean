import Salvage.Text.Blank
import Salvage.Text.Digit

/-!
# Whole numbers in texts

A whole number is written with digits of any script; single underscores may stand between them, a
sign before them, and white space around them.
-/

namespace Salvage.Whole

def digitLimit : Nat := 4300

/-- The values of digits with single underscores between them; `after` says whether a digit stands
before. -/
def digits? (after : Bool) : List Char → Option (List Nat)
  | [] => if after then some [] else none
  | '_' :: r => if after then digits? false r else none
  | c :: r =>
    match Text.decimalValue? c with
    | none => none
    | some n => (digits? true r).map (n :: ·)

def ofDigitValues (ds : List Nat) : Nat :=
  ds.foldl (fun n d => 10 * n + d) 0

/-- The number that digits spell, unless there are too many. -/
def ofChars? (cs : List Char) : Option Nat := do
  let ds ← digits? false cs
  if digitLimit < ds.length then none else return ofDigitValues ds

def ofText? (s : String) : Option Int :=
  match (Text.strip s).toList with
  | '-' :: r => (ofChars? r).map fun n => -(n : Int)
  | '+' :: r => (ofChars? r).map fun n => (n : Int)
  | r => (ofChars? r).map fun n => (n : Int)

end Salvage.Whole
