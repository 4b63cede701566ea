/-!
# Prefix codes

A prefix code is given by the lengths of its code words. Words of one length are consecutive
numbers in the order of their symbols, and shorter words come first.
-/

namespace Salvage

/-- A prefix code: how many words have each length, and the symbols in the order of their words. -/
structure PrefixCode where
  counts : Array Nat
  symbols : Array Nat

namespace PrefixCode

def longestWord : Nat := 15

def symbolsOfLength (lengths : List Nat) (n : Nat) : List Nat :=
  (lengths.zipIdx.filter fun (l, _) => l == n).map (·.2)

def ofLengths (lengths : List Nat) : PrefixCode :=
  let groups := (List.range longestWord).map fun n => symbolsOfLength lengths (n + 1)
  ⟨(groups.map List.length).toArray, groups.flatten.toArray⟩

inductive Fit where
  | empty
  | complete
  | single
  | incomplete
  | overfull

/-- The bit strings left over after the words of each length, or none when the words are too
many. -/
def left : Nat → List Nat → Option Nat
  | free, [] => some free
  | free, n :: r => if 2 * free < n then none else left (2 * free - n) r

def fit (c : PrefixCode) : Fit :=
  if c.symbols.isEmpty then .empty
  else
    match left 1 c.counts.toList with
    | none => .overfull
    | some 0 => .complete
    | some _ => if c.symbols.size = 1 ∧ c.counts.getD 0 0 = 1 then .single else .incomplete

def longest (c : PrefixCode) : Nat :=
  (c.counts.toList.zipIdx.filter fun (n, _) => n != 0).foldl (fun m (_, i) => max m (i + 1)) 0

/-- A word that has been read in part: its length, its number, the first number of its length and
the place of the symbol of that number. -/
structure Partial where
  length : Nat := 0
  number : Nat := 0
  first : Nat := 0
  place : Nat := 0

inductive Step where
  | symbol (n : Nat)
  | more (p : Partial)

def step (c : PrefixCode) (p : Partial) (bit : Bool) : Step :=
  let number := 2 * p.number + (if bit then 1 else 0)
  let first := 2 * p.first
  let count := c.counts.getD p.length 0
  if number < first + count then .symbol (c.symbols.getD (p.place + (number - first)) 0)
  else .more ⟨p.length + 1, number, first + count, p.place + count⟩

end PrefixCode

end Salvage
