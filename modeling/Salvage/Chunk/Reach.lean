import Salvage.Chunk.Instruction

/-! # Reachable code -/

namespace Salvage.Chunk

def inside (count : Nat) (targets : List Int) : List Nat :=
  targets.filterMap fun (t : Int) => if 0 ≤ t ∧ t < count then some t.toNat else none

def isExtension (code : Array Word) (pc : Nat) : Bool :=
  match code[pc]? with
  | some w => plainOpcode w == 82
  | none => false

def maySkip (op : UInt8) : Bool :=
  op == 6 || (58 ≤ op && op ≤ 68)

def mayExtend (op : UInt8) : Bool :=
  op == 20 || (46 ≤ op && op ≤ 48) || op == 79

def targets (code : Array Word) (pc : Nat) (w : Word) : List Int :=
  let op := plainOpcode w
  let next : Int := pc + 1
  if maySkip op then [next, next + 1]
  else if mayExtend op then
    if isExtension code (pc + 1) then [next, next + 1] else [next]
  else if 71 ≤ op ∧ op ≤ 73 then []
  else if op = 57 then [next + w.sj]
  else if op = 74 ∨ op = 78 then [next + w.sbx, next]
  else if op = 75 ∨ op = 76 then [next + w.sbx]
  else [next]

def successors (code : Array Word) (pc : Nat) : List Nat :=
  match code[pc]? with
  | some w => inside code.size (targets code pc w)
  | none => []

def markNew : Array Bool → List Nat → Array Bool × List Nat
  | marks, [] => (marks, [])
  | marks, pc :: rest =>
    if marks[pc]? = some false then
      let (marks, new) := markNew (marks.set! pc true) rest
      (marks, pc :: new)
    else markNew marks rest

def follow (code : Array Word) : Nat → Array Bool → List Nat → Array Bool
  | 0, marks, _ => marks
  | _ + 1, marks, [] => marks
  | fuel + 1, marks, pc :: queue =>
    let (marks, new) := markNew marks (successors code pc)
    follow code fuel marks (queue ++ new)

def reachable (code : Array Word) : Array Bool :=
  if code.isEmpty then #[]
  else
    follow code code.size ((Array.replicate code.size false).set! 0 true) [0]

structure Reach where
  count : Nat
  kept : Nat
  /-- Whether a position before the last reachable one cannot be reached. -/
  hasGap : Bool

def reachOf (marks : List Bool) : Reach :=
  let live := (marks.reverse.dropWhile (!·)).reverse
  let gap := live.contains false
  ⟨marks.count true, if gap ∨ live.isEmpty then marks.length else live.length, gap⟩

def reach (code : Array Word) : Reach :=
  reachOf (reachable code).toList

end Salvage.Chunk
