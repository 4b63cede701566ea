import Salvage.Chunk.Instruction

/-! # Checking instructions -/

namespace Salvage.Chunk

/-! ## Operand layouts -/

/-- The descriptors of the operations, one octet each: three low bits for the layout of the
operands, marks above them. -/
def descriptors : List UInt8 :=
  [8, 10, 10, 9, 9, 8, 8, 8, 8, 8, 0, 8, 8, 8, 8, 0, 0, 0, 0, 8, 8] ++ List.replicate 25 8 ++
  [128, 128, 128] ++ [8, 8, 8, 8, 8] ++ [3, 0, 0, 4] ++ List.replicate 10 16 ++
  [24, 104, 104, 32, 0, 0, 9, 9, 1, 0, 9, 32, 9, 72, 40, 3]

/-- The layout that is looked up for an operation: records of five descriptors, of which the last
one counts, and zero behind the last record. -/
def layoutOf (op : Nat) : UInt8 :=
  descriptors.getD (5 * op + 4) 0

def wideOperandFits (layout : UInt8) (bx : Int) : Bool :=
  if layout = 0 then bx == 0
  else if layout = 1 ∨ layout = 2 then decide (bx ≤ 262143)
  else if layout = 4 then decide (-16777216 ≤ bx ∧ bx ≤ 33554431)
  else if layout = 3 then decide (bx ≤ 134217727)
  else true

/-! ## Soundness -/

inductive Soundness where
  | sound
  | repairable
  | broken

structure Operands where
  a : Int
  b : Int
  c : Int
  bx : Int
  k : Int

structure Sizes where
  constants : Int
  functions : Int
  words : Int

def beyond (size index : Int) : Bool :=
  decide (0 < size ∧ size ≤ index)

def isLoop (op : Nat) : Bool :=
  op == 74 || op == 75 || op == 76 || op == 78

def namesConstant (op : Nat) : Bool :=
  op == 3 || (22 ≤ op && op ≤ 31)

def mayNameConstant (op : Nat) : Bool :=
  [11, 14, 15, 18, 20].contains op

def check (op : Nat) (x : Operands) (s : Sizes) : Soundness :=
  if 83 < op ∨ 255 < x.a ∨ 255 < x.b ∨ 255 < x.c ∨ !wideOperandFits (layoutOf op) x.bx then .broken
  else if isLoop op && decide (s.words ≤ x.bx) then .repairable
  else if op = 80 ∧ beyond s.functions x.bx then .broken
  else if op = 83 ∧ beyond s.constants x.bx then .repairable
  else if namesConstant op && beyond s.constants x.bx then .repairable
  else if mayNameConstant op && x.k != 0 && beyond s.constants x.c then .repairable
  else .sound

def usesMark (op : Int) : Bool :=
  decide ((34 ≤ op ∧ op ≤ 48) ∨ (57 ≤ op ∧ op ≤ 63))

/-! ## Registers -/

def hasPlainOperands (op : UInt8) : Bool :=
  [3, 4, 13, 17, 21, 32, 33, 57, 80, 83].contains op || (22 ≤ op && op ≤ 31) ||
    (60 ≤ op && op ≤ 65) || (73 ≤ op && op ≤ 77)

def raise (top operand : Nat) : Nat :=
  if top < operand ∧ operand < 250 then operand else top

def raiseBy (top : Nat) (w : Word) : Nat :=
  let op := plainOpcode w
  if 83 < op then top
  else
    let top := raise top w.a
    if hasPlainOperands op then top else raise (raise top w.b) w.c

def highestRegister (ws : List Word) : Nat :=
  ws.foldl raiseBy 0

end Salvage.Chunk
