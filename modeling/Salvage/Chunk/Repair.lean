import Salvage.Chunk.Instruction

/-!
# Repairing code

Deciphered code may refer to constants and jump targets that are not there. Such operands are
brought back into range.
-/

namespace Salvage.Chunk

def loadConstant : UInt8 := 3

def jump : UInt8 := 57

def repairConstant (constants : Int) (w : Word) : Word :=
  if w.opcode = loadConstant ∧ 0 < constants then
    let v : Int := w.bx % constants
    if v = w.bx then w else w.withBx v
  else w

def repairJump (count i : Nat) (w : Word) : Word :=
  if w.opcode = jump then
    let target : Int := i + 1 + w.sbx
    if 0 ≤ target ∧ target < count then w
    else w.withBx (target % count - (i + 1) + 65535)
  else w

def repairWord (constants : Int) (count i : Nat) (w : Word) : Word :=
  repairJump count i (repairConstant constants w)

def repairFrom (constants : Int) (count : Nat) : Nat → List Word → List Word
  | _, [] => []
  | i, w :: ws => repairWord constants count i w :: repairFrom constants count (i + 1) ws

def repair (constants : Int) (count : Nat) (ws : List Word) : List Word :=
  repairFrom constants count 0 ws

end Salvage.Chunk
