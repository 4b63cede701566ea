import Salvage.Chunk.Prototype

/-! # Loading chunks -/

namespace Salvage.Chunk

inductive LoadFault where
  | truncated
  | overflow
  | notBinary
  | version
  | format
  | corrupted
  | size (type : String)
  | integerFormat
  | floatFormat
  | badText

def LoadFault.message : LoadFault → String
  | truncated => "truncated chunk"
  | overflow => "integer overflow"
  | notBinary => "not a binary chunk"
  | version => "version mismatch"
  | format => "format mismatch"
  | corrupted => "corrupted chunk"
  | size type => type ++ " size mismatch"
  | integerFormat => "integer format mismatch"
  | floatFormat => "float format mismatch"
  | badText => "bad format for constant string"

abbrev Load := StateT Bytes (Except LoadFault)

namespace Load

/-! ## Octets and numbers -/

def octet : Load UInt8 := do
  match ← get with
  | [] => throw .truncated
  | b :: rest =>
    set rest
    return b

def block (n : Nat) : Load Bytes := do
  let b ← get
  if b.length < n then throw .truncated
  set (b.drop n)
  return b.take n

/-- A number behind the groups `acc`; before a further group the number must lie below `limit`. At
most `fuel` groups are read. -/
def unsignedFrom (limit : Nat) : Nat → Nat → Load Nat
  | 0, _ => throw .truncated
  | fuel + 1, acc => do
    let b ← octet
    if limit ≤ acc then throw .overflow
    let v := acc * 128 + b.toNat % 128
    if b < 0x80 then unsignedFrom limit fuel v else return v

def unsigned (limit : Nat) : Load Nat := do
  unsignedFrom limit ((← get).length + 1) 0

def int : Load Nat := unsigned 16777215

def size : Load Nat := unsigned (0x1FFFFFFFFFFFFFF)

def text : Load (Option Bytes) := do
  match ← size with
  | 0 => return none
  | n + 1 => return some (← block n)

def bits : Load UInt64 := do
  return UInt64.ofNat (Bytes.littleEndian (← block 8))

def many {α : Type} (one : Load α) : Nat → Load (List α)
  | 0 => return []
  | n + 1 => do
    let a ← one
    return a :: (← many one n)

def counted {α : Type} (one : Load α) : Load (List α) := do
  many one (← int)

/-! ## Sections -/

def code : Load (List UInt32) := do
  let n ← int
  return words (← block (4 * n))

def constant : Load Constant := do
  let tag ← octet
  if tag = 0x01 then return .no
  else if tag = 0x11 then return .yes
  else if tag = 0x13 then return .float (← bits)
  else if tag = 0x03 then return .integer (← bits)
  else if tag = 0x04 ∨ tag = 0x14 then
    match ← text with
    | none => throw .badText
    | some s => return .text s
  else return .nil

def upvalue : Load Upvalue := do
  let onStack ← octet
  let index ← octet
  let kind ← octet
  return ⟨onStack, index, kind⟩

def localVariable : Load LocalVariable := do
  let name ← text
  let first ← int
  let last ← int
  return ⟨name, first, last⟩

def pair : Load (Nat × Nat) := do
  let a ← int
  let b ← int
  return (a, b)

def debugInfo : Load DebugInfo := do
  let lines ← block (← int)
  let absoluteLines ← counted pair
  let locals ← counted localVariable
  let upvalueNames ← counted text
  return ⟨lines, absoluteLines, locals, upvalueNames⟩

def functionUpTo : Nat → Load Prototype
  | 0 => throw .truncated
  | levels + 1 => do
    let source ← text
    let firstLine ← int
    let lastLine ← int
    let parameters ← octet
    let variadic ← octet
    let stackSize ← octet
    let code ← code
    let constants ← counted constant
    let upvalues ← counted upvalue
    let children ← counted (functionUpTo levels)
    let debug ← debugInfo
    return ⟨source, firstLine, lastLine, parameters, variadic, stackSize, code, constants, upvalues,
      children, debug⟩

def function : Load Prototype := do
  functionUpTo ((← get).length + 1)

/-! ## Headers -/

def literal (expected : Bytes) (fault : LoadFault) : Load Unit := do
  if (← block expected.length) ≠ expected then throw fault

def expect (expected : UInt8) (fault : LoadFault) : Load Unit := do
  if (← octet) ≠ expected then throw fault

def header : Load Unit := do
  expect 0x1B .notBinary
  literal [0x4C, 0x75, 0x61] .notBinary
  expect 0x54 .version
  expect 0x00 .format
  literal [0x19, 0x93, 0x0D, 0x0A, 0x1A, 0x0A] .corrupted
  expect 4 (.size "Instruction")
  expect 8 (.size "lua_Integer")
  expect 8 (.size "lua_Number")
  literal (Bytes.ofLittleEndian 8 0x5678) .integerFormat
  literal [0, 0, 0, 0, 0, 0x28, 0x77, 0x40] .floatFormat

def chunk : Load Prototype := do
  header
  let _ ← octet
  function

end Load

def load (b : Bytes) : Except LoadFault Prototype :=
  (Load.chunk.run b).map (·.1)

end Salvage.Chunk
