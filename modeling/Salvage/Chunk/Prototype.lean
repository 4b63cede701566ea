import Salvage.Chunk.Varint

/-! # Functions of a compiled chunk -/

namespace Salvage.Chunk

/-! ## Functions -/

inductive Constant where
  | nil
  | no
  | yes
  | float (bits : UInt64)
  | integer (bits : UInt64)
  | text (s : Bytes)

structure Upvalue where
  onStack : UInt8
  index : UInt8
  kind : UInt8

structure LocalVariable where
  name : Option Bytes
  first : Nat
  last : Nat

structure DebugInfo where
  lines : Bytes := []
  absoluteLines : List (Nat × Nat) := []
  locals : List LocalVariable := []
  upvalueNames : List (Option Bytes) := []

structure Prototype where
  source : Option Bytes
  firstLine : Nat
  lastLine : Nat
  parameters : UInt8
  variadic : UInt8
  stackSize : UInt8
  code : List UInt32
  constants : List Constant
  upvalues : List Upvalue
  children : List Prototype
  debug : DebugInfo

/-! ## Octets -/

def encodeText : Option Bytes → Bytes
  | none => Varint.encode 0
  | some s => Varint.encode (s.length + 1) ++ s

def shortLimit : Nat := 40

def Constant.encode : Constant → Bytes
  | .nil => [0x00]
  | .no => [0x01]
  | .yes => [0x11]
  | .float bits => 0x13 :: Bytes.ofLittleEndian 8 bits.toNat
  | .integer bits => 0x03 :: Bytes.ofLittleEndian 8 bits.toNat
  | .text s => (if s.length ≤ shortLimit then 0x04 else 0x14) :: encodeText (some s)

def encodeList {α : Type} (one : α → Bytes) (xs : List α) : Bytes :=
  Varint.encode xs.length ++ xs.flatMap one

def Upvalue.encode (u : Upvalue) : Bytes :=
  [u.onStack, u.index, u.kind]

def LocalVariable.encode (v : LocalVariable) : Bytes :=
  encodeText v.name ++ Varint.encode v.first ++ Varint.encode v.last

def DebugInfo.encode (d : DebugInfo) : Bytes :=
  encodeList (fun b => [b]) d.lines ++
  encodeList (fun (p, l) => Varint.encode p ++ Varint.encode l) d.absoluteLines ++
  encodeList LocalVariable.encode d.locals ++
  encodeList encodeText d.upvalueNames

def Prototype.encodeFront (p : Prototype) : Bytes :=
  encodeText p.source ++ Varint.encode p.firstLine ++ Varint.encode p.lastLine ++
  [p.parameters, p.variadic, p.stackSize] ++
  encodeList ofWord p.code ++
  encodeList Constant.encode p.constants ++
  encodeList Upvalue.encode p.upvalues

mutual

def Prototype.encode : Prototype → Bytes
  | ⟨source, first, last, parameters, variadic, stack, code, constants, upvalues, children, debug⟩ =>
    Prototype.encodeFront
      ⟨source, first, last, parameters, variadic, stack, code, constants, upvalues, [], debug⟩ ++
    Varint.encode children.length ++ Prototype.encodeAll children ++ debug.encode

def Prototype.encodeAll : List Prototype → Bytes
  | [] => []
  | p :: ps => Prototype.encode p ++ Prototype.encodeAll ps

end

/-! ## Canonical form -/

/-- The source of a function when the enclosing one has the source `parent`: left out if it is the
same short text. -/
def ownSource (parent source : Option Bytes) : Option Bytes :=
  match source with
  | some s => if s.length ≤ shortLimit ∧ parent = some s then none else some s
  | none => none

def fitNames (n : Nat) (names : List (Option Bytes)) : List (Option Bytes) :=
  (names ++ List.replicate n none).take n

mutual

/-- The function with the sources that its parents have already left out, and with one name for each
captured variable. -/
def Prototype.canonical (parent : Option Bytes) : Prototype → Prototype
  | ⟨source, first, last, parameters, variadic, stack, code, constants, upvalues, children, debug⟩ =>
    ⟨ownSource parent source, first, last, parameters, variadic, stack, code, constants, upvalues,
      Prototype.canonicalAll (source.orElse fun _ => parent) children,
      { debug with upvalueNames := fitNames upvalues.length debug.upvalueNames }⟩

def Prototype.canonicalAll (parent : Option Bytes) : List Prototype → List Prototype
  | [] => []
  | p :: ps => Prototype.canonical parent p :: Prototype.canonicalAll parent ps

end

/-! ## Chunks -/

def standardHeader : Bytes :=
  [0x1B, 0x4C, 0x75, 0x61, 0x54, 0x00, 0x19, 0x93, 0x0D, 0x0A, 0x1A, 0x0A, 4, 8, 8] ++
  Bytes.ofLittleEndian 8 0x5678 ++ [0, 0, 0, 0, 0, 0x28, 0x77, 0x40]

def encodeChunk (main : Prototype) : Bytes :=
  standardHeader ++ [UInt8.ofNat main.upvalues.length] ++ (main.canonical none).encode

end Salvage.Chunk
