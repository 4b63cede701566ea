import Salvage.Bytes.Basic

/-!
# Numbers and words in chunks

Lengths and counts stand in groups of seven bits, the most significant group first; the last octet
has its high bit set.
-/

namespace Salvage.Chunk

/-- The words of some octets, least significant octet first; a part of a word is dropped. -/
def words : Bytes → List UInt32
  | a :: b :: c :: d :: rest =>
    UInt32.ofNat (Bytes.littleEndian [a, b, c, d]) :: words rest
  | _ => []

def ofWord (w : UInt32) : Bytes :=
  Bytes.ofLittleEndian 4 w.toNat

def ofWords (ws : List UInt32) : Bytes :=
  ws.flatMap ofWord

end Salvage.Chunk

namespace Salvage.Varint

structure Reading where
  value : UInt32
  /-- The number of octets, unless no last group was found. -/
  size : Option Nat

def readFrom (acc : UInt32) (count : Nat) : Bytes → Reading
  | [] => ⟨acc, none⟩
  | b :: rest =>
    let acc := (acc <<< 7) ||| (b &&& 0x7F).toUInt32
    if b < 0x80 then readFrom acc (count + 1) rest else ⟨acc, some (count + 1)⟩

def read (b : Bytes) : Reading :=
  readFrom 0 0 b

def groupsOnto (n : Nat) (acc : Bytes) : Bytes :=
  if _h : n = 0 then acc else groupsOnto (n / 128) (UInt8.ofNat (n % 128) :: acc)
termination_by n
decreasing_by omega

def encode (n : Nat) : Bytes :=
  groupsOnto (n / 128) [UInt8.ofNat (n % 128 + 128)]

/-- A buffer with as much as fits of `new` written over it at a position. -/
def overwrite (data : Bytes) (offset : Nat) (new : Bytes) : Bytes :=
  let fitting := new.take (data.length - offset)
  data.take offset ++ fitting ++ data.drop (offset + fitting.length)

structure Writing where
  data : Bytes
  offset : Nat
  complete : Bool
deriving DecidableEq

def write (data : Bytes) (offset : Nat) (n : UInt32) : Writing :=
  let new := encode n.toNat
  let room := data.length - offset
  ⟨overwrite data offset new, offset + min room new.length, decide (new.length ≤ room)⟩

end Salvage.Varint
