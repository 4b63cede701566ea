import Salvage.Bytes.Basic

/-!
# Polynomial hashes and check sums

The hash of a row of numbers is their value as digits to the base 31, kept to 32 bits. Names are
hashed by the codes of their characters and contents by their octets.
The check sum of octets is their remainder as a polynomial of bits.
-/

namespace Salvage.PolyHash

def step (h : UInt32) (code : Nat) : UInt32 :=
  31 * h + UInt32.ofNat code

def ofCodes (codes : List Nat) : UInt32 :=
  codes.foldl step 0

def ofString (s : String) : UInt32 :=
  ofCodes (s.toList.map Char.toNat)

def upperCode (c : Char) : Nat :=
  if 97 ≤ c.toNat ∧ c.toNat ≤ 122 then c.toNat - 32 else c.toNat

def ofUpper (s : String) : UInt32 :=
  ofCodes (s.toList.map upperCode)

def shiftStep (h : UInt32) (x : UInt8) : UInt32 :=
  (h <<< 5) - h + x.toUInt32

def ofBytes (b : Bytes) : UInt32 :=
  b.foldl shiftStep 0

def signed (h : UInt32) : Int :=
  if h.toNat < 0x80000000 then h.toNat else (h.toNat : Int) - 0x100000000

def octetsFrom? (b : Bytes) (start : Int) : Nat → Option Bytes
  | 0 => some []
  | n + 1 =>
    match b.at? start, octetsFrom? b (start + 1) n with
    | some x, some r => some (x :: r)
    | _, _ => none

/-- The hash, as a signed number, of the `length` octets from `start` on, as far as there are any;
nothing when a position lies before the front. -/
def ofRange? (b : Bytes) (start length : Int) : Option Int :=
  let stop := min (start + length) b.length
  (octetsFrom? b start (stop - start).toNat).map fun xs => signed (ofBytes xs)

end Salvage.PolyHash

namespace Salvage.Crc32

def shiftBit (x : UInt32) : UInt32 :=
  if x &&& 1 = 1 then (x >>> 1) ^^^ 0xEDB88320 else x >>> 1

def shiftBits : Nat → UInt32 → UInt32
  | 0, x => x
  | n + 1, x => shiftBits n (shiftBit x)

def update (x : UInt32) (b : UInt8) : UInt32 :=
  shiftBits 8 (x ^^^ b.toUInt32)

def checksum (b : Bytes) : UInt32 :=
  ~~~(b.foldl update 0xFFFFFFFF)

end Salvage.Crc32
