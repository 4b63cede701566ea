import Salvage.Digest.Polynomial
import Salvage.Text.Utf8

/-!
# Pak files

A pak file packs many resources. It starts with a version, a digest and the number of its entries;
each entry has a name, the place of its octets in the file and their number.
-/

namespace Salvage

inductive Pak.Fault where
  | shortNumber
  | shortLength
  | name (f : Utf8.Fault)

structure Pak.Entry where
  offset : Nat
  size : Nat
  hash : UInt32

structure Pak where
  data : Bytes
  version : Nat
  digest : Bytes
  count : Nat
  /-- The entries by their names; of entries of one name the last counts, at the place of the
  first. -/
  entries : List (String × Pak.Entry)

namespace Pak

/-! ## Reading -/

def numberAt (b : Bytes) (i : Nat) : Except Fault Nat :=
  let w := Bytes.window b i 4
  if w.length = 4 then .ok (Bytes.littleEndian w) else .error .shortNumber

/-- A number in groups of seven bits, the lowest first, and how many octets it takes; each octet but
the last has its high bit set. -/
def lengthPrefix? : Bytes → Option (Nat × Nat)
  | [] => none
  | b :: r =>
    if b < 128 then some (b.toNat, 1)
    else (lengthPrefix? r).map fun (n, used) => (b.toNat % 128 + 128 * n, used + 1)

/-- The octets from a position on; a position before the front counts from the end, and goes on at
the front. -/
def viewFrom (b : Bytes) (i : Int) : Bytes :=
  if 0 ≤ i then b.drop i.toNat
  else if 0 ≤ i + b.length then b.drop (i + b.length).toNat ++ b
  else []

def nameAt (b : Bytes) (i : Int) : Except Fault (String × Int) :=
  match lengthPrefix? (viewFrom b i) with
  | none => .error .shortLength
  | some (n, used) =>
    let start := i + used
    match Utf8.decode (Bytes.slice b start (start + n)) with
    | .ok s => .ok (s, start + n)
    | .error f => .error (.name f)

def insert (name : String) (e : Entry) : List (String × Entry) → List (String × Entry)
  | [] => [(name, e)]
  | (n, f) :: r => if n = name then (n, e) :: r else (n, f) :: insert name e r

def entriesFrom (b : Bytes) : Nat → Nat → List (String × Entry) → Except Fault (List (String × Entry))
  | 0, _, es => .ok es
  | n + 1, i, es => do
    let (name, j) ← nameAt b i
    let j := j.toNat
    let offset ← numberAt b j
    let size ← numberAt b (j + 4)
    entriesFrom b n (j + 8) (insert name ⟨offset, size, PolyHash.ofString name⟩ es)

def load (b : Bytes) : Except Fault Pak := do
  let version ← numberAt b 0
  let count ← numberAt b 20
  let entries ← entriesFrom b count 24 []
  return ⟨b, version, Bytes.window b 4 16, count, entries⟩

def contents (p : Pak) (e : Entry) : Bytes :=
  Bytes.window p.data e.offset e.size

/-! ## Writing -/

def encodeLength (n : Nat) : Bytes :=
  if n < 128 then [UInt8.ofNat n] else UInt8.ofNat (128 + n % 128) :: encodeLength (n / 128)
termination_by n
decreasing_by omega

def encodeEntry (name : String) (offset size : Nat) : Bytes :=
  let b := Utf8.encode name
  encodeLength b.length ++ b ++ Bytes.ofLittleEndian 4 offset ++ Bytes.ofLittleEndian 4 size

def encode (version : Nat) (digest : Bytes) (entries : List (String × Nat × Nat)) : Bytes :=
  Bytes.ofLittleEndian 4 version ++ digest ++ Bytes.ofLittleEndian 4 entries.length ++
    entries.flatMap fun (name, offset, size) => encodeEntry name offset size

def Fault.message : Fault → String
  | shortNumber => "unpack requires a buffer of 4 bytes"
  | shortLength => "index out of range"
  | name f => f.message

end Pak

end Salvage
