/-!
# Octet strings

Files, cipher texts and packed records are all strings of octets. This module fixes their type,
the way positions in them are counted, and the search and number readings that every format uses.
-/

namespace Salvage

abbrev Bytes := List UInt8

namespace Bytes

/-! ## Positions and cuts -/

/-- The octet at position `i`, which counts from the end when it is negative. -/
def at? (b : Bytes) (i : Int) : Option UInt8 :=
  if 0 ≤ i then b[i.toNat]?
  else if 0 ≤ i + b.length then b[(i + b.length).toNat]?
  else none

/-- The end of a cut in a string of length `n`: counted from the end when it is negative, and
moved to the nearest end when it lies outside. -/
def cutPoint (n : Nat) (i : Int) : Nat :=
  if i < 0 then (i + n).toNat else min i.toNat n

def cut {α : Type} (xs : List α) (lo hi : Int) : List α :=
  let l := cutPoint xs.length lo
  let h := cutPoint xs.length hi
  (xs.drop l).take (h - l)

def slice (b : Bytes) (lo hi : Int) : Bytes :=
  cut b lo hi

/-- The `n` octets from position `i` on, or fewer where the string ends. -/
def window (b : Bytes) (i n : Nat) : Bytes :=
  (b.drop i).take n

def chunksUpTo (n : Nat) : Nat → Bytes → List Bytes
  | 0, _ => []
  | _ + 1, [] => []
  | fuel + 1, b => b.take n :: chunksUpTo n fuel (b.drop n)

def chunks (n : Nat) (b : Bytes) : List Bytes :=
  chunksUpTo n b.length b

/-! ## Search -/

def startsWith (p b : Bytes) : Bool :=
  p.isPrefixOf b

def find? (p : Bytes) : Bytes → Option Nat
  | [] => if p.isEmpty then some 0 else none
  | c :: r => if p.isPrefixOf (c :: r) then some 0 else (find? p r).map (· + 1)

def findFrom? (p b : Bytes) (i : Nat) : Option Nat :=
  if i ≤ b.length then (find? p (b.drop i)).map (· + i) else none

def contains (p b : Bytes) : Bool :=
  (find? p b).isSome

/-! ## Numbers -/

/-- The number whose octets, least significant first, are `b`. -/
def littleEndian : Bytes → Nat
  | [] => 0
  | c :: r => c.toNat + 256 * littleEndian r

def bigEndian (b : Bytes) : Nat :=
  b.foldl (fun n c => 256 * n + c.toNat) 0

/-- The `n` low octets of a number, least significant first. -/
def ofLittleEndian : Nat → Nat → Bytes
  | 0, _ => []
  | n + 1, v => UInt8.ofNat v :: ofLittleEndian n (v / 256)

/-- The `n` low octets of a number, most significant first. -/
def ofBigEndian (n v : Nat) : Bytes :=
  (ofLittleEndian n v).reverse

def xor (a b : Bytes) : Bytes :=
  List.zipWith (· ^^^ ·) a b

/-! ## Text -/

def ofString (s : String) : Bytes :=
  s.toUTF8.toList

@[simp] theorem length_ofLittleEndian (n v : Nat) : (ofLittleEndian n v).length = n := by
  induction n generalizing v with
  | zero => rfl
  | succ n ih => simp [ofLittleEndian, ih]

end Bytes

end Salvage
