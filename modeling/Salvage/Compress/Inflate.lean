import Salvage.Bytes.Basic
import Salvage.Compress.PrefixCode

/-!
# Inflating

Reads a stream of blocks of literals and copies. Octets are read from their low bit on. A stream
that ends too early still gives what it holds up to there.
-/

namespace Salvage

namespace Inflate

inductive Fault where
  | blockType
  | storedLengths
  | symbolCounts
  | lengthsCode
  | repeatLength
  | missingEnd
  | literalCode
  | distanceCode
  | literalWord
  | distanceWord
  | distanceTooFar

def Fault.message : Fault → String
  | blockType => "invalid block type"
  | storedLengths => "invalid stored block lengths"
  | symbolCounts => "too many length or distance symbols"
  | lengthsCode => "invalid code lengths set"
  | repeatLength => "invalid bit length repeat"
  | missingEnd => "invalid code -- missing end-of-block"
  | literalCode => "invalid literal/lengths set"
  | distanceCode => "invalid distances set"
  | literalWord => "invalid literal/length code"
  | distanceWord => "invalid distance code"
  | distanceTooFar => "invalid distance too far back"

inductive Halt where
  | short
  | invalid (f : Fault)

/-- A stream that is being read: the octets left, how many bits of the first of them are used, and
the octets written so far. -/
structure Reader where
  rest : Bytes
  used : Nat := 0
  output : Array UInt8 := #[]

abbrev Read := EStateM Halt Reader

namespace Read

/-! ## Bits -/

def bit : Read Bool := fun r =>
  match r.rest with
  | [] => .error .short r
  | b :: rest =>
    let v := (b >>> UInt8.ofNat r.used) &&& 1 == 1
    if r.used = 7 then .ok v { r with rest := rest, used := 0 }
    else .ok v { r with used := r.used + 1 }

def bits : Nat → Read Nat
  | 0 => pure 0
  | n + 1 => do
    let low ← bit
    let high ← bits n
    return 2 * high + (if low then 1 else 0)

def align : Read Unit :=
  modify fun r => if r.used = 0 then r else { r with rest := r.rest.drop 1, used := 0 }

def octet : Read UInt8 := fun r =>
  match r.rest with
  | [] => .error .short r
  | b :: rest => .ok b { r with rest := rest }

def write (b : UInt8) : Read Unit :=
  modify fun r => { r with output := r.output.push b }

def word (c : PrefixCode) : Nat → PrefixCode.Partial → Read (Option Nat)
  | 0, _ => pure none
  | n + 1, p => do
    match c.step p (← bit) with
    | .symbol s => return some s
    | .more p => word c n p

def symbol (c : PrefixCode) : Read (Option Nat) :=
  word c (max 1 c.longest) {}

end Read

/-! ## Copies -/

/-- The shortest length of each symbol for lengths, from 257 on, and the number of bits that are
added. -/
def lengthTable : Array (Nat × Nat) :=
  #[(3, 0), (4, 0), (5, 0), (6, 0), (7, 0), (8, 0), (9, 0), (10, 0), (11, 1), (13, 1), (15, 1),
    (17, 1), (19, 2), (23, 2), (27, 2), (31, 2), (35, 3), (43, 3), (51, 3), (59, 3), (67, 4),
    (83, 4), (99, 4), (115, 4), (131, 5), (163, 5), (195, 5), (227, 5), (258, 0)]

/-- The shortest distance of each symbol for distances and the number of bits that are added. -/
def distanceTable : Array (Nat × Nat) :=
  #[(1, 0), (2, 0), (3, 0), (4, 0), (5, 1), (7, 1), (9, 2), (13, 2), (17, 3), (25, 3), (33, 4),
    (49, 4), (65, 5), (97, 5), (129, 6), (193, 6), (257, 7), (385, 7), (513, 8), (769, 8),
    (1025, 9), (1537, 9), (2049, 10), (3073, 10), (4097, 11), (6145, 11), (8193, 12), (12289, 12),
    (16385, 13), (24577, 13)]

def copyBack (distance : Nat) : Nat → Array UInt8 → Array UInt8
  | 0, out => out
  | n + 1, out => copyBack distance n (out.push (out.getD (out.size - distance) 0))

namespace Read

def fail {α : Type} (f : Fault) : Read α :=
  throw (.invalid f)

def fromTable (table : Array (Nat × Nat)) (i : Nat) (f : Fault) : Read Nat :=
  match table[i]? with
  | none => fail f
  | some (least, n) => do return least + (← bits n)

def copy (distances : PrefixCode) (s : Nat) : Read Unit := do
  let length ← fromTable lengthTable (s - 257) .literalWord
  match ← symbol distances with
  | none => fail .distanceWord
  | some d =>
    let distance ← fromTable distanceTable d .distanceWord
    if (← get).output.size < distance then fail .distanceTooFar
    modify fun r => { r with output := copyBack distance length r.output }

def items (literals distances : PrefixCode) : Nat → Read Unit
  | 0 => throw .short
  | fuel + 1 => do
    match ← symbol literals with
    | none => fail .literalWord
    | some s =>
      if s < 256 then
        write (UInt8.ofNat s)
        items literals distances fuel
      else if s = 256 then return
      else
        copy distances s
        items literals distances fuel

/-! ## Blocks -/

def octets : Nat → Read Unit
  | 0 => pure ()
  | n + 1 => do
    write (← octet)
    octets n

def storedBlock : Read Unit := do
  align
  let n ← bits 16
  let m ← bits 16
  if n + m ≠ 0xFFFF then fail .storedLengths
  octets n

def fixedLiterals : PrefixCode :=
  .ofLengths (List.replicate 144 8 ++ List.replicate 112 9 ++ List.replicate 24 7 ++
    List.replicate 8 8)

def fixedDistances : PrefixCode :=
  .ofLengths (List.replicate 32 5)

def lengthOrder : List Nat :=
  [16, 17, 18, 0, 8, 7, 9, 6, 10, 5, 11, 4, 12, 3, 13, 2, 14, 1, 15]

def triples : Nat → Read (List Nat)
  | 0 => pure []
  | n + 1 => do
    let x ← bits 3
    return x :: (← triples n)

/-- The lengths of words in a code of codes: `have` is what has been read, its last element
first, and `total` the number wanted; at most `fuel` symbols. -/
def wordLengths (code : PrefixCode) (total : Nat) : Nat → List Nat → Read (List Nat)
  | 0, _ => throw .short
  | fuel + 1, have' => do
    if total ≤ have'.length then return have'.reverse
    let s := (← symbol code).getD 0
    if s < 16 then wordLengths code total fuel (s :: have')
    else
      let again (v n : Nat) : Read (List Nat) :=
        if total < have'.length + n then fail .repeatLength
        else wordLengths code total fuel (List.replicate n v ++ have')
      if s = 16 then
        let n ← bits 2
        match have' with
        | [] => fail .repeatLength
        | v :: _ => again v (3 + n)
      else if s = 17 then
        let n ← bits 3
        again 0 (3 + n)
      else
        let n ← bits 7
        again 0 (11 + n)

def ownCodes : Read (PrefixCode × PrefixCode) := do
  let literals := 257 + (← bits 5)
  let distances := 1 + (← bits 5)
  let given := 4 + (← bits 4)
  if 286 < literals ∨ 30 < distances then fail .symbolCounts
  let found := (lengthOrder.take given).zip (← triples given)
  let code := PrefixCode.ofLengths ((List.range 19).map fun i => (found.lookup i).getD 0)
  match code.fit with
  | .complete | .empty => pure ()
  | _ => fail .lengthsCode
  let lengths ← wordLengths code (literals + distances) (literals + distances + 1) []
  if lengths.getD 256 0 = 0 then fail .missingEnd
  let first := PrefixCode.ofLengths (lengths.take literals)
  match first.fit with
  | .complete | .single | .empty => pure ()
  | _ => fail .literalCode
  let second := PrefixCode.ofLengths (lengths.drop literals)
  match second.fit with
  | .complete | .single | .empty => pure ()
  | _ => fail .distanceCode
  return (first, second)

def block (fuel : Nat) : Read Bool := do
  let last ← bit
  match ← bits 2 with
  | 0 => storedBlock
  | 1 => items fixedLiterals fixedDistances fuel
  | 2 =>
    let (literals, distances) ← ownCodes
    items literals distances fuel
  | _ => fail .blockType
  return last

def blocks (items : Nat) : Nat → Read Unit
  | 0 => throw .short
  | fuel + 1 => do
    if ← block items then align else blocks items fuel

end Read

/-! ## Streams -/

structure Result where
  output : Bytes
  rest : Bytes
  halt : Option Halt

def storedBlock (last : Bool) (b : Bytes) : Bytes :=
  (if last then 1 else 0) :: Bytes.ofLittleEndian 2 b.length ++
    Bytes.ofLittleEndian 2 (0xFFFF - b.length) ++ b

def storedPieces : List Bytes → Bytes
  | [] => storedBlock true []
  | [b] => storedBlock true b
  | b :: c :: r => storedBlock false b ++ storedPieces (c :: r)

def storedBlocks (b : Bytes) : Bytes :=
  storedPieces (Bytes.chunks 0xFFFF b)

end Inflate

def inflate (b : Bytes) : Inflate.Result :=
  let fuel := 8 * b.length + 1
  match (Inflate.Read.blocks fuel fuel).run { rest := b } with
  | .ok _ r => ⟨r.output.toList, r.rest, none⟩
  | .error h r => ⟨r.output.toList, r.rest, some h⟩

end Salvage
