import Salvage.Chunk.Check
import Salvage.Chunk.Reach
import Salvage.Chunk.Repair

/-!
# Deciphering functions in place

A walk goes through the functions of a chunk in a buffer, deciphers texts and code where they stand,
repairs the code, and raises the stack size of functions whose code needs more. Lengths and counts
are never changed. The seed of the file is found in the first function with code and kept for all
others.
-/

namespace Salvage.Chunk

structure Session where
  data : Bytes := []
  offset : Nat := 0
  seed : Option UInt16 := none
  printed : Bytes := []

abbrev Walk := StateM Session

namespace Walk

/-! ## Single steps -/

def printBytes (b : Bytes) : Walk Unit :=
  modify fun s => { s with printed := s.printed ++ b }

def indent (depth : Int) : String :=
  String.ofList (List.replicate (2 * depth.natAbs) ' ')

def say (depth : Int) (line : String) : Walk Unit :=
  printBytes (Bytes.ofString (indent depth ++ line ++ "\n"))

def number : Walk (Option UInt32) := do
  let s ← get
  let r := Varint.read (s.data.drop s.offset)
  match r.size with
  | none => return none
  | some n =>
    set { s with offset := s.offset + n }
    return some r.value

def hasRoom (n : Nat) : Walk Bool := do
  let s ← get
  return decide (s.offset + n ≤ s.data.length)

def skip (n : Nat) : Walk Unit :=
  modify fun s => { s with offset := s.offset + n }

def put (offset : Nat) (b : Bytes) : Walk Unit :=
  modify fun s => { s with data := Varint.overwrite s.data offset b }

def textAt (offset length : Nat) : Walk Unit := do
  let s ← get
  put offset (decipherText (Bytes.window s.data offset length))

/-- Deciphers the text at the position, if the chunk is protected, and moves behind it. -/
def text (flag : Bool) (length : Nat) : Walk Unit := do
  if flag then textAt (← get).offset length
  skip length

/-! ## Code -/

def learn (seed : UInt16) : Walk Unit :=
  modify fun s => { s with seed := if seed = 0xFFFF then none else some seed }

def searchSeed (offset count : Nat) (line : UInt32) : Walk (Option UInt16) := do
  let region := Bytes.window (← get).data offset (4 * count)
  if count = 0 then return none
  match findSeed line region with
  | none => return none
  | some seed =>
    put offset (decipherCode line seed region)
    return some seed

def codeUnder (offset count : Nat) (line : UInt32) (seed : UInt16) : Walk Unit := do
  let region := Bytes.window (← get).data offset (4 * count)
  put offset (decipherCode line seed region)

def decipherWith (offset count : Nat) (line : UInt32) (depth : Int) : Walk Bool := do
  match (← get).seed with
  | some seed =>
    codeUnder offset count line seed
    return true
  | none =>
    match ← searchSeed offset count line with
    | some seed =>
      learn seed
      return true
    | none =>
      say depth "[!] Brute-force failed"
      return false

def repairAt (offset count : Nat) (constants : Int) : Walk Unit := do
  let region := Bytes.window (← get).data offset (4 * count)
  put offset (ofWords (repair constants count (words region)))

def code (offset count : Nat) (line : UInt32) (constants : Int) (depth : Int) : Walk Unit := do
  if count = 0 then return
  if ← decipherWith offset count line depth then repairAt offset count constants

/-- The stack size of a function whose code names registers up to `top`, when the chunk says
`size`. -/
def stackSize (top : Nat) (size : UInt8) : UInt8 :=
  if size.toNat ≤ top + 5 then (if 240 ≤ top then 250 else UInt8.ofNat (top + 8)) else size

/-- Raises the stack size that stands at a position to what the code of a function needs. -/
def fitStack (position offset count : Nat) : Walk Unit := do
  let s ← get
  let top := highestRegister (words (Bytes.window s.data offset (4 * count)))
  put position [stackSize top (s.data.getD position 0)]

/-! ## Constants and captured variables -/

def constantSize? (tag : UInt8) : Option Nat :=
  if tag = 0x00 ∨ tag = 0x01 ∨ tag = 0x11 then some 0
  else if tag = 0x03 ∨ tag = 0x13 then some 8
  else none

def isTextTag (tag : UInt8) : Bool :=
  tag == 0x04 || tag == 0x14

def textLength (n : UInt32) : Nat :=
  n.toNat - 1

def unknownTag (i : Nat) (tag : UInt8) : String :=
  "  [K" ++ Decimal.nat i ++ "] UNKNOWN CONST TAG " ++ Decimal.nat tag.toNat ++ " (0x" ++
    Hex.natPaddedUpper 2 tag.toNat ++ ") — stopping"

def constantsFrom (flag : Bool) (depth : Int) : Nat → Nat → Walk Unit
  | 0, _ => return
  | n + 1, i => do
    let s ← get
    match s.data[s.offset]? with
    | none => return
    | some tag =>
      skip 1
      match constantSize? tag with
      | some size =>
        if ← hasRoom size then
          skip size
          constantsFrom flag depth n (i + 1)
      | none =>
        if isTextTag tag then
          match ← number with
          | none => return
          | some v =>
            if ← hasRoom (textLength v) then
              text flag (textLength v)
              constantsFrom flag depth n (i + 1)
        else say depth (unknownTag i tag)

def constants (flag : Bool) (depth : Int) : Walk Unit := do
  match ← number with
  | none => return
  | some n => constantsFrom flag depth n.toNat 0

def recordsFrom : Nat → Walk Unit
  | 0 => return
  | n + 1 => do
    if ← hasRoom 3 then
      skip 3
      recordsFrom n

def upvalues : Walk Unit := do
  match ← number with
  | none => return
  | some n => recordsFrom n.toNat

/-! ## Debug information -/

def name (flag : Bool) : Walk Bool := do
  match ← number with
  | none => return false
  | some v =>
    if v = 0 then return true
    if ← hasRoom (textLength v) then
      text flag (textLength v)
      return true
    else return false

/-- Repeats a step `n` times, as long as it succeeds; tells whether it always did. -/
def repeatWhile (step : Walk Bool) : Nat → Walk Bool
  | 0 => return true
  | n + 1 => do
    if ← step then repeatWhile step n else return false

def counted (step : Walk Bool) : Walk Bool := do
  match ← number with
  | none => return false
  | some n => repeatWhile step n.toNat

def pair : Walk Bool := do
  if (← number).isSome then return (← number).isSome else return false

def lineInfo (depth : Int) : Walk Bool := do
  match ← number with
  | none => return false
  | some n =>
    if ← hasRoom n.toNat then
      skip n.toNat
      return true
    else
      say depth "[WARN] lineinfo outside file bounds"
      return false

def localVariable (flag : Bool) : Walk Bool := do
  if ← name flag then pair else return false

def debugInfo (flag : Bool) (depth : Int) : Walk Unit := do
  if ← lineInfo depth then
    if ← counted pair then
      if ← counted (localVariable flag) then
        let _ ← counted (name flag)

/-! ## Functions -/

def maxDepth : Int := 50

def maxChildren : Nat := 10000

def maxChildLength : Nat := 10000000

/-- The complaint about a nested function that does not move the position. -/
def stuckChild (i : Nat) : String :=
  "[ERR] Proto " ++ Decimal.nat i ++ " didn't advance offset"

def longChild (i consumed : Nat) : String :=
  "[ERR] Proto " ++ Decimal.nat i ++ " consumed too much: " ++ Decimal.nat consumed ++ " bytes"

/-- Nested functions, the first of which is the `i`-th: each must move the position, and not too
far. -/
def childrenFrom (child : Walk Unit) (depth : Int) : Nat → Nat → Walk Unit
  | 0, _ => return
  | n + 1, i => do
    let start := (← get).offset
    child
    let consumed := (← get).offset - start
    if consumed = 0 then say depth (stuckChild i)
    else if maxChildLength < consumed then say depth (longChild i consumed)
    else childrenFrom child depth n (i + 1)

def spacedHex (b : Bytes) : String :=
  String.join (b.map fun x => Hex.natPaddedUpper 2 x.toNat ++ " ")

/-- Complaints about a number of nested functions, at a position, that is not believed. -/
def refuseCount (depth : Int) (start count : Nat) : Walk Unit := do
  say depth ("[ERR] Unreasonable proto count: " ++ Decimal.nat count)
  say depth ("     at offset " ++ Decimal.nat start ++ ", bytes: " ++
    spacedHex (Bytes.window (← get).data start 8))

def childrenWith (child : Walk Unit) (depth : Int) : Walk Unit := do
  if maxDepth < depth then say depth "[ERR] Max proto depth exceeded"
  else
    let start := (← get).offset
    match ← number with
    | none => say depth "[ERR] Failed to read proto count"
    | some n =>
      if maxChildren < n.toNat then refuseCount depth start n.toNat
      else childrenFrom child depth n.toNat 0

def source (flag : Bool) (depth : Int) : Walk Bool := do
  match ← number with
  | none => return false
  | some v =>
    if v = 0 then return true
    if ← hasRoom (textLength v) then
      let start := (← get).offset
      text flag (textLength v)
      let shown := (Bytes.window (← get).data start (textLength v)).takeWhile (· != 0)
      printBytes (Bytes.ofString (indent depth ++ "Source: ") ++ shown ++ [10])
      return true
    else return false

def signed (n : UInt32) : Int :=
  if n.toNat < 0x80000000 then n.toNat else (n.toNat : Int) - 0x100000000

def sections (flag : Bool) (depth : Int) (child : Walk Unit) : Walk Unit := do
  constants flag depth
  upvalues
  childrenWith child depth
  debugInfo flag depth

/-- The code section of a function defined at a line, whose stack size stands at a position; tells
whether it was there. -/
def codeSection (flag : Bool) (depth : Int) (line : UInt32) (stackPosition : Nat) :
    Walk Bool := do
  match ← number with
  | none => return false
  | some n =>
    let count := n.toNat
    let s ← get
    let start := s.offset
    let constantCount := signed (Varint.read (s.data.drop (start + 4 * count))).value
    if flag && count != 0 then
      code start count line constantCount depth
      fitStack stackPosition start count
    skip (4 * count)
    return true

def functionWith (flag : Bool) (depth : Int) (child : Walk Unit) : Walk Unit := do
  if ← source flag depth then
    match ← number with
    | none => return
    | some line =>
      match ← number with
      | none => return
      | some _ =>
        if ← hasRoom 3 then
          let stackPosition := (← get).offset + 2
          skip 3
          if ← codeSection flag depth line stackPosition then sections flag depth child

def functionUpTo (flag : Bool) : Nat → Int → Walk Unit
  | 0, depth => functionWith flag depth (pure ())
  | levels + 1, depth => functionWith flag depth (functionUpTo flag levels (depth + 1))

def levelsFrom (depth : Int) : Nat :=
  (maxDepth + 1 - depth).toNat

def function (flag : Bool) (depth : Int) : Walk Unit :=
  functionUpTo flag (levelsFrom depth) depth

def children (flag : Bool) (depth : Int) : Walk Unit :=
  childrenWith (function flag (depth + 1)) depth

end Walk

end Salvage.Chunk
