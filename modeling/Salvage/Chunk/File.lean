import Salvage.Chunk.Decrypt
import Salvage.Chunk.Load
import Salvage.Workspace.Tree

/-!
# Chunk files

A protected chunk file has a header of its own, in which a flag says whether the functions are
enciphered, and sometimes a block of 128 octets behind it. A file is deciphered, brought into the
standard form, loaded, and written anew.
-/

namespace Salvage.Chunk

/-! ## Headers -/

def signature : Bytes := [0x1B, 0x4C, 0x75, 0x61]

def versionMark : UInt8 := 0x54

/-- Whether a file has a block of 128 octets behind its header: it is long enough, and what would
stand behind the block can be a number of captured variables. -/
def hasBlock (data : Bytes) : Bool :=
  decide (162 ≤ data.length) && Bytes.startsWith (signature ++ [versionMark]) data &&
    decide (data.getD 161 0 ≤ 20)

def functionOffset (data : Bytes) : Nat :=
  if hasBlock data then 161 else 33

def standardLength : Nat := 31

/-- A file without the two flags of its header and, if it is long enough, without the block. -/
def normalize (data : Bytes) : Bytes :=
  if 40 ≤ data.length ∧ Bytes.startsWith (signature ++ [versionMark, 0x30]) data then
    let short := data.take 5 ++ [0x00] ++ data.drop 8
    if standardLength + 128 < short.length then
      short.take standardLength ++ short.drop (standardLength + 128)
    else short
  else data

/-! ## Work -/

structure Bench where
  tree : Tree := {}
  seed : Option UInt16 := none
  total : Nat := 0
  succeeded : Nat := 0
  failed : Nat := 0
  printed : Bytes := []
  complaints : Bytes := []

abbrev Work := StateM Bench

namespace Work

def print (s : String) : Work Unit :=
  modify fun b => { b with printed := b.printed ++ Bytes.ofString s }

def complain (s : String) : Work Unit :=
  modify fun b => { b with complaints := b.complaints ++ Bytes.ofString s }

/-- Steps through a buffer, under the seed found last, which they may change; their result, and the
buffer and the position after them. -/
def walk {α : Type} (data : Bytes) (offset : Nat) (steps : Walk α) : Work (α × Bytes × Nat) := do
  let b ← get
  let (a, s) := steps.run { data := data, offset := offset, seed := b.seed }
  set { b with seed := s.seed, printed := b.printed ++ s.printed }
  return (a, s.data, s.offset)

def readInput (path : String) : Work (Option Bytes) := do
  match (← get).tree.read path with
  | .ok data =>
    if data.isEmpty then
      complain "Invalid file size\n"
      return none
    return some data
  | .error ⟨.isDirectory, _, _⟩ =>
    complain "Invalid file size\n"
    return none
  | .error f =>
    complain ("fopen input: " ++ f.cause.words.2 ++ "\n")
    return none

/-- Writes a file; tells whether it could be written. -/
def writeOutput (path : String) (data : Bytes) : Work Bool := do
  let b ← get
  match b.tree.write path data with
  | .ok t =>
    set { b with tree := t }
    return true
  | .error f =>
    complain ("fopen output: " ++ f.cause.words.2 ++ "\n")
    return false

def chunkName (path : String) : String :=
  match path.toList with
  | '@' :: rest => String.ofList rest
  | '=' :: rest => String.ofList rest
  | c :: rest => if c.toNat = 0x1B then "binary string" else String.ofList (c :: rest)
  | [] => ""

def flagText (b : UInt8) : String :=
  "0x" ++ Hex.natPaddedUpper 2 b.toNat

def decryptFunctions (data : Bytes) : Work Bytes := do
  let flag := data.getD 6 0
  if flag = 0 then
    print "  → File already decrypted, skipping decryption...\n"
    return data
  print ("  → Decrypting (flag=" ++ flagText flag ++ ")...\n")
  let ((), plain, _) ← walk data (functionOffset data + 1) (Walk.function true 0)
  return Varint.overwrite plain 6 [0]

/-- Loads a file in the standard form and writes it anew; tells whether it could be done. -/
def reload (input output : String) (data : Bytes) : Work Bool := do
  print "  → Validating with Lua VM...\n"
  match load data with
  | .error f =>
    complain ("Lua load error: " ++ chunkName input ++ ": bad binary format (" ++ f.message ++ ")\n")
    return false
  | .ok main =>
    if ← writeOutput output (encodeChunk main) then
      print ("✓ Output: " ++ output ++ "\n")
      return true
    else return false

def decryptFile (input output : String) : Work Bool := do
  match ← readInput input with
  | none => return false
  | some data =>
    print ("Input: " ++ input ++ " (" ++ Decimal.nat data.length ++ " bytes)\n")
    if data.length < 7 ∨ !Bytes.startsWith signature data then
      complain "Not a Lua chunk (bad signature)\n"
      return false
    print ("  Header: flag1=" ++ flagText (data.getD 5 0) ++ ", flag2=" ++
      flagText (data.getD 6 0) ++ (if hasBlock data then ", has RSA block" else "") ++ "\n")
    if data.length ≤ functionOffset data then
      complain "File too small for header\n"
      return false
    let plain ← decryptFunctions data
    print "  → Normalizing to standard format...\n"
    reload input output (normalize plain)

end Work

end Salvage.Chunk
