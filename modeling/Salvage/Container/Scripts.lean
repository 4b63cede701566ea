import Salvage.Job.Basic

/-!
# Containers of compiled scripts

A container of compiled scripts is one script after the other, each from its mark to the next one. A
script names the file it was made from.
-/

namespace Salvage.Container

def scriptMark : Bytes := [0x1B, 0x4C, 0x75, 0x61]

def chunksFrom : Nat → Bytes → List Bytes
  | 0, _ => []
  | fuel + 1, b =>
    match Bytes.findFrom? scriptMark b 4 with
    | none => [b]
    | some i => b.take i :: chunksFrom fuel (b.drop i)

def chunks (b : Bytes) : List Bytes :=
  match Bytes.find? scriptMark b with
  | none => []
  | some i => chunksFrom b.length (b.drop i)

/-! ## Names in scripts -/

def namePlace : Nat := 0x20

/-- The octets of the name in a script. The length, which counts one more than the name has, is one
octet, or eight octets after a full one; lengths of five thousand and more are not believed. -/
def nameBytes? (b : Bytes) : Option Bytes :=
  match b.drop namePlace with
  | [] => none
  | n :: r =>
    if n = 0xFF then
      if r.length < 8 then none
      else believed (Bytes.littleEndian (r.take 8)) (r.drop 8)
    else believed n.toNat r
where
  believed (n : Nat) (r : Bytes) : Option Bytes :=
    if 0 < n ∧ n < 5000 then some (r.take (n - 1)) else none

def isPathChar (c : Char) : Bool :=
  c.isAlphanum || c = '_' || c = '/' || c = '.' || c = '-'

def scriptEnd : List Char := ".lua".toList

def longestEndingReversed : List Char → Option (List Char)
  | [] => none
  | c :: r =>
    if scriptEnd.reverse.isPrefixOf (c :: r) && scriptEnd.length ≤ r.length then some (c :: r).reverse
    else longestEndingReversed r

def longestEnding (cs : List Char) : Option (List Char) :=
  longestEndingReversed cs.reverse

/-- The path in a name: the longest plain path that ends in `.lua` at the front, or else everything
printable up to the first `.lua`. -/
def pathIn? (cs : List Char) : Option (List Char) :=
  match longestEnding (cs.takeWhile isPathChar) with
  | some p => some p
  | none =>
    (Text.findList? scriptEnd cs).map fun i =>
      (cs.take (i + scriptEnd.length)).filter fun c => Text.isPrintable c || c = '/'

def sourceName? (b : Bytes) : Option String := do
  let cs := (Utf8.decodeSkipping (← nameBytes? b)).toList
  let cs := match cs with
    | '@' :: r => r
    | cs => cs
  return String.ofList (← pathIn? cs)

/-! ## Paths -/

def singleSlashes : List Char → List Char
  | [] => []
  | '/' :: r =>
    match singleSlashes r with
    | '/' :: q => '/' :: q
    | q => '/' :: q
  | c :: r => c :: singleSlashes r

/-- A name as a path below a directory: it starts with no slash, and no part of it leads upwards. -/
def safePath? (name : String) : Option String :=
  let s := Text.replaceAll (Text.replaceAll name "\\" "/") ".." "_"
  let cs := (singleSlashes s.toList).dropWhile (· = '/')
  if cs.isEmpty then none else some (String.ofList cs)

def beforeLastDot (cs : List Char) : List Char :=
  if cs.contains '.' then ((cs.reverse.dropWhile (· ≠ '.')).drop 1).reverse else cs

def compiledPath (path : String) : String :=
  if Text.endsWith path ".luac" then path
  else String.ofList (beforeLastDot path.toList) ++ ".luac"

def scriptPath? (b : Bytes) : Option String := do
  return compiledPath (← safePath? (← sourceName? b))

def namelessPath (n : Nat) : String :=
  "unknown/script_" ++ Decimal.natPadded 4 n ++ ".luac"

/-! ## Files -/

def writeScript (dir : String) (n : Nat) (b : Bytes) : Job Bool := do
  let known := scriptPath? b
  let path := known.getD (namelessPath n)
  let target := PathText.join dir path
  Job.recover (do
      Job.makeDirectories (PathText.directory target)
      Job.writeFile target b
      Job.print ("[" ++ (if known.isSome then "✓" else "?") ++ "] [" ++
        Decimal.padLeft ' ' 4 (Decimal.nat n) ++ "] " ++ Decimal.padRight ' ' 65 path ++ " (" ++
        Decimal.padLeft ' ' 7 (Decimal.groupedNat b.length) ++ " bytes)"))
    fun f => Job.print ("[-] Failed " ++ path ++ ": " ++ f.message)
  return known.isSome

/-- Writes scripts to files, the first one being the `n`-th; how many have names. -/
def writeScripts (dir : String) : Nat → List Bytes → Job Nat
  | _, [] => return 0
  | n, b :: r => do
    let known ← writeScript dir n b
    return (if known then 1 else 0) + (← writeScripts dir (n + 1) r)

def extractScripts (b : Bytes) (dir : String) : Job Nat := do
  Job.print "\n[*] Extracting Lua files...\n"
  let scripts := chunks b
  let known ← writeScripts dir 1 scripts
  Job.print ("\n[+] Extracted " ++ Decimal.nat known ++ "/" ++ Decimal.nat scripts.length ++
    " files with original paths")
  return scripts.length

end Salvage.Container
