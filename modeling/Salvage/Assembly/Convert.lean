import Salvage.Job.Basic

/-!
# Program libraries under their own names

A library or its debug data arrives in a file whose name ends in `.bytes`, and is copied to a file
with the name that belongs to its content.
-/

namespace Salvage.Assembly

open Job

/-! ## Recognition

Updates bring program libraries and their debug data under names that do not say what they are. Both
are recognised by their first octets.
-/

def numberAt (b : Bytes) (place n : Nat) : Nat :=
  Bytes.littleEndian (Bytes.window b place n)

/-- Whether octets are a program library: they start with a mark, the second header is where the
first one says, and the bit for libraries is set in it, unless that header is cut off before it. -/
def isLibrary (b : Bytes) : Bool :=
  let header := numberAt b 0x3C 2
  256 ≤ b.length && b.take 2 == Bytes.ofString "MZ" && header + 4 < b.length &&
    Bytes.window b header 4 == Bytes.ofString "PE" ++ [0, 0] &&
    (b.length < header + 0x18 || numberAt b (header + 0x16) 2 / 0x2000 % 2 == 1)

/-- Whether octets are debug data: they start with a mark, or name their maker early. -/
def isDebugData (b : Bytes) : Bool :=
  32 ≤ b.length &&
    (b.take 4 == Bytes.ofString "BSJB" || (Bytes.ofString "Microsoft C/C++").contains (b.take 50))

inductive Kind where
  | library | debugData | unknown

def Kind.ofBytes (b : Bytes) : Kind :=
  if isLibrary b then library
  else if isDebugData b then debugData
  else unknown

def Kind.name : Kind → String
  | library => "dll"
  | debugData => "pdb"
  | unknown => "unknown"

/-! ## New names -/

def extension : String := ".bytes"

structure Naming where
  name : String
  words : String

def withoutEnd (name ending : String) : String :=
  String.ofList (name.toList.take (name.length - ending.length))

/-- The new name of a file, or why it gets none. A name with two extensions says what the file is,
which must be so; debug data of more than a hundred octets is taken as it is, as is everything
when `unchecked`. -/
def naming (name : String) (b : Bytes) (unchecked : Bool) : Except String Naming :=
  if Text.endsWith name ".dll.bytes" then
    if isLibrary b then .ok ⟨Text.replaceAll name ".dll.bytes" ".dll", "DLL"⟩
    else .error ("Invalid DLL format: " ++ name)
  else if Text.endsWith name ".pdb.bytes" then
    if unchecked || isDebugData b || 100 < b.length then
      .ok ⟨Text.replaceAll name ".pdb.bytes" ".pdb", "PDB"⟩
    else .error ("Invalid PDB format: " ++ name)
  else if Text.endsWith name extension then
    let front := withoutEnd name extension
    match Kind.ofBytes b with
    | .library => .ok ⟨front ++ ".dll", "DLL (auto-detected)"⟩
    | .debugData => .ok ⟨front ++ ".pdb", "PDB (assumed)"⟩
    | .unknown =>
      if unchecked then .ok ⟨front ++ ".pdb", "PDB (assumed)"⟩
      else .ok ⟨front, "Unknown (kept as-is)"⟩
  else .error ("Not a .bytes file: " ++ name)

structure Plan where
  target : Option Path := none
  remove : Bool := false
  unchecked : Bool := false

structure Outcome where
  done : Bool
  words : String

instance : ToDoc Outcome := ⟨fun o => .arr [.bool o.done, .str o.words]⟩

def copyFile (plan : Plan) (path : Path) (b : Bytes) (n : Naming) : Job Outcome := do
  let target := (plan.target.getD path.parent).child n.name
  writeFile target.text b
  let words := "Converted " ++ n.words ++ ": " ++ path.name ++ " -> "
  if !plan.remove then return ⟨true, words ++ target.text⟩
  match ← attempt (removeFile path.text) with
  | .ok () => return ⟨true, words ++ target.text⟩
  | .error f =>
    return ⟨true, words ++ target.name ++ " (Warning: Could not remove source: " ++ f.message ++ ")"⟩

def convertFile (plan : Plan) (path : Path) : Job Outcome :=
  recover (do
      let b ← readFile path.text
      match naming path.name b plan.unchecked with
      | .error words => return ⟨false, words⟩
      | .ok n => copyFile plan path b n)
    fun f => return ⟨false, "Error converting " ++ path.name ++ ": " ++ f.message⟩

structure Tally where
  total : Nat := 0
  success : Nat := 0
  failed : Nat := 0

instance : ToDoc Tally := ⟨fun t =>
  .obj [("total", .int t.total), ("success", .int t.success), ("failed", .int t.failed)]⟩

def Tally.count (t : Tally) (done : Bool) : Tally :=
  if done then { t with success := t.success + 1 } else { t with failed := t.failed + 1 }

def convertEach (plan : Plan) : List Path → Tally → Job Tally
  | [], t => return t
  | p :: r, t => do
    let o ← convertFile plan p
    print ((if o.done then "✓ " else "✗ ") ++ o.words)
    convertEach plan r (t.count o.done)

def convertFound (plan : Plan) (source : String) (files : List Path) : Job Tally := do
  if files.isEmpty then
    print ("No .bytes files found in '" ++ source ++ "'")
    return {}
  print ("Found " ++ Decimal.nat files.length ++ " .bytes file(s) in '" ++ source ++ "'")
  if plan.unchecked then print "Note: PDB validation is disabled - all files will be converted"
  print (Text.line '-' 80)
  let t ← convertEach plan files { total := files.length }
  print (Text.line '-' 80)
  print ("Conversion complete: " ++ Decimal.nat t.success ++ " succeeded, " ++
    Decimal.nat t.failed ++ " failed")
  return t

def filesIn (t : Tree) (dir : Path) (recursive : Bool) : List Path :=
  if recursive then t.matchingBelow dir "*.bytes" else t.matching dir "*.bytes"

def makeTarget : Option Path → Job Unit
  | none => return
  | some target => do
    makePath target
    print ("Output directory: " ++ target.text)

def convertAll (source : String) (target : Option String) (remove recursive unchecked : Bool) :
    Job (Option Tally) := do
  let dir := Path.ofString source
  if !(← pathExists dir.text) then
    print ("Error: Source directory '" ++ source ++ "' does not exist")
    return none
  let target := (target.filter (· ≠ "")).map Path.ofString
  makeTarget target
  return some (← convertFound { target, remove, unchecked } source (filesIn (← tree) dir recursive))

end Salvage.Assembly
