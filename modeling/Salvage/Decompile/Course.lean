import Salvage.Job.Basic
import Salvage.Number.Whole
import Salvage.Text.Case

/-!
# Decompiling a game's scripts

Each compiled script below a directory is given to the decompiler; the literals of what comes out are
decoded, and the result is kept beside the structure of the directory. The scripts are taken one by
one, or handed to a pool of workers.
-/

namespace Salvage.Decompile

open Job

/-! ## One script -/

inductive Failure where
  | noOutput (complaint : String)
  | failed (output : String)
  | tooSmall (length : Nat)
  | timeout
  | fault (f : Fault)

def Failure.message : Failure → String
  | noOutput _ => "No output"
  | failed _ => "Decompilation error"
  | tooSmall _ => "Output too small"
  | timeout => "Timeout"
  | fault f => f.message

def front (n : Nat) (s : String) : String :=
  String.ofList (s.toList.take n)

def Failure.lines : Failure → List String
  | noOutput complaint =>
    "   ✗ No output from unluac" ::
      (if complaint.isEmpty then [] else ["   Error: " ++ front 100 complaint])
  | failed output => ["   ✗ unluac error", "   Output: " ++ front 200 output]
  | tooSmall n => ["   ✗ Output too small (" ++ Decimal.nat n ++ " bytes)"]
  | timeout => ["   ✗ Timeout (>60s)"]
  | fault f => ["   ✗ Error: " ++ f.message]

def leastLength : Nat := 10

def written (b : Bytes) : String :=
  String.ofList (unifyLineEnds (Utf8.decodeReplacing b).toList)

def judge (run : Decompiler.Run) : Except Failure String :=
  let output := Text.strip (written run.output)
  if run.hangs then .error .timeout
  else if output.isEmpty then .error (.noOutput (written run.complaint))
  else if Text.startsWith output "Exception" || Text.holds (Text.lower (front 100 output)) "error" then
    .error (.failed output)
  else if output.length < leastLength then .error (.tooSmall output.length)
  else .ok output

def tell (verbose : Bool) (lines : List String) : Job Unit :=
  if verbose then printAll lines else return

def runOf (input : Path) : Job Decompiler.Run := do
  match (← get).decompiler with
  | some d => return d.run input.name
  | none => throw (.file { cause := .missing, path := "java" })

def keepScript (output : Path) (text : String) : Job Unit := do
  let text ← ofExcept .literal (Literal.decodeAll text)
  makePath output.parent
  writeText output.text text

def attemptScript (input output : Path) (verbose : Bool) : Job (Option Failure) := do
  tell verbose ["   → Decompiling with unluac..."]
  match judge (← runOf input) with
  | .error failure => return some failure
  | .ok text =>
    tell verbose ["   → Decoding Chinese characters..."]
    keepScript output text
    tell verbose ["   ✓ Success"]
    return none

def script (input output : Path) (number : Int) (verbose : Bool) : Job (Option Failure) := do
  tell verbose ["\n[" ++ Decimal.int number ++ "] " ++ input.name]
  let failure ← recover (attemptScript input output verbose) fun f => return some (.fault f)
  tell verbose (failure.elim [] Failure.lines)
  return failure

/-! ## Many scripts -/

def withExtension (p : Path) (ext : String) : Except Fault Path :=
  match p.withExtension? ext with
  | some q => .ok q
  | none => .error (.noName p.text)

/-- Where a decompiled script is kept: as from the directory `base`, so from the directory `output`,
with an extension of its own. -/
def targetOf (base input output : Path) : Except Fault Path := do
  match input.relativeTo? base with
  | none => throw (.notBelow input.text base.text)
  | some name =>
    let target := output.append name
    let target ← if target.extension = ".bytes" then withExtension target "" else pure target
    if target.extension = ".lua" then return target else withExtension target ".lua"

def collect (t : Tree) (dir : Path) : List Path :=
  (t.matchingBelow dir "*.luac" ++ t.matchingBelow dir "*.bytes").mergeSort fun p q =>
    Tree.namesBefore p.parts q.parts

/-- How many scripts were met and decompiled, and the failures by file name. -/
structure Counts where
  success : Nat := 0
  failures : List (String × Failure) := []

def Counts.failed (c : Counts) : Nat := c.failures.length

def Counts.total (c : Counts) : Nat := c.success + c.failed

instance : ToDoc Counts := ⟨fun c =>
  .obj [("total", .int c.total), ("success", .int c.success), ("failed", .int c.failed)]⟩

def Counts.count (c : Counts) (name : String) : Option Failure → Counts
  | none => { c with success := c.success + 1 }
  | some f => { c with failures := c.failures ++ [(name, f)] }

def listFailures (c : Counts) : Job Unit :=
  if c.failures.isEmpty then return
  else printAll (["\n" ++ Text.line '=' 40, "FAILED FILES:", Text.line '=' 40] ++
    c.failures.map fun (name, f) => "  " ++ name ++ ": " ++ f.message)

/-- The compiled scripts below a directory; says so if there are none. -/
def found (input : Path) : Job (List Path) := do
  let files := collect (← tree) input
  if files.isEmpty then print "No .luac or .lua.bytes files found"
  return files

def oneByOne (input output : Path) : Nat → List Path → Counts → Job Counts
  | _, [], c => return c
  | i, p :: r, c => do
    let target ← ofExcept id (targetOf input p output)
    let failure ← script p target (i + 1) true
    oneByOne input output (i + 1) r (c.count p.name failure)

def serially (input output : Path) : Job Counts := do
  let files ← found input
  if files.isEmpty then return {}
  print ("Found " ++ Decimal.nat files.length ++ " files to process\n")
  let c ← oneByOne input output 0 files {}
  listFailures c
  return c

structure Task where
  input : Path
  output : Path
deriving DecidableEq

def Task.run (t : Task) : Job (Option Failure) :=
  script t.input t.output 0 false

def runAll : List Task → Job (List (Task × Option Failure))
  | [] => return []
  | t :: r => do
    let failure ← t.run
    return (t, failure) :: (← runAll r)

def countAll (n : Nat) : Nat → List (Task × Option Failure) → Counts → Job Counts
  | _, [], c => return c
  | i, (t, failure) :: r, c => do
    let sign := if failure.isNone then "✓" else "✗"
    print ("[" ++ Decimal.nat (i + 1) ++ "/" ++ Decimal.nat n ++ "] " ++ sign ++ " " ++ t.input.name)
    countAll n (i + 1) r (c.count t.input.name failure)

def tasksOf (input output : Path) (files : List Path) : Except Fault (List Task) :=
  files.mapM fun p => do return { input := p, output := ← targetOf input p output }

def inParallel (input output : Path) (workers : Int) : Job Counts := do
  let files ← found input
  if files.isEmpty then return {}
  print ("Found " ++ Decimal.nat files.length ++ " files to process")
  print ("Using " ++ Decimal.int workers ++ " parallel workers")
  print "Processing...\n"
  let tasks ← ofExcept id (tasksOf input output files)
  if workers ≤ 0 then throw .noWorkers
  let c ← countAll files.length 0 (← runAll tasks) {}
  listFailures c
  return c

/-! ## The command line -/

def usage : List String :=
  ["Usage: python batch.py <input_dir> <output_dir> [--parallel N]", "",
   "  --parallel N    Use N parallel workers (default: serial)", "", "Examples:",
   "  python batch.py lua/ lua_dec/", "  python batch.py lua/ lua_dec/ --parallel 4"]

def usualWorkers : Int := 8

/-- The number of workers among the arguments after the directories, if a pool is asked for. -/
def workersOf : List String → Except Fault (Option Int)
  | "--parallel" :: n :: _ =>
    match Whole.ofText? n with
    | some n => .ok (some n)
    | none => .error (.noNumber n)
  | ["--parallel"] => .ok (some usualWorkers)
  | _ => .ok none

def printCounts (c : Counts) : Job Unit := do
  let share (label : String) (n : Nat) :=
    label ++ Decimal.nat n ++ " (" ++ Percent.renderOnce 1 n c.total ++ "%)"
  printAll (["\n" ++ Text.line '=' 40, "BATCH DECOMPILATION COMPLETE", Text.line '=' 40,
    "Total files:      " ++ Decimal.nat c.total] ++
    (if c.total = 0 then []
      else [share "Successful:       " c.success, share "Failed:           " c.failed]) ++ [""])

/-- Decompiles the scripts below a directory, as arguments ask for it; the exit code. -/
def command : List String → Job (Option Int)
  | input :: output :: options => do
    let input := Path.ofString input
    let output := Path.ofString output
    let workers ← ofExcept id (workersOf options)
    if !(← pathExists "unluac.jar") then
      print "Error: unluac.jar not found in current directory"
      return some 1
    if !(← isDirectory input.text) then
      print ("Error: " ++ input.text ++ " is not a directory")
      return some 1
    printAll ["Batch decompilation with unluac", "Input:  " ++ input.text,
      "Output: " ++ output.text, Text.line '-' 40]
    makePath output
    let c ← match workers with
      | some n => inParallel input output n
      | none => serially input output
    printCounts c
    return some (if c.failed = 0 then 0 else 1)
  | _ => do
    printAll usage
    return some 1

end Salvage.Decompile
