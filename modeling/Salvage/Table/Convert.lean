import Salvage.Doc.Printer
import Salvage.Job.Basic

/-!
# Converting table files

A table file becomes a tab-separated file at the same place below the output directory. The
conversion counts as passed when the table is empty, when the text is larger than the file, or when
enough of the announced rows were found.
-/

namespace Salvage.Table

open Job

/-! ## One file -/

structure Conversion where
  success : Bool
  status : String
  rows : Int
  columns : Int
  inputSize : Nat
  outputSize : Nat
  outputPath : Option String := none
  error : Option String := none
  relativePath : String

def optionalField (name : String) (s : Option String) : List (String × Doc) :=
  match s with
  | some s => [(name, .str s)]
  | none => []

def Conversion.toDoc (c : Conversion) : Doc :=
  .obj <|
    [("success", .bool c.success), ("status", .str c.status), ("rows", .int c.rows),
      ("columns", .int c.columns), ("input_size", .int c.inputSize),
      ("output_size", .int c.outputSize)] ++
    optionalField "output_path" c.outputPath ++ optionalField "error" c.error ++
    [("relative_path", .str c.relativePath)]

instance : ToDoc Conversion := ⟨Conversion.toDoc⟩

def fileExtension : String := ".tab.bytes"

def textName (path : String) : String :=
  Text.replaceAll (PathText.base path) fileExtension ".tsv"

/-- The verdict on a table whose text has a size: passed with a word, or failed with a word and a
reason. -/
inductive Verdict where
  | passed (status : String)
  | failed (status reason : String)

def judge (t : Table) (inputSize outputSize : Nat) : Verdict :=
  let n := t.rows.length
  if n = 0 ∧ t.rowCount = 0 then .passed "PASS (empty table)"
  else if inputSize < outputSize then .passed "PASS"
  else if 0 < t.rowCount ∧ (n : Int) = t.rowCount then .passed "PASS (complete)"
  else if 0 < n ∧ 50 ≤ outputSize then .passed "PASS"
  else if n = 0 then
    .failed "FAIL - no rows parsed" "Failed to parse any rows from non-empty file"
  else
    .failed "FAIL - incomplete parse"
      ("Parsed " ++ Decimal.nat n ++ "/" ++ Decimal.int t.rowCount ++ " rows, output too small")

def say (verbose : Bool) (s : String) : Job Unit :=
  if verbose then print s else pure ()

def loadFile (path : String) : Job Table := do
  let loaded := load (← readFile path)
  printAll loaded.notes
  match loaded.fault with
  | some f => throw (.table f)
  | none => return loaded.table

/-- Brings a table that was loaded from a file to the output directory: the file itself if that is text
already, and otherwise a text, which is written in the working directory and moved when it passes. -/
def deliver (t : Table) (path relativePath outputBase : String) (inputSize : Nat) (verbose : Bool) :
    Job Conversion := do
  let name := textName path
  let outputDir := PathText.join outputBase (PathText.directory relativePath)
  makeDirectories outputDir
  let target := PathText.join outputDir name
  if isText (← readFile path) then
    change (·.copy path target)
    return { success := true, status := "PASS (already TSV)", rows := t.rowCount
             columns := t.columnCount.getD 0, inputSize := inputSize, outputSize := inputSize
             outputPath := some target, relativePath := relativePath }
  writeText name t.toTsv
  let outputSize ← fileSize name
  say verbose ("  Output size: " ++ Decimal.grouped outputSize ++ " bytes")
  say verbose ("  Rows parsed: " ++ Decimal.nat t.rows.length)
  let report : Conversion :=
    { success := true, status := "", rows := t.rows.length, columns := t.columns.length
      inputSize := inputSize, outputSize := outputSize, relativePath := relativePath }
  match judge t inputSize outputSize with
  | .passed status =>
    change (·.move name target)
    say verbose ("  Status: ✓ " ++ status)
    say verbose ("  Moved to: " ++ target)
    return { report with status := status, outputPath := some target }
  | .failed status reason =>
    if ← pathExists name then removeFile name
    say verbose ("  Status: ✗ " ++ status)
    return { report with success := false, status := status, error := some reason }

def convertFileRaw (path inputBase outputBase : String) (verbose : Bool) : Job Conversion := do
  let inputSize ← fileSize path
  say verbose ("\nProcessing: " ++ path)
  say verbose ("  Input size: " ++ Decimal.grouped inputSize ++ " bytes")
  let t ← loadFile path
  let relativePath ← relative path inputBase
  deliver t path relativePath outputBase inputSize verbose

/-- Gives up a file for a fault: a text that was left behind is removed, and the fault is reported. -/
def abandon (path inputBase : String) (verbose : Bool) (f : Fault) : Job Conversion := do
  say verbose ("  Status: ✗ ERROR: " ++ f.message)
  let name := textName path
  if ← pathExists name then removeFile name
  let relativePath ← relative path inputBase
  let inputSize ← if ← pathExists path then fileSize path else pure 0
  return { success := false, status := "ERROR", rows := 0, columns := 0, inputSize := inputSize
           outputSize := 0, error := some f.message, relativePath := relativePath }

def convertFile (path inputBase outputBase : String) (verbose : Bool) : Job Conversion :=
  recover (convertFileRaw path inputBase outputBase verbose) (abandon path inputBase verbose)

/-! ## Whole directories -/

def filesEndingIn (extension dir : String) : Job (List String) := do
  return ((← tree).filesBelow dir).filter (Text.endsWith · extension)

def rule : String :=
  String.ofList (List.replicate 80 '=')

def numbered {α : Type} (xs : List α) : List (Nat × α) :=
  (List.range xs.length).map (· + 1) |>.zip xs

def reportEntry (path : String) (c : Conversion) : Doc :=
  .obj <|
    [("filename", .str (PathText.base path)), ("relative_path", .str c.relativePath),
      ("input_path", .str path), ("status", .str c.status), ("rows", .int c.rows),
      ("columns", .int c.columns), ("input_size", .int c.inputSize),
      ("output_size", .int c.outputSize)] ++
    (if c.success then optionalField "output_path" c.outputPath
      else [("error", .str (c.error.getD "Unknown error"))])

abbrev Conversions := List (String × Conversion)

def convertListed (inputDir outputDir : String) (total : Nat) (item : Nat × String) :
    Job (String × Conversion) := do
  let (i, path) := item
  let relativePath ← relative path inputDir
  put ("[" ++ Decimal.nat i ++ "/" ++ Decimal.nat total ++ "] " ++ relativePath ++ "... ")
  let c ← convertFile path inputDir outputDir false
  if c.success then print ("✓ (" ++ Decimal.int c.rows ++ " rows)")
  else print ("✗ " ++ c.status)
  return (path, c)

def printSummary (total passed : Nat) (failures : List (String × String)) : Job Unit := do
  print ("\n" ++ rule)
  print "\nSUMMARY:"
  print ("  Total files: " ++ Decimal.nat total)
  let share (n : Nat) := Decimal.nat n ++ " (" ++ Percent.render 1 n total ++ "%)"
  print ("  Passed: " ++ share passed)
  print ("  Failed: " ++ share failures.length)
  if !failures.isEmpty then
    print "\nFAILED FILES:"
    printAll (failures.map fun (path, reason) => "  - " ++ path ++ ": " ++ reason)
  print "\nResults saved to:"

def convertDirectory (inputDir outputDir : String) : Job Unit := do
  print ("Searching for .tab.bytes files in: " ++ inputDir)
  let files ← filesEndingIn fileExtension inputDir
  if files.isEmpty then
    print "No .tab.bytes files found!"
    return
  let shownIn ← absolute inputDir
  let shownOut ← absolute outputDir
  let total := files.length
  print ("Found " ++ Decimal.nat total ++ " .tab.bytes files")
  print ("Output will preserve directory structure to: " ++ shownOut ++ "\n")
  print rule
  let results ← (numbered files).mapM (convertListed inputDir outputDir total)
  let (passed, failed) := results.partition (·.2.success)
  let entries (xs : Conversions) : Doc := .arr (xs.map fun (p, c) => reportEntry p c)
  let report : Doc := .obj
    [("metadata", .obj
        [("timestamp", .str (← get).now), ("input_directory", .str shownIn),
          ("output_directory", .str shownOut), ("total_files", .int total),
          ("passed_count", .int passed.length), ("failed_count", .int failed.length),
          ("success_rate", .str (Percent.render 1 passed.length total ++ "%"))]),
      ("passed", entries passed), ("failed", entries failed)]
  let reportPath := PathText.join outputDir "parse_results.json"
  writeText reportPath (report.render .report)
  printSummary total passed.length
    (failed.map fun (_, c) => (c.relativePath, c.error.getD "Unknown error"))
  print ("  TSV files: " ++ shownOut)
  print ("  JSON report: " ++ reportPath)

/-- The command line of a conversion of the files with an ending, to a folder unless another is given. -/
def convertCommandBy (script ending folder : String) (convert : String → String → Job Unit) :
    List String → Job Unit
  | [] =>
    printAll
      ["Usage: python " ++ script ++ " <input_directory> [output_directory]",
        "  input_directory: Directory containing " ++ ending ++ " files",
        "  output_directory: Base directory for output (default: '" ++ folder ++ "')",
        "\nDirectory structure will be preserved from input to output"]
  | [inputDir] => convert inputDir folder
  | inputDir :: outputDir :: _ => convert inputDir outputDir

def convertCommand : List String → Job Unit :=
  convertCommandBy "batch.py" ".tab.bytes" "./parsed_tables" convertDirectory

end Salvage.Table
