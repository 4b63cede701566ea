import Salvage.Envelope.Basic
import Salvage.Job.Walk
import Salvage.Text.Case

/-!
# Scripts in envelopes

A script is compressed and put into an envelope. All scripts below a directory are taken out into
files in the same places below another directory.
-/

namespace Salvage.Envelope

open Job

def scriptPassword : Bytes :=
  [0xF3, 0x08, 0x47, 0xCE, 0xE4, 0xD5, 0xBD, 0x81, 0xC9, 0xF9, 0xF0, 0x12, 0x2D, 0x19, 0xE0, 0x1E,
   0xD0, 0xAA, 0xDD, 0x7A, 0xDE, 0x8B, 0x3C, 0x73, 0x74, 0xB3, 0xD1, 0xEF, 0x9F, 0xC5, 0xDF, 0xC3]

def packScript (text : String) : Job Bytes :=
  encrypt (Gzip.compress (Utf8.encode text)) scriptPassword

def unpackScript (b : Bytes) : Job String := do
  let compressed ← decrypt b scriptPassword
  let text ← ofExcept .gzip (Gzip.decompress compressed)
  ofExcept .text (Utf8.decode text)

/-! ## Directories -/

structure Tally where
  processed : Nat := 0
  succeeded : Nat := 0
  failed : Nat := 0
  skipped : Nat := 0

instance : ToDoc Tally := ⟨fun t =>
  .obj [("processed", .int t.processed), ("succeeded", .int t.succeeded), ("failed", .int t.failed),
    ("skipped", .int t.skipped)]⟩

def Tally.count (t : Tally) (done : Bool) : Tally :=
  if done then { t with processed := t.processed + 1, succeeded := t.succeeded + 1 }
  else { t with processed := t.processed + 1, failed := t.failed + 1 }

def Tally.skip (t : Tally) : Tally :=
  { t with skipped := t.skipped + 1 }

def Tally.lines (t : Tally) : List String :=
  ["\n" ++ Text.line '=' 60, "Decryption Summary", Text.line '=' 60,
   "Total files processed: " ++ Decimal.nat t.processed,
   "Successfully decrypted: " ++ Decimal.nat t.succeeded, "Failed: " ++ Decimal.nat t.failed,
   "Skipped (wrong extension): " ++ Decimal.nat t.skipped]

structure Filter where
  extensions : List String := [".bytes"]
  target : String := ".lua"
  verbose : Bool := true

/-- The new name of a file, if it holds a script: its extension in any case is replaced. -/
def Filter.newName? (f : Filter) (name : String) : Option String :=
  (f.extensions.find? fun e => Text.endsWith (Text.lower name) e).map fun e =>
    String.ofList (Bytes.cut name.toList 0 (-(e.length : Int))) ++ f.target

def kilobytes (n : Nat) : String :=
  Shortest.fixed 2 (Binary64.ofRatio false n 1024) ++ " KB"

def extractScript (f : Filter) (source target : Path) (new : String) : Job Bool :=
  recover (do
      let b ← readFile source.text
      let text ← unpackScript b
      writeText (target.child new).text text
      if f.verbose then
        print ("  ✓ " ++ source.name ++ " (" ++ kilobytes b.length ++ ", " ++
          Decimal.nat ((text.toList.filter (· = '\n')).length + 1) ++ " lines) -> " ++ new)
      return true)
    fun e => do
      print ("  ✗ Failed to decrypt " ++ source.name ++ ": " ++ e.message)
      return false

def extractNames (f : Filter) (source target : Path) : List String → Tally → Job Tally
  | [], t => return t
  | name :: r, t => do
    match f.newName? name with
    | none =>
      if f.verbose then print ("  ⊘ Skipped: " ++ name ++ " (not a target extension)")
      extractNames f source target r t.skip
    | some new =>
      let done ← extractScript f (source.child name) target new
      extractNames f source target r (t.count done)

def relativePart (start : Path) (v : Tree.Visit) : Path :=
  ((Path.ofString v.path).relativeTo? start).getD {}

def placeWords (p : Path) : String :=
  if p.text = "." then "(root)" else p.text

def extractScripts (source target : String) (f : Filter) : Job Tally := do
  let start := Path.ofString source
  let course ← walk (fun v t => do
      let rel := relativePart start v
      let dir := (Path.ofString target).append rel
      makePath dir
      if f.verbose && !v.files.isEmpty then
        print ("\n📁 Processing directory: " ++ placeWords rel)
      return .go (← extractNames f (Path.ofString v.path) dir v.files t)) start.text {}
  let t := course.value
  printAll t.lines
  print (Text.line '=' 60)
  return t

/-! ## The command -/

def commandFilter : Filter :=
  { extensions := [".bytes", ".lua.bytes", ".bin"] }

def closing (t : Tally) (target : String) : List String :=
  if 0 < t.succeeded then
    ["\n✓ Successfully decrypted " ++ Decimal.nat t.succeeded ++ " files!", "📂 Output saved to: " ++ target]
  else if t.processed = 0 then
    ["\n⚠ No .bytes files found to decrypt.",
     "Make sure your encrypted Lua files have the .bytes extension."]
  else
    ["\n⚠ All " ++ Decimal.nat t.processed ++ " files failed to decrypt.",
     "The AES key or encryption method might be incorrect."]

def scriptCommand (program : String) (args : List String) : Job (Option Int) := do
  let (source, target) ← match args with
    | a :: b :: _ => pure (a, b)
    | _ => do
      printAll
        ["Usage: " ++ program ++ " <input_dir> <output_dir>", "Using default directories:",
         "  Input:  encrypted_lua", "  Output: decrypted_lua\n"]
      pure ("encrypted_lua", "decrypted_lua")
  if !(← pathExists source) then
    printAll
      ["❌ Error: Input directory '" ++ source ++ "' does not exist!",
       "Please create it or specify a valid directory."]
    return some 1
  let shown ← absolute target
  printAll
    ["Starting recursive decryption...", "Input:  " ++ (← absolute source), "Output: " ++ shown,
     "Target: .bytes files → .lua files", Text.line '=' 60]
  let t ← extractScripts source target commandFilter
  printAll (closing t shown)
  return none

end Salvage.Envelope
