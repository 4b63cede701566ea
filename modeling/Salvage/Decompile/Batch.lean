import Salvage.Job.Basic

/-!
# Batches of decompiled scripts

A compiled script is given to the decompiler, and what that writes is kept as the script's text. Some
compiled scripts have four octets before their mark, which the decompiler does not take.
-/

namespace Salvage.Decompile

open Job

/-! ## Compiled scripts with four octets in front -/

/-- Whether four octets stand before the mark of a compiled script. -/
def hasFront (b : Bytes) : Bool :=
  8 ≤ b.length && b[4]? == some 0x1B && b[5]? == some 0x4C

/-- Copies a compiled script without the four octets before its mark; whether it had them. -/
def stripFront (source target : String) : Job Bool := do
  let data ← readFile source
  if hasFront data then
    note "    Stripping 4-byte prefix..."
    note ("    Prefix: 0x" ++ Hex.natPadded 8 (Bytes.littleEndian (data.take 4)))
    writeFile target (data.drop 4)
    return true
  else
    writeFile target data
    return false

/-! ## One file -/

def archive : String := "unluac.jar"

def ready : Job Decompiler := do
  if !(← pathExists archive) then throw (.refused (.noDecompiler archive))
  match (← get).decompiler with
  | none => throw (.refused .noMachine)
  | some d => return d

def keptLines (line : List Char) : List Char → List String
  | [] => if line.isEmpty then [] else [String.ofList line.reverse]
  | c :: r =>
    if c = '\n' then String.ofList (c :: line).reverse :: keptLines [] r
    else keptLines (c :: line) r

/-- The lines that can be read from what a program writes, and the fault that ends them. A sequence
that is only cut off is met after the whole lines before it, any other at once. -/
def outputLines (b : Bytes) : List String × Option Utf8.Fault :=
  let linesOf (s : String) := keptLines [] (unifyLineEnds s.toList)
  match Utf8.decode b with
  | .ok s => (linesOf s, none)
  | .error f =>
    if f.cause = .unexpectedEnd then
      let front := Utf8.decodeSkipping (b.take f.position)
      ((linesOf front).filter (Text.endsWith · "\n"), some { f with position := 0 })
    else ([], some f)

/-- Takes lines as long as the stop sign is down, with one look before each line and one at the end;
whether the end was reached. -/
def takeLines : List String → Job Bool
  | [] => do return !(← stopped)
  | _ :: r => do
    if ← stopped then return false
    takeLines r

def complaintLimit : Nat := 200

def keep (run : Decompiler.Run) (lines : List String) (target : String) : Job Bool := do
  let complaint ← ofExcept .text (Utf8.decode run.complaint)
  if run.code = 0 then
    makeDirectories (PathText.directory target)
    writeText target (String.join lines)
    note ("  ✓ Success! Saved to " ++ target)
    for line in lines.take 5 do
      note ("    " ++ Text.strip line)
    return true
  else
    complain ("  ✗ Failed with code " ++ Decimal.int run.code)
    let complaint := String.ofList (unifyLineEnds complaint.toList)
    if !complaint.isEmpty then
      complain ("  Error: " ++ String.ofList ((Text.strip complaint).toList.take complaintLimit))
    return false

/-- Gives a file to the decompiler and keeps what it writes; whether that succeeded. -/
def runOn (d : Decompiler) (source target : String) : Job Bool := do
  note "  Running unluac..."
  let run := d.run (PathText.base source)
  let (lines, fault) := outputLines run.output
  if !(← takeLines lines) then
    warn "  User requested stop — terminating unluac process..."
    warn "  Lua decompile aborted mid-file."
    return false
  match fault with
  | some f => throw (.text f)
  | none => keep run lines target

/-- Decompiles a file; whether that succeeded. With `strip`, the four octets before the mark are left
out of what the decompiler is given. -/
def file (d : Decompiler) (source target : String) (strip : Bool := true) : Job Bool := do
  note ("\nDecompiling: " ++ source)
  let data ← readFile source
  note ("  Size: " ++ Decimal.nat data.length ++ " bytes")
  note ("  First bytes: " ++ Hex.encode (data.take 20))
  let stripped := strip && hasFront data
  let given := if stripped then source ++ ".tmp" else source
  if stripped then discard (stripFront source given)
  ensure
    (recover (runOn d given target) fun f => do
      complain ("  ✗ Exception: " ++ f.message)
      return false)
    (do if stripped && (← pathExists given) then removeFile given)

/-! ## Batches -/

structure Tally where
  success : Nat := 0
  failures : List String := []

def Tally.failed (t : Tally) : Nat := t.failures.length

instance : ToDoc Tally := ⟨fun t => .obj [("success", .int t.success), ("failed", .int t.failed)]⟩

def Tally.count (t : Tally) (name : String) (success : Bool) : Tally :=
  if success then { t with success := t.success + 1 } else { t with failures := t.failures ++ [name] }

/-- Decompiles files below a directory until the stop sign is raised; `i` have been met of `n`. -/
def files (d : Decompiler) (input output : Path) (n : Nat) : Nat → List Path → Tally → Job Tally
  | _, [], t => return t
  | i, p :: r, t => do
    if ← stopped then
      warn "Decompilation aborted by user."
      return t
    let name := (p.relativeTo? input).getD p
    let target := output.append ((name.withExtension? ".lua").getD name)
    note ("[" ++ Decimal.nat (i + 1) ++ "/" ++ Decimal.nat n ++ "] " ++ name.text)
    let success ← recover (file d p.text target.text) fun f => do
      complain ("[✗] Error decompiling " ++ name.text ++ ": " ++ f.message)
      return false
    files d input output n (i + 1) r (t.count name.text success)

def listedFailures : Nat := 20

def summarize (n : Nat) (t : Tally) : Job Unit := do
  heading '=' "FINAL SUMMARY"
  note ("Total files:  " ++ Decimal.nat n)
  note ("Success:      " ++ Decimal.nat t.success)
  note ("Failed:       " ++ Decimal.nat t.failed)
  note ("Success rate: " ++ Percent.render 1 t.success n ++ "%")
  if !t.failures.isEmpty then
    note ("\nFailed files (" ++ Decimal.nat t.failed ++ "):")
    for name in t.failures.take listedFailures do
      note ("  - " ++ name)
    if listedFailures < t.failed then
      note ("  ... and " ++ Decimal.nat (t.failed - listedFailures) ++ " more")
  if ← stopped then
    warn ("Task aborted early — processed " ++ Decimal.nat (t.success + t.failed) ++ " of " ++
      Decimal.nat n ++ " files.")

def batch (d : Decompiler) (input output : String) : Job Tally := do
  heading '=' "BATCH DECOMPILATION"
  let dir := Path.ofString input
  let found := (← tree).matchingBelow dir "*.luac"
  note ("\nFound " ++ Decimal.nat found.length ++ " .luac files")
  note ("Output directory: " ++ output ++ "\n")
  if found.isEmpty then
    note "No .luac files found — skipping decompilation.\n"
    return {}
  let t ← files d dir (Path.ofString output) found.length 0 found {}
  summarize found.length t
  return t

end Salvage.Decompile
