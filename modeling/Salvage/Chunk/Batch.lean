import Salvage.Chunk.File
import Salvage.Number.Shortest
import Salvage.Text.Utf8

/-!
# Deciphering whole directories

Every chunk file below a directory is deciphered to the same place below another one. Files that
fail are counted and kept aside.
-/

namespace Salvage.Chunk

/-! ## Paths -/

def endsWith (b suffix : Bytes) : Bool :=
  suffix.isSuffixOf b

def isDivider (b : UInt8) : Bool :=
  b == 0x2F || b == 0x5C

def withoutBase (base file : Bytes) : Bytes :=
  if base.isPrefixOf file then (file.drop base.length).dropWhile isDivider else file

def withChunkExtension (path : Bytes) : Bytes :=
  let doubled := Bytes.ofString ".lua.bytes"
  if endsWith path doubled then path.take (path.length - doubled.length) ++ Bytes.ofString ".luac"
  else
    let tail := path.reverse.takeWhile (· != 0x2E)
    if tail.length = path.length then path
    else path.take (path.length - tail.length - 1) ++ Bytes.ofString ".luac"

/-- Where the deciphered form of a file goes: the same place below another directory, cut to fit
into `size` octets with a zero behind it, with the extension of chunks. -/
def outputPathBytes (base file outputBase : Bytes) (size : Nat) : Bytes :=
  withChunkExtension ((outputBase ++ [0x2F] ++ withoutBase base file).take (size - 1))

def pathRoom : Nat := 512

def outputPath (base file outputBase : String) : String :=
  Utf8.decodeReplacing
    (outputPathBytes (Bytes.ofString base) (Bytes.ofString file) (Bytes.ofString outputBase) pathRoom)

def fileName (path : String) : String :=
  PathText.base path

/-- What stands behind the last slash of a path, or behind the last backslash of a path without
slashes. -/
def failureName (path : String) : String :=
  if path.toList.contains '/' then fileName path
  else String.ofList (path.toList.reverse.takeWhile (· != '\\')).reverse

def beforeSlash? (path : String) : Option String :=
  if path.toList.contains '/' then
    some (String.ofList (path.toList.take (path.length - (fileName path).length - 1)))
  else none

def isChunkName (name : String) : Bool :=
  endsWith (Bytes.ofString name) (Bytes.ofString ".luac") ||
    endsWith (Bytes.ofString name) (Bytes.ofString ".lua.bytes")

namespace Work

/-! ## Files -/

def tryDirectory (path : String) : Work Unit :=
  modify fun b =>
    match b.tree.makeDirectory path with
    | .ok t => { b with tree := t }
    | .error _ => b

/-- The directories on the way to a path, the path itself last; `front` holds the characters before
the rest, last first. -/
def stages (front : List Char) : List Char → List String
  | [] => [String.ofList front.reverse]
  | c :: rest =>
    if !front.isEmpty && (c == '/' || c == '\\') then
      String.ofList front.reverse :: stages ('/' :: front) rest
    else stages (c :: front) rest

def dropSlash (path : String) : String :=
  match path.toList.reverse with
  | '/' :: rest => String.ofList rest.reverse
  | _ => path

def makeDirectories (path : String) : Work Unit := do
  for p in stages [] (dropSlash path).toList do
    tryDirectory p

/-- Copies a file that failed to the directory of failures, if it can be copied. -/
def keepFailure (input : String) : Work Unit := do
  let b ← get
  match b.tree.read input with
  | .error _ => return
  | .ok data =>
    let target := "tmp/" ++ failureName input
    match b.tree.write target data with
    | .error _ => return
    | .ok t =>
      set { b with tree := t }
      complain ("   Failed file saved: " ++ target ++ "\n")

def decryptCounted (input output : String) : Work Bool := do
  modify fun b => { b with total := b.total + 1 }
  print ("\n[" ++ Decimal.nat (← get).total ++ "] " ++ fileName input ++ "\n")
  if ← decryptFile input output then
    modify fun b => { b with succeeded := b.succeeded + 1 }
    print "   ✓ Success\n"
    return true
  else
    modify fun b => { b with failed := b.failed + 1 }
    keepFailure input
    complain ("\nX ERROR: " ++ failureName input ++ "\n")
    complain "   Reason: Decryption or validation failed\n"
    return false

/-! ## Directories -/

def decryptListed (base path outputBase : String) : Work Unit := do
  let target := outputPath base path outputBase
  match beforeSlash? target with
  | some dir => makeDirectories dir
  | none => pure ()
  let _ ← decryptCounted path target

/-- Deciphers the files below a directory, at most `fuel` levels deep; a directory is listed when it
is entered. -/
def decryptBelow (base outputBase : String) : Nat → String → Work Unit
  | 0, _ => return
  | fuel + 1, dir => do
    match (← get).tree.place dir with
    | .error _ => return
    | .ok place =>
      for name in (← get).tree.children place do
        let path := dir ++ "/" ++ name
        let t := (← get).tree
        if t.isDirectory path then decryptBelow base outputBase fuel path
        else if t.isFile path && isChunkName name then decryptListed base path outputBase

def decryptDirectory (input output : String) : Work Unit := do
  print ("Batch processing: " ++ input ++ "\n")
  print ("Output: " ++ output ++ "\n")
  print "----------------------------------------\n"
  makeDirectories output
  decryptBelow input output pathRoom input

/-! ## The command -/

def share (part total : Nat) : String :=
  if total = 0 then ""
  else " (" ++ Shortest.fixed 1 (Binary64.ofRatio false (100 * part) total) ++ "%)"

def printStatistics : Work Unit := do
  let b ← get
  print "\n========================================\n"
  print "PROCESSING COMPLETE\n"
  print "========================================\n"
  print ("Total files:      " ++ Decimal.nat b.total ++ "\n")
  print ("Successful:       " ++ Decimal.nat b.succeeded ++ share b.succeeded b.total ++ "\n")
  print ("Failed:           " ++ Decimal.nat b.failed ++ share b.failed b.total ++ "\n")
  if b.failed ≠ 0 then
    print ("\n⚠ " ++ Decimal.nat b.failed ++ " file(s) failed - check tmp/ directory\n")

def usage (program : String) : String :=
  "Usage: " ++ program ++ " <input> <output>\n\n" ++
  "  <input>   single file or directory\n" ++
  "  <output>  output file or directory\n\n" ++
  "Supported: .luac, .lua.bytes\n" ++
  "Directory mode preserves structure.\n" ++
  "Failed files saved to tmp/\n"

def decryptPath (input output : String) : Work Nat := do
  tryDirectory "tmp"
  if (← get).tree.isDirectory input then decryptDirectory input output
  else if !isChunkName input then
    complain "Error: Unsupported file format\n"
    complain "Only .luac and .lua.bytes supported\n"
    return 1
  else
    match beforeSlash? output with
    | some dir => makeDirectories dir
    | none => pure ()
    print ("Processing: " ++ input ++ "\n")
    let _ ← decryptCounted input output
  printStatistics
  return if (← get).failed = 0 then 0 else 1

def command (program : String) : List String → Work Nat
  | [input, output] => decryptPath input output
  | _ => do
    complain (usage program)
    return 1

end Work

end Salvage.Chunk
