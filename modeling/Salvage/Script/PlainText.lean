import Salvage.Table.Convert

/-!
# Script files that are text

Script files with a `.lua.bytes` extension are text already; converting them gives them a name of
their own and drops what is no text.
-/

namespace Salvage.Script

open Job

structure TextConversion where
  error : Option String := none
  inputSize : Nat
  outputSize : Nat

def TextConversion.status (c : TextConversion) : String :=
  if c.error.isSome then "ERROR" else "PASS"

def TextConversion.toDoc (c : TextConversion) : Doc :=
  .obj <|
    [("success", .bool c.error.isNone), ("status", .str c.status)] ++
    Table.optionalField "error" c.error ++
    [("input_size", .int c.inputSize), ("output_size", .int c.outputSize)]

instance : ToDoc TextConversion := ⟨TextConversion.toDoc⟩

def byteOrderMark : Bytes := [0xEF, 0xBB, 0xBF]

def dropByteOrderMark (data : Bytes) : Bytes :=
  if Bytes.startsWith byteOrderMark data then data.drop 3 else data

/-- The text of a file: as it is when it is well-formed, else without its malformed sequences and
without a byte order mark. -/
def textOf (data : Bytes) : String :=
  match Utf8.decode data with
  | .ok s => s
  | .error _ => Utf8.decodeSkipping (dropByteOrderMark data)

def convertText (source target : String) : Job TextConversion :=
  recover
    (do
      let data ← readFile source
      let text := textOf data
      writeText target text
      return { inputSize := data.length, outputSize := (Utf8.encode text).length })
    fun f => do
      let size ← if ← pathExists source then fileSize source else pure 0
      return { error := some f.message, inputSize := size, outputSize := 0 }

def textExtension : String := ".lua.bytes"

def convertListed (inputDir outputDir : String) (total : Nat) (item : Nat × String) :
    Job (String × TextConversion) := do
  let (i, path) := item
  let relativePath ← relative path inputDir
  put ("[" ++ Decimal.nat i ++ "/" ++ Decimal.nat total ++ "] " ++ relativePath ++ "... ")
  let target := PathText.join outputDir (PathText.directory relativePath)
  makeDirectories target
  let name := Text.replaceAll (PathText.base path) textExtension ".lua"
  let c ← convertText path (PathText.join target name)
  match c.error with
  | none => print ("✓ (" ++ Decimal.grouped c.outputSize ++ " bytes)")
  | some e => print ("✗ " ++ c.status ++ ": " ++ e)
  return (relativePath, c)

def convertTextDirectory (inputDir outputDir : String) : Job Unit := do
  print ("Searching for .lua.bytes files in: " ++ inputDir)
  let files ← Table.filesEndingIn textExtension inputDir
  if files.isEmpty then
    print "No .lua.bytes files found!"
    return
  let shownOut ← absolute outputDir
  let total := files.length
  print ("Found " ++ Decimal.nat total ++ " .lua.bytes files")
  print ("Output will preserve directory structure to: " ++ shownOut ++ "\n")
  print Table.rule
  let results ← (Table.numbered files).mapM (convertListed inputDir outputDir total)
  let failures := results.filterMap fun (path, c) => c.error.map fun e => (path, e)
  Table.printSummary total (total - failures.length) failures
  print ("  Lua files: " ++ shownOut)

def convertTextCommand : List String → Job Unit :=
  Table.convertCommandBy "lua.py" ".lua.bytes" "./lua" convertTextDirectory

end Salvage.Script
