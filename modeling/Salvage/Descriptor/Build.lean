import Salvage.Descriptor.Printer
import Salvage.Job.Basic

/-! # Writing the files of a descriptor set -/

namespace Salvage.Descriptor

open Job

def require {α : Type} : Option α → Job α
  | some a => pure a
  | none => throw .mismatch

def writeFile (out : Path) (f : File) : Job Unit := do
  let name := if f.name.isEmpty then Bytes.ofString "unknown.proto" else f.name
  let package := if f.package.isEmpty then "(no package)" else Wire.shown f.package
  note (Text.line '=' 60)
  note ("File: " ++ Wire.shown name)
  note ("Package: " ++ package)
  note (Text.line '=' 60 ++ "\n")
  let text ← require f.text
  let target := out.child (← require (Utf8.decode name).toOption)
  makePath target.parent
  writeText target.text text
  note ("[+] Saved: " ++ target.text)
  note ("    Messages: " ++ Decimal.nat f.messages.length)
  note ("    Enums: " ++ Decimal.nat f.enumerations.length ++ "\n")

def writeFiles (out : Path) : List File → Job Unit
  | [] => pure ()
  | f :: r => do
    writeFile out f
    writeFiles out r

def build (b : Bytes) (out : String) : Job Nat := do
  let path := Path.ofString out
  makePath path
  note ("[+] Created output directory: " ++ out)
  match parse? b with
  | none => throw .noMessage
  | some files =>
    note ("[+] Found " ++ Decimal.nat files.length ++ " proto file(s)\n")
    writeFiles path files
    note ("[✓] All proto files saved to " ++ out ++ "/")
    return files.length

/-- Writes the files of the set at a path into a directory; how many there are, if there is a
set. -/
def buildFile (path out : String) : Job (Option Nat) := do
  let path := (Path.ofString path).text
  if !(← pathExists path) then
    complain ("ProtoBuilder: " ++ path ++ " not found.")
    return none
  let data ← readFile path
  note ("Building .proto files from " ++ path ++ " (" ++ Decimal.nat data.length ++ " bytes)...")
  return some (← build data out)

end Salvage.Descriptor
