import Salvage.Catalog.Basic
import Salvage.Digest.Md5
import Salvage.Doc.Printer
import Salvage.Job.Basic

/-!
# Cached catalogues

A game keeps its catalogue in an encrypted file: an octet that marks the file, then the encrypted
digest and message.
-/

namespace Salvage.Catalog

def key : Bytes := Md5.digest (Bytes.ofString "0cq59tmfo3y0hjnf")

def vector : Bytes := Md5.digest (Bytes.ofString "LvAUtf+tnz")

def mark : UInt8 := 1

def digestLength : Nat := 16

def decrypt (b : Bytes) : Except Padded.Fault Bytes := do
  return (← Padded.decrypt key vector b).drop digestLength

def definitions : String := "JJK_pb2.py"

/-- Says that the definitions of the messages are neither in the directory `library` nor in the
working directory. -/
def requireDefinitions (library : String) : Job Unit := do
  if !(← Job.pathExists definitions) then
    throw (.noDefinitions definitions
      [library ++ "/" ++ definitions, PathText.join (← get).root definitions])

def fileName (c : Catalog) : String :=
  if c.bundles.isEmpty then "AssetManifest.json" else "Database.json"

def writeCatalog (library : String) (output : Path) (message : Bytes) : Job Unit := do
  requireDefinitions library
  match parse? message with
  | none => throw .noMessage
  | some c =>
    let target := output.child (fileName c)
    Job.writeText target.text (c.toDoc.render .report)
    Job.note ("✓ Parsed protobuf successfully → " ++ target.text)
    Job.note ("Revision: " ++ Decimal.int (c.revision.getD 0))
    Job.note ("Assets: " ++ Decimal.nat c.bundles.length ++ " | Resources: " ++
      Decimal.nat c.resources.length)
    Job.note ("URL: " ++ Wire.shown (c.address.getD []))

def usualOutput : Path := Path.ofString "octocache"

/-- Decrypts a cached catalogue, writes its message and the catalogue into a directory; the path of
the message. The definitions of the messages are looked for in `library` first. -/
def extractFile (library : String) (input : Path) (output : Path := usualOutput) : Job String := do
  Job.makePath output
  match ← Job.readFile input.text with
  | [] => throw (.noCatalog input.name)
  | first :: body =>
    if first ≠ mark then throw (.noCatalog input.name)
    let message ← Job.ofExcept .padded (decrypt body)
    let target := output.child (input.stem ++ "_dec")
    Job.writeFile target.text message
    Job.note ("✓ Saved raw decrypted data → " ++ target.text)
    Job.recover (writeCatalog library output message) fun f =>
      Job.warn ("Protobuf parse failed (" ++ f.message ++ ") — JSON not saved.")
    return target.text

end Salvage.Catalog
