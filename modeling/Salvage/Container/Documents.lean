import Salvage.Doc.Parser
import Salvage.Doc.Printer
import Salvage.Job.Basic

/-!
# Containers of documents

A container of documents has, for each one, its name with a zero octet behind, and its text.
-/

namespace Salvage.Container

def nameEnd : Bytes := [0x2E, 0x6A, 0x73, 0x6F, 0x6E, 0]

def nameEndsFrom : Nat → Bytes → List Nat
  | _, [] => []
  | i, x :: r =>
    if nameEnd.isPrefixOf (x :: r) then i :: nameEndsFrom (i + 1) r else nameEndsFrom (i + 1) r

def nameEnds (b : Bytes) : List Nat :=
  nameEndsFrom 0 b

def isNameChar (c : Char) : Bool :=
  c.isAlphanum || c = '.' || c = '_' || c = '/' || c = '-'

def isPlain (x : UInt8) : Bool :=
  32 ≤ x && x < 127

def documentPath (b : Bytes) (place : Nat) : String :=
  let front := ((b.take place).reverse.takeWhile isPlain).reverse
  String.ofList (((front ++ nameEnd.take 5).map fun x => Char.ofNat x.toNat).filter isNameChar)

def upToLastBrace (cs : List Char) : List Char :=
  if cs.contains '\x7d' then (cs.reverse.dropWhile (· ≠ '\x7d')).reverse else cs

def documentText (b : Bytes) : String :=
  String.ofList (upToLastBrace (Utf8.decodeSkipping b).toList)

def documentsAt (b : Bytes) : List Nat → List (String × String)
  | [] => []
  | place :: r =>
    let stop := match r with
      | [] => b.length
      | next :: _ => next - 4
    (documentPath b place, documentText ((b.take stop).drop (place + 6))) :: documentsAt b r

def documents (b : Bytes) : List (String × String) :=
  documentsAt b (nameEnds b)

/-- Writes a document to a file: in a fixed layout if its text can be read, else as it is. -/
def writeDocument (dir path text : String) : Job Unit := do
  let target := PathText.join dir path
  Job.makeDirectories (PathText.directory target)
  match Doc.parse text with
  | .ok d =>
    Job.writeText target (d.render .report)
    Job.print ("[✓] " ++ path)
  | .error _ =>
    Job.writeText target text
    Job.print ("[!] " ++ path ++ " (raw cleaned)")

def writeDocuments (dir : String) : List (String × String) → Job Unit
  | [] => return
  | (path, text) :: r => do
    writeDocument dir path text
    writeDocuments dir r

def extractDocuments (b : Bytes) (dir : String) : Job Nat := do
  Job.print "\n[*] Extracting JSON files (fast)...\n"
  Job.makeDirectories dir
  let ds := documents b
  if ds.isEmpty then
    Job.print "[!] No .json filenames found"
    return 0
  writeDocuments dir ds
  Job.print ("\n[+] Extracted " ++ Decimal.nat ds.length ++ " JSON file(s)")
  return ds.length

end Salvage.Container
