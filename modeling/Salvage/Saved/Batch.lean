import Salvage.Compress.Zlib
import Salvage.Digest.KeyDerivation
import Salvage.Doc.Parser
import Salvage.Doc.Printer
import Salvage.Job.Basic

/-!
# Batches of saved data

Every file of saved data below a directory is decrypted. A file with one object is split into a file
for each field, unless it holds data to resume from.
-/

namespace Salvage.Saved

open Job

/-! ## Layers

Saved data are encrypted under one key. What comes out may be compressed, and compressed octets may be
spelled in base 64; these layers are taken off where they are found.
-/

def password : Bytes := Bytes.ofString "hogehoge"

def derived : Bytes :=
  KeyDerivation.pbkdf2 password password 48 1000

def key : Bytes := derived.take 32

def vector : Bytes := derived.drop 32

def decrypt (b : Bytes) : Except Padded.Fault Bytes :=
  Padded.decrypt key vector b

/-- How many octets are looked at to tell whether all of them are characters. -/
def sampleLength : Nat := 64

def looksSpelled (b : Bytes) : Bool :=
  (b.take sampleLength).all fun x => 32 ≤ x && x ≤ 126

def isForeign : Gzip.Fault → Bool
  | .short | .stream _ => false
  | _ => true

def expand? (b : Bytes) : Option Bytes :=
  match Gzip.decompress b with
  | .ok text => some text
  | .error f => if isForeign f then (Zlib.decompress b).toOption else none

def spelled? (b : Bytes) : Option Bytes := do
  if looksSpelled b then expand? (← (Base64.decode true b).toOption) else none

def squeezed? (b : Bytes) : Option Bytes :=
  if Bytes.startsWith Gzip.mark b then (Gzip.decompress b).toOption else none

def peel (b : Bytes) : Bytes :=
  ((spelled? b).or (squeezed? b)).getD b

/-! ## Batches -/

structure Tally where
  success : Nat := 0
  failed : Nat := 0
  splits : Nat := 0

def document? (b : Bytes) : Option Doc :=
  if Bytes.startsWith (Bytes.ofString "\x7b") b || Bytes.startsWith (Bytes.ofString "[") b then do
    let s ← (Utf8.decode b).toOption
    (Doc.parse s).toOption
  else none

def isResumeData (name : Path) : Bool :=
  Text.holds name.text "ResumeData"

def report (name : Path) (result : String) : Job Unit :=
  note ("✓ " ++ name.text ++ " → " ++ result)

/-- Writes octets beside the directory's structure, under the name of a file as a document. -/
def writeWhole (output name : Path) (b : Bytes) : Job Unit := do
  let result := (name.withExtension? ".json").getD name
  let target := output.append result
  makePath target.parent
  writeFile target.text b
  report name result.text

def writeFields (output name : Path) : List (String × Doc) → Job Unit
  | [] => pure ()
  | (field, value) :: r => do
    let target := (output.append name.parent).child (field ++ ".json")
    makePath target.parent
    writeText target.text (value.render .report)
    report name (field ++ ".json")
    writeFields output name r

def extractFile (input output name : Path) : Job Nat := do
  let data ← readFile (input.append name).text
  let b := peel (← ofExcept .padded (decrypt data))
  match document? b, isResumeData name with
  | some d, true => writeWhole output name (Utf8.encode (d.render .report)); return 0
  | some (.obj fields), false => writeFields output name fields; return fields.length
  | _, _ => writeWhole output name b; return 0

def extractFiles (input output : Path) : List Path → Tally → Job Tally
  | [], t => return t
  | name :: r, t => do
    match ← attempt (extractFile input output name) with
    | .ok n => extractFiles input output r { t with success := t.success + 1, splits := t.splits + n }
    | .error f =>
      complain ("✗ " ++ name.text ++ " - " ++ f.message)
      extractFiles input output r { t with failed := t.failed + 1 }

def extractAll (input output : Path) : Job Unit := do
  if !(← pathExists input.text) then
    complain ("✗ Input directory not found: " ++ input.text)
    return
  let found := (← tree).matchingBelow input "*.data"
  note ("Found " ++ Decimal.nat found.length ++ " .data files to decrypt")
  note (Text.line '=' 70)
  let t ← extractFiles input output (found.map fun p => (p.relativeTo? input).getD p) {}
  note (Text.line '=' 70)
  note ("Success: " ++ Decimal.nat t.success ++ " | Failed: " ++ Decimal.nat t.failed ++
    " | Total: " ++ Decimal.nat found.length ++ " | Split files: " ++ Decimal.nat t.splits)

end Salvage.Saved
