import Salvage.Doc.Parser
import Salvage.Number.Whole
import Salvage.Text.Case
import Salvage.Update.Download

/-!
# Update checks

The answer to an update check names the latest package and the lists that belong to it.
-/

namespace Salvage.Update

def shape {α : Type} : Except Doc.ShapeFault α → Job α :=
  Job.ofExcept .shape

def field (d : Doc) (name : String) : Job Doc :=
  shape (d.getOr name .null)

def check : Job Doc := do
  return (← send checkAddress checkBody).document

def orEmpty (d : Doc) : Doc :=
  if d.isTruthy then d else .obj []

def contentOf (answer : Doc) : Job Doc := do
  match ← field answer "msgContent" with
  | .str s =>
    match Doc.parse s with
    | .ok d => return orEmpty d
    | .error f =>
      Job.note ("[!] Failed to parse msgContent: " ++ f.message)
      return .obj []
  | d => return orEmpty d

def listsOf (content : Doc) : Job Doc := do
  let lists ← field content "subFiles"
  return if lists.isTruthy then lists else .arr []

def listsDirectory (package : Doc) : Job Path :=
  match package with
  | .str s => return (Path.ofString "downloads/version_index").child s
  | d => throw (.shape (.notName d.kind))

structure Expected where
  digest : Option String := none
  size : Option Int := none

/-- What a name with at least three parts between underscores announces by its last two. -/
def Expected.ofName (name : String) : Expected :=
  match (Text.splitOn name "_").reverse with
  | size :: digest :: _ :: _ => { digest := some digest, size := Whole.ofText? size }
  | _ => {}

def Expected.hasDigest (e : Expected) (t : Tree) (path : String) : Except FileFault Bool := do
  let digest := e.digest.getD ""
  if digest.isEmpty then return false
  return Hex.encode (Md5.digest (← t.read path)) = Text.lower digest

def Expected.hasSize (e : Expected) (t : Tree) (path : String) : Except FileFault Bool := do
  let size := e.size.getD 0
  if size = 0 then return false
  return (← t.size path : Int) = size

def Expected.met (e : Expected) (path : String) (t : Tree) : Except FileFault (Option String) := do
  if ← e.hasDigest t path then return some "MD5 match"
  if ← e.hasSize t path then return some "size match"
  return none

end Salvage.Update
