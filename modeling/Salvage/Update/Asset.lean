import Salvage.Update.Package

/-!
# Verified downloads of assets

An entry of a package list names an asset, its digest and its size. An asset with another digest is
removed and downloaded again.
-/

namespace Salvage.Update

structure Asset where
  path : Path
  digest : String
  size : Doc

def optionalText (operation : String) : Doc → Job String
  | .str s => return s
  | d => if d.isTruthy then throw (.shape (.noOperation d.kind operation)) else return ""

namespace Asset

def ofEntry (entry : Doc) : Job Asset := do
  let path ← field entry "filePath"
  let digest ← optionalText "lower" (← field entry "md5")
  let size ← field entry "size"
  let path ← optionalText "replace" path
  return { path := Path.ofString (Text.replaceAll path "\\" "/"), digest := Text.lower digest, size }

def address (a : Asset) : String :=
  assetAddress game (if a.digest.isEmpty then a.path.text else a.path.text ++ "_" ++ a.digest)

def localPath (a : Asset) : Path :=
  if a.path.parts.isEmpty then {} else a.path

def sizeNumber (a : Asset) : Job Int :=
  match a.size with
  | .int i => return i
  | .bool b => return if b then 1 else 0
  | .real x =>
    match x.truncate? with
    | some i => return i
    | none => throw (.notFinite x)
  | .str s =>
    match Whole.ofText? s with
    | some i => return i
    | none => throw (.noNumber s)
  | d => throw (.shape (.notNumber d.kind))

def checkSize (a : Asset) (dest : Path) : Job Unit := do
  if a.size.isTruthy && (← Job.pathExists dest.text) then
    let found ← Job.fileSize dest.text
    if (found : Int) ≠ (← a.sizeNumber) then
      Job.complain ("[SIZE mismatch] " ++ a.localPath.text ++ " (expected " ++ a.size.display ++
        ", got " ++ Decimal.nat found ++ ")")

def verify (a : Asset) (dest : Path) : Job Bool := do
  if a.digest.isEmpty then return true
  let found ← fileDigest dest.text
  if found = a.digest then return true
  Job.warn ("[MD5 mismatch] " ++ a.localPath.text ++ " (" ++ found ++ " != " ++ a.digest ++ ")")
  Job.recover (Job.removeFile dest.text) fun _ => return
  return false

def downloadFrom (a : Asset) (dest : Path) : Nat → Job Bool
  | 0 => return false
  | left + 1 => do
    if ← Job.stopped then return false
    if !(← downloadFile a.address dest 3 assetRange) then downloadFrom a dest left
    else if !(← a.verify dest) then downloadFrom a dest left
    else
      a.checkSize dest
      return true

def download (a : Asset) (root : Path) : Job Bool := do
  let dest := root.append a.localPath
  Job.makePath dest.parent
  a.downloadFrom dest 3

end Asset

/-- Downloads the asset of an entry below a directory, unless the stop sign is raised; whether it is
in its place. -/
def downloadEntry (root : Path) (entry : Doc) : Job Bool := do
  if ← Job.stopped then return false
  (← Asset.ofEntry entry).download root

end Salvage.Update
