import Salvage.Update.Run

/-! # Download of the bundle with the descriptor set -/

namespace Salvage.Update

open Job

def usualBundle : String := "AssetBundles/25/d_1890480325.ab"

def usualDirectory : String := "downloads/proto"

def isEntryOf (path : String) (entry : Doc) : Bool :=
  match entry.field? "filePath" with
  | some (.str s) => s == path
  | _ => false

inductive Search where
  | found (entry : Doc)
  | none
  | stopped

def findEntry (path : String) : List Path → Job Search
  | [] => return .none
  | p :: r => do
    if ← stopped then
      warn "User aborted during index scan."
      return .stopped
    let found ← recover
      (do
        match ← documentAt p with
        | .arr items => return items.find? (isEntryOf path)
        | _ => return none)
      fun f => do
        note ("[WARN] Failed to parse " ++ p.name ++ ": " ++ f.message)
        return none
    match found with
    | some entry => return .found entry
    | none => findEntry path r

/-- The lists in a directory; they are downloaded when there are none. Nothing when the stop sign is
raised or there are none even so. -/
def ensureLists (address : String) (lists : Doc) (dir : Path) : Job (Option (List Path)) := do
  let present := (← tree).matching dir "*.json*"
  if !present.isEmpty then return some present
  note "Index JSONs not found locally — downloading index files..."
  if ← stopped then
    warn "User aborted before index download."
    return none
  downloadAll address (← shape lists.parts) dir (.int 4)
  let present := (← tree).matching dir "*.json*"
  if !present.isEmpty then return some present
  warn "No index JSONs available after download; aborting."
  return none

def downloadBundle (address digest : String) (size : Doc) (dest : Path) : Job Unit := do
  note ("Downloading proto → " ++ dest.text ++ "  (size=" ++ size.display ++ ", md5=" ++ digest ++
    ")")
  let answer ← fetch address assetRange
  let partialFile ← withExtension dest (dest.extension ++ ".part")
  if !(← receive answer partialFile.text) then
    warn "User aborted proto download."
    return
  replaceFile partialFile.text dest.text
  let found ← fileDigest dest.text
  if found = digest then
    note ("[OK] Proto verified successfully: " ++ dest.name)
  else
    warn ("[MD5 mismatch] " ++ dest.name ++ " (" ++ found ++ " != " ++ digest ++ ")")

def isCurrent (dest : Path) (digest : String) : Job Bool := do
  if !(← pathExists dest.text) then return false
  let found ← fileDigest dest.text
  if found = digest then
    note ("[SKIP] " ++ dest.name ++ " (MD5 match)")
    return true
  note ("[RE-DOWNLOAD] " ++ dest.name ++ " (MD5 " ++ found ++ " != " ++ digest ++ ")")
  return false

def downloadFound (entry : Doc) (path dir : String) : Job Unit := do
  let digest := Text.lower (← optionalText "lower" (← field entry "md5"))
  let size ← field entry "size"
  if digest.isEmpty then
    warn ("Entry found but no MD5 present for " ++ path ++ "; aborting.")
    return
  let dir := Path.ofString dir
  makePath dir
  let dest := dir.child (PathText.base path)
  if !(← isCurrent dest digest) then
    downloadBundle (assetAddress game (path ++ "_" ++ digest)) digest size dest

def findAndDownload (path : Doc) (dir : String) : Job Unit := do
  note "Posting update-check request for proto..."
  let content ← contentOf (← check)
  let package ← field content "latestPackageName"
  let lists ← listsOf content
  if !package.isTruthy || !lists.isTruthy then
    warn "No update info found; aborting proto download."
    return
  let address := indexAddress game package.display
  let listsDir ← listsDirectory package
  makePath listsDir
  match ← ensureLists address lists listsDir with
  | none => return
  | some present =>
    let path := (Path.ofString (← shape path.path)).text
    match ← findEntry path present with
    | .stopped => return
    | .none => warn ("Proto path not found in index JSONs: " ++ path)
    | .found entry => downloadFound entry path dir

/-- Finds the bundle with a path in the lists of the latest package and downloads it; what goes wrong
is only logged. -/
def downloadDescriptors (path : Doc := .str usualBundle) (dir : String := usualDirectory) : Job Unit :=
  recover (findAndDownload path dir) fun f => lament ("Proto download failed: " ++ f.message)

end Salvage.Update
