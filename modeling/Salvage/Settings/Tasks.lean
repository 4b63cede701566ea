import Salvage.Decompile.Batch
import Salvage.Descriptor.Extract
import Salvage.Metadata.Extract
import Salvage.Pak.Extract
import Salvage.Update.DescriptorFile

/-!
# Tasks and their settings

A task takes what it needs from its section of the settings. A fault ends the task with a line of the
log and goes no further.
-/

namespace Salvage.Settings

open Update (shape)
open Job

/-! ## Settings -/

def usualPath : String := "config.json"

def load (path : String) : Job Doc := do
  let path := (Path.ofString path).text
  if !(← pathExists path) then
    throw (.refused (.noSettings (← absolute path)))
  ofExcept .document (Doc.parse (← readText path))

def sectionOf (settings : Doc) (name : String) : Job Doc :=
  shape (settings.getOr name (.obj []))

def value (part : Doc) (name : String) (other : Doc) : Job Doc :=
  shape (part.getOr name other)

def pathOr (part : Doc) (name : String) (other : String) : Job String := do
  shape (← value part name (.str other)).path

def existsAt : Doc → Job Bool
  | .str s => pathExists s
  | .int _ => return false
  | .bool _ => return false
  | d => throw (.shape (.notPlace d.kind))

def isDirectoryAt : Doc → Job Bool
  | .str s => isDirectory s
  | .int _ => return false
  | .bool _ => return false
  | d => throw (.shape (.notPlace d.kind))

def guarded (name : String) (job : Job Unit) : Job Unit :=
  recover job fun f => lament (name ++ " failed: " ++ f.message)

def unlessStopped (job : Job Unit) : Job Unit := do
  if ← stopped then warn "Task aborted before start." else job

def conclude (name : String) : Job Unit := do
  if ← stopped then warn (name ++ " aborted by user.")
  else note (name ++ " complete.\n")

/-! ## Tasks -/

def decompile (settings : Doc) : Job Unit :=
  guarded "Lua decompiler" do
    let part ← sectionOf settings "LUA_DECRYPT_CONFIG"
    let dir := (Path.ofString (← pathOr part "lua_path" "")).text
    let output ← value part "output" (.str "")
    let t ← tree
    if !t.exists? dir || (t.matchingBelow (Path.ofString dir) "*.luac").isEmpty then
      warn ("Lua path " ++ dir ++ " missing or empty.")
    else
      note "Running Unluac batch decompiler..."
      let decompiler ← Decompile.ready
      discard (Decompile.batch decompiler dir (← shape output.path))
      note "Lua decompilation complete.\n"

def extract (settings : Doc) : Job Unit :=
  guarded "Extractor" (unlessStopped do
    let part ← sectionOf settings "EXTRACTOR_CONFIG"
    let metadata ← sectionOf settings "METADATA_CONFIG"
    note "Running PakExtractor..."
    let package ← value metadata "xapk_path" .null
    let found ← if package.isTruthy then existsAt package else pure false
    let store ← Store.ofPackage (← if found then some <$> shape package.path else pure none)
    let plan : Extraction.Plan :=
      { search := ← pathOr part "search_dir" "", index := ← pathOr part "index_path" ""
        output := ← pathOr part "output_path" "" }
    discard (shape (part.get? "save_encrypted"))
    discard (Extraction.run plan store)
    conclude "Extraction")

def extractMetadata (settings : Doc) (package : String := "") : Job Unit :=
  guarded "Metadata" (unlessStopped do
    let part ← sectionOf settings "METADATA_CONFIG"
    note "Running Metadata decryptor..."
    let package ← if package.isEmpty then value part "xapk_path" (.str "") else pure (.str package)
    let output ← value part "decrypt_path" (.str "")
    let found ← if package.isTruthy then existsAt package else pure false
    if !found then
      complain ("XAPK file not found: " ++ package.display)
    else
      discard (Metadata.extract (← shape package.path) (← shape output.path))
      conclude "Metadata decryption")

/-- The section of the updates, and the settings, after a choice of lists only has been put into
the section. A section that is not there is not added to the settings. -/
def chooseLists (settings : Doc) (listsOnly : Option Bool) : Except Doc.ShapeFault (Doc × Doc) := do
  let part ← settings.getOr "DOWNLOADER_CONFIG" (.obj [])
  match listsOnly with
  | none => return (part, settings)
  | some b =>
    let part ← part.assign "json_only" (.bool b)
    if (settings.field? "DOWNLOADER_CONFIG").isSome then
      return (part, settings.setField "DOWNLOADER_CONFIG" part)
    else return (part, settings)

def updateBy (part : Doc) : Job Unit :=
  guarded "Downloader" do
    note "Running Downloader..."
    let options : Update.Options :=
      { download := ← value part "download" (.bool true), workers := ← value part "workers" (.int 8)
        filter := ← value part "filter" .null, listsOnly := ← value part "json_only" (.bool false) }
    Update.run options
    conclude "Downloader"

/-- Downloads what is new; the settings after it. With `listsOnly`, that is put into the settings
first. -/
def update (settings : Doc) (listsOnly : Option Bool := none) : Job Doc := do
  if ← stopped then
    warn "Task aborted before start."
    return settings
  match chooseLists settings listsOnly with
  | .error f =>
    lament ("Downloader failed: " ++ f.message)
    return settings
  | .ok (part, settings) =>
    updateBy part
    return settings

def downloadDescriptors (settings : Doc) : Job Unit :=
  guarded "Proto downloader" do
    let part ← sectionOf settings "PROTO_CONFIG"
    note "Running Proto download via Downloader..."
    unstoppable (Update.downloadDescriptors (← value part "file_path" .null))
    note "Proto download complete."

def extractDescriptors (settings : Doc) : Job Unit :=
  guarded "ProtoExtractor" do
    let part ← sectionOf settings "PROTO_CONFIG"
    note "Running ProtoExtractor..."
    let dir ← value part "proto_dir" (.str "")
    let out ← value part "output_dir" (.str "")
    Descriptor.extract (← shape dir.path) (← shape out.path)
    conclude "Proto extraction"

def decryptBundles (settings : Doc) : Job Unit :=
  guarded "Bundle decryption" (unlessStopped do
    let part ← sectionOf settings "ASSET_CONFIG"
    let base ← value part "base_path" (.str "")
    let out ← value part "output_path" (.str "decrypted_bundles")
    if !(← isDirectoryAt base) then
      warn ("Bundle directory not found: " ++ base.display)
    else
      note ("Running Asset.batch_decode on: " ++ base.display)
      discard (Bundle.decryptAll (← shape base.path) (← shape out.path))
      conclude "Bundle decryption")

end Salvage.Settings
