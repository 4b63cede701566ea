import Salvage.Settings.Tasks
import Salvage.Window.Basic

/-! # What can be done at the window -/

namespace Salvage.Window

open Desk Job

/-! ## The log -/

def greeting : String :=
  "Fellow Moon Asset Extractor\n" ++
  "───────────────────────────────────────────\n" ++
  "Use the buttons above to run tasks.\n" ++
  "Examples:\n" ++
  "  • Decrypt AB Bundles – Decrypts the ab files (run downloader first or change path in config)\n" ++
  "  • Extract Lua – Extracts Lua from the apk (make sure to set path in config)\n" ++
  "  • Decrypt Lua – Decrypts the lua files (run extract lua first)\n" ++
  "  • Decrypt Metadata – Decrypts and extracts the metadata from the apk\n" ++
  "  • Download Asset Files – latest game assets\n" ++
  "  • Download Proto File – latest proto file\n" ++
  "  • Extract Proto – Builds the .proto fies \n" ++
  "  • Stop Task – cancel running jobs\n"

def greet : Desk Unit :=
  change fun w => { w with text := w.text ++ [.clear, .insert greeting .info] }

def clearLog : Desk Unit := do
  if (← window).closed then
    job (print "Failed to clear text: invalid command name \".!frame.!scrolledtext\"")
  else greet

/-! ## The filter -/

def allChoice : String := "All"

def everythingChoice : String := "All -- Downloads everything"

def setChoices (choices : List String) (chosen : String) : Desk Unit :=
  change fun w => { w with choices := choices, filter := chosen }

def packagesDirectory : Path := Path.ofString "downloads/version_index"

def latest (t : Tree) : List Path → Option Path
  | [] => none
  | p :: r =>
    match latest t r with
    | none => some p
    | some q => if t.changed p.text < t.changed q.text then some q else some p

def listNames (names : List String) : List String :=
  let fronts := names.map fun n => (Text.splitOn n ".json").headD n
  (fronts.mergeSort Tree.before).eraseReps

def findChoices : Desk Unit := do
  let t ← job tree
  if !t.exists? packagesDirectory.text then
    setChoices [allChoice] allChoice
  else
    let names ← job (look (·.list packagesDirectory.text))
    let dirs := (names.map packagesDirectory.child).filter fun p => t.isDirectory p.text
    match latest t dirs with
    | none => setChoices [allChoice] allChoice
    | some dir =>
      let choices := listNames ((t.matching dir "*.json*").map (·.name))
      setChoices (allChoice :: choices) everythingChoice
      job (note ("Filter list updated (" ++ Decimal.nat choices.length ++ " entries) from " ++
        dir.name))

/-- Looks for package lists and offers them as filters; without success there is only the choice of
no filter. -/
def refreshFilter : Desk Unit :=
  tryCatch findChoices fun f => do
    job (warn ("Failed to refresh filter list: " ++ f.message))
    setChoices [allChoice] allChoice

def filterOf (chosen : String) : Doc :=
  let chosen := Text.strip chosen
  if chosen.isEmpty || Text.lower chosen = "all" then .null else .str chosen

/-! ## Tasks -/

structure Task where
  name : String
  /-- What it does at a window with some settings; the flag says whether it is given the stop
  sign. -/
  run : Window → Doc → Bool → Job Unit

def Task.ofJob (name : String) (job : Doc → Job Unit) : Task :=
  { name, run := fun _ settings _ => job settings }

def Task.extract : Task := .ofJob "run_extractor" Settings.extract

def Task.decompile : Task := .ofJob "run_lua" Settings.decompile

def Task.extractMetadata : Task :=
  { name := "run_metadata", run := fun w settings _ => Settings.extractMetadata settings w.package }

def Task.extractMetadataBySettings : Task :=
  .ofJob "run_metadata" fun settings => Settings.extractMetadata settings

def Task.decryptBundles : Task := .ofJob "run_bundles" Settings.decryptBundles

def Task.downloadAssets : Task :=
  .ofJob "<lambda>" fun settings => discard (Settings.update settings (some false))

def Task.update : Task :=
  { name := "run_downloader"
    run := fun w settings _ => discard (Settings.update settings (some w.listsOnly)) }

def Task.downloadDescriptors : Task := .ofJob "run_proto" Settings.downloadDescriptors

def Task.extractDescriptors : Task := .ofJob "run_proto_extractor" Settings.extractDescriptors

def underSign {α : Type} (j : Job α) : Desk α := fun (w, s) =>
  match j { s with stop := some w.sign } with
  | .ok a v => .ok a ({ w with sign := v.stop.getD w.sign }, { v with stop := none })
  | .error f v => .error f ({ w with sign := v.stop.getD w.sign }, { v with stop := none })

/-- A task between two lines of the log. A task that does not take the stop sign is done without
it. -/
def Task.perform (t : Task) (w : Window) (label : String) (settings : Doc) : Job Unit := do
  note ("=== Starting " ++ label ++ " ===")
  ensure
    (do
      match ← attempt (t.run w settings true) with
      | .ok _ => return
      | .error .mismatch => unstoppable (t.run w settings false)
      | .error f => lament ("[✗] Error in " ++ label ++ ": " ++ f.message))
    (note ("=== Finished " ++ label ++ " ===\n"))

def updateSection (settings : Doc) : Except Doc.ShapeFault Doc := do
  let fields ← settings.fields "setdefault"
  return (Doc.lookup "DOWNLOADER_CONFIG" fields).getD (.obj [])

def assignAll (part : Doc) : List (String × Doc) → Except Doc.ShapeFault Doc
  | [] => .ok part
  | (name, d) :: r => do assignAll (← part.assign name d) r

def overrideUpdate (settings : Doc) (changes : List (String × Doc)) : Except Doc.ShapeFault Doc := do
  return settings.setField "DOWNLOADER_CONFIG" (← assignAll (← updateSection settings) changes)

def overridden (w : Window) (settings : Doc) : Except Doc.ShapeFault Doc :=
  overrideUpdate settings
    [("filter", filterOf w.filter), ("workers", .int w.workers), ("json_only", .bool w.listsOnly)]

def packageOf (settings : Doc) : Except Doc.ShapeFault String := do
  return (← (← settings.getOr "METADATA_CONFIG" (.obj [])).getOr "xapk_path" (.str "")).display

def loadSettings : Desk (Option Doc) := do
  let path := (← window).settingsPath
  match ← job (attempt (Settings.load path)) with
  | .ok settings => return some settings
  | .error f =>
    putUp (.error "Error" f.message)
    return none

def saveSettings (settings : Doc) : Job Unit :=
  recover (writeText Settings.usualPath (settings.render .settings)) fun f =>
    warn ("Failed to save config: " ++ f.message)

def Task.work (t : Task) (label : String) (settings : Doc) : Desk Unit := do
  underSign (t.perform (← window) label settings)

/-- Starts something by the settings, unless a task is running, which `words` say; what it has to
do. -/
def unlessBusy (words : String) (start : Doc → Desk (Option (Desk Unit))) :
    Desk (Option (Desk Unit)) := do
  if (← window).isBusy then
    putUp (.warning "Busy" words)
    return none
  match ← loadSettings with
  | none => return none
  | some settings => start settings

def startTask (t : Task) (name : String := "") : Desk (Option (Desk Unit)) :=
  unlessBusy "A task is already running. Stop it before starting another." fun settings => do
    let settings ← job (Update.shape ((← window).overridden settings))
    let package ← job (Update.shape (packageOf settings))
    change (·.detachPackage package)
    job (saveSettings settings)
    change fun w => { w.lowerSign with worker := .running }
    return some (t.work (if name.isEmpty then t.name else name) settings)

/-- Downloads the package lists, offers them as filters, and logs both between two lines. -/
def listsWork (settings : Doc) : Desk Unit := do
  job (note "=== Refreshing Version Index (JSON only) ===")
  discard (underSign (Settings.update settings (some true)))
  refreshFilter
  job (note "=== Index Refresh Complete ===\n")

def startLists : Desk (Option (Desk Unit)) :=
  unlessBusy "A task is already running. Stop it before refreshing." fun settings => do
    let settings ← job (Update.shape (overrideUpdate settings
      [("download", .bool true), ("workers", .int 4), ("filter", .null), ("json_only", .bool true)]))
    change fun w => { w.lowerSign with worker := .running }
    return some (listsWork settings)

def atOnce (start : Desk (Option (Desk Unit))) : Desk Unit := do
  match ← start with
  | none => return
  | some work => work

def runTask (t : Task) (name : String := "") : Desk Unit :=
  atOnce (startTask t name)

def stopTask : Desk Unit := do
  if (← window).isBusy then
    change raiseSign
    job (warn "User requested task stop...")
  else putUp (.info "Info" "No active task to stop.")

/-! ## Files -/

def browseSettings : Desk Unit := do
  putUp (.openFile "Select config.json" [("JSON files", "*.json")])
  let path := (← window).choice
  if !path.isEmpty then change fun w => { w with settingsPath := path }

def browsePackage : Desk Unit := do
  putUp (.openFile "Select XAPK File" [("XAPK files", "*.xapk"), ("All files", "*.*")])
  let path := (← window).choice
  if !path.isEmpty then
    change (·.choosePackage path)
    job (note ("Selected XAPK: " ++ path))

/-! ## What the user can do -/

def start : Button → Desk (Option (Desk Unit))
  | .browseSettings => do browseSettings; return none
  | .browsePackage => do browsePackage; return none
  | .downloadLists => startLists
  | .extract => startTask .extract
  | .decompile => startTask .decompile
  | .extractMetadata => startTask .extractMetadata
  | .decryptBundles => startTask .decryptBundles
  | .downloadAssets => startTask .downloadAssets
  | .downloadDescriptors => startTask .downloadDescriptors
  | .extractDescriptors => startTask .extractDescriptors
  | .stop => do stopTask; return none

def press (b : Button) : Desk Unit :=
  atOnce (start b)

def useMenu : MenuEntry → Desk Unit
  | .cut => command "<<Cut>>"
  | .copy => command "<<Copy>>"
  | .paste => command "<<Paste>>"
  | .selectAll => command "<<SelectAll>>"
  | .clear => clearLog
  | .divider => return
where
  command (name : String) : Desk Unit :=
    change fun w => { w with events := w.events ++ [.command name] }

def popUp (x y : Int) : Desk Unit :=
  change fun w => { w with events := w.events ++ [.popup x y] }

def close : Desk Unit := do
  if (← window).isBusy then
    putUp (.question "Exit" "A task is still running. Do you want to stop it and close?")
    if !(← window).confirms then return
    change raiseSign
  change fun w => { w with logging := false, closed := true }

/-- Takes what the settings say about lists and the game's package, as far as they can be read. -/
def readSettings : Desk Unit :=
  tryCatch
    (do
      let settings ← job (Settings.load Settings.usualPath)
      let part ← job (Update.shape (settings.getOr "DOWNLOADER_CONFIG" (.obj [])))
      if (← job (Update.shape (part.getOr "json_only" (.bool false)))).isTruthy then
        change fun w => { w with listsOnly := true }
      let package ← job (Update.shape (packageOf settings))
      change (·.choosePackage package))
    fun _ => return

def launch : Desk Unit := do
  refreshFilter
  greet
  modify fun (w, s) => ({ w with logging := true, earlier := s.log }, { s with log := [] })
  readSettings

def act (action : Desk Unit) : Desk (Option Fault) := do
  let result ← tryCatch (do action; return none) fun f => return some f
  showLog
  return result

end Salvage.Window
