import Salvage.Update.Asset

/-!
# Updates

An update asks for the latest package, downloads the lists of the package that are not there yet, and
then the assets that the lists name.
-/

namespace Salvage.Update

open Job

structure Options where
  download : Doc := .bool true
  workers : Doc := .int 8
  filter : Doc := .null
  listsOnly : Doc := .bool false

/-! ## Filters -/

def holdsPart (part whole : Doc) : Job Bool :=
  match part, whole with
  | .str p, .str s => return Text.holds s p
  | p, .str _ => throw (.shape (.notPart p.kind))
  | .str p, .obj fs => return fs.any (·.1 == p)
  | .str p, .arr items => return items.any fun d => match d with | .str s => s == p | _ => false
  | _, .obj _ => return false
  | _, .arr _ => return false
  | _, d => throw (.shape (.notSearched d.kind))

def holding (part : Doc) : List Doc → Job (List Doc)
  | [] => return []
  | d :: r => do
    let found ← holdsPart part d
    let rest ← holding part r
    return if found then d :: rest else rest

/-! ## Lists -/

def copyPath (dir : Path) (name : String) : Path :=
  dir.child (Path.ofString name).name

def isThere (path : String) : Job Bool :=
  look fun t =>
    match t.place path with
    | .error .nameTooLong => .error ⟨.nameTooLong, path, none⟩
    | _ => .ok (t.exists? path)

def isPresent (dir : Path) (name : String) : Job Bool := do
  let path := copyPath dir name
  if !(← isThere path.text) then return false
  recover
    (do
      match ← look ((Expected.ofName name).met path.text) with
      | none => return false
      | some words =>
        note ("[SKIP] " ++ path.name ++ " (" ++ words ++ ")")
        return true)
    fun f => do
      warn ("[WARN] Could not verify " ++ path.name ++ ": " ++ f.message)
      return false

def missingLists (dir : Path) : List Doc → Job (List Doc)
  | [] => return []
  | d :: r => do
    if ← stopped then
      warn "User requested stop — aborting subfile scan."
      return []
    let name ← shape d.path
    if ← isPresent dir name then missingLists dir r
    else return d :: (← missingLists dir r)

def awaitLists : List (Except Fault Bool) → Job Unit
  | [] => return
  | result :: r => do
    if ← stopped then
      warn "User requested stop — cancelling pending subfile downloads."
    else
      discard (ofExcept id result)
      awaitLists r

def fetchLists (o : Options) (address : String) (dir : Path) (names : List Doc) : Job Unit := do
  if names.isEmpty then
    note "All subfiles are up-to-date. Skipping download."
  else
    note ("Downloading " ++ Decimal.nat names.length ++ " new or changed subfiles...")
    checkWorkers o.workers
    awaitLists (← downloadNamed address dir names)

/-! ## Entries -/

def documentAt (path : Path) : Job Doc := do
  ofExcept .document (Doc.parse (← readText path.text))

def entriesOf : List Path → Job (Option (List Doc))
  | [] => return some []
  | p :: r => do
    if ← stopped then
      warn "Aborted before JSON parse finished."
      return none
    let entries ← recover
      (do
        match ← documentAt p with
        | .arr items => return items
        | _ => return [])
      fun f => do
        note ("[WARN] Failed to parse " ++ p.text ++ ": " ++ f.message)
        return []
    return (← entriesOf r).map (entries ++ ·)

def presentLists (o : Options) (dir : Path) : Job (List Path) := do
  let found := (← tree).matching dir "*.json*"
  if !o.filter.isTruthy then return found
  let kept ← holding o.filter (found.map fun p => .str p.name)
  let names := kept.filterMap fun d => match d with | .str s => some s | _ => none
  note ("[Filter] Parsing only " ++ Decimal.nat names.length ++ " JSON files matching '" ++
    o.filter.display ++ "'")
  return found.filter fun p => names.contains p.name

/-- Waits for downloads of assets until the stop sign is raised, `n` having been met of `total`; how
many were met. -/
def awaitAssets (total : Nat) : Nat → List (Except Fault Bool) → Job Nat
  | n, [] => return n
  | n, result :: r => do
    if ← stopped then
      warn "User requested stop — cancelling asset downloads."
      return n
    discard (ofExcept id result)
    if (n + 1) % 25 = 0 then
      note ("Progress: " ++ Decimal.nat (n + 1) ++ "/" ++ Decimal.nat total)
    awaitAssets total (n + 1) r

def downloadAssets (o : Options) (root : Path) (entries : List Doc) : Job Unit := do
  note "Downloading assets..."
  checkWorkers o.workers
  let total := entries.length
  let met ← awaitAssets total 0 (← runTasks (downloadEntry root) entries)
  if ← stopped then
    warn ("Aborted early — downloaded " ++ Decimal.nat met ++ "/" ++ Decimal.nat total ++ " assets.")
  else
    note ("All done! Assets stored under: " ++ (← absolute root.text))

/-! ## The whole update -/

def updateAssets (o : Options) (package : String) (dir : Path) : Job Unit := do
  match ← entriesOf (← presentLists o dir) with
  | none => return
  | some [] => note "[!] No asset entries found; maybe subfiles not downloaded yet."
  | some entries =>
    note ("Found " ++ Decimal.nat entries.length ++ " asset entries.")
    downloadAssets o ((Path.ofString "downloads/assets").child package) entries

def filteredLists (o : Options) (names : List Doc) : Job (List Doc) := do
  if !o.filter.isTruthy then return names
  let kept ← holding o.filter names
  note ("[Filter] Keeping " ++ Decimal.nat kept.length ++ " subfiles matching '" ++
    o.filter.display ++ "'")
  return kept

def afterLists (o : Options) (package : Doc) (dir : Path) : Job Unit := do
  if o.listsOnly.isTruthy then
    note "JSON-only mode enabled — skipping asset downloads."
  else if ← stopped then
    warn "Download aborted after subfile phase."
  else updateAssets o package.display dir

def updatePackage (o : Options) (package lists : Doc) : Job Unit := do
  let address := indexAddress game package.display
  note ("Using fixed HOTFIX URL:\n  " ++ address)
  let dir ← listsDirectory package
  let names ← filteredLists o (← shape lists.parts)
  if o.download.isTruthy then
    fetchLists o address dir (← missingLists dir names)
  else note "Skipping subfile download (--download not used)."
  afterLists o package dir

def run (o : Options) : Job Unit := do
  note "Posting update-check request..."
  if ← stopped then
    warn "Downloader aborted before start."
    return
  let answer ← check
  let content ← contentOf answer
  let msg ← field answer "msg"
  let code ← field answer "code"
  note ("Response OK: " ++ msg.display ++ "  code: " ++ code.display)
  let package ← field content "latestPackageName"
  let lists ← listsOf content
  note ("Latest package: " ++ package.display)
  note ("SubFiles count: " ++ Decimal.nat (← shape lists.length))
  if !package.isTruthy || !lists.isTruthy then
    note "[!] No update info found, aborting."
  else updatePackage o package lists

end Salvage.Update
