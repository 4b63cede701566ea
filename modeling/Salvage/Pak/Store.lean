import Salvage.Doc.Parser
import Salvage.Job.Basic
import Salvage.Pak.Sealed

/-!
# Where resources are found

A game comes as an archive of archives. Its resources are looked for in the innermost archives
first, and then among the files of the working directory.
-/

namespace Salvage

open Job

structure Store where
  layers : List Zip := []

namespace Store

def openArchive (b : Bytes) : Job Zip :=
  ofExcept .archive (Zip.ofBytes b)

def readMember (z : Zip) (name : String) : Job Bytes :=
  ofExcept .archive (z.read name)

def openLayers (z : Zip) : List String → Job (List Zip)
  | [] => pure []
  | name :: r => do
    let layer ← openArchive (← readMember z name)
    return layer :: (← openLayers z r)

def openPackage (path : String) : Job Store := do
  note ("[+] Opening " ++ path)
  let outer ← openArchive (← readFile path)
  match outer.names.find? (Text.endsWith · "gameres.apk") with
  | none =>
    note "✗ gameres.apk not found in XAPK"
    return {}
  | some name =>
    note ("  ↳ Found gameres.apk: " ++ name)
    let inner ← openArchive (← readMember outer name)
    let found := inner.names.filter fun n => Text.startsWith n "assets/" && Text.endsWith n ".zip"
    if found.isEmpty then
      note "✗ No asset zips found under assets/"
      return {}
    note ("  ↳ Found " ++ Decimal.nat found.length ++ " asset zip(s): " ++ ", ".intercalate found)
    let layers ← openLayers inner found
    note ("[✓] Loaded " ++ Decimal.nat layers.length ++ " nested asset zip(s).")
    return ⟨layers⟩

def ofPackage (path : Option String) : Job Store := do
  match path with
  | none => return {}
  | some p => if !p.isEmpty && (← pathExists p) then openPackage p else return {}

/-! ## Reading -/

def readLayers (name : String) : List Zip → Job (Option Bytes)
  | [] => pure none
  | z :: r =>
    if (z.member? name).isSome then do return some (← readMember z name) else readLayers name r

def read (s : Store) (path : String) : Job Bytes := do
  match ← readLayers (Text.replaceAll path "\\" "/") s.layers with
  | some b => return b
  | none => readFile path

/-! ## The index -/

def fieldNames (d : Doc) : Job (List String) := do
  return (← ofExcept .shape (d.fields "keys")).map Prod.fst

/-- The document that octets spell; a mark of their encoding before it is dropped. -/
def documentOf (b : Bytes) : Job Doc := do
  let b := if [0xEF, 0xBB, 0xBF].isPrefixOf b then b.drop 3 else b
  ofExcept .document (Doc.parse (← ofExcept .text (Utf8.decode b)))

def layerIndex (z : Zip) : List String → Job (Option (List String))
  | [] => pure none
  | name :: r => do
    if (z.member? name).isNone then layerIndex z r
    else
      let (m, body) ← ofExcept .archive (z.locate name)
      note ("[✓] Loaded index from " ++ name ++ " in zip")
      return some (← fieldNames (← documentOf (← ofExcept .archive (Zip.unpack m body))))

def layersIndex (names : List String) : List Zip → Job (Option (List String))
  | [] => pure none
  | z :: r => do
    match ← layerIndex z names with
    | some found => return some found
    | none => layersIndex names r

def indexNames (s : Store) (path : String) : Job (List String) := do
  match ← layersIndex [path, "assets/Lua/LuaScript_index.json"] s.layers with
  | some found => return found
  | none =>
    if !(← pathExists path) then
      note ("✗ LuaScript_index.json not found at " ++ path)
      return []
    fieldNames (← ofExcept .document (Doc.parse (← readText path)))

/-! ## Searches -/

def nameInLayers (names : List String) (name : String) : Option String :=
  if names.contains name then some name
  else (["Lua/", "data/", "cache/"].map (· ++ name)).find? names.contains

def pathOnDisk (t : Tree) (dir : Path) (name : String) : Option String :=
  let places := [dir, dir.child "cache", dir.child "data", dir.child "lua"]
  (places.map fun p => (p.child name).text).find? t.exists?

/-- The pak files of the index that are there, in the order of the index; `look` finds one, and
`words` says that one was found. -/
def findEach (look : String → Job (Option String)) (words : String) : List String → Job (List String)
  | [] => pure []
  | name :: r => do
    match ← look name with
    | some place =>
      note (words ++ name)
      return place :: (← findEach look words r)
    | none =>
      note ("  ✗ Missing: " ++ name)
      findEach look words r

def findPaks (s : Store) (dir index : String) : Job (List String) := do
  heading '=' "SCANNING FOR PAK FILES"
  let expected ← s.indexNames index
  note ("\nFound " ++ Decimal.nat expected.length ++ " PAK files in LuaScript_index.json")
  let found ←
    if s.layers.isEmpty then
      findEach (fun n => do return pathOnDisk (← tree) (.ofString dir) n) "  ✓ Found: " expected
    else
      let names := s.layers.flatMap Zip.names
      findEach (fun n => pure (nameInLayers names n)) "  ✓ Found in zip: " expected
  note ("\nFound " ++ Decimal.nat found.length ++ "/" ++ Decimal.nat expected.length ++ " PAK files")
  return found

def isSealed (read : Job Bytes) : Job Bool :=
  recover (do return Sealed.mark.isPrefixOf (← read)) fun _ => pure false

def findSealedAmong (read : String → Job Bytes) : List String → Job (List String)
  | [] => pure []
  | name :: r => do
    if ← isSealed (read name) then
      note ("  ✓ Encrypted: " ++ name)
      return name :: (← findSealedAmong read r)
    else findSealedAmong read r

def sortedNames (names : List String) : List String :=
  (names.mergeSort Tree.before).eraseReps

/-- The sealed resources in the archives, or else at any depth below a directory. -/
def findSealed (s : Store) (dir : String) : Job (List String) := do
  heading '=' "SCANNING FOR ENCRYPTED FILES (RECURSIVE)"
  let found ←
    if s.layers.isEmpty then
      let t ← tree
      let paths := ((t.matchingBelow (.ofString dir) "*").map Path.text).filter t.isFile
      findSealedAmong readFile paths
    else
      let names := (sortedNames (s.layers.flatMap Zip.names)).filter fun n => !Text.endsWith n "/"
      findSealedAmong s.read names
  note ("\nFound " ++ Decimal.nat found.length ++ " encrypted files")
  return found

end Store

end Salvage
