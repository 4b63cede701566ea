import Salvage.Doc.Printer
import Salvage.Pak.Store

/-!
# Extracting a game's resources

Every entry of every pak file in the index is decrypted and written twice, under its path and under
its hash. Then the sealed resources that no pak file mentions are treated in the same way, and a
summary is written. The stop sign is looked at between all steps.
-/

/-! ## Kinds of content

What a resource holds is told from its first octets.
-/

namespace Salvage

inductive FileType where
  | compiled
  | script
  | xml
  | json
  | other
deriving DecidableEq

namespace FileType

def name : FileType → String
  | compiled => "luac"
  | script => "lua"
  | xml => "xml"
  | json => "json"
  | other => "bin"

def extension (t : FileType) : String :=
  "." ++ t.name

def isCompiled (b : Bytes) : Bool :=
  match b with
  | 0x1B :: 0x4C :: c :: _ => c == 0x75 || c == 0x4A
  | _ => false

def scriptWords : List String :=
  ["function", "end", "if", "then"]

def looksLikeScript (b : Bytes) : Bool :=
  match Utf8.decode (b.take 100) with
  | .ok s => scriptWords.any (Text.holds s)
  | .error _ => false

def ofBytes (b : Bytes) : FileType :=
  let starts (s : String) : Bool := (Bytes.ofString s).isPrefixOf b
  if b.length < 7 then other
  else if isCompiled b then compiled
  else if 8 ≤ b.length && isCompiled (b.drop 4) then compiled
  else if starts "--" || starts "return" || starts "local" then script
  else if starts "<?xml" then xml
  else if starts "\x7b" || starts "[" then json
  else if looksLikeScript b then script
  else other

end FileType

end Salvage

namespace Salvage.Extraction

open Job

/-! ## Progress -/

/-- What has been done: how many resources there are, how many were written and how many not, the
paths by their hashes, and how many of each kind there are. -/
structure Progress where
  total : Nat := 0
  success : Nat := 0
  failed : Nat := 0
  mapping : List (String × String) := []
  kinds : List (FileType × Nat) := []
deriving DecidableEq

namespace Progress

def bind (p : Progress) (hash : UInt32) (path : String) : Progress :=
  { p with mapping := put (Decimal.nat hash.toNat) path p.mapping }
where
  put (key value : String) : List (String × String) → List (String × String)
    | [] => [(key, value)]
    | (k, v) :: r => if k = key then (k, value) :: r else (k, v) :: put key value r

def count (p : Progress) (t : FileType) : Progress :=
  { p with kinds := increase p.kinds }
where
  increase : List (FileType × Nat) → List (FileType × Nat)
    | [] => [(t, 1)]
    | (k, n) :: r => if k = t then (k, n + 1) :: r else (k, n) :: increase r

def succeed (p : Progress) : Progress := { p with success := p.success + 1 }

def fail (p : Progress) : Progress := { p with failed := p.failed + 1 }

def meet (p : Progress) (n : Nat) : Progress := { p with total := p.total + n }

end Progress

structure Plan where
  search : String := "."
  index : String := "Lua"
  output : String := "extracted"
  recursive : Bool := true

abbrev Run := ExceptT Progress Job

def checkStop (p : Progress) (words : Job Unit) : Run Unit := do
  if ← stopped then
    words
    throwThe Progress p

/-! ## Writing -/

def write (path : String) (b : Bytes) : Job Unit := do
  makeDirectories (PathText.directory path)
  writeFile path b

def resourceName (path : String) : String :=
  let cs := (PathText.base path).toList
  if cs.contains '.' then String.ofList ((cs.reverse.dropWhile (· != '.')).drop 1).reverse
  else String.ofList cs

def hashPath (plan : Plan) (hash : UInt32) (t : FileType) : String :=
  PathText.join (PathText.join plan.output "by_hash") (Decimal.nat hash.toNat ++ t.extension)

def placePath (plan : Plan) (path : String) : String :=
  PathText.join (PathText.join plan.output "by_path") path

/-! ## Pak files -/

def writeEntry (plan : Plan) (name : String) (e : Pak.Entry) (content : Bytes) (p : Progress) :
    Run Progress := do
  let failWith (p : Progress) (f : Fault) : Run Progress := do
    complain ("[!] Failed to extract " ++ name ++ ": " ++ f.message)
    return p.fail
  let t := FileType.ofBytes content
  let p := p.count t
  match ← attempt (write (placePath plan (name ++ t.extension)) content) with
  | .error f => failWith p f
  | .ok _ =>
    checkStop p (warn "Extraction interrupted during write.")
    match ← attempt (write (hashPath plan e.hash t) content) with
    | .error f => failWith p f
    | .ok _ => return p.succeed

def entry (plan : Plan) (pak : Pak) (pakName : String) (n i : Nat) (name : String) (e : Pak.Entry)
    (p : Progress) : Run Progress := do
  checkStop p do
    warn "Extraction aborted inside PAK loop."
    note ("Processed " ++ Decimal.nat (i - 1) ++ "/" ++ Decimal.nat n ++ " entries in " ++ pakName)
  let p := p.bind e.hash name
  if i % 20 = 1 ∨ i = n then
    note ("  Progress: [" ++ Decimal.nat i ++ "/" ++ Decimal.nat n ++ "]")
  checkStop p (warn "Extraction interrupted before decrypting next file.")
  let content := Sealed.decrypt (pak.contents e) (resourceName name)
  checkStop p (warn "Extraction interrupted during decryption.")
  match content with
  | some (b :: r) => writeEntry plan name e (b :: r) p
  | _ => return p.fail

def entries (plan : Plan) (pak : Pak) (pakName : String) (n : Nat) :
    Nat → List (String × Pak.Entry) → Progress → Run Progress
  | _, [], p => pure p
  | i, (name, e) :: r, p => do
    let p ← entry plan pak pakName n i name e p
    entries plan pak pakName n (i + 1) r p

def loadPak (store : Store) (path : String) : Job Pak := do
  ofExcept .pak (Pak.load (← store.read path))

def pakFile (plan : Plan) (store : Store) (n i : Nat) (path : String) (p : Progress) :
    Run Progress := do
  checkStop p do
    warn "Extraction aborted by user."
    note ("Processed " ++ Decimal.nat (i - 1) ++ " of " ++ Decimal.nat n ++ " PAK files.")
  let name := PathText.base path
  heading '=' ("[" ++ Decimal.nat i ++ "/" ++ Decimal.nat n ++ "] EXTRACTING PAK: " ++
    String.ofList (name.toList.take 60))
  match ← attempt (loadPak store path) with
  | .error f =>
    complain ("Failed to load " ++ name ++ ": " ++ f.message)
    return p
  | .ok pak =>
    note ("  Version: " ++ Decimal.nat pak.version)
    note ("  MD5: " ++ Hex.encode pak.digest)
    note ("  Files: " ++ Decimal.nat pak.count)
    entries plan pak name pak.entries.length 1 pak.entries (p.meet pak.entries.length)

def pakFiles (plan : Plan) (store : Store) (n : Nat) :
    Nat → List String → Progress → Run Progress
  | _, [], p => pure p
  | i, path :: r, p => do
    let p ← pakFile plan store n i path p
    pakFiles plan store n (i + 1) r p

/-! ## Sealed resources outside the pak files -/

/-- Where a sealed resource is written: a compiled script gets the extension of one. -/
def extraPath (path : String) (t : FileType) : String :=
  if t = .compiled ∧ Text.endsWith path ".lua" then
    String.ofList (path.toList.dropLast.dropLast.dropLast.dropLast) ++ ".luac"
  else path

/-- The `i`-th of `n` sealed resources outside the pak files. -/
def extra (plan : Plan) (store : Store) (n i : Nat) (path : String) (p : Progress) :
    Run Progress := do
  checkStop p do
    warn "Extraction aborted during additional file search."
    note ("Processed " ++ Decimal.nat (i - 1) ++ "/" ++ Decimal.nat n ++ " extra files.")
  let failWith (p : Progress) (words : String) : Run Progress := do
    note words
    return (p.meet 1).fail
  match ← attempt (store.read path) with
  | .error f => failWith p ("  ✗ Error: " ++ f.message)
  | .ok data =>
    let content := Sealed.decrypt data (resourceName path)
    checkStop p (warn "Extraction interrupted during extra file decryption.")
    match content with
    | some (b :: r) =>
      let content := b :: r
      let hash := PolyHash.ofString path
      let t := FileType.ofBytes content
      let p := (p.bind hash path).count t
      let place := extraPath path t
      let written ← attempt do
        write (placePath plan place) content
        write (hashPath plan hash t) content
      match written with
      | .error f => failWith p ("  ✗ Error: " ++ f.message)
      | .ok _ =>
        note ("  ✓ Decrypted as " ++ t.name ++ " → " ++ PathText.base place)
        return (p.meet 1).succeed
    | _ => failWith p "  ✗ Decryption failed"

/-- Sealed resources outside the pak files, from the `i`-th of `n` on. -/
def extras (plan : Plan) (store : Store) (n : Nat) :
    Nat → List String → Progress → Run Progress
  | _, [], p => pure p
  | i, path :: r, p => do
    let p ← extra plan store n i path p
    extras plan store n (i + 1) r p

def recursivePass (plan : Plan) (store : Store) (p : Progress) : Run Progress := do
  heading '#' "# SEARCHING FOR ADDITIONAL ENCRYPTED FILES"
  let found ← store.findSealed plan.search
  let fresh := found.filter fun f => !(p.mapping.map Prod.snd).contains f
  if fresh.isEmpty then
    warn "\n✓ No additional encrypted files found"
    return p
  heading '=' ("EXTRACTING " ++ Decimal.nat fresh.length ++ " ADDITIONAL ENCRYPTED FILES")
  extras plan store fresh.length 1 fresh p

/-! ## The summary -/

def Progress.stats (p : Progress) : Doc :=
  .obj [("total", .int p.total), ("success", .int p.success), ("failed", .int p.failed)]

def Progress.hashes (p : Progress) : Doc :=
  .obj (p.mapping.map fun (k, v) => (k, .str v))

def Progress.info (p : Progress) (n : Nat) : Doc :=
  .obj [("total_paks", .int n), ("total_files", .int p.total), ("stats", p.stats),
    ("file_types", .obj (p.kinds.map fun (t, k) => (t.name, .int k)))]

/-- Writes and logs the summary of a run over `n` pak files. -/
def summarize (plan : Plan) (n : Nat) (p : Progress) : Job Unit := do
  let hashes := PathText.join plan.output "all_hashes.json"
  writeText hashes (p.hashes.render .report)
  let info := PathText.join plan.output "extraction_info.json"
  writeText info ((p.info n).render .report)
  heading '#' "# OVERALL SUMMARY"
  note ("\nTotal PAK files:  " ++ Decimal.nat n)
  note ("Total files:      " ++ Decimal.nat p.total)
  note ("Decrypted:        " ++ Decimal.nat p.success)
  note ("Failed:           " ++ Decimal.nat p.failed)
  if 0 < p.total then
    note ("Success rate:     " ++ Percent.render 1 p.success p.total ++ "%")
  if !p.kinds.isEmpty then
    note "\nFile types:"
    for (t, k) in p.kinds.mergeSort (fun a b => decide (b.2 ≤ a.2)) do
      note ("  " ++ t.name ++ ": " ++ Decimal.nat k)
  note ("\n✓ Complete hash mapping: " ++ hashes)
  note ("✓ Extraction info: " ++ info)
  note ("✓ Output directory: " ++ plan.output ++ "/")

def passes (plan : Plan) (store : Store) (paks : List String) : Run Progress := do
  heading '#' ("# EXTRACTING " ++ Decimal.nat paks.length ++ " PAK FILE(S)")
  let p ← pakFiles plan store paks.length 1 paks {}
  let p ← if plan.recursive then
      if ← stopped then pure p else recursivePass plan store p
    else pure p
  checkStop p (warn "Extraction stopped before writing summary files.")
  summarize plan paks.length p
  return p

/-- Extracts the resources of a game; nothing when the stop sign is raised before the start. -/
def run (plan : Plan) (store : Store) : Job (Option Progress) := do
  if ← stopped then
    warn "Extraction aborted before start."
    return none
  let paks ← store.findPaks plan.search plan.index
  match ← (passes plan store paks).run with
  | .ok p => return some p
  | .error p => return some p

end Salvage.Extraction
