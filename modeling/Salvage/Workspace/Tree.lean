import Salvage.Workspace.Fault
import Salvage.Workspace.Path

/-!
# File trees

A tree holds directories and files under their places. A path is looked up name by name from the
working directory, so that a path through something that is no directory, or through nothing, is
told apart from one whose last name is missing. Names have a greatest length, whole paths have none.
-/

namespace Salvage

abbrev Place := List String

/-- Places are told apart by their names. -/
instance : LawfulBEq Place :=
  inferInstance

inductive Node where
  | directory
  | file (data : Bytes)
deriving DecidableEq

def Node.isDirectory : Node → Bool
  | .directory => true
  | .file _ => false

structure Tree.Entry where
  place : Place
  node : Node
  changed : Int

structure Tree where
  entries : List Tree.Entry := []
  home : Place := ["tmp", "work"]
  clock : Int := 0

namespace Tree

/-! ## Entries -/

def entry? (t : Tree) (p : Place) : Option Entry :=
  t.entries.find? (·.place = p)

def node? (t : Tree) (p : Place) : Option Node :=
  if p.isPrefixOf t.home then some .directory else (t.entry? p).map (·.node)

def touch (t : Tree) (p : Place) : Tree :=
  { t with
    entries := t.entries.map fun e => if e.place = p then { e with changed := t.clock } else e
    clock := t.clock + 1 }

def put (t : Tree) (p : Place) (n : Node) : Tree :=
  if (t.entry? p).isSome then
    { t with
      entries := t.entries.map fun e =>
        if e.place = p then { e with node := n, changed := t.clock } else e
      clock := t.clock + 1 }
  else
    ({ t with entries := t.entries ++ [⟨p, n, t.clock⟩] } : Tree).touch p.dropLast

def erase (t : Tree) (p : Place) : Tree :=
  ({ t with entries := t.entries.filter (·.place ≠ p) } : Tree).touch p.dropLast

/-! ## Paths -/

def isTooLong (name : String) : Bool :=
  255 < name.utf8ByteSize

def walkNames (t : Tree) : Place → List String → Except FileCause Place
  | p, [] => .ok p
  | p, name :: r =>
    match t.node? p with
    | none => .error .missing
    | some (.file _) => .error .notDirectory
    | some .directory =>
      if name = "" ∨ name = "." then walkNames t p r
      else if name = ".." then walkNames t p.dropLast r
      else if isTooLong name then .error .nameTooLong
      else walkNames t (p ++ [name]) r

def endsInSlash (path : String) : Bool :=
  path.toList.getLast? == some '/'

def namesOf (path : String) : List String :=
  ((PathText.pieces path).reverse.dropWhile (·.isEmpty)).reverse

def place (t : Tree) (path : String) : Except FileCause Place :=
  if path.isEmpty then .error .missing
  else if path.toList.contains (Char.ofNat 0) then .error .zeroCharacter
  else
    match t.walkNames (if PathText.isAbsolute path then [] else t.home) (namesOf path) with
    | .error c => .error c
    | .ok p =>
      match t.node? p with
      | some (.file _) => if endsInSlash path then .error .notDirectory else .ok p
      | _ => .ok p

def resolve (t : Tree) (path : String) : Except FileFault Place :=
  (t.place path).mapError fun c => ⟨c, path, none⟩

def find? (t : Tree) (path : String) : Option Node :=
  match t.place path with
  | .ok p => t.node? p
  | .error _ => none

def exists? (t : Tree) (path : String) : Bool :=
  (t.find? path).isSome

def isFile (t : Tree) (path : String) : Bool :=
  match t.find? path with
  | some (.file _) => true
  | _ => false

def isDirectory (t : Tree) (path : String) : Bool :=
  match t.find? path with
  | some .directory => true
  | _ => false

/-! ## Files -/

def read (t : Tree) (path : String) : Except FileFault Bytes := do
  let p ← t.resolve path
  match t.node? p with
  | none => .error ⟨.missing, path, none⟩
  | some .directory => .error ⟨.isDirectory, path, none⟩
  | some (.file data) => .ok data

def directorySize : Nat := 4096

def size (t : Tree) (path : String) : Except FileFault Nat := do
  let p ← t.resolve path
  match t.node? p with
  | none => .error ⟨.missing, path, none⟩
  | some .directory => .ok directorySize
  | some (.file data) => .ok data.length

def write (t : Tree) (path : String) (data : Bytes) : Except FileFault Tree := do
  let p ← t.resolve path
  match t.node? p with
  | some .directory => .error ⟨.isDirectory, path, none⟩
  | some (.file _) => .ok (t.put p (.file data))
  | none =>
    if endsInSlash path then .error ⟨.isDirectory, path, none⟩
    else .ok (t.put p (.file data))

def remove (t : Tree) (path : String) : Except FileFault Tree := do
  let p ← t.resolve path
  match t.node? p with
  | none => .error ⟨.missing, path, none⟩
  | some .directory => .error ⟨.isDirectory, path, none⟩
  | some (.file _) => .ok (t.erase p)

/-! ## Directories -/

def makeDirectory (t : Tree) (path : String) : Except FileFault Tree := do
  let p ← t.resolve path
  match t.node? p with
  | some _ => .error ⟨.exists, path, none⟩
  | none => .ok (t.put p .directory)

def makeDirectoriesUpTo : Nat → Tree → String → Except FileFault Tree
  | 0, t, _ => .ok t
  | fuel + 1, t, path =>
    let (head, tail) :=
      match PathText.split path with
      | (h, "") => PathText.split h
      | s => s
    let above : Except FileFault (Tree × Bool) :=
      if !head.isEmpty && !tail.isEmpty && !t.exists? head then
        match makeDirectoriesUpTo fuel t head with
        | .ok t => .ok (t, tail == ".")
        | .error f => if f.cause = .exists then .ok (t, tail == ".") else .error f
      else .ok (t, false)
    match above with
    | .error f => .error f
    | .ok (t, true) => .ok t
    | .ok (t, false) =>
      match t.makeDirectory path with
      | .ok t => .ok t
      | .error f => if t.isDirectory path then .ok t else .error f

def makeDirectories (t : Tree) (path : String) : Except FileFault Tree :=
  makeDirectoriesUpTo (path.length + 1) t path

def makePathUpTo : Nat → Tree → Path → Except FileFault Tree
  | 0, t, _ => .ok t
  | fuel + 1, t, p =>
    let keep (r : Except FileFault Tree) (t : Tree) : Except FileFault Tree :=
      match r with
      | .ok t => .ok t
      | .error f => if f.cause ≠ .zeroCharacter ∧ t.isDirectory p.text then .ok t else .error f
    match t.makeDirectory p.text with
    | .error ⟨.missing, q, _⟩ =>
      if p.parts.isEmpty then .error ⟨.missing, q, none⟩
      else
        match makePathUpTo fuel t p.parent with
        | .error f => .error f
        | .ok t => keep (t.makeDirectory p.text) t
    | r => keep r t

def makePath (t : Tree) (p : Path) : Except FileFault Tree :=
  makePathUpTo (p.parts.length + 1) t p

/-! ## Moving and copying -/

def rename (t : Tree) (source target : String) : Except FileFault Tree :=
  let both (f : FileFault) : FileFault := ⟨f.cause, source, some target⟩
  Except.mapError both do
    let data ← t.read source
    let p ← t.resolve source
    let q ← t.resolve target
    if p = q then return t
    let t ← t.write target data
    return t.erase p

def landing (t : Tree) (source target : String) : String :=
  if t.isDirectory target then PathText.join target (PathText.base source) else target

/-- The tree with the file at one path moved to, or into, another; what is in a directory already is
not replaced. -/
def move (t : Tree) (source target : String) : Except FileFault Tree :=
  let landing := t.landing source target
  if t.isDirectory target ∧ t.exists? landing then .error ⟨.exists, source, some landing⟩
  else t.rename source landing

def copy (t : Tree) (source target : String) : Except FileFault Tree := do
  let target := t.landing source target
  if t.find? source |>.isSome then
    if (t.place source).toOption = (t.place target).toOption then throw ⟨.sameFile, source, some target⟩
  let data ← t.read source
  t.write target data

/-! ## Listings -/

/-- Whether a text comes before another, by the codes of their characters. -/
def before (a b : String) : Bool :=
  decide (a ≤ b)

def namesBefore : List String → List String → Bool
  | [], _ => true
  | _ :: _, [] => false
  | a :: r, b :: s => if a = b then namesBefore r s else before a b

def children (t : Tree) (p : Place) : List String :=
  (t.entries.filterMap fun e =>
    if e.place.dropLast = p ∧ e.place ≠ [] then e.place.getLast? else none).mergeSort before

def list (t : Tree) (path : String) : Except FileFault (List String) := do
  let p ← t.resolve path
  match t.node? p with
  | none => .error ⟨.missing, path, none⟩
  | some (.file _) => .error ⟨.notDirectory, path, none⟩
  | some .directory => .ok (t.children p)

def changed (t : Tree) (path : String) : Int :=
  match t.place path with
  | .ok p => ((t.entry? p).map (·.changed)).getD 0
  | .error _ => 0

structure Visit where
  path : String
  directories : List String
  files : List String

def split (t : Tree) (p : Place) : List String × List String :=
  (t.children p).partition fun n => (t.node? (p ++ [n])).any Node.isDirectory

def walkFrom (t : Tree) : Nat → Place → String → List Visit
  | 0, _, _ => []
  | fuel + 1, p, path =>
    let (dirs, files) := t.split p
    ⟨path, dirs, files⟩ ::
      dirs.flatMap fun d => walkFrom t fuel (p ++ [d]) (PathText.join path d)

def walk (t : Tree) (path : String) : List Visit :=
  match t.place path with
  | .error _ => []
  | .ok p =>
    match t.node? p with
    | some .directory => walkFrom t (t.entries.length + 1) p path
    | _ => []

def filesBelow (t : Tree) (path : String) : List String :=
  (t.walk path).flatMap fun v => v.files.map (PathText.join v.path)

/-- Whether a name matches a pattern in which a star stands for any characters. -/
def matchesChars : List Char → List Char → Bool
  | [], cs => cs.isEmpty
  | '*' :: p, [] => matchesChars p []
  | '*' :: p, c :: cs => matchesChars p (c :: cs) || matchesChars ('*' :: p) cs
  | a :: p, c :: cs => a == c && matchesChars p cs
  | _ :: _, [] => false
termination_by p cs => (p.length + cs.length)

/-- Whether a name matches a pattern in which a star stands for any characters. -/
def matchesName (pattern name : String) : Bool :=
  matchesChars pattern.toList name.toList

def matching (t : Tree) (dir : Path) (pattern : String) : List Path :=
  match t.place dir.text with
  | .error _ => []
  | .ok p =>
    match t.node? p with
    | some .directory =>
      ((t.children p).filter (matchesName pattern)).map fun n =>
        { dir with parts := dir.parts ++ [n] }
    | _ => []

def matchingBelowFrom (t : Tree) (pattern : String) : Nat → Path → List Path
  | 0, _ => []
  | fuel + 1, dir =>
    match t.place dir.text with
    | .error _ => []
    | .ok p =>
      match t.node? p with
      | some .directory =>
        t.matching dir pattern ++
          (t.split p).1.flatMap fun d =>
            matchingBelowFrom t pattern fuel { dir with parts := dir.parts ++ [d] }
      | _ => []

def matchingBelow (t : Tree) (dir : Path) (pattern : String) : List Path :=
  matchingBelowFrom t pattern (t.entries.length + 1) dir

end Tree

end Salvage
