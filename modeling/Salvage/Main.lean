import Salvage.Command

/-!
# The command line

The files below the working directory are read into a tree, a command is run on it, and what the
command changed is written back.
-/

namespace Salvage.CommandLine

partial def addEntry (front : String) (t : Tree) (e : IO.FS.DirEntry) : IO Tree := do
  let path := PathText.join front e.fileName
  if ← e.path.isDir then
    (← e.path.readDir).foldlM (addEntry path) ((t.makeDirectories path).toOption.getD t)
  else
    let data ← IO.FS.readBinFile e.path
    return (t.write path data.toList).toOption.getD t

def load : IO Tree := do
  (← (← IO.currentDir).readDir).foldlM (addEntry "") {}

def files (t : Tree) : List (String × Bytes) :=
  t.entries.filterMap fun e =>
    match e.node with
    | .file data =>
      if t.home.isPrefixOf e.place then some (PathText.ofPieces (e.place.drop t.home.length), data)
      else none
    | .directory => none

def store (before after : Tree) : IO Unit := do
  let old := files before
  let new := files after
  for (path, data) in new do
    if old.lookup path != some data then
      let directory := PathText.directory path
      if !directory.isEmpty then IO.FS.createDirAll directory
      IO.FS.writeBinFile path ⟨data.toArray⟩
  for (path, _) in old do
    if (new.lookup path).isNone then IO.FS.removeFile path

def tell (w : Workspace) : IO Unit := do
  IO.print (String.join w.console)
  IO.eprint (String.join w.complaints)
  for r in w.log do
    IO.eprintln (r.level.name ++ " " ++ r.text)

/-- Runs a command on the files below the working directory; the exit code. -/
def run (args : List String) : IO UInt32 := do
  let tree ← load
  match Command.run args { tree } with
  | .ok code w =>
    store tree w.tree
    tell w
    return UInt32.ofNat (code.getD 0).toNat
  | .error f w =>
    store tree w.tree
    tell w
    IO.eprintln f.message
    return 1

end Salvage.CommandLine

def main (args : List String) : IO UInt32 :=
  Salvage.CommandLine.run args
