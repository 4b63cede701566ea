import Salvage.Assembly.Convert

/-!
# The command that converts program libraries

The command takes a directory, perhaps a second one for the copies, and switches. A long switch may be
cut short as long as it stays unique, and short ones may be written together. After `--` everything is
a directory.
-/

namespace Salvage.Assembly

inductive Switch where
  | help | remove | recursive | unchecked
deriving DecidableEq

def longNames : List (String × Switch) :=
  [("--help", .help), ("--remove", .remove), ("--recursive", .recursive),
   ("--skip-validation", .unchecked)]

def letters : List (Char × Switch) :=
  [('h', .help), ('r', .remove)]

/-! ## Arguments -/

inductive Word where
  | plain (s : String)
  | switches (xs : List Switch)
  | wrong
  | unknown
  | ambiguous
  | mark
deriving DecidableEq

def isNegativeNumber : List Char → Bool
  | '-' :: r =>
    match r.dropWhile Text.isDecimal with
    | [] => !r.isEmpty
    | '.' :: fraction => !fraction.isEmpty && fraction.all Text.isDecimal
    | _ => false
  | _ => false

def otherWord (s : String) : Word :=
  if isNegativeNumber s.toList || s.toList.contains ' ' then .plain s else .unknown

def longWord (s : String) : Word :=
  let name := s.toList.takeWhile (· ≠ '=')
  match longNames.lookup s with
  | some x => .switches [x]
  | none =>
    match longNames.filter fun e => e.1 == String.ofList name with
    | _ :: _ => .wrong
    | [] =>
      match longNames.filter fun e => name.isPrefixOf e.1.toList with
      | [] => otherWord s
      | [e] => if name.length < s.length then .wrong else .switches [e.2]
      | _ => .ambiguous

def shortWord (s : String) (cs : List Char) : Word :=
  match cs with
  | [] => .plain s
  | c :: _ =>
    if (letters.lookup c).isNone then otherWord s
    else
      match cs.mapM fun c => letters.lookup c with
      | some xs => .switches xs
      | none => .wrong

def wordOf (s : String) : Word :=
  match s.toList with
  | ['-', '-'] => .mark
  | '-' :: '-' :: _ => longWord s
  | '-' :: cs => shortWord s cs
  | _ => .plain s

def wordsOf : List String → List Word
  | [] => []
  | s :: r =>
    match wordOf s with
    | .mark => .mark :: r.map .plain
    | w => w :: wordsOf r

/-! ## Options -/

structure Options where
  source : Option String := none
  target : Option String := none
  remove : Bool := false
  recursive : Bool := false
  unchecked : Bool := false

inductive Request where
  | run (o : Options)
  | help
  | refused

def Options.set (o : Options) : Switch → Options
  | .help => o
  | .remove => { o with remove := true }
  | .recursive => { o with recursive := true }
  | .unchecked => { o with unchecked := true }

def plainRun : List Word → List String × List Word
  | .plain s :: r => let (xs, rest) := plainRun r; (s :: xs, rest)
  | .mark :: r => plainRun r
  | ws => ([], ws)

/-- What words ask for, at most `fuel` of them; `extra` says whether a word was left over. The
directories must stand next to each other. -/
def Options.readUpTo : Nat → Options → Bool → List Word → Request
  | 0, _, _, _ => .refused
  | _ + 1, o, extra, [] => if extra || o.source.isNone then .refused else .run o
  | fuel + 1, o, extra, .switches xs :: r =>
    if xs.contains .help then .help else readUpTo fuel (xs.foldl set o) extra r
  | _ + 1, _, _, .wrong :: _ => .refused
  | _ + 1, _, _, .ambiguous :: _ => .refused
  | fuel + 1, o, _, .unknown :: r => readUpTo fuel o true r
  | fuel + 1, o, extra, w :: r =>
    match o.source, plainRun (w :: r) with
    | none, (a :: b, rest) =>
      readUpTo fuel { o with source := some a, target := b.head? } (extra || 1 < b.length) rest
    | _, (_, rest) => readUpTo fuel o true rest

def Options.read (args : List String) : Request :=
  let words := wordsOf args
  if words.contains .ambiguous then .refused else readUpTo (words.length + 1) {} false words

def helpText : String :=
  "usage: hotfix.py [-h] [-r] [--recursive] [--skip-validation]\n" ++
  "                 source_directory [output_directory]\n\n" ++
  "Convert .dll.bytes and .pdb.bytes files back to their original format\n\n" ++
  "positional arguments:\n" ++
  "  source_directory   Source directory to scan for .bytes files\n" ++
  "  output_directory   Output directory for converted files (default: same as\n" ++
  "                     source)\n\n" ++
  "options:\n" ++
  "  -h, --help         show this help message and exit\n" ++
  "  -r, --remove       Remove .bytes files after successful conversion\n" ++
  "  --recursive        Scan subdirectories recursively\n" ++
  "  --skip-validation  Skip validation for PDB files (convert all .pdb.bytes\n" ++
  "                     files)\n"

def command (args : List String) : Job (Option Int) := do
  match Options.read args with
  | .refused => return some 2
  | .help =>
    Job.put helpText
    return some 0
  | .run o =>
    let _ ← convertAll (o.source.getD "") o.target o.remove o.recursive o.unchecked
    return none

end Salvage.Assembly
