import Salvage.Job.Fault
import Salvage.Text.Replace
import Salvage.Workspace.Basic

/-!
# Jobs

A job reads and changes a workspace and ends with a value or a fault. What it did before a fault
stays done.
-/

namespace Salvage

abbrev Job := EStateM Fault Workspace

namespace Job

def ofExcept {ε α : Type} (wrap : ε → Fault) : Except ε α → Job α
  | .ok a => pure a
  | .error e => throw (wrap e)

/-- A result whose faults are causes of their own, as a job that changes nothing. -/
def of {ε α : Type} [IsFault ε] (r : Except ε α) : Job α :=
  ofExcept IsFault.toFault r

def recover {α : Type} (job : Job α) (remedy : Fault → Job α) : Job α :=
  tryCatch job fun f =>
    match f with
    | .interrupted => throw .interrupted
    | f => remedy f

def ensure {α : Type} (job : Job α) (work : Job Unit) : Job α := do
  let result ← tryCatch (do return .ok (← job)) fun f => return Except.error f
  work
  match result with
  | .ok a => return a
  | .error f => throw f

def attempt {α : Type} (job : Job α) : Job (Except Fault α) :=
  recover (do return .ok (← job)) fun f => return .error f

/-! ## Words -/

def put (s : String) : Job Unit :=
  modify fun w => { w with console := w.console ++ [s] }

def print (s : String) : Job Unit :=
  put (s ++ "\n")

def printAll : List String → Job Unit
  | [] => pure ()
  | s :: r => do print s; printAll r

def log (level : Level) (s : String) : Job Unit :=
  modify fun w =>
    if level.rank < Level.info.rank then w
    else { w with log := w.log ++ [{ level, text := s }] }

def note (s : String) : Job Unit :=
  log .info s

def warn (s : String) : Job Unit :=
  log .warning s

def complain (s : String) : Job Unit :=
  log .error s

def lament (s : String) : Job Unit :=
  modify fun w => { w with log := w.log ++ [{ level := .error, text := s, traced := true }] }

def heading (c : Char) (words : String) : Job Unit := do
  note ("\n" ++ Text.line c 70)
  note words
  note (Text.line c 70)

/-! ## Files -/

def tree : Job Tree := do
  return (← get).tree

def look {α : Type} (f : Tree → Except FileFault α) : Job α := do
  ofExcept .file (f (← tree))

def change (f : Tree → Except FileFault Tree) : Job Unit := do
  let t ← look f
  modify fun w => { w with tree := t }

def readFile (path : String) : Job Bytes :=
  look (·.read path)

def writeFile (path : String) (data : Bytes) : Job Unit :=
  change (·.write path data)

/-- The characters of a text with every kind of line end turned into a line feed. -/
def unifyLineEnds : List Char → List Char
  | [] => []
  | '\r' :: '\n' :: r => '\n' :: unifyLineEnds r
  | '\r' :: r => '\n' :: unifyLineEnds r
  | c :: r => c :: unifyLineEnds r

def readText (path : String) : Job String := do
  let data ← readFile path
  let s ← ofExcept .text (Utf8.decode data)
  return String.ofList (unifyLineEnds s.toList)

def writeText (path text : String) : Job Unit :=
  writeFile path (Utf8.encode text)

def pathExists (path : String) : Job Bool := do
  return (← tree).exists? path

def isDirectory (path : String) : Job Bool := do
  return (← tree).isDirectory path

def fileSize (path : String) : Job Nat :=
  look (·.size path)

def makeDirectories (path : String) : Job Unit :=
  change (·.makeDirectories path)

def makePath (path : Path) : Job Unit :=
  change (·.makePath path)

def removeFile (path : String) : Job Unit :=
  change (·.remove path)

def absolute (path : String) : Job String := do
  return PathText.absolute (← get).root path

def relative (path start : String) : Job String := do
  if path.isEmpty then throw .noPath
  return PathText.relative (← get).root path start

/-! ## Chance -/

def draw (n : Nat) : Job Bytes :=
  modifyGet fun w =>
    match w.random with
    | [] => (List.replicate n 0, w)
    | b :: r => (b, { w with random := r })

/-! ## The stop sign -/

def stopped : Job Bool := fun w =>
  match w.stop with
  | none => .ok false w
  | some s => .ok s.look.1 { w with stop := some s.look.2 }

def unstoppable {α : Type} (job : Job α) : Job α := fun w =>
  match job { w with stop := none } with
  | .ok a v => .ok a { v with stop := w.stop }
  | .error f v => .error f { v with stop := w.stop }

end Job

end Salvage
