import Salvage.Workspace.Network
import Salvage.Workspace.Tree

/-!
# Workspaces

Everything that a job reads and changes besides its arguments: the file tree, what was printed and
logged, the servers, the decompiler, the contents of bundles, the stop sign and the clock.

The container format of asset bundles is not read here, and compiled scripts are turned back into
text by an external program: a workspace says what each bundle holds, and what the decompiler does
with each file name. Long jobs look at the stop sign between their steps and end early once it is
raised.
-/

namespace Salvage

/-! ## Asset bundles -/

structure BundleObject where
  kind : String
  data : Bytes

inductive BundleFile where
  | unreadable (words : String)
  | holding (objects : List BundleObject)

/-! ## The decompiler -/

structure Decompiler.Run where
  output : Bytes := []
  complaint : Bytes := []
  code : Int := 0
  hangs : Bool := false

structure Decompiler where
  runs : List (String × Decompiler.Run) := []

/-- How a run on a file name ends; a name it does not know fails without a word. -/
def Decompiler.run (d : Decompiler) (name : String) : Decompiler.Run :=
  (d.runs.lookup name).getD { code := 1 }

/-! ## Stop signs -/

/-- A sign that asks a job to end. One with a patience is raised by itself after it has been looked
at that many times. -/
structure StopSign where
  raised : Bool := false
  patience : Option Nat := none

def StopSign.look (s : StopSign) : Bool × StopSign :=
  match s.patience with
  | none => (s.raised, s)
  | some 0 => (true, { s with raised := true })
  | some (n + 1) => (s.raised, { s with patience := some n })

/-! ## The log -/

inductive Level where
  | info | warning | error
  | other (rank : Int)

namespace Level

def rank : Level → Int
  | info => 20
  | warning => 30
  | error => 40
  | other r => r

def ofRank (r : Int) : Level :=
  if r = 20 then info else if r = 30 then warning else if r = 40 then error else other r

def name : Level → String
  | info => "INFO"
  | warning => "WARNING"
  | error => "ERROR"
  | other r =>
    if r = 0 then "NOTSET" else if r = 10 then "DEBUG" else if r = 50 then "CRITICAL"
    else "Level " ++ Decimal.int r

end Level

structure LogRecord where
  level : Level
  text : String
  traced : Bool := false

/-! ## Workspaces -/

structure Workspace where
  tree : Tree := {}
  root : String := "."
  console : List String := []
  complaints : List String := []
  log : List LogRecord := []
  network : Network := {}
  decompiler : Option Decompiler := none
  bundles : List (String × BundleFile) := []
  stop : Option StopSign := none
  random : List Bytes := []
  now : String := "2000-01-02T03:04:05"

end Salvage
