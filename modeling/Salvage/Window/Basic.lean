import Salvage.Job.Basic

/-!
# The window

The window shows a few fields and buttons and a log. Its state is what its handlers read and change;
how it is drawn is not part of it.
-/

namespace Salvage

namespace Window

/-! ## Controls -/

inductive Button where
  | browseSettings | browsePackage | downloadLists | extract | decompile | extractMetadata
  | decryptBundles | downloadAssets | downloadDescriptors | extractDescriptors | stop

def buttons : List Button :=
  [.browseSettings, .browsePackage, .downloadLists, .extract, .decompile, .extractMetadata,
   .decryptBundles, .downloadAssets, .downloadDescriptors, .extractDescriptors, .stop]

def Button.label : Button → String
  | browseSettings => "Browse"
  | browsePackage => "Browse"
  | downloadLists => "Download Package Lists"
  | extract => "Extract Lua (1)"
  | decompile => "Decrypt Lua (2)"
  | extractMetadata => "Decrypt & Extract Metadata"
  | decryptBundles => "Decrypt AB Bundles"
  | downloadAssets => "Download Asset Files"
  | downloadDescriptors => "Download Proto File"
  | extractDescriptors => "Extract Proto"
  | stop => "Stop Task"

inductive MenuEntry where
  | cut | copy | paste | divider | selectAll | clear

def MenuEntry.label : MenuEntry → String
  | cut => "Cut"
  | copy => "Copy"
  | paste => "Paste"
  | divider => "-"
  | selectAll => "Select All"
  | clear => "Clear Output"

inductive Area where
  | log | filter | settings

def Area.menu : Area → List MenuEntry
  | log => [.cut, .copy, .paste, .divider, .selectAll, .divider, .clear]
  | _ => [.cut, .copy, .paste, .divider, .selectAll]

/-! ## What the window shows -/

inductive Tag where
  | info | warn | error

def Tag.name : Tag → String
  | info => "info"
  | warn => "warn"
  | error => "error"

def Tag.ofLevel (l : Level) : Tag :=
  if 40 ≤ l.rank then error else if 30 ≤ l.rank then warn else info

inductive TextChange where
  | clear
  | insert (text : String) (tag : Tag)

inductive Box where
  | warning (title text : String)
  | error (title text : String)
  | info (title text : String)
  | question (title text : String)
  | openFile (title : String) (kinds : List (String × String))

inductive Event where
  | command (name : String)
  | popup (x y : Int)

inductive Worker where
  | none | running | finished
deriving DecidableEq

end Window

structure Window where
  settingsPath : String := "config.json"
  filter : String := ""
  choices : List String := []
  workers : Int := 8
  listsOnly : Bool := false
  package : String := ""
  /-- The path of the game's package in the entry field, once that shows another value. -/
  shownPackage : Option String := none
  worker : Window.Worker := .none
  sign : StopSign := {}
  /-- After how many looks the sign is raised by itself when it is lowered next. -/
  patience : Option Nat := none
  closed : Bool := false
  logging : Bool := false
  earlier : List LogRecord := []
  confirms : Bool := true
  choice : String := ""
  text : List Window.TextChange := []
  boxes : List Window.Box := []
  events : List Window.Event := []

abbrev Desk := EStateM Fault (Window × Workspace)

namespace Desk

def job {α : Type} (j : Job α) : Desk α := fun (w, s) =>
  match j s with
  | .ok a s => .ok a (w, s)
  | .error f s => .error f (w, s)

def window : Desk Window := do
  return (← get).1

def change (f : Window → Window) : Desk Unit :=
  modify fun (w, s) => (f w, s)

def putUp (b : Window.Box) : Desk Unit :=
  change fun w => { w with boxes := w.boxes ++ [b] }

end Desk

namespace Window

def isBusy (w : Window) : Bool :=
  w.worker == .running

def choosePackage (w : Window) (path : String) : Window :=
  { w with package := path }

def entryPackage (w : Window) : String :=
  w.shownPackage.getD w.package

/-- The window with a new path of the game's package for tasks; the entry field keeps what it
shows. -/
def detachPackage (w : Window) (path : String) : Window :=
  { w with shownPackage := some w.entryPackage, package := path }

def lowerSign (w : Window) : Window :=
  { w with sign := { raised := false, patience := w.patience }, patience := none }

def raiseSign (w : Window) : Window :=
  { w with sign := { w.sign with raised := true } }

/-- A line of the log as it is shown: the time, the level and the words. An account of where a fault
arose is left out, and with it the end of the line. -/
def lineOf (now : String) (r : LogRecord) : TextChange :=
  let time := String.ofList (now.toList.drop 11)
  .insert (time ++ " [" ++ r.level.name ++ "] " ++ r.text ++ (if r.traced then "" else "\n"))
    (Tag.ofLevel r.level)

def showLog : Desk Unit :=
  modify fun (w, s) =>
    let lines := if w.logging then s.log.map (lineOf s.now) else []
    ({ w with text := w.text ++ lines }, { s with log := [] })

end Window

end Salvage
