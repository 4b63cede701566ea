import Salvage.Doc.Parser
import Salvage.Flat.Item
import Salvage.Job.Basic

/-! # Record files as documents -/

namespace Salvage.Flat

open Job

inductive Reader where
  | complete
  | withoutItems
  | unusable
deriving DecidableEq

def Reader.ofBytes (b : Bytes) : Reader :=
  if b = Bytes.ofString "ok" then complete
  else if b = Bytes.ofString "nolist" then withoutItems
  else unusable

structure Container where
  items : List (Option Item) := []
  count : Int := 0

def itemOf : Doc → Option Item
  | .arr ds => some (.ofDocs ds)
  | _ => none

def Container.ofDoc (d : Doc) : Except Doc.ShapeFault Container := do
  let items := match ← d.item "items" with
    | .arr ds => ds.map itemOf
    | _ => []
  let count := match d.field? "count" with
    | some (.int n) => n
    | _ => items.length
  return { items, count }

def readContainer (reader : Reader) (path : String) : Job Container := do
  let b ← readFile path
  if reader = .withoutItems then return {}
  let text ← ofExcept .text (Utf8.decode b)
  let d ← ofExcept .document (Doc.parse text)
  ofExcept .shape (Container.ofDoc d)

def mostItems : Nat := 100000

/-- What `n` items hold, from the `i`-th on; items that hold nothing are left out, and a dot is
printed for every five thousand items. -/
def gatherItems (fields : Item → Except Fault (List (String × Value))) :
    Nat → Nat → List (Option Item) → Job (List Value)
  | _, 0, _ => return []
  | i, n + 1, items => do
    if 0 < i ∧ i % 5000 = 0 then put "."
    let here ← match items.head?.join with
      | none => pure []
      | some item => ofExcept id (fields item)
    let rest ← gatherItems fields (i + 1) n items.tail
    return (if here.isEmpty then [] else [.table here]) ++ rest

inductive Outcome where
  | done | skipped | failed

instance : ToDoc Outcome := ⟨fun | .done => .bool true | .skipped => .null | .failed => .bool false⟩

def writeItems (target name : String) (items : List Value) : Job Outcome := do
  if items.isEmpty then
    print "  ⚠ No data"
    return .skipped
  makePath (Path.ofString target).parent
  let draft := (Value.table
    [("source", .text name), ("count", .int items.length), ("data", .list items)]).draft 0
  writeText target draft.text
  if !draft.complete then throw .unwritable
  print ("  ✓ " ++ Decimal.nat items.length ++ " items")
  return .done

def convertWith (reader : Reader) (source target name : String) : Job Outcome := do
  let c ← readContainer reader source
  if (mostItems : Int) < c.count then
    print ("  ⊘ Too many (" ++ Decimal.int c.count ++ ")")
    return .skipped
  let fields := if name = "MasterOgcMission" then Item.missionFields else Item.allFields
  let items ← gatherItems fields 0 c.count.toNat c.items
  writeItems target name items

def convertFile (source target readers : String) : Job Outcome :=
  recover (do
      let name := (Path.ofString source).stem
      let reader := ((Path.ofString readers).child (name ++ "Container.py")).text
      if !(← pathExists reader) then
        print "  ⊘ No module"
        return .skipped
      match ← attempt (readFile reader) with
      | .error _ => return .failed
      | .ok b =>
        let r := Reader.ofBytes b
        if r = .unusable then return .failed
        convertWith r source target name)
    fun f => do
      print ("  ✗ " ++ String.ofList (f.message.toList.take 100))
      return .failed

/-! ## Directories -/

structure Tally where
  success : Nat := 0
  failed : Nat := 0
  skipped : Nat := 0

def Tally.count (t : Tally) : Outcome → Tally
  | .done => { t with success := t.success + 1 }
  | .skipped => { t with skipped := t.skipped + 1 }
  | .failed => { t with failed := t.failed + 1 }

/-- Converts record files, the first one being the `i`-th of `n`, until the user interrupts. -/
def convertEach (start target : Path) (readers : String) (n : Nat) :
    Nat → List Path → Tally → Job Tally
  | _, [], t => return t
  | i, p :: r, t => do
    let rel := (p.relativeTo? start).getD p
    let new := target.append ((rel.withExtension? ".json").getD rel)
    put ("[" ++ Decimal.nat i ++ "/" ++ Decimal.nat n ++ "] " ++ rel.name ++ "... ")
    let outcome ← tryCatch (do return some (← convertFile p.text new.text readers)) fun _ => return none
    match outcome with
    | some o => convertEach start target readers n (i + 1) r (t.count o)
    | none =>
      print "\n\n⚠ Interrupted"
      return t

def convertAll (source target readers : String) : Job Unit := do
  let start := Path.ofString source
  let files := ((← tree).matchingBelow start "*.fb").mergeSort fun p q =>
    Tree.namesBefore p.parts q.parts
  print ("Found " ++ Decimal.nat files.length ++ " FlatBuffer files")
  print (Text.line '=' 60)
  let t ← convertEach start (Path.ofString target) readers files.length 1 files {}
  printAll
    ["\n" ++ Text.line '=' 60, "  ✓ Succeeded: " ++ Decimal.nat t.success,
     "  ✗ Failed: " ++ Decimal.nat t.failed, "  ⊘ Skipped: " ++ Decimal.nat t.skipped]

def command : List String → Job (Option Int)
  | [] => do
    print "Usage: python fb2json.py <input_dir> [output_dir] [generated_dir]"
    return some 1
  | source :: r => do
    convertAll source (r.headD "ExtractedJSON_Fixed") (r.tail.headD "./generated")
    return none

end Salvage.Flat
