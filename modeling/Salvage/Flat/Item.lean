import Salvage.Doc.Printer
import Salvage.Job.Fault
import Salvage.Text.Replace
import Salvage.Workspace.Tree

/-!
# Items of record files

An item of a record file has accessors, each of which gives a value or fails. What an item holds is
gathered by asking the accessors, either all of them or those of a known kind of item.
-/

namespace Salvage.Flat

/-! ## Values -/

inductive Value where
  | null
  | bool (b : Bool)
  | int (i : Int)
  | real (x : Binary64)
  | text (s : String)
  | octets (b : Bytes)
  | list (items : List Value)
  | table (fields : List (String × Value))

mutual

/-- The value that a document describes; an object with the field `$hex`, `$int` or `$f64` alone
stands for octets, a whole number or the bits of a real number. -/
def Value.ofDoc : Doc → Value
  | .null => .null
  | .bool b => .bool b
  | .int i => .int i
  | .real x => .real x
  | .str s => .text s
  | .arr items => .list (Value.ofItems items)
  | .obj [("$hex", .str s)] => .octets ((Hex.decode? s).getD [])
  | .obj [("$int", .str s)] => .int (s.toInt?.getD 0)
  | .obj [("$f64", .str s)] =>
    .real ⟨UInt64.ofNat (Bytes.bigEndian ((Hex.decode? s).getD []))⟩
  | .obj fields => .table (Value.ofFields fields)

def Value.ofItems : List Doc → List Value
  | [] => []
  | d :: r => Value.ofDoc d :: Value.ofItems r

def Value.ofFields : List (String × Doc) → List (String × Value)
  | [] => []
  | (k, d) :: r => (k, Value.ofDoc d) :: Value.ofFields r

end

/-! ## Writing values -/

structure Draft where
  text : String
  complete : Bool := true

def Draft.append (a b : Draft) : Draft :=
  if a.complete then ⟨a.text ++ b.text, b.complete⟩ else a

instance : Append Draft := ⟨Draft.append⟩

def layout : Doc.Layout := .report

mutual

def Value.draft (depth : Nat) : Value → Draft
  | .null => ⟨"null", true⟩
  | .bool b => ⟨if b then "true" else "false", true⟩
  | .int i => ⟨Decimal.int i, true⟩
  | .real x => ⟨(Doc.real x).render layout, true⟩
  | .text s => ⟨Doc.quote layout.ascii s, true⟩
  | .octets _ => ⟨"", false⟩
  | .list [] => ⟨"[]", true⟩
  | .list (v :: r) =>
    ⟨"[" ++ layout.newline (depth + 1), true⟩ ++ Value.draft (depth + 1) v ++
      Value.draftItems (depth + 1) r ++ ⟨layout.newline depth ++ "]", true⟩
  | .table [] => ⟨"\x7b\x7d", true⟩
  | .table ((k, v) :: r) =>
    ⟨"\x7b" ++ layout.newline (depth + 1) ++ Doc.quote layout.ascii k ++ layout.colon, true⟩ ++
      Value.draft (depth + 1) v ++ Value.draftFields (depth + 1) r ++
      ⟨layout.newline depth ++ "\x7d", true⟩

def Value.draftItems (depth : Nat) : List Value → Draft
  | [] => ⟨"", true⟩
  | v :: r =>
    ⟨layout.separator ++ layout.newline depth, true⟩ ++ Value.draft depth v ++
      Value.draftItems depth r

def Value.draftFields (depth : Nat) : List (String × Value) → Draft
  | [] => ⟨"", true⟩
  | (k, v) :: r =>
    ⟨layout.separator ++ layout.newline depth ++ Doc.quote layout.ascii k ++ layout.colon, true⟩ ++
      Value.draft depth v ++ Value.draftFields depth r

end

/-! ## Items -/

inductive Accessor where
  | gives (v : Value)
  | fails
  | interrupted

abbrev Item := List (String × Accessor)

namespace Item

def ask (item : Item) (name : String) : Except Fault (Option Value) :=
  match item.reverse.lookup name with
  | some (.gives .null) => .ok none
  | some (.gives v) => .ok (some v)
  | some .interrupted => .error .interrupted
  | _ => .ok none

/-- Whether a text can be shown: it has no zero character, and four fifths of it are printable. -/
def isShowable (s : String) : Bool :=
  let cs := s.toList
  let plain := cs.filter fun c => Text.isPrintable c || c = '\n' || c = '\r' || c = '\t' || c = ' '
  !cs.contains '\x00' && 4 * cs.length ≤ 5 * plain.length

def text (item : Item) (name : String) : Except Fault (Option String) := do
  match ← item.ask name with
  | some (.octets b) =>
    match Utf8.decode b with
    | .ok s => return if s.isEmpty || !isShowable s then none else some s
    | .error _ => return none
  | some (.text s) => return if (Text.strip s).isEmpty || !isShowable s then none else some s
  | _ => return none

def missionTexts : List String :=
  ["Description", "Label", "ConditionValueA", "ConditionValueB", "ConditionValueC", "ConditionValueD",
   "ReleaseLabel"]

def missionNumbers : List String :=
  ["MasterMissionId", "UnlockingTriggerId", "MasterRewardGroupId", "SubscriptionMasterRewardGroupId",
   "TransitionStateValue", "EventId", "MasterMissionGroupId", "ConditionValueN", "GreatSageExpBonus",
   "SortOrder", "MasterOgcMissionCategory", "MasterOgcMissionType", "MasterOgcMissionUnlockingType",
   "MasterOgcMissionTransitionState", "MasterOgcMissionDisplayType"]

def gather (look : String → Except Fault (Option Value)) :
    List String → Except Fault (List (String × Value))
  | [] => .ok []
  | name :: r => do
    let v ← look name
    let rest ← gather look r
    return (v.map fun v => (name, v)).toList ++ rest

def missionFields (item : Item) : Except Fault (List (String × Value)) := do
  let texts ← gather (fun name => do return (← item.text name).map .text) missionTexts
  let numbers ← gather item.ask missionNumbers
  return texts ++ numbers

def ownNames : List String :=
  ["Init", "GetRootAs", "GetRootAsType", "ByteBuffer"]

def isDataName (name : String) : Bool :=
  !Text.startsWith name "_" && !ownNames.contains name &&
    !Text.holds name "Length" && !Text.holds name "IsNone"

def kept : Value → Option Value
  | .bool b => some (.bool b)
  | .int i => some (.int i)
  | .real x => some (.real x)
  | .text s => if s.isEmpty then none else some (.text s)
  | .octets b =>
    match Utf8.decode b with
    | .ok s => if s.isEmpty then none else some (.text s)
    | .error _ => none
  | _ => none

def dataNames (item : Item) : List String :=
  (((item.map (·.1)).eraseDups).filter isDataName).mergeSort Tree.before

def allFields (item : Item) : Except Fault (List (String × Value)) :=
  gather (fun name => do return (← item.ask name).bind kept) item.dataNames

end Item

/-! ## Descriptions of items -/

def Accessor.ofDoc (kind : String) (d : Doc) : Accessor :=
  match kind with
  | "ret" => .gives (.ofDoc d)
  | "interrupt" => .interrupted
  | _ => .fails

def Item.ofDocs : List Doc → Item
  | .arr [.str name, .str kind, d] :: r => (name, .ofDoc kind d) :: ofDocs r
  | _ :: r => ofDocs r
  | [] => []

end Salvage.Flat
