import Salvage.Number.Binary64

/-!
# Documents

Configurations, indexes, schemas and reports are documents: null, truth values, numbers, texts,
lists, and objects whose fields keep the order in which they were first written.
-/

namespace Salvage

inductive Doc where
  | null
  | bool (b : Bool)
  | int (i : Int)
  | real (x : Binary64)
  | str (s : String)
  | arr (items : List Doc)
  | obj (fields : List (String × Doc))
deriving Inhabited

class ToDoc (α : Type) where
  toDoc : α → Doc

namespace Doc

/-! ## Fields -/

def lookup (name : String) : List (String × Doc) → Option Doc
  | [] => none
  | (k, v) :: r => if k = name then some v else lookup name r

def insert (name : String) (value : Doc) : List (String × Doc) → List (String × Doc)
  | [] => [(name, value)]
  | (k, v) :: r => if k = name then (k, value) :: r else (k, v) :: insert name value r

def field? (d : Doc) (name : String) : Option Doc :=
  match d with
  | obj fields => lookup name fields
  | _ => none

def setField (d : Doc) (name : String) (value : Doc) : Doc :=
  match d with
  | obj fields => obj (insert name value fields)
  | d => d

/-! ## Kinds -/

def isTruthy : Doc → Bool
  | null => false
  | bool b => b
  | int i => i != 0
  | real x => !x.isZero
  | str s => !s.isEmpty
  | arr items => !items.isEmpty
  | obj fields => !fields.isEmpty

inductive Kind where
  | null | bool | int | real | str | arr | obj
deriving DecidableEq

def kind : Doc → Kind
  | null => .null
  | bool _ => .bool
  | int _ => .int
  | real _ => .real
  | str _ => .str
  | arr _ => .arr
  | obj _ => .obj

def Kind.name : Kind → String
  | .null => "NoneType"
  | .bool => "bool"
  | .int => "int"
  | .real => "float"
  | .str => "str"
  | .arr => "list"
  | .obj => "dict"

end Doc

end Salvage
