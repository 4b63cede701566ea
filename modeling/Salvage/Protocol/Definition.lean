import Salvage.Doc.Basic
import Salvage.Number.Decimal

/-!
# Message definitions

A definition names a message or a structure and lists its fields. Messages go by a number,
structures by their name.
-/

namespace Salvage.Protocol

structure Field where
  name : String
  type : String
  description : String
  repeated : Bool

structure Definition where
  name : String
  fields : List Field

inductive Key where
  | number (n : Nat)
  | name (s : String)
deriving DecidableEq

def Key.text : Key → String
  | number n => Decimal.nat n
  | name s => s

/-- Definitions in the order in which their keys were first met, each key once. -/
abbrev Definitions := List (Key × Definition)

def Definitions.insert (k : Key) (d : Definition) : Definitions → Definitions
  | [] => [(k, d)]
  | (k', d') :: r => if k' = k then (k, d) :: r else (k', d') :: insert k d r

def Field.toDoc (f : Field) : Doc :=
  .obj [("name", .str f.name), ("type", .str f.type), ("desc", .str f.description),
    ("repeated", .bool f.repeated)]

def Definition.toDoc (d : Definition) : Doc :=
  .obj [("msg_name", .str d.name), ("fields", .arr (d.fields.map Field.toDoc))]

def Definitions.toDoc (ds : Definitions) : Doc :=
  .obj (ds.map fun (k, d) => (k.text, d.toDoc))

end Salvage.Protocol
