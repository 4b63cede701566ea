import Salvage.Doc.Basic

/-!
# Schemas

A schema lists the record types that two programs exchange and the protocols that use them. A field
has either a built-in type or the number of a record type; the numbers count the types from zero.
-/

namespace Salvage

namespace Schema

structure Field where
  name : String
  tag : Int
  builtin : Option Int
  typeId : Option Int
  repeated : Bool
  keyTag : Option Int
  isMap : Bool

structure Record where
  name : String
  fields : List Field

structure Exchange where
  name : String
  tag : Int
  request : Option Int
  response : Option Int
  confirm : Bool

end Schema

structure Schema where
  types : List Schema.Record
  protocols : List Schema.Exchange

namespace Schema

/-! ## Names and numbers of types -/

def noteId (name : String) (id : Nat) : List (String × Nat) → List (String × Nat)
  | [] => [(name, id)]
  | (n, i) :: r => if n = name then (n, id) :: r else (n, i) :: noteId name id r

/-- The numbers of the types by name, the last one of a name that occurs several times, in the order
in which the names first occur. -/
def typeIds (s : Schema) : List (String × Nat) :=
  s.types.zipIdx.foldl (fun ids (t, i) => noteId t.name i ids) []

def typeName? (s : Schema) (id : Int) : Option String :=
  (s.typeIds.find? fun e => (e.2 : Int) == id).map (·.1)

/-! ## Documents -/

def number : Option Int → Doc
  | none => .null
  | some i => .int i

def Field.parts (f : Field) : List (String × Doc) :=
  [("name", .str f.name), ("tag", .int f.tag), ("buildin", number f.builtin),
   ("type_id", number f.typeId), ("array", .bool f.repeated), ("key_tag", number f.keyTag),
   ("map", .bool f.isMap)]

def Field.toDoc (f : Field) : Doc :=
  .obj f.parts

def Field.toNamedDoc (s : Schema) (f : Field) : Doc :=
  match f.builtin, f.typeId with
  | none, some id => .obj (f.parts ++ [("type_name", ((s.typeName? id).map Doc.str).getD .null)])
  | _, _ => f.toDoc

def Record.toDocWith (field : Field → Doc) (t : Record) : Doc :=
  .obj [("name", .str t.name), ("fields", .arr (t.fields.map field))]

def Record.toDoc (t : Record) : Doc :=
  t.toDocWith Field.toDoc

def Exchange.toDoc (e : Exchange) : Doc :=
  .obj [("name", .str e.name), ("tag", .int e.tag), ("request_id", number e.request),
    ("response_id", number e.response), ("confirm", .bool e.confirm)]

def toDocWith (field : Field → Doc) (s : Schema) : Doc :=
  .obj [("types", .arr (s.types.map (Record.toDocWith field))),
    ("protocols", .arr (s.protocols.map Exchange.toDoc)),
    ("type_id_by_name", .obj (s.typeIds.map fun (n, i) => (n, .int i)))]

def toDoc (s : Schema) : Doc :=
  s.toDocWith Field.toDoc

instance : ToDoc Field := ⟨Field.toDoc⟩
instance : ToDoc Record := ⟨Record.toDoc⟩
instance : ToDoc Exchange := ⟨Exchange.toDoc⟩
instance : ToDoc Schema := ⟨toDoc⟩

def toNamedDoc (s : Schema) : Doc :=
  s.toDocWith (Field.toNamedDoc s)

end Schema

end Salvage
