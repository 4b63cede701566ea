import Salvage.Doc.Printer
import Salvage.Doc.Shape

/-!
# Schemas as text

The text of a schema has a block for each record type and each protocol. It is written from the
document of a schema, which need not have the expected shape.
-/

namespace Salvage.Schema

open Doc (ShapeFault Key)

def builtinNames : List (Key × String) :=
  [(.whole 0, "integer"), (.whole 1, "boolean"), (.whole 2, "string"), (.whole 3, "double")]

def typeWord (builtin typeName : Doc) : Except ShapeFault Doc := do
  if builtin.kind = .null then return if typeName.isTruthy then typeName else .str "?"
  return .str ((builtinNames.lookup (← builtin.key)).getD "?")

def fieldLine (f : Doc) : Except ShapeFault String := do
  let type ← typeWord (← f.item "buildin") (← f.getOr "type_name" .null)
  let type ← if (← f.item "array").isTruthy then
      match type with
      | .str s => pure ("*" ++ s)
      | d => throw (.notText d.kind)
    else pure type.display
  let keyTag ← f.item "key_tag"
  let key := if keyTag.kind = .null then [] else ["key_tag=" ++ keyTag.display]
  let extras := key ++ if (← f.item "map").isTruthy then ["map"] else []
  let extra := if extras.isEmpty then "" else " -- " ++ " ".intercalate extras
  return "  " ++ (← f.item "name").display ++ " " ++ (← f.item "tag").display ++ " : " ++ type ++ extra

def recordBlock (t : Doc) : Except ShapeFault String := do
  let head := ".type " ++ (← t.item "name").display ++ " \x7b"
  let lines ← (← (← t.item "fields").parts).mapM fieldLine
  return "\n".intercalate (head :: lines ++ ["\x7d"])

abbrev TypeNames := List (Key × Doc)

def TypeNames.nameOf (names : TypeNames) (id : Doc) : Except ShapeFault String := do
  return ((names.lookup (← id.key)).getD (.str ("type" ++ id.display))).display

def roleLine (names : TypeNames) (p : Doc) (role : String) : Except ShapeFault (List String) := do
  let id ← p.getOr (role ++ "_id") .null
  if id.kind = .null then return []
  return ["  " ++ role ++ " " ++ (← names.nameOf id)]

def exchangeBlock (names : TypeNames) (p : Doc) : Except ShapeFault String := do
  let name ← p.item "name"
  let tag ← p.item "tag"
  let request ← roleLine names p "request"
  let response ← roleLine names p "response"
  let confirm := if (← p.getOr "confirm" .null).isTruthy then ["  response nil -- confirm"] else []
  return "\n".intercalate
    ([".protocol " ++ name.display ++ " " ++ tag.display ++ " \x7b"] ++ request ++ response ++
      confirm ++ ["\x7d"])

/-- The names of the types by number, from their numbers by name; the last name of a number counts. -/
def TypeNames.ofIds (fields : List (String × Doc)) : Except ShapeFault TypeNames := do
  return (← fields.mapM fun (name, id) => do return (← id.key, Doc.str name)).reverse

def write (d : Doc) : Except ShapeFault (String × Nat × Nat) := do
  let types ← d.item "types"
  let protocols ← d.item "protocols"
  let names ← TypeNames.ofIds (← (← d.item "type_id_by_name").fields "items")
  let typeBlocks ← (← types.parts).mapM recordBlock
  let protocolBlocks ← (← protocols.parts).mapM (exchangeBlock names)
  return ("\n\n".intercalate (typeBlocks ++ protocolBlocks), typeBlocks.length, protocolBlocks.length)

end Salvage.Schema
