import Salvage.Doc.Printer
import Salvage.Doc.Shape
import Salvage.Text.Case

/-!
# Code for schemas

A schema's record types become structures of a program, and its protocols an enumeration. They are
written from the document of a schema, which need not have the expected shape.
-/

namespace Salvage.Schema

open Doc (ShapeFault Key)

def identifier (name : String) : String :=
  name.map fun c => if c.isAlphanum || c = '_' then c else '_'

def identifierOf : Doc → Except ShapeFault String
  | .str s => .ok (identifier s)
  | d => .error (.noText d.kind)

def builtinTypes : List (Key × String) :=
  [(.whole 0, "i32"), (.whole 1, "bool"), (.whole 2, "String"), (.whole 3, "f64")]

def elementType (f : Doc) : Except ShapeFault String := do
  let builtin ← f.item "buildin"
  if builtin.kind ≠ .null then return (builtinTypes.lookup (← builtin.key)).getD "i32"
  let name ← f.getOr "type_name" .null
  if name.isTruthy then identifierOf name else return "i32"

def fieldCode (f : Doc) : Except ShapeFault String := do
  let type ← elementType f
  let type := if (← f.item "array").isTruthy then "Vec<" ++ type ++ ">" else type
  return "    pub " ++ (← identifierOf (← f.item "name")) ++ ": " ++ type ++ ","

def structureCode (t : Doc) : Except ShapeFault String := do
  let name ← identifierOf (← t.item "name")
  let lines ← (← (← t.item "fields").parts).mapM fieldCode
  return "\n".intercalate
    (["#[derive(Serialize, Deserialize, Debug, Clone)]", "pub struct " ++ name ++ " \x7b"] ++ lines ++
      ["\x7d\n"])

def protocolName (p : Doc) : Except ShapeFault String := do
  match ← p.item "name" with
  | .str s => return s
  | d => throw (.noOperation d.kind "title")

def memberCode (p : Doc) : Except ShapeFault String := do
  let name ← protocolName p
  return "    " ++ Text.titleIdentifier name ++ " = " ++ (← p.item "tag").display ++ ","

def caseCode (p : Doc) : Except ShapeFault String := do
  let name ← protocolName p
  return "            MsgID::" ++ Text.titleIdentifier name ++ " => \"" ++ name ++ "\","

def enumerationCode (protocols : Doc) : Except ShapeFault String := do
  let ps ← protocols.parts
  let members ← ps.mapM memberCode
  let cases ← ps.mapM caseCode
  return "\n".intercalate
    (["#[repr(u16)]", "#[derive(Debug, Clone, Copy, PartialEq, Eq)]", "pub enum MsgID \x7b"] ++ members ++
      ["\x7d\n", "impl MsgID \x7b", "    pub fn as_str(&self) -> &'static str \x7b",
       "        match self \x7b"] ++ cases ++
      ["            _ => \"unknown\",", "        \x7d", "    \x7d", "\x7d"])

def structuresCode (types : Doc) : Except ShapeFault String := do
  return "\n".intercalate (← (← types.parts).mapM structureCode)

end Salvage.Schema
