import Salvage.Doc.Parser
import Salvage.Job.Basic
import Salvage.Protocol.Code

/-!
# Generated code

Code for message definitions: for each message a structure with a function that reads it and one that
writes it, placeholders for structures that are used and not defined, and a function that reads a
message by its number. The definitions are a document, which need not have the expected shape.
-/

namespace Salvage.Protocol

structure Generator where
  definitions : Doc := .obj []
  known : List Doc := []
  /-- The names of structures that are used and not defined, each once. -/
  unknown : List String := []
  notes : List String := []

abbrev Generate := EStateM Doc.ShapeFault Generator

namespace Generator

open Code (typeNames)

/-! ## Shapes -/

def look {α : Type} : Except Doc.ShapeFault α → Generate α
  | .ok a => return a
  | .error f => throw f

def getOr (d : Doc) (name : String) (other : Doc) : Generate Doc :=
  look (d.getOr name other)

def say (line : String) : Generate Unit :=
  modify fun g => { g with notes := g.notes ++ [line] }

def cleanText : Doc → Except Doc.ShapeFault String
  | .str s => .ok (Code.clean s)
  | d => if d.isTruthy then .error (.noText d.kind) else .ok ""

def cleanCommentText : Doc → Except Doc.ShapeFault String
  | .str s => .ok (Code.cleanComment s)
  | d => if d.isTruthy then .error (.noText d.kind) else .ok ""

def isIdentifierText : Doc → Except Doc.ShapeFault Bool
  | .str s => .ok (Code.isIdentifier s)
  | d => if d.isTruthy then .error (.noText d.kind) else .ok false

/-! ## Known and unknown structures -/

def sameValue : Doc → Doc → Bool
  | .str a, .str b => a == b
  | .int a, .int b => a == b
  | .bool a, .bool b => a == b
  | .null, .null => true
  | _, _ => false

def definedName? : Doc → Except Doc.ShapeFault (Option Doc)
  | .obj fs =>
    match Doc.lookup "msg_name" fs with
    | none => .ok none
    | some (.arr _) => .error (.unhashable .arr)
    | some (.obj _) => .error (.unhashable .obj)
    | some d => .ok (some d)
  | .arr items =>
    if items.any (sameValue (.str "msg_name")) then .error .listField else .ok none
  | .str s => if Text.holds s "msg_name" then .error .textField else .ok none
  | d => .error (.notSearched d.kind)

def definedNames : List Doc → Except Doc.ShapeFault (List Doc)
  | [] => .ok []
  | d :: r => do
    let name ← definedName? d
    let names ← definedNames r
    match name with
    | none => return names
    | some n => return if names.any (sameValue n) then names else n :: names

def load (definitions : Doc) : Generate Unit := do
  modify fun g => { g with definitions := definitions }
  let fields ← look (definitions.fields "values")
  let known ← look (definedNames (fields.map (·.2)))
  modify fun g => { g with known := known }

def isKnown (g : Generator) (type : String) : Bool :=
  g.known.any (sameValue (.str type))

def noteUnknown (type : String) : Generate Unit :=
  modify fun g =>
    if type.isEmpty || (typeNames.lookup type).isSome || g.isKnown type || g.unknown.contains type
    then g
    else { g with unknown := g.unknown ++ [type] }

def codeType (type : Doc) (repeated : Bool) : Generate String := do
  let type ← look (cleanText type)
  if (typeNames.lookup type).isNone && !(← get).isKnown type then
    say ("Warning: Unknown type '" ++ type ++ "' - assuming it's a valid struct")
  return Code.fieldType type repeated

/-! ## Structures -/

structure FieldCode where
  name : String
  type : String
  repeated : Bool

def fieldCode? (field : Doc) : Generate (Option FieldCode) := do
  let name ← look (cleanText (← getOr field "name" (.str "")))
  let type ← look (cleanText (← getOr field "type" (.str "")))
  if name.isEmpty || type.isEmpty then return none
  let repeated ← getOr field "repeated" (.bool false)
  return some { name, type, repeated := repeated.isTruthy }

def noteUnknowns : List Doc → Generate Unit
  | [] => return
  | field :: r => do
    noteUnknown (← look (cleanText (← getOr field "type" (.str ""))))
    noteUnknowns r

def memberLines (owner : String) (field : Doc) : Generate (List String) := do
  match ← fieldCode? field with
  | none =>
    say ("Warning: Skipping field with missing name/type in " ++ owner)
    return []
  | some f =>
    let type ← codeType (.str f.type) f.repeated
    let comment ← look (cleanCommentText (← getOr field "desc" (.str "")))
    let safe := Code.safeName f.name
    return (if comment.isEmpty then [] else ["    /// " ++ comment]) ++
      (if safe = f.name then [] else ["    #[serde(rename = \"" ++ f.name ++ "\")]"]) ++
      ["    pub " ++ safe ++ ": " ++ type ++ ","]

def eachLines (f : Doc → Generate (List String)) : List Doc → Generate (List String)
  | [] => return []
  | d :: r => do
    let lines ← f d
    return lines ++ (← eachLines f r)

def readLines (owned : Bool) (field : Doc) : Generate (List String) := do
  match ← fieldCode? field with
  | none => return []
  | some f =>
    let type ← codeType (.str f.type) f.repeated
    return ["            " ++ Code.safeName f.name ++ ": " ++
      Code.readExpression type f.type f.repeated owned ++ ","]

def writeLines (field : Doc) : Generate (List String) := do
  match ← fieldCode? field with
  | none => return []
  | some f =>
    let type ← codeType (.str f.type) f.repeated
    return [Code.writeStatement (Code.safeName f.name) type f.type f.repeated]

def isPart (name : String) : Bool :=
  Text.startsWith name "pt_"

def readHead (name : String) : List String :=
  if isPart name then ["    pub fn decode(reader: &mut ProtocolByteBuf) -> Self \x7b"]
  else
    ["    pub fn decode(data: &[u8]) -> Self \x7b",
     "        let mut reader = ProtocolByteBuf::new(data);",
     "        info!(\"Decoding " ++ name ++ ", data length: \x7b\x7d\", data.len());"]

def implementationLines (name : String) (fields : Doc) : Generate (List String) := do
  let fields ← look fields.parts
  let reads ← eachLines (readLines (!isPart name)) fields
  let writes ← eachLines writeLines fields
  return ["impl " ++ name ++ " \x7b"] ++ readHead name ++ ["        Self \x7b"] ++ reads ++
    ["        \x7d", "    \x7d", "    pub fn encode(&self) -> Vec<u8> \x7b",
     "        let mut buf = ProtocolByteBuf::new_write();"] ++ writes ++
    ["        buf.into_bytes()", "    \x7d", "\x7d"]

def structureHead (name : String) : List String :=
  ["#[allow(non_camel_case_types)]", "#[derive(Debug, Clone, Serialize, Deserialize)]",
   "pub struct " ++ name ++ " \x7b"]

def structureLines (name : String) (definition : Doc) : Generate (List String) := do
  let fields ← getOr definition "fields" (.arr [])
  let items ← look fields.parts
  noteUnknowns items
  let members ← if items.isEmpty then pure ["    // no fields"]
    else eachLines (memberLines name) items
  let implementation ← implementationLines name fields
  return structureHead name ++ members ++ ["\x7d\n"] ++ implementation ++ [""]

def placeholder (name : String) : List String :=
  structureHead name ++
  ["    // TODO: Define proper fields for this struct", "\x7d\n", "impl " ++ name ++ " \x7b",
   "    pub fn decode(_reader: &mut ProtocolByteBuf) -> Self \x7b",
   "        // TODO: Implement proper decoding", "        Self \x7b\x7d", "    \x7d", "",
   "    pub fn encode(&self) -> Vec<u8> \x7b", "        // TODO: Implement proper encoding",
   "        Vec::new()", "    \x7d", "\x7d", ""]

def placeholders (g : Generator) : List String :=
  if g.unknown.isEmpty then []
  else
    "// Placeholder structs for unknown types" ::
      ((g.unknown.mergeSort fun a b => decide (a ≤ b)).filter Code.isIdentifier).flatMap placeholder

/-! ## Files -/

def messageName? (definition : Doc) : Generate (Option String) := do
  let name ← look (cleanText (← getOr definition "msg_name" (.str "")))
  return if Code.isIdentifier name then some name else none

def entries : Generate (List (String × Doc)) := do
  look ((← get).definitions.fields "items")

def structures : List (String × Doc) → Generate (List String)
  | [] => return []
  | (_, d) :: r => do
    let lines ← match ← messageName? d with
      | none => pure []
      | some name => structureLines name d
    return lines ++ (← structures r)

def messages : Generate String := do
  let lines ← structures (← entries)
  return "\n".intercalate
    (["// Auto-generated from messages.json", "", "#![allow(non_local_definitions)]",
      "use serde::\x7bSerialize, Deserialize\x7d;", "use crate::packet::ProtocolByteBuf;",
      "use tracing::info;", ""] ++ lines ++ (← get).placeholders)

def isNumber (key : String) : Bool :=
  !key.isEmpty && key.toList.all Text.isNumeric

def cases : List (String × Doc) → Generate (List String)
  | [] => return []
  | (key, d) :: r => do
    let line ← match ← messageName? d with
      | none => pure []
      | some name =>
        if isNumber key then
          pure ["        " ++ key ++ " => Some(serde_json::to_value(&" ++ name ++
            "::decode(data)).unwrap()),"]
        else do
          say ("Skipped Msg_id " ++ key)
          pure []
    return line ++ (← cases r)

def dispatch : Generate String := do
  let lines ← cases (← entries)
  return "\n".intercalate
    (["// Auto-generated dispatcher", "use serde_json::Value;", "use crate::messages::*;", "",
      "pub fn dispatch_cmd(cmd: u32, data: &[u8]) -> Option<Value> \x7b", "    match cmd \x7b"] ++
      lines ++ ["        _ => None,", "    \x7d", "\x7d"])

/-! ## Jobs -/

def perform {α : Type} (g : Generator) (step : Generate α) : Job (α × Generator) := do
  match step { g with notes := [] } with
  | .ok a g =>
    Job.printAll g.notes
    return (a, g)
  | .error f g =>
    Job.printAll g.notes
    throw (.shape f)

def usualPath : String := "mapping.json"

def run (path : String := usualPath) (dir : String := ".") : Job Unit := do
  let definitions ← Job.ofExcept .document (Doc.parse (← Job.readText path))
  let (_, g) ← perform {} (load definitions)
  let out := Path.ofString dir
  let (code, g) ← perform g messages
  Job.writeText (out.child "messages.rs").text code
  let (code, _) ← perform g dispatch
  Job.writeText (out.child "dispatch.rs").text code
  Job.print ("[*] Generated messages.rs and dispatch.rs in " ++ dir)

end Generator

end Salvage.Protocol
