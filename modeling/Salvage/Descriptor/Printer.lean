import Salvage.Descriptor.Basic
import Salvage.Text.Replace

/-!
# Option of message formats

A file of a descriptor set is written as the text that describes its messages and enumerations.
-/

namespace Salvage.Descriptor

def typeNames : List (Int × String) :=
  [(1, "double"), (2, "float"), (3, "int64"), (4, "uint64"), (5, "int32"), (6, "fixed64"),
   (7, "fixed32"), (8, "bool"), (9, "string"), (12, "bytes"), (13, "uint32"), (15, "sfixed32"),
   (16, "sfixed64"), (17, "sint32"), (18, "sint64")]

def indent (level : Nat) : String :=
  Text.line ' ' (2 * level)

def Field.typeText (f : Field) : Option String :=
  if f.type = 11 ∨ f.type = 14 then do
    let name ← (Utf8.decode f.typeName).toOption
    return (Text.splitOn name ".").getLast?.getD ""
  else some ((typeNames.lookup f.type).getD ("unknown_type_" ++ Decimal.int f.type))

def Field.line (level : Nat) (f : Field) : Option String := do
  let label := if f.label = 3 then "repeated " else ""
  let type ← f.typeText
  return indent level ++ "  " ++ label ++ type ++ " " ++ Wire.shown f.name ++ " = " ++
    Decimal.int f.number ++ ";"

def Enumeration.lines (level : Nat) (e : Enumeration) : List String :=
  let first := indent level ++ "enum " ++ Wire.shown e.name ++ " \x7b"
  let values := e.values.map fun (name, number) =>
    indent level ++ "  " ++ Wire.shown name ++ " = " ++ Decimal.int number ++ ";"
  first :: values ++ [indent level ++ "\x7d"]

def Enumeration.linesOfAll (level : Nat) (es : List Enumeration) : List String :=
  es.flatMap fun e => e.lines level ++ [""]

mutual

def Message.lines (level : Nat) : Message → Option (List String)
  | .mk name enumerations nested fields => do
    let first := indent level ++ "message " ++ Wire.shown name ++ " \x7b"
    let enumerations := Enumeration.linesOfAll (level + 1) enumerations
    let nested ← Message.linesOfAll (level + 1) nested
    let fields ← fields.mapM (Field.line level)
    return first :: enumerations ++ nested ++ fields ++ [indent level ++ "\x7d"]

def Message.linesOfAll (level : Nat) : List Message → Option (List String)
  | [] => return []
  | m :: r => do
    let lines ← Message.lines level m
    return lines ++ [""] ++ (← Message.linesOfAll level r)

end

def File.text (f : File) : Option String := do
  let package := if f.package.isEmpty then [] else ["package " ++ Wire.shown f.package ++ ";", ""]
  let imports := f.imports.map fun i => "import \"" ++ Wire.shown i ++ "\";"
  let gap := if imports.isEmpty then [] else [""]
  let messages ← Message.linesOfAll 0 f.messages
  return "\n".intercalate (["syntax = \"proto3\";", ""] ++ package ++ imports ++ gap ++
    Enumeration.linesOfAll 0 f.enumerations ++ messages)

end Salvage.Descriptor
