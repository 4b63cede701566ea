import Salvage.Text.Alphanumeric
import Salvage.Text.Blank
import Salvage.Text.Replace

/-!
# Code for single fields

The generated code reads a message from a buffer field by field, and writes it in the same way.
-/

namespace Salvage.Protocol.Code

/-! ## Names and comments -/

def isFolded (c : Char) : Bool :=
  c == '\r' || c == '\n' || c == '\t' || c == ' '

/-- The characters with each run of line ends, tabs and spaces turned into one space; `inside` says
whether a run has begun. -/
def fold (inside : Bool) : List Char → List Char
  | [] => []
  | c :: r =>
    if isFolded c then (if inside then fold true r else ' ' :: fold true r)
    else c :: fold false r

def clean (s : String) : String :=
  Text.strip (String.ofList (fold false s.toList))

def isCommentChar (c : Char) : Bool :=
  Text.isWord c || Text.isBlank c || (0x4E00 ≤ c.toNat && c.toNat ≤ 0x9FFF) ||
    ".,!?()-".toList.contains c

def commentLimit : Nat := 200

def cleanComment (s : String) : String :=
  String.ofList (((clean s).toList.filter isCommentChar).take commentLimit)

def keywords : List (String × String) :=
  [("type", "msg_type"), ("match", "match_value"), ("return", "return_value"), ("use", "use_value"),
   ("move", "move_value"), ("ref", "ref_value")]

def safeName (name : String) : String :=
  (keywords.lookup name).getD name

/-- Whether characters are letters, digits and underscores, with at most one line feed at the
end. -/
def isIdentifierTail : List Char → Bool
  | [] => true
  | ['\n'] => true
  | c :: r => (c.isAlphanum || c == '_') && isIdentifierTail r

def isIdentifier (name : String) : Bool :=
  match name.toList with
  | [] => false
  | c :: r => (c.isAlpha || c == '_') && isIdentifierTail r

/-! ## Types -/

def typeNames : List (String × String) :=
  [("int8", "i8"), ("int16", "i16"), ("int32", "i32"), ("int64str", "String"), ("string", "String")]

def typeName (type : String) : String :=
  (typeNames.lookup type).getD type

def fieldType (type : String) (repeated : Bool) : String :=
  if repeated then "Vec<" ++ typeName type ++ ">" else typeName type

def innerType (fieldType : String) : String :=
  Text.replaceAll (Text.replaceAll fieldType "Vec<" "") ">" ""

inductive Primitive where
  | i8 | i16 | i32 | i64 | u16 | u32 | u64 | bool

def Primitive.all : List Primitive :=
  [.i8, .i16, .i32, .i64, .u16, .u32, .u64, .bool]

def Primitive.name : Primitive → String
  | i8 => "i8"
  | i16 => "i16"
  | i32 => "i32"
  | i64 => "i64"
  | u16 => "u16"
  | u32 => "u32"
  | u64 => "u64"
  | bool => "bool"

def Primitive.ofName? (name : String) : Option Primitive :=
  all.find? (·.name == name)

inductive Element where
  | primitive (p : Primitive)
  | numberText
  | text
  | record (name : String)

def element (codeType type : String) : Element :=
  match Primitive.ofName? codeType with
  | some p => .primitive p
  | none =>
    if codeType = "String" then (if type = "int64str" then .numberText else .text)
    else .record codeType

/-- What a value of a field with several is written as: a text is a text, whatever its type in the
definition. -/
def repeatedElement (codeType : String) : Element :=
  element codeType ""

/-! ## Reading -/

/-- The code that reads a single value; `owned` says whether the reader is the function's own. -/
def Element.read (owned : Bool) : Element → String
  | primitive p => "reader.read_" ++ p.name ++ "_padded()"
  | numberText => "reader.read_i64_padded().to_string()"
  | text => "reader.read_string_padded()"
  | record name => name ++ "::decode(" ++ (if owned then "&mut reader" else "reader") ++ ")"

def readSeveral (single : String) : String :=
  "\x7b \n" ++
  "            let count = reader.read_i16_padded() as usize; \n" ++
  "            let mut v = Vec::with_capacity(count); \n" ++
  "            for _ in 0..count \x7b \n" ++
  "                v.push(" ++ single ++ "); \n" ++
  "            \x7d \n" ++
  "            v \n" ++
  "        \x7d"

def readExpression (codeType type : String) (repeated owned : Bool) : String :=
  if repeated then readSeveral ((element (innerType codeType) type).read owned)
  else (element codeType type).read owned

/-! ## Writing -/

def Element.writeField (name : String) : Element → String
  | primitive p => "buf.write_" ++ p.name ++ "(self." ++ name ++ ");"
  | numberText => "buf.write_i64(self." ++ name ++ ".parse::<i64>().unwrap());"
  | text => "buf.write_string(&self." ++ name ++ ");"
  | record _ => "buf.write_raw_bytes(&self." ++ name ++ ".encode());"

def Element.writeItem : Element → String
  | primitive p => "buf.write_" ++ p.name ++ "(*v);"
  | numberText => "buf.write_string(v);"
  | text => "buf.write_string(v);"
  | record _ => "buf.write_raw_bytes(&v.encode());"

def writeSeveral (name item : String) : String :=
  "        buf.write_i16(self." ++ name ++ ".len() as i16);\n" ++
  "        for v in &self." ++ name ++ " \x7b\n" ++
  "            " ++ item ++ "\n" ++
  "        \x7d"

def writeStatement (name codeType type : String) (repeated : Bool) : String :=
  if repeated then writeSeveral name (repeatedElement (innerType codeType)).writeItem
  else "        " ++ (element codeType type).writeField name

end Salvage.Protocol.Code
