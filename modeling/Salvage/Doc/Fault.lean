import Salvage.Number.Decimal

/-! # Where a document text is malformed -/

namespace Salvage.Doc

inductive Expectation where
  | value
  | propertyName
  | colon
  | comma
  | unterminatedString
  | controlCharacter
  | badEscape
  | badUnicodeEscape
  | extraData
  | byteOrderMark

def Expectation.message : Expectation → String
  | .value => "Expecting value"
  | .propertyName => "Expecting property name enclosed in double quotes"
  | .colon => "Expecting ':' delimiter"
  | .comma => "Expecting ',' delimiter"
  | .unterminatedString => "Unterminated string starting at"
  | .controlCharacter => "Invalid control character at"
  | .badEscape => "Invalid \\escape"
  | .badUnicodeEscape => "Invalid \\uXXXX escape"
  | .extraData => "Extra data"
  | .byteOrderMark => "Unexpected UTF-8 BOM (decode using utf-8-sig)"

structure SyntaxFault where
  expected : Expectation
  position : Nat
  line : Nat
  column : Nat

def lineColumn (text : List Char) (position : Nat) : Nat × Nat :=
  (text.take position).foldl (fun (l, c) x => if x = '\n' then (l + 1, 1) else (l, c + 1)) (1, 1)

def SyntaxFault.mk' (expected : Expectation) (text : List Char) (position : Nat) : SyntaxFault :=
  let (l, c) := lineColumn text position
  ⟨expected, position, l, c⟩

def SyntaxFault.message (f : SyntaxFault) : String :=
  f.expected.message ++ ": line " ++ Decimal.nat f.line ++ " column " ++ Decimal.nat f.column ++
    " (char " ++ Decimal.nat f.position ++ ")"

end Salvage.Doc
