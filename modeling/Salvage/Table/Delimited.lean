/-!
# Tab-separated text

Rows of fields with a tab between two fields. A field that holds a tab, a quote or a line end stands
in double quotes, with its quotes doubled.
-/

namespace Salvage.Delimited

/-! ## Writing -/

def needsQuotes (c : Char) : Bool :=
  c == '\t' || c == '"' || c == '\r' || c == '\n'

def quoteChar (c : Char) : List Char :=
  if c = '"' then ['"', '"'] else [c]

def field (s : String) : List Char :=
  let cs := s.toList
  if cs.any needsQuotes then '"' :: cs.flatMap quoteChar ++ ['"'] else cs

def joinFields : List String → List Char
  | [] => []
  | [s] => field s
  | s :: r => field s ++ '\t' :: joinFields r

/-- A row with its line end; a single empty field is written as empty quotes. -/
def row (fields : List String) : List Char :=
  let body := if fields == [""] then ['"', '"'] else joinFields fields
  body ++ ['\r', '\n']

def render (rows : List (List String)) : String :=
  String.ofList (rows.flatMap row)

/-! ## Reading -/

inductive State where
  | startRecord
  | startField
  | inField
  | inQuotes
  | afterQuote
  | lineEnd
deriving DecidableEq

/-- The reader: its state, the field being read, last character first, and the fields of the row so
far, last first. -/
structure Reader where
  state : State := .startRecord
  field : List Char := []
  fields : List String := []

namespace Reader

def save (r : Reader) (state : State) : Reader :=
  ⟨state, [], String.ofList r.field.reverse :: r.fields⟩

def push (r : Reader) (c : Char) (state : State) : Reader :=
  { r with field := c :: r.field, state := state }

def isEnd (c : Char) : Bool :=
  c == '\n' || c == '\r'

def startOfField (r : Reader) (c : Char) : Reader :=
  if isEnd c then r.save .lineEnd
  else if c = '"' then { r with state := .inQuotes }
  else if c = '\t' then r.save .startField
  else r.push c .inField

def step (r : Reader) (c : Char) : Option Reader :=
  match r.state with
  | .startRecord =>
    if isEnd c then some { r with state := .lineEnd } else some (r.startOfField c)
  | .startField => some (r.startOfField c)
  | .inField =>
    if isEnd c then some (r.save .lineEnd)
    else if c = '\t' then some (r.save .startField)
    else some (r.push c .inField)
  | .inQuotes =>
    if c = '"' then some { r with state := .afterQuote } else some (r.push c .inQuotes)
  | .afterQuote =>
    if c = '"' then some (r.push c .inQuotes)
    else if c = '\t' then some (r.save .startField)
    else if isEnd c then some (r.save .lineEnd)
    else some (r.push c .inField)
  | .lineEnd => if isEnd c then some r else none

def endLine (r : Reader) : Reader :=
  match r.state with
  | .startRecord | .inQuotes => r
  | .lineEnd => { r with state := .startRecord }
  | _ => r.save .startRecord

def line (r : Reader) : List Char → Option Reader
  | [] => some r.endLine
  | c :: cs =>
    match r.step c with
    | none => none
    | some r => line r cs

end Reader

def splitLines (acc : List Char) : List Char → List (List Char)
  | [] => if acc.isEmpty then [] else [acc.reverse]
  | '\n' :: r => ('\n' :: acc).reverse :: splitLines [] r
  | c :: r => splitLines (c :: acc) r

def rows (r : Reader) : List (List Char) → Option (List (List String))
  | [] =>
    if r.state = .inQuotes ∨ ¬ r.field.isEmpty then some [(r.save .startRecord).fields.reverse]
    else some []
  | l :: ls =>
    match r.line l with
    | none => none
    | some r =>
      if r.state = .startRecord then (rows {} ls).map (r.fields.reverse :: ·) else rows r ls

def parse? (s : String) : Option (List (List String)) :=
  rows {} (splitLines [] s.toList)

end Salvage.Delimited
