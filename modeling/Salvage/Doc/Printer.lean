import Salvage.Doc.Basic
import Salvage.Number.Shortest
import Salvage.Text.Quoted

/-!
# Writing documents

Documents are written in two ways: as document text, in one line or with one item to a line, and as
a listing for people.
-/

namespace Salvage.Doc

/-! ## Document text -/

structure Layout where
  /-- The number of spaces for each level, or nothing for one line. -/
  indent : Option Nat
  ascii : Bool
  tight : Bool := false

def Layout.line : Layout := { indent := none, ascii := true }

def Layout.compact : Layout := { indent := none, ascii := false, tight := true }

def Layout.report : Layout := { indent := some 2, ascii := false }

def Layout.settings : Layout := { indent := some 4, ascii := true }

def escapeUnit (n : Nat) : List Char :=
  '\\' :: 'u' :: (Hex.natPadded 4 n).toList

def escapeChar (ascii : Bool) (c : Char) : List Char :=
  if c = '"' ∨ c = '\\' then ['\\', c]
  else if c = '\n' then ['\\', 'n']
  else if c = '\r' then ['\\', 'r']
  else if c = '\t' then ['\\', 't']
  else if c.toNat = 8 then ['\\', 'b']
  else if c.toNat = 12 then ['\\', 'f']
  else if c.toNat < 0x20 then escapeUnit c.toNat
  else if !ascii || c.toNat < 0x7F then [c]
  else if c.toNat < 0x10000 then escapeUnit c.toNat
  else
    let n := c.toNat - 0x10000
    escapeUnit (0xD800 + n / 0x400) ++ escapeUnit (0xDC00 + n % 0x400)

def quote (ascii : Bool) (s : String) : String :=
  String.ofList ('"' :: s.toList.flatMap (escapeChar ascii) ++ ['"'])

def Layout.newline (l : Layout) (depth : Nat) : String :=
  match l.indent with
  | none => ""
  | some n => String.ofList ('\n' :: List.replicate (n * depth) ' ')

def Layout.separator (l : Layout) : String :=
  match l.indent with
  | none => if l.tight then "," else ", "
  | some _ => ","

def Layout.colon (l : Layout) : String :=
  if l.tight then ":" else ": "

mutual

def renderAt (l : Layout) (depth : Nat) : Doc → String
  | null => "null"
  | bool b => if b then "true" else "false"
  | int i => Decimal.int i
  | real x => Shortest.render Shortest.document x
  | str s => quote l.ascii s
  | arr [] => "[]"
  | arr (d :: r) =>
    "[" ++ l.newline (depth + 1) ++ renderAt l (depth + 1) d ++ renderItems l (depth + 1) r ++
      l.newline depth ++ "]"
  | obj [] => "\x7b\x7d"
  | obj ((k, d) :: r) =>
    "\x7b" ++ l.newline (depth + 1) ++ quote l.ascii k ++ l.colon ++ renderAt l (depth + 1) d ++
      renderFields l (depth + 1) r ++ l.newline depth ++ "\x7d"

def renderItems (l : Layout) (depth : Nat) : List Doc → String
  | [] => ""
  | d :: r => l.separator ++ l.newline depth ++ renderAt l depth d ++ renderItems l depth r

def renderFields (l : Layout) (depth : Nat) : List (String × Doc) → String
  | [] => ""
  | (k, d) :: r =>
    l.separator ++ l.newline depth ++ quote l.ascii k ++ l.colon ++ renderAt l depth d ++
      renderFields l depth r

end

def render (l : Layout) (d : Doc) : String :=
  renderAt l 0 d

/-! ## Listings -/

mutual

def listing : Doc → String
  | null => "None"
  | bool b => if b then "True" else "False"
  | int i => Decimal.int i
  | real x => Shortest.render Shortest.listing x
  | str s => Quoted.text s
  | arr [] => "[]"
  | arr (d :: r) => "[" ++ listing d ++ listingItems r ++ "]"
  | obj [] => "\x7b\x7d"
  | obj ((k, d) :: r) => "\x7b" ++ Quoted.text k ++ ": " ++ listing d ++ listingFields r ++ "\x7d"

def listingItems : List Doc → String
  | [] => ""
  | d :: r => ", " ++ listing d ++ listingItems r

def listingFields : List (String × Doc) → String
  | [] => ""
  | (k, d) :: r => ", " ++ Quoted.text k ++ ": " ++ listing d ++ listingFields r

end

def display : Doc → String
  | str s => s
  | d => listing d

end Salvage.Doc
