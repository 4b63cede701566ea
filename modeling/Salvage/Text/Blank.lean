import Salvage.Text.Ranges

/-! # Blank characters and lines -/

namespace Salvage.Text

def blankRanges : Ranges :=
  [(0x9, 0xd), (0x1c, 0x20), (0x85, 0x85), (0xa0, 0xa0), (0x1680, 0x1680), (0x2000, 0x200a),
   (0x2028, 0x2029), (0x202f, 0x202f), (0x205f, 0x205f), (0x3000, 0x3000)]

def isBlank (c : Char) : Bool :=
  blankRanges.mem c.toNat

def stripWhere (p : Char → Bool) (cs : List Char) : List Char :=
  ((cs.dropWhile p).reverse.dropWhile p).reverse

def strip (s : String) : String :=
  String.ofList (stripWhere isBlank s.toList)

def stripChar (c : Char) (s : String) : String :=
  String.ofList (stripWhere (· == c) s.toList)

def isLineEnd (c : Char) : Bool :=
  [0xA, 0xB, 0xC, 0xD, 0x1C, 0x1D, 0x1E, 0x85, 0x2028, 0x2029].contains c.toNat

/-- The lines of a text that begins with the reversed line `line`; a carriage return with a line
feed behind it is one end. -/
def linesOnto (line : List Char) : List Char → List (List Char)
  | [] => if line.isEmpty then [] else [line.reverse]
  | '\r' :: '\n' :: r => line.reverse :: linesOnto [] r
  | c :: r => if isLineEnd c then line.reverse :: linesOnto [] r else linesOnto (c :: line) r

def lines (s : String) : List String :=
  (linesOnto [] s.toList).map String.ofList

end Salvage.Text
