/-! # Search and replacement in texts -/

namespace Salvage.Text

/-- The list with each occurrence of `p` replaced by `q`, from left to right; `skip` elements belong
to an occurrence that has been replaced already. -/
def replaceFrom (p q : List Char) : Nat → List Char → List Char
  | _, [] => []
  | skip + 1, _ :: r => replaceFrom p q skip r
  | 0, c :: r =>
    if p.isPrefixOf (c :: r) then q ++ replaceFrom p q (p.length - 1) r
    else c :: replaceFrom p q 0 r

/-- The text with each occurrence of `p` replaced by `q`, from left to right; an empty `p` occurs
before every character and at the end. -/
def replaceAll (s p q : String) : String :=
  String.ofList
    (if p.isEmpty then s.toList.flatMap (fun c => q.toList ++ [c]) ++ q.toList
     else replaceFrom p.toList q.toList 0 s.toList)

def findList? (p : List Char) : List Char → Option Nat
  | [] => if p.isEmpty then some 0 else none
  | c :: r => if p.isPrefixOf (c :: r) then some 0 else (findList? p r).map (· + 1)

def holds (s p : String) : Bool :=
  (findList? p.toList s.toList).isSome

def startsWith (s p : String) : Bool :=
  p.toList.isPrefixOf s.toList

def endsWith (s p : String) : Bool :=
  p.toList.isSuffixOf s.toList

/-- The pieces of a list between occurrences of the non-empty `p`, the first of them behind the
reversed `piece`; `skip` elements belong to an occurrence. -/
def splitFrom (p : List Char) : Nat → List Char → List Char → List (List Char)
  | _, piece, [] => [piece.reverse]
  | skip + 1, piece, _ :: r => splitFrom p skip piece r
  | 0, piece, c :: r =>
    if p.isPrefixOf (c :: r) then piece.reverse :: splitFrom p (p.length - 1) [] r
    else splitFrom p 0 (c :: piece) r

/-- The pieces of a text between occurrences of the non-empty `p`. -/
def splitOn (s p : String) : List String :=
  (splitFrom p.toList 0 [] s.toList).map String.ofList

def line (c : Char) (n : Nat) : String :=
  String.ofList (List.replicate n c)

end Salvage.Text
