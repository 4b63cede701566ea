import Salvage.Text.Blank

/-!
# Paths as text

A path on a command line is a text, and its parts are cut out of the text as it stands: doubled
slashes and dots are kept until somebody asks for a normal form.
-/

namespace Salvage.PathText

/-! ## Cutting texts -/

def splitChars (c : Char) : List Char → List (List Char)
  | [] => [[]]
  | x :: r =>
    if x = c then [] :: splitChars c r
    else
      match splitChars c r with
      | [] => [[x]]
      | p :: ps => (x :: p) :: ps

def pieces (p : String) : List String :=
  (splitChars '/' p.toList).map String.ofList

def isAbsolute (p : String) : Bool :=
  p.toList.head? == some '/'

def ofPieces (ps : List String) : String :=
  "/".intercalate ps

/-! ## Joining and cutting -/

def join (a b : String) : String :=
  if isAbsolute b then b
  else if a.isEmpty || a.toList.getLast? == some '/' then a ++ b
  else a ++ "/" ++ b

def split (p : String) : String × String :=
  let tail := (p.toList.reverse.takeWhile (· != '/')).reverse
  let head := p.toList.take (p.toList.length - tail.length)
  let trimmed := (head.reverse.dropWhile (· == '/')).reverse
  (String.ofList (if trimmed.isEmpty then head else trimmed), String.ofList tail)

def directory (p : String) : String :=
  (split p).1

def base (p : String) : String :=
  (split p).2

/-! ## Normal forms -/

/-- The pieces of a path without empty pieces and dots; a double dot takes away the piece before
it. The pieces so far are last first, and `rooted` says whether the path starts at the top. -/
def normalPieces (rooted : Bool) : List String → List String → List String
  | acc, [] => acc.reverse
  | acc, p :: r =>
    if p = "" ∨ p = "." then normalPieces rooted acc r
    else if p = ".." then
      match acc with
      | [] => normalPieces rooted (if rooted then [] else [p]) r
      | q :: acc' => normalPieces rooted (if q = ".." then p :: acc else acc') r
    else normalPieces rooted (p :: acc) r

def anchor (p : String) : String :=
  match p.toList with
  | '/' :: '/' :: '/' :: _ => "/"
  | '/' :: '/' :: _ => "//"
  | '/' :: _ => "/"
  | _ => ""

def normal (p : String) : String :=
  let body := anchor p ++ ofPieces (normalPieces (isAbsolute p) [] (pieces p))
  if body.isEmpty then "." else body

def absolute (home p : String) : String :=
  if isAbsolute p then normal p else normal (join home p)

def commonFront : List String → List String → Nat
  | a :: as, b :: bs => if a = b then commonFront as bs + 1 else 0
  | _, _ => 0

def relative (home p start : String) : String :=
  let here := (pieces (absolute home start)).filter (!·.isEmpty)
  let there := (pieces (absolute home p)).filter (!·.isEmpty)
  let n := commonFront here there
  let way := List.replicate (here.length - n) ".." ++ there.drop n
  if way.isEmpty then "." else ofPieces way

end Salvage.PathText
