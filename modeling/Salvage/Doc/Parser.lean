import Salvage.Bytes.Hex
import Salvage.Doc.Basic
import Salvage.Doc.Fault

/-!
# Reading documents

The reader goes through the text from left to right and stops at the first place where the text
cannot be continued to a document. Numbers may also be `NaN`, `Infinity` and `-Infinity`; of two
fields of one name the last value stands at the place of the first.
-/

namespace Salvage.Doc

/-- What a part of the reader gives: a value and the unread text, or what was expected at the place
from which a number of characters is unread. -/
abbrev Parse (α : Type) := Except (Expectation × Nat) (α × List Char)

namespace Parse

/-- Whether a character may stand between the signs of a document. -/
def isGap (c : Char) : Bool :=
  c == ' ' || c == '\t' || c == '\n' || c == '\r'

def skip (cs : List Char) : List Char :=
  cs.dropWhile isGap

def hex4? (a b c d : Char) : Option Nat :=
  match Hex.value? a, Hex.value? b, Hex.value? c, Hex.value? d with
  | some w, some x, some y, some z => some (4096 * w + 256 * x + 16 * y + z)
  | _, _, _, _ => none

def simpleEscape? : Char → Option Char
  | '"' => some '"'
  | '\\' => some '\\'
  | '/' => some '/'
  | 'b' => some (Char.ofNat 8)
  | 'f' => some (Char.ofNat 12)
  | 'n' => some '\n'
  | 'r' => some '\r'
  | 't' => some '\t'
  | _ => none

def isHighHalf (n : Nat) : Bool := 0xD800 ≤ n && n < 0xDC00

def isLowHalf (n : Nat) : Bool := 0xDC00 ≤ n && n < 0xE000

/-- The character of a code; a half without its partner is the replacement character. -/
def charOf (n : Nat) : Char :=
  if 0xD800 ≤ n && n < 0xE000 then Char.ofNat 0xFFFD else Char.ofNat n

/-- The character named after a backslash and `u`, and the text after it. -/
def unicodeEscape (r : List Char) : Parse Char :=
  match r with
  | a :: b :: c :: d :: r4 =>
    if r4.isEmpty then .error (.badUnicodeEscape, r.length + 1)
    else
      match hex4? a b c d with
      | none => .error (.badUnicodeEscape, r.length + 1)
      | some n =>
        match isHighHalf n, r4 with
        | true, '\\' :: 'u' :: e :: f :: g :: h :: r6 =>
          if r6.isEmpty then .ok (charOf n, r4)
          else
            match hex4? e f g h with
            | none => .error (.badUnicodeEscape, r6.length + 5)
            | some m =>
              if isLowHalf m then
                .ok (charOf (0x10000 + (n - 0xD800) * 0x400 + (m - 0xDC00)), r6)
              else .ok (charOf n, r4)
        | _, _ => .ok (charOf n, r4)
  | _ => .error (.badUnicodeEscape, r.length + 1)

/-- The rest of a text in quotes whose opening quote has `start` characters from it on, and whose
characters so far are `acc`, last first. -/
def quoted (start : Nat) : Nat → List Char → List Char → Parse (List Char)
  | 0, _, _ => .error (.unterminatedString, start)
  | _ + 1, _, [] => .error (.unterminatedString, start)
  | _ + 1, acc, '"' :: r => .ok (acc.reverse, r)
  | _ + 1, _, ['\\'] => .error (.unterminatedString, start)
  | fuel + 1, acc, '\\' :: 'u' :: r =>
    match unicodeEscape r with
    | .error e => .error e
    | .ok (c, r) => quoted start fuel (c :: acc) r
  | fuel + 1, acc, '\\' :: c :: r =>
    match simpleEscape? c with
    | none => .error (.badEscape, r.length + 2)
    | some x => quoted start fuel (x :: acc) r
  | fuel + 1, acc, c :: r =>
    if c.toNat < 0x20 then .error (.controlCharacter, r.length + 1)
    else quoted start fuel (c :: acc) r

def text (r : List Char) : Parse String :=
  (quoted (r.length + 1) (r.length + 1) [] r).map fun (cs, r) => (String.ofList cs, r)

/-! ## Numbers -/

def digitRun (cs : List Char) : List Char × List Char :=
  (cs.takeWhile Char.isDigit, cs.dropWhile Char.isDigit)

def fractionPart : List Char → Option (List Char) × List Char
  | '.' :: r =>
    match digitRun r with
    | ([], _) => (none, '.' :: r)
    | (ds, rest) => (some ds, rest)
  | cs => (none, cs)

def exponentSign : List Char → Bool × List Char
  | '-' :: r => (true, r)
  | '+' :: r => (false, r)
  | r => (false, r)

def exponentPart (cs : List Char) : Option Int × List Char :=
  match cs with
  | c :: r =>
    if c = 'e' ∨ c = 'E' then
      let (negative, body) := exponentSign r
      match digitRun body with
      | ([], _) => (none, cs)
      | (ds, rest) =>
        let n : Int := (Decimal.ofDigits 0 ds : Nat)
        (some (if negative then -n else n), rest)
    else (none, cs)
  | [] => (none, [])

def wholePart? : List Char → Option (List Char × List Char)
  | '0' :: r => some (['0'], r)
  | c :: r => if c.isDigit then some (digitRun (c :: r)) else none
  | [] => none

def unsignedNumber? (negative : Bool) (cs : List Char) : Option (Doc × List Char) :=
  match wholePart? cs with
  | none => none
  | some (whole, r) =>
    let (fraction, r) := fractionPart r
    let (exponent, r) := exponentPart r
    match fraction, exponent with
    | none, none =>
      let n : Int := (Decimal.ofDigits 0 whole : Nat)
      some (.int (if negative then -n else n), r)
    | _, _ =>
      let places := fraction.getD []
      let digits := Decimal.ofDigits 0 (whole ++ places)
      some (.real (Binary64.ofDecimal negative digits (exponent.getD 0 - places.length)), r)

def number (cs : List Char) : Parse Doc :=
  let found :=
    match cs with
    | '-' :: r => unsignedNumber? true r
    | _ => unsignedNumber? false cs
  match found with
  | some x => .ok x
  | none => .error (.value, cs.length)

/-! ## Values -/

mutual

def value : Nat → List Char → Parse Doc
  | 0, cs => .error (.value, cs.length)
  | fuel + 1, cs =>
    match cs with
    | '"' :: r => (text r).map fun (s, r) => (.str s, r)
    | '{' :: r =>
      match skip r with
      | '}' :: r => .ok (.obj [], r)
      | r => members fuel [] r
    | '[' :: r =>
      match skip r with
      | ']' :: r => .ok (.arr [], r)
      | r => elements fuel [] r
    | 'n' :: 'u' :: 'l' :: 'l' :: r => .ok (.null, r)
    | 't' :: 'r' :: 'u' :: 'e' :: r => .ok (.bool true, r)
    | 'f' :: 'a' :: 'l' :: 's' :: 'e' :: r => .ok (.bool false, r)
    | 'N' :: 'a' :: 'N' :: r => .ok (.real .nan, r)
    | 'I' :: 'n' :: 'f' :: 'i' :: 'n' :: 'i' :: 't' :: 'y' :: r => .ok (.real (.infinity false), r)
    | '-' :: 'I' :: 'n' :: 'f' :: 'i' :: 'n' :: 'i' :: 't' :: 'y' :: r =>
      .ok (.real (.infinity true), r)
    | _ => number cs

def members : Nat → List (String × Doc) → List Char → Parse Doc
  | 0, _, cs => .error (.propertyName, cs.length)
  | fuel + 1, acc, cs =>
    match cs with
    | '"' :: r =>
      match text r with
      | .error e => .error e
      | .ok (name, r) =>
        match skip r with
        | ':' :: r =>
          match value fuel (skip r) with
          | .error e => .error e
          | .ok (v, r) =>
            match skip r with
            | '}' :: r => .ok (.obj (insert name v acc), r)
            | ',' :: r => members fuel (insert name v acc) (skip r)
            | r => .error (.comma, r.length)
        | r => .error (.colon, r.length)
    | _ => .error (.propertyName, cs.length)

def elements : Nat → List Doc → List Char → Parse Doc
  | 0, _, cs => .error (.value, cs.length)
  | fuel + 1, acc, cs =>
    match value fuel cs with
    | .error e => .error e
    | .ok (v, r) =>
      match skip r with
      | ']' :: r => .ok (.arr (v :: acc).reverse, r)
      | ',' :: r => elements fuel (v :: acc) (skip r)
      | r => .error (.comma, r.length)

end

end Parse

def parseChars (cs : List Char) : Except SyntaxFault Doc :=
  let fault (e : Expectation) (unread : Nat) := SyntaxFault.mk' e cs (cs.length - unread)
  if cs.head? = some (Char.ofNat 0xFEFF) then .error (fault .byteOrderMark cs.length)
  else
    match Parse.value (2 * cs.length + 2) (Parse.skip cs) with
    | .error (e, unread) => .error (fault e unread)
    | .ok (d, r) =>
      match Parse.skip r with
      | [] => .ok d
      | r => .error (fault .extraData r.length)

/-- The document that a text spells, or the first place where it spells none. -/
def parse (s : String) : Except SyntaxFault Doc :=
  parseChars s.toList

end Salvage.Doc
