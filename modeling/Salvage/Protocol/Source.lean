import Salvage.Number.Whole
import Salvage.Protocol.Definition
import Salvage.Text.Alphanumeric

/-!
# Definitions in scripts

In a script a definition is a name, an equals sign and a block in braces. A block whose first line
begins with a number defines a message, any other a structure. Fields are blocks in braces of their
own: a name in quotes, a type, a description in quotes, and perhaps the word for several values.
-/

namespace Salvage.Protocol

/-! ## Blocks -/

def isNameChar (c : Char) : Bool :=
  c.isAlphanum || c == '_'

def skipBlanks (cs : List Char) : List Char :=
  cs.dropWhile Text.isBlank

def after? (c : Char) (cs : List Char) : Option (List Char) :=
  match skipBlanks cs with
  | x :: r => if x = c then some r else none
  | [] => none

/-- The text up to the brace that closes a block, `depth` braces being open inside the block, and
whether there is such a brace. -/
def untilClosed : Nat → List Char → List Char × Bool
  | _, [] => ([], false)
  | depth, '{' :: r => let (b, closed) := untilClosed (depth + 1) r; ('{' :: b, closed)
  | 0, '}' :: _ => ([], true)
  | depth + 1, '}' :: r => let (b, closed) := untilClosed depth r; ('}' :: b, closed)
  | depth, c :: r => let (b, closed) := untilClosed depth r; (c :: b, closed)

/-- The content of a block whose opening brace has been read. Of a block that is not closed the last
character is left out. -/
def content (cs : List Char) : List Char :=
  let (b, closed) := untilClosed 0 cs
  if closed then b else b.dropLast

def opened? (cs : List Char) : Option (List Char) :=
  (after? '=' cs).bind (after? '{')

def blocksFrom : Nat → List Char → List (String × String)
  | 0, _ => []
  | _, [] => []
  | fuel + 1, c :: r =>
    if !isNameChar c then blocksFrom fuel r
    else
      let name := (c :: r).takeWhile isNameChar
      let rest := (c :: r).dropWhile isNameChar
      match opened? rest with
      | some inner =>
        (String.ofList name, String.ofList (content inner)) :: blocksFrom fuel inner
      | none => blocksFrom fuel rest

def blocks (text : String) : List (String × String) :=
  blocksFrom text.toList.length text.toList

/-! ## Fields -/

def quoted? : List Char → Option (List Char × List Char)
  | '"' :: r =>
    match r.dropWhile (· != '"') with
    | _ :: rest => some (r.takeWhile (· != '"'), rest)
    | [] => none
  | _ => none

def dropQuote : List Char → List Char
  | '"' :: r => r
  | r => r

def word? (cs : List Char) : Option (List Char × List Char) :=
  let inner := dropQuote cs
  let w := inner.takeWhile Text.isWord
  if w.isEmpty then none else some (w, dropQuote (inner.dropWhile Text.isWord))

def lastWord? (cs : List Char) : Option (List Char × List Char) :=
  (after? ',' cs).bind fun r => word? (skipBlanks r)

def field? (cs : List Char) : Option (Field × List Char) := do
  let r ← match cs with | '{' :: r => some r | _ => none
  let (name, r) ← quoted? (skipBlanks r)
  if name.isEmpty then none
  let (type, r) ← word? (skipBlanks (← after? ',' r))
  let (description, r) ← quoted? (skipBlanks (← after? ',' r))
  let (last, r) := match lastWord? r with
    | some (w, r) => (w, r)
    | none => ([], r)
  let r ← after? '}' r
  return ({ name := String.ofList name, type := String.ofList type
            description := String.ofList description
            repeated := last == "repeated".toList }, r)

def fieldsFrom : Nat → List Char → List Field
  | 0, _ => []
  | _, [] => []
  | fuel + 1, c :: r =>
    match field? (c :: r) with
    | some (f, rest) => f :: fieldsFrom fuel rest
    | none => fieldsFrom fuel r

def fieldsOf (block : String) : List Field :=
  fieldsFrom block.toList.length block.toList

/-! ## Definitions -/

def leadingDigits (block : String) : List Char :=
  match (Text.lines block).filter (fun l => !(Text.strip l).isEmpty) with
  | [] => []
  | l :: _ => (Text.stripChar ',' (Text.strip l)).toList.takeWhile Text.isDecimal

def keyOf (name block : String) : Except String Key :=
  match leadingDigits block with
  | [] => .ok (.name name)
  | ds =>
    match Whole.ofChars? ds with
    | some n => .ok (.number n)
    | none => .error (String.ofList ds)

def definitionsFrom : Definitions → List (String × String) → Except String Definitions
  | ds, [] => .ok ds
  | ds, (name, block) :: r => do
    let key ← keyOf name block
    definitionsFrom (Definitions.insert key ⟨name, fieldsOf block⟩ ds) r

def definitionsOf (text : String) : Except String Definitions :=
  definitionsFrom [] (blocks text)

end Salvage.Protocol
