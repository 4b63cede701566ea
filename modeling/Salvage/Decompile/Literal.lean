import Salvage.Text.Digit
import Salvage.Text.Quoted
import Salvage.Text.Utf8

/-!
# Literals in decompiled scripts

A decompiled script spells the octets of a literal one by one: a printable character for itself, a
backslash with a letter for some control characters, and a backslash with up to three digits for any
octet. The octets are a text again once they are put together.
-/

namespace Salvage.Literal

inductive Fault where
  | digit (c : Char)
  | tooGreat
deriving DecidableEq

def Fault.message : Fault → String
  | digit c => "invalid literal for int() with base 10: " ++ Quoted.text c.toString
  | tooGreat => "byte must be in range(0, 256)"

def octet (c : Char) : Except Fault UInt8 :=
  if c.toNat < 256 then .ok (UInt8.ofNat c.toNat) else .error .tooGreat

def escaped : Char → Except Fault UInt8
  | 'n' => .ok 10
  | 'r' => .ok 13
  | 't' => .ok 9
  | c => octet c

def numberLength : Nat := 3

def digitsOf (cs : List Char) : List Char :=
  (cs.take numberLength).takeWhile Text.isDigit

/-- The number that digits spell after the number `n`. -/
def numberOnto (n : Nat) : List Char → Except Fault Nat
  | [] => .ok n
  | c :: r =>
    match Text.decimalValue? c with
    | some v => numberOnto (10 * n + v) r
    | none => .error (.digit c)

def numbered (ds : List Char) : Except Fault UInt8 := do
  return UInt8.ofNat (← numberOnto 0 ds)

def octets : List Char → Except Fault Bytes
  | [] => return []
  | [c] => return [← octet c]
  | c :: d :: r =>
    if c = '\\' then
      if Text.isDigit d then do
        let ds := digitsOf (d :: r)
        let x ← numbered ds
        return x :: (← octets ((d :: r).drop ds.length))
      else do
        let x ← escaped d
        return x :: (← octets r)
    else do
      let x ← octet c
      return x :: (← octets (d :: r))
termination_by cs => cs.length
decreasing_by all_goals simp only [List.length_cons, List.length_drop]; omega

/-- The text that the inside of a literal spells; octets that are no text become replacement
characters. -/
def decode (cs : List Char) : Except Fault String := do
  return Utf8.decodeReplacing (← octets cs)

/-- A script from a place on, with the inside of each literal decoded. At that place a literal has
begun with the reversed `inside`, or none has. -/
def decodeFrom : Option (List Char) → List Char → Except Fault (List Char)
  | none, [] => return []
  | some inside, [] => return '"' :: inside.reverse
  | none, c :: r =>
    if c = '"' then decodeFrom (some []) r
    else do return c :: (← decodeFrom none r)
  | some inside, c :: r =>
    if c = '"' then do
      let text ← decode inside.reverse
      return '"' :: text.toList ++ '"' :: (← decodeFrom none r)
    else decodeFrom (some (c :: inside)) r

/-- A script with the inside of each literal decoded; a literal goes from one quotation mark to the
next. -/
def decodeAll (script : String) : Except Fault String := do
  return String.ofList (← decodeFrom none script.toList)

end Salvage.Literal
