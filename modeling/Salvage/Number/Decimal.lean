/-! # Whole numbers in decimal -/

namespace Salvage.Decimal

def digit (n : Nat) : Char :=
  Char.ofNat (48 + n % 10)

def digitsOnto (n : Nat) (acc : List Char) : List Char :=
  if _h : n = 0 then acc else digitsOnto (n / 10) (digit n :: acc)
termination_by n
decreasing_by omega

def natDigits (n : Nat) : List Char :=
  if n = 0 then ['0'] else digitsOnto n []

def nat (n : Nat) : String :=
  String.ofList (natDigits n)

def int (i : Int) : String :=
  if i < 0 then "-" ++ nat i.natAbs else nat i.natAbs

def ofDigits (acc : Nat) : List Char → Nat
  | [] => acc
  | c :: r => ofDigits (10 * acc + (c.toNat - 48)) r

/-- Digits, least significant first, with a comma after every third. -/
def groupReversed : List Char → List Char
  | a :: b :: c :: d :: r => a :: b :: c :: ',' :: groupReversed (d :: r)
  | r => r

def groupedNat (n : Nat) : String :=
  String.ofList (groupReversed (natDigits n).reverse).reverse

def grouped (i : Int) : String :=
  if i < 0 then "-" ++ groupedNat i.natAbs else groupedNat i.natAbs

def padLeft (c : Char) (width : Nat) (s : String) : String :=
  String.ofList (List.replicate (width - s.length) c) ++ s

def padRight (c : Char) (width : Nat) (s : String) : String :=
  s ++ String.ofList (List.replicate (width - s.length) c)

/-- A natural number with zeros in front until it has `width` digits. -/
def natPadded (width n : Nat) : String :=
  padLeft '0' width (nat n)

end Salvage.Decimal
