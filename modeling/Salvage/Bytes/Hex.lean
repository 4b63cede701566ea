import Salvage.Bytes.Basic

/-! # Hexadecimal text -/

namespace Salvage.Hex

def digit (n : Nat) : Char :=
  if n < 10 then Char.ofNat (48 + n) else Char.ofNat (87 + n)

def value? (c : Char) : Option Nat :=
  if '0' ≤ c ∧ c ≤ '9' then some (c.toNat - 48)
  else if 'a' ≤ c ∧ c ≤ 'f' then some (c.toNat - 87)
  else if 'A' ≤ c ∧ c ≤ 'F' then some (c.toNat - 55)
  else none

def octet (b : UInt8) : List Char :=
  [digit (b.toNat / 16), digit (b.toNat % 16)]

def encode (b : Bytes) : String :=
  String.ofList (b.flatMap octet)

def decodeList? : List Char → Option Bytes
  | [] => some []
  | [_] => none
  | a :: b :: r =>
    match value? a, value? b, decodeList? r with
    | some x, some y, some t => some (UInt8.ofNat (16 * x + y) :: t)
    | _, _, _ => none

def decode? (s : String) : Option Bytes :=
  decodeList? s.toList

def digits (n : Nat) : List Char :=
  if _h : n = 0 then [] else digits (n / 16) ++ [digit (n % 16)]
termination_by n
decreasing_by omega

def natPadded (width n : Nat) : String :=
  let ds := if n = 0 then ['0'] else digits n
  String.ofList (List.replicate (width - ds.length) '0' ++ ds)

def natPaddedUpper (width n : Nat) : String :=
  (natPadded width n).map Char.toUpper

end Salvage.Hex
