import Salvage.Bytes.Basic
import Salvage.Number.Decimal

/-!
# Base 64

Three octets are written as four characters of an alphabet of sixty-four, and one or two octets at the
end as two or three of them, filled up to four with padding. A reader skips foreign characters and
stops at the padding that fills a group up; a strict reader refuses everything else.
-/

namespace Salvage.Base64

inductive Fault where
  | notAscii
  | oneMore (n : Nat)
  | unfilled
  | leading
  | foreign
  | scattered
  | surplus

def Fault.message : Fault → String
  | notAscii => "string argument should contain only ASCII characters"
  | oneMore n =>
    "Invalid base64-encoded string: number of data characters (" ++ Decimal.nat n ++
      ") cannot be 1 more than a multiple of 4"
  | unfilled => "Incorrect padding"
  | leading => "Leading padding not allowed"
  | foreign => "Only base64 data is allowed"
  | scattered => "Discontinuous padding not allowed"
  | surplus => "Excess data after padding"

def padding : UInt8 := 0x3D

def digit (n : Nat) : UInt8 :=
  UInt8.ofNat
    (if n < 26 then 65 + n
     else if n < 52 then 71 + n
     else if n < 62 then n - 4
     else if n = 62 then 43
     else 47)

def value? (x : UInt8) : Option Nat :=
  let n := x.toNat
  if 65 ≤ n ∧ n ≤ 90 then some (n - 65)
  else if 97 ≤ n ∧ n ≤ 122 then some (n - 71)
  else if 48 ≤ n ∧ n ≤ 57 then some (n + 4)
  else if n = 43 then some 62
  else if n = 47 then some 63
  else none

def encode : Bytes → Bytes
  | [] => []
  | [a] => [digit (a.toNat / 4), digit (a.toNat % 4 * 16), padding, padding]
  | [a, b] =>
    [digit (a.toNat / 4), digit (a.toNat % 4 * 16 + b.toNat / 16), digit (b.toNat % 16 * 4), padding]
  | a :: b :: c :: r =>
    digit (a.toNat / 4) :: digit (a.toNat % 4 * 16 + b.toNat / 16) ::
      digit (b.toNat % 16 * 4 + c.toNat / 64) :: digit (c.toNat % 64) :: encode r

structure Group where
  place : Nat := 0
  left : Nat := 0
  pads : Nat := 0
  padded : Bool := false
  count : Nat := 0

def Group.finish (g : Group) : Except Fault Bytes :=
  match g.place with
  | 0 => .ok []
  | 1 => .error (.oneMore (g.count / 3 * 4 + 1))
  | _ => .error .unfilled

def Group.take (g : Group) (v : Nat) : Option UInt8 × Group :=
  match g.place with
  | 0 => (none, { g with place := 1, left := v, pads := 0 })
  | 1 =>
    (some (UInt8.ofNat (g.left * 4 + v / 16)),
      { g with place := 2, left := v % 16, pads := 0, count := g.count + 1 })
  | 2 =>
    (some (UInt8.ofNat (g.left * 16 + v / 4)),
      { g with place := 3, left := v % 4, pads := 0, count := g.count + 1 })
  | _ =>
    (some (UInt8.ofNat (g.left * 64 + v)),
      { g with place := 0, left := 0, pads := 0, count := g.count + 1 })

def decodeFrom (strict : Bool) (g : Group) : Bytes → Except Fault Bytes
  | [] => g.finish
  | x :: r =>
    if x = padding then
      if 2 ≤ g.place ∧ 4 ≤ g.place + g.pads + 1 then
        if strict && !r.isEmpty then .error .surplus else .ok []
      else
        decodeFrom strict
          { g with padded := true, pads := if 2 ≤ g.place then g.pads + 1 else g.pads } r
    else
      match value? x with
      | none => if strict then .error .foreign else decodeFrom strict g r
      | some v =>
        if strict && g.padded then .error .scattered
        else
          match g.take v with
          | (none, g) => decodeFrom strict g r
          | (some y, g) => do return y :: (← decodeFrom strict g r)

def decode (strict : Bool) (b : Bytes) : Except Fault Bytes :=
  if strict && b.head? == some padding then .error .leading else decodeFrom strict {} b

def decodeText (s : String) : Except Fault Bytes :=
  if s.toList.all fun c => c.toNat < 128 then
    decode false (s.toList.map fun c => UInt8.ofNat c.toNat)
  else .error .notAscii

end Salvage.Base64
