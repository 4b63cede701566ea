/-!
# Double-precision numbers by their bits

A measured value is a 64-bit floating-point number, kept as its bits. All arithmetic on it is exact
arithmetic on fractions followed by one rounding, so that every digit that is written has a reason
in the natural numbers.
-/

namespace Salvage

structure Binary64 where
  bits : UInt64
deriving DecidableEq

namespace Binary64

/-! ## The value of the bits -/

inductive Kind where
  | nan
  | infinite (negative : Bool)
  | finite (negative : Bool) (mantissa exponent : Nat)
deriving DecidableEq

def signUnit : Nat := 0x8000000000000000

def exponentUnit : Nat := 0x10000000000000

def isNegative (x : Binary64) : Bool :=
  x.bits.toNat / signUnit == 1

def magnitude (x : Binary64) : Nat :=
  x.bits.toNat % signUnit

def kind (x : Binary64) : Kind :=
  let e := x.magnitude / exponentUnit
  let f := x.magnitude % exponentUnit
  if e = 2047 then (if f = 0 then .infinite x.isNegative else .nan)
  else if e = 0 then .finite x.isNegative f 0
  else .finite x.isNegative (exponentUnit + f) (e - 1)

def ofMagnitude (negative : Bool) (m : Nat) : Binary64 :=
  ⟨UInt64.ofNat ((if negative then signUnit else 0) + m)⟩

def infinity (negative : Bool) : Binary64 :=
  ofMagnitude negative (2047 * exponentUnit)

def nan : Binary64 :=
  ofMagnitude false (2047 * exponentUnit + exponentUnit / 2)

def zero (negative : Bool) : Binary64 :=
  ofMagnitude negative 0

def isZero (x : Binary64) : Bool :=
  x.magnitude == 0

/-! ## Rounding -/

/-- The quotient rounded to the nearest whole number, a tie going to the even one. -/
def roundDiv (num den : Nat) : Nat :=
  let q := num / den
  let r := num % den
  if 2 * r > den ∨ (2 * r = den ∧ q % 2 = 1) then q + 1 else q

def scaled (num den : Nat) (e : Int) : Nat × Nat :=
  if e < 0 then (num * Nat.pow 2 (-e).toNat, den) else (num, den * Nat.pow 2 e.toNat)

def placeExponent (num den : Nat) : Int :=
  let guess : Int := (num.log2 : Int) - (den.log2 : Int) - 52
  let (n, d) := scaled num den guess
  let e := if n < exponentUnit * d then guess - 1 else guess
  max e (-1074)

def nearestMagnitude (num den : Nat) : Nat :=
  let e := placeExponent num den
  let (n, d) := scaled num den e
  (e + 1074).toNat * exponentUnit + roundDiv n d

/-- The double-precision number nearest to the fraction `num / den` under a sign, a tie going to
the even neighbour, or nothing when it lies beyond the greatest one. -/
def ofRatio? (negative : Bool) (num den : Nat) : Option Binary64 :=
  if num = 0 then some (zero negative)
  else
    let m := nearestMagnitude num den
    if m < 2047 * exponentUnit then some (ofMagnitude negative m) else none

def ofRatio (negative : Bool) (num den : Nat) : Binary64 :=
  (ofRatio? negative num den).getD (infinity negative)

def ofIntRatio? (i : Int) (d : Nat) : Option Binary64 :=
  ofRatio? (decide (i < 0)) i.natAbs d

def ofDecimal (negative : Bool) (digits : Nat) (exponent : Int) : Binary64 :=
  if digits = 0 then zero negative
  else if exponent > 400 then infinity negative
  else if exponent + (digits.log2 / 3 + 1) < -400 then zero negative
  else if exponent < 0 then
    ofRatio negative digits (Nat.pow 10 (-exponent).toNat)
  else ofRatio negative (digits * Nat.pow 10 exponent.toNat) 1

/-! ## Exact fractions -/

def fraction? (x : Binary64) : Option (Nat × Nat) :=
  match x.kind with
  | .finite _ m e => some (scaled m 1 (1074 - (e : Int)))
  | _ => none

def truncate? (x : Binary64) : Option Int :=
  (fraction? x).map fun (n, d) =>
    let q : Int := (n / d : Nat)
    if x.isNegative then -q else q

def scale (x : Binary64) (k : Nat) : Binary64 :=
  match fraction? x with
  | some (n, d) => ofRatio x.isNegative (n * k) d
  | none => x

def isInt (x : Binary64) (i : Int) : Bool :=
  match fraction? x with
  | some (n, d) => decide ((if x.isNegative then -(n : Int) else n) = i * d)
  | none => false

end Binary64

end Salvage
