import Salvage.Number.Binary64
import Salvage.Number.Decimal

/-!
# Decimal text of double-precision numbers

A number is written with the fewest digits that read back as the same number, and of those with the
ones nearest to it. Reports use a fixed number of places instead.
-/

namespace Salvage.Shortest

/-! ## The fewest digits -/

structure Scientific where
  digits : Nat
  exponent : Int

def tenScaled (num den : Nat) (e : Int) : Nat × Nat :=
  if e < 0 then (num * Nat.pow 10 (-e).toNat, den) else (num, den * Nat.pow 10 e.toNat)

def magnitudeOf (s : Scientific) : Nat :=
  (Binary64.ofDecimal false s.digits s.exponent).magnitude

/-- The least of four candidates `e` with `num / den < 10 ^ e`; the candidates come from the
lengths of the two numbers in binary. -/
def decimalPoint (num den : Nat) : Int :=
  let guess : Int := (((num.log2 : Int) - (den.log2 : Int)) * 30103).fdiv 100000
  let below (e : Int) : Bool := let (n, d) := tenScaled num den e; n < d
  if below (guess - 1) then guess - 1
  else if below guess then guess
  else if below (guess + 1) then guess + 1
  else guess + 2

/-- Of the two neighbours of a fraction on the grid of `10 ^ e`, the nearer one that reads back as
the magnitude `m`. -/
def neighbour? (num den m : Nat) (e : Int) : Option Scientific :=
  let (n, d) := tenScaled num den e
  let lower : Scientific := ⟨n / d, e⟩
  let upper : Scientific := ⟨n / d + 1, e⟩
  let r := n % d
  let upperFirst := 2 * r > d ∨ (2 * r = d ∧ n / d % 2 = 1)
  let first := if upperFirst then upper else lower
  let second := if upperFirst then lower else upper
  if magnitudeOf first = m then some first
  else if magnitudeOf second = m then some second
  else none

/-- The first grid, from `count` digits on and for at most `fuel` grids, that holds a number which
reads back as `m`. -/
def search (num den m : Nat) (point : Int) : Nat → Nat → Scientific
  | 0, count =>
    let (n, d) := tenScaled num den (point - count)
    ⟨n / d, point - count⟩
  | fuel + 1, count =>
    match neighbour? num den m (point - count) with
    | some s => s
    | none => search num den m point fuel (count + 1)

def trim (s : Scientific) : Nat → Scientific
  | 0 => s
  | fuel + 1 =>
    if s.digits ≠ 0 ∧ s.digits % 10 = 0 then trim ⟨s.digits / 10, s.exponent + 1⟩ fuel else s

/-- The fewest digits that read back as the positive number `num / den` of magnitude `m`. -/
def digits (num den m : Nat) : Scientific :=
  trim (search num den m (decimalPoint num den) 20 1) 400

/-! ## Layout -/

structure Style where
  plainFrom : Int
  /-- The greatest place of the decimal point for plain notation. -/
  plainTo : Int
  exponentWidth : Nat
  nan : String
  infinity : String

/-- Values in tables and listings: plain notation from `1e-4` up to `1e16`. -/
def listing : Style :=
  ⟨-3, 16, 2, "nan", "inf"⟩

/-- Values in documents, which have their own words for what is no finite number. -/
def document : Style :=
  { listing with nan := "NaN", infinity := "Infinity" }

def layout (style : Style) (s : Scientific) : String :=
  let ds := Decimal.natDigits s.digits
  let count := ds.length
  let point : Int := s.exponent + count
  if style.plainFrom ≤ point ∧ point ≤ style.plainTo then
    if point ≤ 0 then
      "0." ++ String.ofList (List.replicate (-point).toNat '0' ++ ds)
    else if point.toNat ≥ count then
      String.ofList (ds ++ List.replicate (point.toNat - count) '0') ++ ".0"
    else
      String.ofList (ds.take point.toNat ++ '.' :: ds.drop point.toNat)
  else
    let e := point - 1
    let mantissa :=
      match ds with
      | [] => "0"
      | [d] => String.ofList [d]
      | d :: r => String.ofList (d :: '.' :: r)
    mantissa ++ "e" ++ (if e < 0 then "-" else "+") ++
      Decimal.natPadded style.exponentWidth e.natAbs

def render (style : Style) (x : Binary64) : String :=
  match x.kind with
  | .nan => style.nan
  | .infinite negative => if negative then "-" ++ style.infinity else style.infinity
  | .finite negative m e =>
    let sign := if negative then "-" else ""
    if m = 0 then sign ++ "0.0"
    else
      let (num, den) := Binary64.scaled m 1 (1074 - (e : Int))
      sign ++ layout style (digits num den x.magnitude)

/-! ## Fixed places -/

def fixedRatio (places num den : Nat) : String :=
  let n := Binary64.roundDiv (num * Nat.pow 10 places) den
  if places = 0 then Decimal.nat n
  else Decimal.nat (n / Nat.pow 10 places) ++ "." ++ Decimal.natPadded places (n % Nat.pow 10 places)

def fixed (places : Nat) (x : Binary64) : String :=
  match x.kind with
  | .nan => "nan"
  | .infinite negative => if negative then "-inf" else "inf"
  | .finite negative m e =>
    let (num, den) := Binary64.scaled m 1 (1074 - (e : Int))
    (if negative then "-" else "") ++ fixedRatio places num den

end Salvage.Shortest

namespace Salvage.Percent

/-- The share `part / whole` in percent: the quotient is rounded to double precision, then its
hundredfold. -/
def ofCounts (part whole : Nat) : Binary64 :=
  (Binary64.ofRatio false part whole).scale 100

def render (places part whole : Nat) : String :=
  Shortest.fixed places (ofCounts part whole)

/-- The share `part / whole` in percent, rounded once to double precision, with `places` places. -/
def renderOnce (places part whole : Nat) : String :=
  Shortest.fixed places (Binary64.ofRatio false (100 * part) whole)

end Salvage.Percent
