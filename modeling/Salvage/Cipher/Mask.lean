import Salvage.Bytes.Base64
import Salvage.Text.Utf8

/-!
# Masked texts

A text is masked octet by octet with a password and with a number that depends on the place, and
written in base 64. A second way of masking works on pairs of octets behind a header.
-/

namespace Salvage.Mask

def password : Bytes :=
  Utf8.encode
    ("ÝúbUu¸CÁÂ§*4PÚ©-á©¾@T6Dl±ÒWâuzÅm4GÐóØ$=Íg,¥Që®iKEßr¡×60Ít4öÃ~^«y:Èd1<QÛÝúbUu¸CÁÂ§*4PÚ©-á©¾@T6Dl±" ++
      "ÒWâuzÅm4GÐóØ$=Íg,¥Që®iKEßr¡×60Ít4öÃ~^«y:Èd")

/-- The number for a place: a multiple of the place, upwards at even places and downwards at odd
ones. -/
def turn (i : Nat) : Nat :=
  if i % 2 = 0 then i * 23 % 256 else ((-(i * 51 : Int)) % 256).toNat

def octetAt (password : Bytes) (i : Nat) : UInt8 :=
  password.getD (i % password.length) 0 ^^^ UInt8.ofNat (turn i)

def apply (b : Bytes) : Bytes :=
  b.mapIdx fun i x => x ^^^ octetAt password i

def encode (b : Bytes) : Bytes :=
  Base64.encode (apply b)

def decodeOctets (b : Bytes) : Except Base64.Fault Bytes := do
  return apply (← Base64.decode false b)

def decode (s : String) : Except Base64.Fault Bytes := do
  return apply (← Base64.decodeText s)

/-! ## Pairs of octets -/

inductive Fault where
  | noPassword
  | outside
  | tooGreat
  | unsupported

inductive Pair where
  | octets (b : Bytes)
  | number (i : Int)

def Pair.bytes : Pair → Except Fault (UInt8 × UInt8)
  | octets (a :: b :: _) => .ok (a, b)
  | octets _ => .error .outside
  | number i =>
    if 0 ≤ i ∧ i < 65536 then .ok (UInt8.ofNat (i.toNat / 256), UInt8.ofNat i.toNat)
    else .error .tooGreat

def xorPairs (ps : List Pair) : Except Fault Bytes := do
  let qs ← ps.mapM Pair.bytes
  let (a, b) := qs.foldl (fun x y => (x.1 ^^^ y.1, x.2 ^^^ y.2)) ((0, 0) : UInt8 × UInt8)
  return [a, b]

def countPlace : Nat := 0x18

def pairPlace (i : Nat) : Nat := 0x20 + 2 * i

def headerPlace : Nat := 0xB8

def maskPairs (password : Bytes) (n m : Nat) : Nat → Nat → Bytes → Except Fault Bytes
  | 0, _, b => .ok b
  | fuel + 1, u, b => do
    let v := if m = 0 then u else u % m
    if m ≤ v then throw .unsupported
    let turn := (if u % 2 = 1 then 0xFFCC else 0x17) * u % 256
    let pair ← xorPairs
      [.octets ((password.drop (pairPlace v)).take 2), .octets ((b.drop (pairPlace u)).take 2), .number turn]
    let b := b.take (pairPlace u) ++ pair ++ b.drop (pairPlace u + 2)
    if u + 2 < n then maskPairs password n m fuel (u + 2) b else return b

def applyPairs (password : Option Bytes) (b : Bytes) : Except Fault Bytes := do
  let some password := password | throw .noPassword
  let p := password.drop headerPlace
  let some n := b[countPlace]? | throw .outside
  if n = 0 then return b
  let some m := p[countPlace]? | throw .outside
  maskPairs p n.toNat m.toNat n.toNat 0 b

end Salvage.Mask
