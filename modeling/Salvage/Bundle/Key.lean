import Salvage.Cipher.Modes
import Salvage.Digest.Sha1

/-!
# Asset bundles

A bundle is mixed with a stream of encrypted counters. The key of the stream is made from a password
and a salt by repeated digests.
-/

namespace Salvage.Bundle

def redigest : Nat → Bytes → Bytes
  | 0, b => b
  | n + 1, b => redigest n (Sha1.digest b)

def seed (password salt : Bytes) (count : Int) : Bytes :=
  redigest (count - 2).toNat (Sha1.digest (password ++ salt))

def piece (seed : Bytes) (i : Nat) : Bytes :=
  Sha1.digest (UInt8.ofNat (i + 48) :: seed)

def pieceLimit : Nat := 207

/-- The key, once it has at least `length` octets; `i` is the number of the next piece. At most `n`
pieces are added, and there is no key when they do not suffice. -/
def grow? (seed : Bytes) (length : Int) : Nat → Nat → Bytes → Option Bytes
  | 0, _, key => if length ≤ key.length then some key else none
  | n + 1, i, key =>
    if length ≤ key.length then some key
    else grow? seed length n (i + 1) (key ++ piece seed i)

/-- The key of a length made from a password and a salt by `count` digests; none when it would have
too many pieces. -/
def key? (password salt : Bytes) (length count : Int) : Option Bytes :=
  let s := seed password salt count
  (grow? s length pieceLimit 1 (Sha1.digest s)).map fun key => Bytes.slice key 0 length

/-- The `i`-th counter: a number from one on in eight octets, and eight zeros. -/
def counter (i : Nat) : Bytes :=
  Bytes.ofLittleEndian 8 (i + 1) ++ List.replicate 8 0

inductive Fault where
  | keyTooLong
  | cipher (f : Cipher.Fault)

def Fault.message : Fault → String
  | keyTooLong => "bytes must be in range(0, 256)"
  | cipher f => f.message

def usualLength : Int := 16

def usualCount : Int := 100

def decrypt (data password salt : Bytes) (length : Int := usualLength) (count : Int := usualCount) :
    Except Fault Bytes := do
  let some key := key? password salt length count | throw .keyTooLong
  match Cipher.key key with
  | .ok k => return Counter.apply k counter data
  | .error f => throw (.cipher f)

end Salvage.Bundle
