import Salvage.Digest.Block

/-! # SHA-1 -/

namespace Salvage.Sha1

structure State where
  a : UInt32 := 0x67452301
  b : UInt32 := 0xEFCDAB89
  c : UInt32 := 0x98BADCFE
  d : UInt32 := 0x10325476
  e : UInt32 := 0xC3D2E1F0

def wordsOf (block : Bytes) : Array UInt32 :=
  ((Bytes.chunks 4 block).map fun w => UInt32.ofNat (Bytes.bigEndian w)).toArray

def extend : Nat → Array UInt32 → Array UInt32
  | 0, w => w
  | n + 1, w =>
    let t := w.size
    let at' (k : Nat) : UInt32 := w.getD (t - k) 0
    extend n (w.push (Digest.rotateLeft (at' 3 ^^^ at' 8 ^^^ at' 14 ^^^ at' 16) 1))

def stepTerm (t : Nat) (b c d : UInt32) : UInt32 :=
  if t < 20 then ((b &&& c) ||| (~~~b &&& d)) + 0x5A827999
  else if t < 40 then (b ^^^ c ^^^ d) + 0x6ED9EBA1
  else if t < 60 then ((b &&& c) ||| (b &&& d) ||| (c &&& d)) + 0x8F1BBCDC
  else (b ^^^ c ^^^ d) + 0xCA62C1D6

def steps (w : Array UInt32) : Nat → State → State
  | 0, s => s
  | n + 1, s =>
    let t := 79 - n
    let x := Digest.rotateLeft s.a 5 + stepTerm t s.b s.c s.d + s.e + w.getD t 0
    steps w n ⟨x, s.a, Digest.rotateLeft s.b 30, s.c, s.d⟩

def compress (s : State) (block : Bytes) : State :=
  let r := steps (extend 64 (wordsOf block)) 80 s
  ⟨s.a + r.a, s.b + r.b, s.c + r.c, s.d + r.d, s.e + r.e⟩

def State.bytes (s : State) : Bytes :=
  [s.a, s.b, s.c, s.d, s.e].flatMap fun w => Bytes.ofBigEndian 4 w.toNat

def digest (message : Bytes) : Bytes :=
  ((Bytes.chunks 64 (Digest.pad (Bytes.ofBigEndian 8) message)).foldl compress {}).bytes

@[simp] theorem length_digest (message : Bytes) : (digest message).length = 20 := by
  simp [digest, State.bytes, Bytes.ofBigEndian]

end Salvage.Sha1
