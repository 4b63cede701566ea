import Salvage.Digest.Block

/-! # SHA-256 -/

namespace Salvage.Sha256

def constants : Array UInt32 :=
  #[0x428a2f98,0x71374491,0xb5c0fbcf,0xe9b5dba5,0x3956c25b,0x59f111f1,0x923f82a4,0xab1c5ed5,
    0xd807aa98,0x12835b01,0x243185be,0x550c7dc3,0x72be5d74,0x80deb1fe,0x9bdc06a7,0xc19bf174,
    0xe49b69c1,0xefbe4786,0x0fc19dc6,0x240ca1cc,0x2de92c6f,0x4a7484aa,0x5cb0a9dc,0x76f988da,
    0x983e5152,0xa831c66d,0xb00327c8,0xbf597fc7,0xc6e00bf3,0xd5a79147,0x06ca6351,0x14292967,
    0x27b70a85,0x2e1b2138,0x4d2c6dfc,0x53380d13,0x650a7354,0x766a0abb,0x81c2c92e,0x92722c85,
    0xa2bfe8a1,0xa81a664b,0xc24b8b70,0xc76c51a3,0xd192e819,0xd6990624,0xf40e3585,0x106aa070,
    0x19a4c116,0x1e376c08,0x2748774c,0x34b0bcb5,0x391c0cb3,0x4ed8aa4a,0x5b9cca4f,0x682e6ff3,
    0x748f82ee,0x78a5636f,0x84c87814,0x8cc70208,0x90befffa,0xa4506ceb,0xbef9a3f7,0xc67178f2]

structure State where
  a : UInt32 := 0x6a09e667
  b : UInt32 := 0xbb67ae85
  c : UInt32 := 0x3c6ef372
  d : UInt32 := 0xa54ff53a
  e : UInt32 := 0x510e527f
  f : UInt32 := 0x9b05688c
  g : UInt32 := 0x1f83d9ab
  h : UInt32 := 0x5be0cd19

def wordsOf (block : Bytes) : Array UInt32 :=
  ((Bytes.chunks 4 block).map fun w => UInt32.ofNat (Bytes.bigEndian w)).toArray

def mixWord (x r s t : UInt32) : UInt32 :=
  Digest.rotateRight x r ^^^ Digest.rotateRight x s ^^^ (x >>> t)

def extend : Nat → Array UInt32 → Array UInt32
  | 0, w => w
  | n + 1, w =>
    let t := w.size
    let at' (k : Nat) : UInt32 := w.getD (t - k) 0
    extend n (w.push (mixWord (at' 2) 17 19 10 + at' 7 + mixWord (at' 15) 7 18 3 + at' 16))

def mixState (x r s t : UInt32) : UInt32 :=
  Digest.rotateRight x r ^^^ Digest.rotateRight x s ^^^ Digest.rotateRight x t

def steps (w : Array UInt32) : Nat → State → State
  | 0, s => s
  | n + 1, s =>
    let t := 63 - n
    let x := s.h + mixState s.e 6 11 25 + ((s.e &&& s.f) ^^^ (~~~s.e &&& s.g)) +
      constants.getD t 0 + w.getD t 0
    let y := mixState s.a 2 13 22 + ((s.a &&& s.b) ^^^ (s.a &&& s.c) ^^^ (s.b &&& s.c))
    steps w n ⟨x + y, s.a, s.b, s.c, s.d + x, s.e, s.f, s.g⟩

def compress (s : State) (block : Bytes) : State :=
  let r := steps (extend 48 (wordsOf block)) 64 s
  ⟨s.a + r.a, s.b + r.b, s.c + r.c, s.d + r.d, s.e + r.e, s.f + r.f, s.g + r.g, s.h + r.h⟩

def State.bytes (s : State) : Bytes :=
  [s.a, s.b, s.c, s.d, s.e, s.f, s.g, s.h].flatMap fun w => Bytes.ofBigEndian 4 w.toNat

def digest (message : Bytes) : Bytes :=
  ((Bytes.chunks 64 (Digest.pad (Bytes.ofBigEndian 8) message)).foldl compress {}).bytes

end Salvage.Sha256
