import Salvage.Digest.Block

/-! # MD5 -/

namespace Salvage.Md5

def constants : Array UInt32 :=
  #[0xd76aa478,0xe8c7b756,0x242070db,0xc1bdceee,0xf57c0faf,0x4787c62a,0xa8304613,0xfd469501,
    0x698098d8,0x8b44f7af,0xffff5bb1,0x895cd7be,0x6b901122,0xfd987193,0xa679438e,0x49b40821,
    0xf61e2562,0xc040b340,0x265e5a51,0xe9b6c7aa,0xd62f105d,0x02441453,0xd8a1e681,0xe7d3fbc8,
    0x21e1cde6,0xc33707d6,0xf4d50d87,0x455a14ed,0xa9e3e905,0xfcefa3f8,0x676f02d9,0x8d2a4c8a,
    0xfffa3942,0x8771f681,0x6d9d6122,0xfde5380c,0xa4beea44,0x4bdecfa9,0xf6bb4b60,0xbebfbc70,
    0x289b7ec6,0xeaa127fa,0xd4ef3085,0x04881d05,0xd9d4d039,0xe6db99e5,0x1fa27cf8,0xc4ac5665,
    0xf4292244,0x432aff97,0xab9423a7,0xfc93a039,0x655b59c3,0x8f0ccc92,0xffeff47d,0x85845dd1,
    0x6fa87e4f,0xfe2ce6e0,0xa3014314,0x4e0811a1,0xf7537e82,0xbd3af235,0x2ad7d2bb,0xeb86d391]

def rotations : Array UInt32 :=
  #[7, 12, 17, 22, 5, 9, 14, 20, 4, 11, 16, 23, 6, 10, 15, 21]

structure State where
  a : UInt32 := 0x67452301
  b : UInt32 := 0xefcdab89
  c : UInt32 := 0x98badcfe
  d : UInt32 := 0x10325476

def wordsOf (block : Bytes) : Array UInt32 :=
  ((Bytes.chunks 4 block).map fun w => UInt32.ofNat (Bytes.littleEndian w)).toArray

def stepTerm (t : Nat) (b c d : UInt32) : UInt32 × Nat :=
  if t < 16 then ((b &&& c) ||| (~~~b &&& d), t)
  else if t < 32 then ((d &&& b) ||| (~~~d &&& c), (5 * t + 1) % 16)
  else if t < 48 then (b ^^^ c ^^^ d, (3 * t + 5) % 16)
  else (c ^^^ (b ||| ~~~d), 7 * t % 16)

def steps (w : Array UInt32) : Nat → State → State
  | 0, s => s
  | n + 1, s =>
    let t := 63 - n
    let (f, g) := stepTerm t s.b s.c s.d
    let x := s.a + f + constants.getD t 0 + w.getD g 0
    let r := rotations.getD (4 * (t / 16) + t % 4) 0
    steps w n ⟨s.d, s.b + Digest.rotateLeft x r, s.b, s.c⟩

def compress (s : State) (block : Bytes) : State :=
  let r := steps (wordsOf block) 64 s
  ⟨s.a + r.a, s.b + r.b, s.c + r.c, s.d + r.d⟩

def State.bytes (s : State) : Bytes :=
  [s.a, s.b, s.c, s.d].flatMap fun w => Bytes.ofLittleEndian 4 w.toNat

def digest (message : Bytes) : Bytes :=
  ((Bytes.chunks 64 (Digest.pad (Bytes.ofLittleEndian 8) message)).foldl compress {}).bytes

end Salvage.Md5
