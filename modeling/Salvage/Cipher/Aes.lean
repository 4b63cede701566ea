import Salvage.Bytes.Basic

/-!
# AES

The block cipher on blocks of sixteen octets with keys of 16, 24 or 32 octets. A block is four
columns of four octets.
-/

namespace Salvage.Aes

/-! ## Octets -/

def substitutions : Array UInt8 :=
  #[0x63,0x7c,0x77,0x7b,0xf2,0x6b,0x6f,0xc5,0x30,0x01,0x67,0x2b,0xfe,0xd7,0xab,0x76,
    0xca,0x82,0xc9,0x7d,0xfa,0x59,0x47,0xf0,0xad,0xd4,0xa2,0xaf,0x9c,0xa4,0x72,0xc0,
    0xb7,0xfd,0x93,0x26,0x36,0x3f,0xf7,0xcc,0x34,0xa5,0xe5,0xf1,0x71,0xd8,0x31,0x15,
    0x04,0xc7,0x23,0xc3,0x18,0x96,0x05,0x9a,0x07,0x12,0x80,0xe2,0xeb,0x27,0xb2,0x75,
    0x09,0x83,0x2c,0x1a,0x1b,0x6e,0x5a,0xa0,0x52,0x3b,0xd6,0xb3,0x29,0xe3,0x2f,0x84,
    0x53,0xd1,0x00,0xed,0x20,0xfc,0xb1,0x5b,0x6a,0xcb,0xbe,0x39,0x4a,0x4c,0x58,0xcf,
    0xd0,0xef,0xaa,0xfb,0x43,0x4d,0x33,0x85,0x45,0xf9,0x02,0x7f,0x50,0x3c,0x9f,0xa8,
    0x51,0xa3,0x40,0x8f,0x92,0x9d,0x38,0xf5,0xbc,0xb6,0xda,0x21,0x10,0xff,0xf3,0xd2,
    0xcd,0x0c,0x13,0xec,0x5f,0x97,0x44,0x17,0xc4,0xa7,0x7e,0x3d,0x64,0x5d,0x19,0x73,
    0x60,0x81,0x4f,0xdc,0x22,0x2a,0x90,0x88,0x46,0xee,0xb8,0x14,0xde,0x5e,0x0b,0xdb,
    0xe0,0x32,0x3a,0x0a,0x49,0x06,0x24,0x5c,0xc2,0xd3,0xac,0x62,0x91,0x95,0xe4,0x79,
    0xe7,0xc8,0x37,0x6d,0x8d,0xd5,0x4e,0xa9,0x6c,0x56,0xf4,0xea,0x65,0x7a,0xae,0x08,
    0xba,0x78,0x25,0x2e,0x1c,0xa6,0xb4,0xc6,0xe8,0xdd,0x74,0x1f,0x4b,0xbd,0x8b,0x8a,
    0x70,0x3e,0xb5,0x66,0x48,0x03,0xf6,0x0e,0x61,0x35,0x57,0xb9,0x86,0xc1,0x1d,0x9e,
    0xe1,0xf8,0x98,0x11,0x69,0xd9,0x8e,0x94,0x9b,0x1e,0x87,0xe9,0xce,0x55,0x28,0xdf,
    0x8c,0xa1,0x89,0x0d,0xbf,0xe6,0x42,0x68,0x41,0x99,0x2d,0x0f,0xb0,0x54,0xbb,0x16]

def inverseSubstitutions : Array UInt8 :=
  #[0x52,0x09,0x6a,0xd5,0x30,0x36,0xa5,0x38,0xbf,0x40,0xa3,0x9e,0x81,0xf3,0xd7,0xfb,
    0x7c,0xe3,0x39,0x82,0x9b,0x2f,0xff,0x87,0x34,0x8e,0x43,0x44,0xc4,0xde,0xe9,0xcb,
    0x54,0x7b,0x94,0x32,0xa6,0xc2,0x23,0x3d,0xee,0x4c,0x95,0x0b,0x42,0xfa,0xc3,0x4e,
    0x08,0x2e,0xa1,0x66,0x28,0xd9,0x24,0xb2,0x76,0x5b,0xa2,0x49,0x6d,0x8b,0xd1,0x25,
    0x72,0xf8,0xf6,0x64,0x86,0x68,0x98,0x16,0xd4,0xa4,0x5c,0xcc,0x5d,0x65,0xb6,0x92,
    0x6c,0x70,0x48,0x50,0xfd,0xed,0xb9,0xda,0x5e,0x15,0x46,0x57,0xa7,0x8d,0x9d,0x84,
    0x90,0xd8,0xab,0x00,0x8c,0xbc,0xd3,0x0a,0xf7,0xe4,0x58,0x05,0xb8,0xb3,0x45,0x06,
    0xd0,0x2c,0x1e,0x8f,0xca,0x3f,0x0f,0x02,0xc1,0xaf,0xbd,0x03,0x01,0x13,0x8a,0x6b,
    0x3a,0x91,0x11,0x41,0x4f,0x67,0xdc,0xea,0x97,0xf2,0xcf,0xce,0xf0,0xb4,0xe6,0x73,
    0x96,0xac,0x74,0x22,0xe7,0xad,0x35,0x85,0xe2,0xf9,0x37,0xe8,0x1c,0x75,0xdf,0x6e,
    0x47,0xf1,0x1a,0x71,0x1d,0x29,0xc5,0x89,0x6f,0xb7,0x62,0x0e,0xaa,0x18,0xbe,0x1b,
    0xfc,0x56,0x3e,0x4b,0xc6,0xd2,0x79,0x20,0x9a,0xdb,0xc0,0xfe,0x78,0xcd,0x5a,0xf4,
    0x1f,0xdd,0xa8,0x33,0x88,0x07,0xc7,0x31,0xb1,0x12,0x10,0x59,0x27,0x80,0xec,0x5f,
    0x60,0x51,0x7f,0xa9,0x19,0xb5,0x4a,0x0d,0x2d,0xe5,0x7a,0x9f,0x93,0xc9,0x9c,0xef,
    0xa0,0xe0,0x3b,0x4d,0xae,0x2a,0xf5,0xb0,0xc8,0xeb,0xbb,0x3c,0x83,0x53,0x99,0x61,
    0x17,0x2b,0x04,0x7e,0xba,0x77,0xd6,0x26,0xe1,0x69,0x14,0x63,0x55,0x21,0x0c,0x7d]

def substitute (x : UInt8) : UInt8 :=
  substitutions.getD x.toNat 0

def restore (x : UInt8) : UInt8 :=
  inverseSubstitutions.getD x.toNat 0

def double (x : UInt8) : UInt8 :=
  (x <<< 1) ^^^ (if x &&& 0x80 = 0 then 0 else 0x1b)

/-! ## Columns -/

structure Column where
  a : UInt8
  b : UInt8
  c : UInt8
  d : UInt8
deriving Inhabited

namespace Column

/-- The column of the first four octets, with zeros where there are none. -/
def ofBytes (b : Bytes) : Column :=
  ⟨b.getD 0 0, b.getD 1 0, b.getD 2 0, b.getD 3 0⟩

def bytes (w : Column) : Bytes :=
  [w.a, w.b, w.c, w.d]

def xor (v w : Column) : Column :=
  ⟨v.a ^^^ w.a, v.b ^^^ w.b, v.c ^^^ w.c, v.d ^^^ w.d⟩

def map (f : UInt8 → UInt8) (w : Column) : Column :=
  ⟨f w.a, f w.b, f w.c, f w.d⟩

def rotate (w : Column) : Column :=
  ⟨w.b, w.c, w.d, w.a⟩

def mixed (a b c d : UInt8) : UInt8 :=
  double a ^^^ (double b ^^^ b) ^^^ c ^^^ d

def mix (w : Column) : Column :=
  ⟨mixed w.a w.b w.c w.d, mixed w.b w.c w.d w.a, mixed w.c w.d w.a w.b, mixed w.d w.a w.b w.c⟩

/-- The column that `mix` takes to a product of the inverse polynomial: adding four times the sum of
the opposite octets turns the one product into the other. -/
def prepare (w : Column) : Column :=
  let u := double (double (w.a ^^^ w.c))
  let v := double (double (w.b ^^^ w.d))
  ⟨w.a ^^^ u, w.b ^^^ v, w.c ^^^ u, w.d ^^^ v⟩

def unmix (w : Column) : Column :=
  w.prepare.mix

end Column

/-! ## Blocks -/

structure Block where
  first : Column
  second : Column
  third : Column
  fourth : Column

namespace Block

def length : Nat := 16

/-- The block of the first sixteen octets, with zeros where there are none. -/
def ofBytes (b : Bytes) : Block :=
  ⟨.ofBytes b, .ofBytes (b.drop 4), .ofBytes (b.drop 8), .ofBytes (b.drop 12)⟩

def bytes (k : Block) : Bytes :=
  k.first.bytes ++ k.second.bytes ++ k.third.bytes ++ k.fourth.bytes

def xor (k l : Block) : Block :=
  ⟨k.first.xor l.first, k.second.xor l.second, k.third.xor l.third, k.fourth.xor l.fourth⟩

def map (f : Column → Column) (k : Block) : Block :=
  ⟨f k.first, f k.second, f k.third, f k.fourth⟩

def shiftRows (k : Block) : Block :=
  ⟨⟨k.first.a, k.second.b, k.third.c, k.fourth.d⟩, ⟨k.second.a, k.third.b, k.fourth.c, k.first.d⟩,
   ⟨k.third.a, k.fourth.b, k.first.c, k.second.d⟩, ⟨k.fourth.a, k.first.b, k.second.c, k.third.d⟩⟩

def unshiftRows (k : Block) : Block :=
  ⟨⟨k.first.a, k.fourth.b, k.third.c, k.second.d⟩, ⟨k.second.a, k.first.b, k.fourth.c, k.third.d⟩,
   ⟨k.third.a, k.second.b, k.first.c, k.fourth.d⟩, ⟨k.fourth.a, k.third.b, k.second.c, k.first.d⟩⟩

@[simp] theorem length_bytes (k : Block) : k.bytes.length = 16 := rfl

@[simp] theorem ofBytes_bytes (k : Block) : ofBytes k.bytes = k := rfl

@[simp] theorem unshiftRows_shiftRows (k : Block) : k.shiftRows.unshiftRows = k := rfl

end Block

/-! ## Keys -/

structure Key where
  rounds : List Block

namespace Key

/-- What a word of the key schedule takes over from the word before it: at the front of a group of
`group` words it is turned, substituted and marked with the number of the group; in the middle of a
group of eight it is substituted only. -/
def scheduled (group i : Nat) (mark : UInt8) (w : Column) : Column :=
  if i % group = 0 then (w.rotate.map substitute).xor ⟨mark, 0, 0, 0⟩
  else if 6 < group ∧ i % group = 4 then w.map substitute
  else w

def schedule (group : Nat) : Nat → UInt8 → Array Column → Array Column
  | 0, _, ws => ws
  | n + 1, mark, ws =>
    let i := ws.size
    let w := (ws.getD (i - group) default).xor (scheduled group i mark (ws.getD (i - 1) default))
    schedule group n (if i % group = 0 then double mark else mark) (ws.push w)

def blocks : List Column → List Block
  | a :: b :: c :: d :: r => ⟨a, b, c, d⟩ :: blocks r
  | _ => []

def ofBytes? (key : Bytes) : Option Key :=
  if key.length = 16 ∨ key.length = 24 ∨ key.length = 32 then
    let group := key.length / 4
    let words := ((Bytes.chunks 4 key).map Column.ofBytes).toArray
    some ⟨blocks (schedule group (4 * (group + 7) - group) 1 words).toList⟩
  else none

def encryptRounds : List Block → Block → Block
  | [], k => k
  | [key], k => ((k.map (·.map substitute)).shiftRows).xor key
  | key :: next :: r, k =>
    encryptRounds (next :: r) ((((k.map (·.map substitute)).shiftRows).map Column.mix).xor key)

def encrypt (key : Key) (k : Block) : Block :=
  match key.rounds with
  | [] => k
  | first :: r => encryptRounds r (k.xor first)

def decryptRounds : List Block → Block → Block
  | [], k => k
  | [key], k => (k.unshiftRows.map (·.map restore)).xor key
  | key :: next :: r, k =>
    decryptRounds (next :: r) (((k.unshiftRows.map (·.map restore)).xor key).map Column.unmix)

def decrypt (key : Key) (k : Block) : Block :=
  match key.rounds.reverse with
  | [] => k
  | last :: r => decryptRounds r (k.xor last)

end Key

end Salvage.Aes
