import Salvage.Job.Basic

/-!
# Metadata under a repeated mask

The metadata of some games are mixed with a mask of 128 octets, again and again.
-/

namespace Salvage.Metadata

def mask : Array UInt8 :=
  #[0x6f,0x1f,0xcf,0x2a,0xa7,0xb3,0x48,0xe0,0x04,0xdc,0x18,0xa2,0x93,0x92,0x80,0x69,
    0xf3,0x52,0x98,0xfc,0x1c,0x59,0x74,0x94,0x37,0x91,0xb5,0x1a,0x5c,0x9a,0xd2,0x41,
    0x0b,0xe5,0x47,0x05,0x50,0x91,0x8a,0x6e,0xaa,0x66,0x12,0x2f,0xd9,0xb2,0x2a,0x2d,
    0x50,0x5d,0x12,0x8e,0x9e,0x5f,0xc2,0x15,0xab,0x3a,0xf3,0x16,0xfe,0x2d,0x83,0x6a,
    0x09,0xd6,0x97,0xad,0x4b,0x7a,0x18,0x62,0xc7,0x29,0x51,0xb6,0x46,0x45,0xbb,0x84,
    0x67,0x87,0xca,0xff,0x87,0x44,0xa2,0xab,0x23,0x31,0x5a,0x15,0x9e,0x74,0x70,0x7d,
    0xe2,0xa8,0x25,0x02,0x1a,0x7d,0xe2,0xd6,0x44,0xb0,0xc6,0x75,0x0d,0x0b,0xcf,0x66,
    0x7f,0x6e,0xaf,0x77,0x63,0x84,0xe2,0xc5,0x33,0xeb,0x89,0x19,0x20,0x02,0xc3,0x53]

def unmaskFrom (i : Nat) : Bytes → Bytes
  | [] => []
  | x :: r => (x ^^^ (mask[i % mask.size]?.getD 0)) :: unmaskFrom (i + 1) r

def unmask (b : Bytes) : Bytes :=
  unmaskFrom 0 b

def unmaskFile : Job Unit := do
  let data ← Job.readFile "global-metadata.dat"
  Job.writeFile "global-metadata-new.dat" (unmask data)

end Salvage.Metadata
