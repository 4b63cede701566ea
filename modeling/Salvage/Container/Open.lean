import Salvage.Cipher.Rc4
import Salvage.Job.Basic

/-!
# Sealed containers

A container is compressed and then encrypted. The compressed form starts with the length of the
content, whose four octets stand in an order of their own, and goes on with the properties of the
stream and the stream.
-/

namespace Salvage.Container

def key : Bytes :=
  [0x89,0x74,0xea,0x66,0x38,0xcf,0xdb,0xe0,0xf3,0xed,0x0b,0x28,0x36,0x21,0xd6,0xbc,
   0x31,0x29,0x60,0x82,0xd9,0xcc,0xf4,0x32,0xb1,0x07,0xa0,0x34,0x50,0x17,0x1e,0x7a,
   0x03,0x38,0xc5,0x4d,0x73,0x54,0xa3,0xab,0xba,0x68,0x63,0x2f,0xc9,0xf2,0x29,0x0a,
   0x89,0x24,0x1c,0x2a,0xa4,0x27,0xa7,0xf6,0x5f,0x47,0x39,0xc6,0x5c,0x30,0x92,0x85,
   0xc1,0x1e,0x5b,0x9d,0xa9,0x41,0x1d,0xa6,0x32,0x17,0x50,0xdd,0x2a,0x0d,0x9f,0xfe,
   0xbb,0x24,0x0c,0x6d,0xf4,0xef,0x1d,0x55,0xa3,0xaa,0xb9,0xa8,0x5e,0xb1,0xe4,0xa4,
   0x33,0x24,0xef,0xc4,0xd0,0xf9,0x5d,0xcb,0xa5,0x52,0x0b,0xce,0xcc,0x4c,0xe1,0xde,
   0x37,0x1b,0x9a,0x4e,0x02,0xbb,0xcf,0x1b,0x4d,0xfd,0xfd,0x87,0x91,0x2f,0xa3,0x71,
   0xc7,0x32,0x14,0x5a,0x64,0x49,0x43,0xbf,0x6d,0x5a,0x12,0xc0,0xb0,0xf4,0x61,0x99,
   0x74,0xe1,0x79,0xf7,0x8d,0x8b,0x02,0xbf,0x38,0xf3,0x2a,0x38,0xb6,0x9e,0x22,0x2e,
   0xfc,0x14,0x9b,0x1c,0x69,0x62,0x75,0xcd,0xe3,0x56,0x2e,0x9d,0x5b,0xb4,0x56,0xc2,
   0xf2,0x3d,0xa1,0xbb,0xdd,0xc5,0xc0,0x63,0x44,0x2a,0xa9,0xb5,0x1a,0x63,0x7d,0xc3,
   0x55,0x81,0xa5,0xf0,0x6a,0xe0,0x64,0xe8,0x70,0x57,0x6e,0x75,0xdb,0x9f,0xc1,0x99,
   0x38,0xd3,0x55,0x15,0xc5,0x39,0xdc,0xcd,0x5c,0x24,0x31,0x26,0x8d,0x45,0x9a,0xc4,
   0x5c,0x17,0x96,0xe6,0x7d,0xc7,0x45,0xae,0x7e,0x55,0x2b,0x81,0xc7,0x34,0x6c,0x02,
   0xd5,0x3a,0x1f,0xa6,0x9b,0x1d,0xf1,0x6e,0x6f,0x4e,0xbb,0xd4,0x6a,0x75,0x27,0x69]

/-- Octets under a key, which must not be empty; doing it twice gives the octets back. -/
def decrypt (key b : Bytes) : Except Fault Bytes :=
  if key.isEmpty then .error .emptyKey else .ok ((Rc4.ofKey key).apply b)

def contentLength : Bytes → Option Nat
  | a :: b :: c :: d :: _ => some (Bytes.bigEndian [a, c, b, d])
  | _ => none

def file (length : Nat) (b : Bytes) : Bytes :=
  (b.drop 4).take 5 ++ Bytes.ofLittleEndian 8 length ++ b.drop 9

def unknownLength : Nat := 0xFFFFFFFFFFFFFFFF

/-- The content of a compressed form; if the length is wrong, up to the end mark. -/
def content (length : Nat) (b : Bytes) : Except Lzma.Fault Bytes :=
  match Lzma.decompress (file length b) with
  | .ok text => .ok text
  | .error _ => Lzma.decompress (file unknownLength b)

def decompress (b : Bytes) : Job Bytes := do
  match contentLength b with
  | none => throw .outside
  | some length =>
    Job.print ("[*] Uncompressed size: " ++ Decimal.groupedNat length ++ " bytes")
    let text ← Job.ofExcept .stream (content length b)
    Job.print ("[+] Decompressed: " ++ Decimal.groupedNat text.length ++ " bytes")
    return text

end Salvage.Container
