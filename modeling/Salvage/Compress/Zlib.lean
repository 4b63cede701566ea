import Salvage.Compress.Inflate

/-!
# Zlib streams

A stream between a header of two octets and a check sum of four.
-/

namespace Salvage.Zlib

inductive Fault where
  | header
  | method
  | window
  | dictionary
  | short
  | checksum
  | stream (f : Inflate.Fault)

/-- The check sum of some octets: their sum and the sum of its course, modulo 65521. -/
def adler (b : Bytes) : Nat :=
  let (low, high) := b.foldl (fun (low, high) c =>
    let low := (low + c.toNat) % 65521
    (low, (high + low) % 65521)) (1, 0)
  high * 65536 + low

def checkHeader (first second : Nat) : Except Fault Unit := do
  if (256 * first + second) % 31 ≠ 0 then throw .header
  if first % 16 ≠ 8 then throw .method
  if 7 < first / 16 then throw .window

def decompress : Bytes → Except Fault Bytes
  | first :: second :: b => do
    checkHeader first.toNat second.toNat
    if second &&& 0x20 ≠ 0 then throw (if b.length < 4 then .short else .dictionary)
    let r := inflate b
    match r.halt with
    | some (.invalid f) => throw (.stream f)
    | some .short => throw .short
    | none =>
      if r.rest.length < 4 then throw .short
      if Bytes.bigEndian (r.rest.take 4) ≠ adler r.output then throw .checksum
      return r.output
  | _ => .error .short

end Salvage.Zlib
