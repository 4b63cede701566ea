import Salvage.Compress.Inflate
import Salvage.Digest.Polynomial
import Salvage.Text.Quoted

/-!
# Gzip files

A file is a row of members, with zeros allowed between them. A member is a header, a stream, and the
check sum and the length of its text.
-/

namespace Salvage.Gzip

inductive Fault where
  | notGzip (front : Bytes)
  | method
  | short
  | checksum
  | length
  | stream (f : Inflate.Fault)

def Fault.message : Fault → String
  | notGzip front => "Not a gzipped file (" ++ Quoted.octets front ++ ")"
  | method => "Unknown compression method"
  | short => "Compressed file ended before the end-of-stream marker was reached"
  | checksum => "CRC check failed"
  | length => "Incorrect length of data produced"
  | stream f => "Error -3 while decompressing data: " ++ f.message

def mark : Bytes := [0x1F, 0x8B]

def skip (n : Nat) (b : Bytes) : Except Fault Bytes :=
  if b.length < n then .error .short else .ok (b.drop n)

def skipText (b : Bytes) : Bytes :=
  (b.dropWhile (· != 0)).drop 1

def flag (flags : UInt8) (n : UInt8) : Bool :=
  flags &&& n != 0

def afterHeader (b : Bytes) : Except Fault Bytes := do
  let r ← skip 8 b
  let flags := b.getD 1 0
  if b.getD 0 0 ≠ 8 then throw .method
  let r ← if flag flags 4 then do
      let s ← skip 2 r
      skip (Bytes.littleEndian (r.take 2)) s
    else pure r
  let r := if flag flags 8 then skipText r else r
  let r := if flag flags 16 then skipText r else r
  if flag flags 2 then skip 2 r else return r

def member (b : Bytes) : Except Fault (Bytes × Bytes) := do
  let r := inflate (← afterHeader b)
  match r.halt with
  | some (.invalid f) => throw (.stream f)
  | some .short => throw .short
  | none =>
    if r.rest.length < 8 then throw .short
    if Bytes.littleEndian (r.rest.take 4) ≠ (Crc32.checksum r.output).toNat then throw .checksum
    if Bytes.littleEndian (Bytes.window r.rest 4 4) ≠ r.output.length % 0x100000000 then throw .length
    return (r.output, (r.rest.drop 8).dropWhile (· == 0))

def members : Nat → Bytes → Except Fault Bytes
  | 0, _ => .ok []
  | _ + 1, [] => .ok []
  | fuel + 1, b => do
    if b.take 2 ≠ mark then throw (.notGzip (b.take 2))
    let (text, rest) ← member (b.drop 2)
    return text ++ (← members fuel rest)

def decompress (b : Bytes) : Except Fault Bytes :=
  members b.length b

def compress (text : Bytes) : Bytes :=
  mark ++ [8, 0, 0, 0, 0, 0, 0, 0xFF] ++ Inflate.storedBlocks text ++
    Bytes.ofLittleEndian 4 (Crc32.checksum text).toNat ++ Bytes.ofLittleEndian 4 text.length

end Salvage.Gzip
