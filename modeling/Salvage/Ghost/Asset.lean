import Salvage.Cipher.Modes
import Salvage.Text.Utf8

/-!
# Ghost assets

A ghost asset is a header of sixteen octets and a text under a stream. The header starts with a key
of two octets, under which it hides its signature and its generation. The stream is a row of counters
that are encrypted block by block: a counter goes up by one with each block and starts again, a
hundred further, after every sixty-four blocks.
-/

namespace Salvage.Ghost

/-! ## The stream -/

def key : Bytes :=
  Bytes.ofString "6154e00f9E9ce46dc9054E07173Aa546"

def runLength : Nat := 64

def runDistance : Nat := 100

def countersFrom : Nat → Nat → Nat → List Nat
  | 0, _, _ => []
  | n + 1, i, value =>
    let c := if i % runLength = 0 then runDistance * (i / runLength + 1) else value
    c :: countersFrom n (i + 1) (c + 1)

def counters (n : Nat) : List Nat :=
  countersFrom (n / Aes.Block.length + 1) 0 0

def counterBlock (c : Nat) : Bytes :=
  Bytes.ofLittleEndian 8 c ++ List.replicate 8 0

def counterStream (n : Nat) : Bytes :=
  (counters n).flatMap counterBlock

def keyStream (n : Nat) : Bytes :=
  (Ecb.encrypt key (counterStream n)).toOption.getD []

def mask (b : Bytes) : Bytes :=
  Bytes.xor b (keyStream b.length)

/-! ## The header -/

def headerLength : Nat := 16

def signature : String := "_GhostAssets_"

def generation : UInt8 := 1

structure HeaderKey where
  first : UInt8
  second : UInt8

namespace HeaderKey

def ofBytes? : Bytes → Option HeaderKey
  | [first, second] => some { first, second }
  | _ => none

def mix (k : HeaderKey) : Bytes → Bytes
  | [] => []
  | x :: r => (x ^^^ k.first) :: mix { first := k.second, second := k.first } r

def mixOne (k : HeaderKey) (x : UInt8) : UInt8 :=
  x ^^^ (k.first ^^^ k.second)

def header (k : HeaderKey) : Bytes :=
  [k.first, k.second] ++ k.mix (Bytes.ofString signature) ++ [k.mixOne generation]

end HeaderKey

structure Header where
  key : HeaderKey
  signature : Bytes
  generation : UInt8

def header? (b : Bytes) : Option Header :=
  if b.length < headerLength then none
  else do
    let key ← HeaderKey.ofBytes? (b.take 2)
    let last ← b[headerLength - 1]?
    return { key
             signature := key.mix (Bytes.window b 2 (headerLength - 3))
             generation := key.mixOne last }

def isAsset (b : Bytes) : Bool :=
  match header? b with
  | none => false
  | some h => (Utf8.decode h.signature).toOption == some signature

/-! ## Assets -/

inductive Fault where
  | tooSmall
  | text (f : Utf8.Fault)
  | signature (found : String)
  | generation (found : UInt8)
  | headerKey

def Fault.message : Fault → String
  | tooSmall => "File too small"
  | text f => f.message
  | signature s => "Invalid signature: " ++ s
  | generation n => "Unsupported generation: " ++ Decimal.nat n.toNat
  | headerKey => "Header key must be 2 bytes"

def decrypt (b : Bytes) : Except Fault Bytes := do
  match header? b with
  | none => throw .tooSmall
  | some h =>
    let found ← (Utf8.decode h.signature).mapError .text
    if found ≠ signature then throw (.signature found)
    if h.generation ≠ generation then throw (.generation h.generation)
    return mask (b.drop headerLength)

def encrypt (k : HeaderKey) (text : Bytes) : Bytes :=
  k.header ++ mask text

def encryptUnder (text key : Bytes) : Except Fault Bytes :=
  match HeaderKey.ofBytes? key with
  | some k => .ok (encrypt k text)
  | none => .error .headerKey

end Salvage.Ghost
