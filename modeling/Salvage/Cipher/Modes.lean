import Salvage.Cipher.Aes
import Salvage.Number.Decimal

/-!
# Modes of operation

A block cipher works on one block. A mode says how a longer text is cut into blocks and how they
depend on each other.
-/

namespace Salvage

inductive Cipher.Fault where
  | keyLength (n : Nat)
  | vectorLength
  | unaligned
  | unalignedAlone
  | counterSpent

def Cipher.Fault.message : Cipher.Fault → String
  | keyLength n => "Incorrect AES key length (" ++ Decimal.nat n ++ " bytes)"
  | vectorLength => "Incorrect IV length (it must be 16 bytes long)"
  | unaligned => "Data must be padded to 16 byte boundary in CBC mode"
  | unalignedAlone => "Data must be aligned to block boundary in ECB mode"
  | counterSpent => "The counter has wrapped around in CTR mode"

namespace Cipher

def key (key : Bytes) : Except Fault Aes.Key :=
  match Aes.Key.ofBytes? key with
  | some k => .ok k
  | none => .error (.keyLength key.length)

def blocks (b : Bytes) : List Aes.Block :=
  (Bytes.chunks Aes.Block.length b).map Aes.Block.ofBytes

def bytes (ks : List Aes.Block) : Bytes :=
  ks.flatMap Aes.Block.bytes

end Cipher

/-! ## Chained blocks -/

namespace Cbc

def encryptBlocks (key : Aes.Key) : Aes.Block → List Aes.Block → List Aes.Block
  | _, [] => []
  | last, k :: r =>
    let c := key.encrypt (k.xor last)
    c :: encryptBlocks key c r

def decryptBlocks (key : Aes.Key) : Aes.Block → List Aes.Block → List Aes.Block
  | _, [] => []
  | last, c :: r => (key.decrypt c).xor last :: decryptBlocks key c r

def start (key vector : Bytes) : Except Cipher.Fault (Aes.Key × Aes.Block) := do
  let k ← Cipher.key key
  if vector.length = Aes.Block.length then return (k, .ofBytes vector) else throw .vectorLength

def encrypt (key vector text : Bytes) : Except Cipher.Fault Bytes := do
  let (k, v) ← start key vector
  if text.length % Aes.Block.length = 0 then
    return Cipher.bytes (encryptBlocks k v (Cipher.blocks text))
  else throw .unaligned

def decrypt (key vector text : Bytes) : Except Cipher.Fault Bytes := do
  let (k, v) ← start key vector
  if text.length % Aes.Block.length = 0 then
    return Cipher.bytes (decryptBlocks k v (Cipher.blocks text))
  else throw .unaligned

end Cbc

/-! ## Blocks on their own -/

namespace Ecb

def encrypt (key text : Bytes) : Except Cipher.Fault Bytes := do
  let k ← Cipher.key key
  if text.length % Aes.Block.length = 0 then
    return Cipher.bytes ((Cipher.blocks text).map k.encrypt)
  else throw .unalignedAlone

end Ecb

/-! ## Counters -/

namespace Counter

def stream (key : Aes.Key) (counter : Nat → Bytes) (n : Nat) : Bytes :=
  ((List.range ((n + 15) / 16)).flatMap fun i =>
    (key.encrypt (.ofBytes (counter i))).bytes).take n

def apply (key : Aes.Key) (counter : Nat → Bytes) (text : Bytes) : Bytes :=
  Bytes.xor text (stream key counter text.length)

end Counter

end Salvage
