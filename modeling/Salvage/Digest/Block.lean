import Salvage.Bytes.Basic

/-!
# Messages in blocks

Digests read a message in blocks of 64 octets. The message is closed by a one bit, zeros, and its
length in bits.
-/

namespace Salvage.Digest

def fill (length : Nat) : Nat :=
  (119 - length % 64) % 64

/-- A message with a one bit, zeros, and its length in bits as eight octets that `number` gives. -/
def pad (number : Nat → Bytes) (message : Bytes) : Bytes :=
  message ++ 0x80 :: List.replicate (fill message.length) 0 ++ number (8 * message.length)

def rotateLeft (x n : UInt32) : UInt32 :=
  (x <<< n) ||| (x >>> (32 - n))

def rotateRight (x n : UInt32) : UInt32 :=
  (x >>> n) ||| (x <<< (32 - n))

end Salvage.Digest
