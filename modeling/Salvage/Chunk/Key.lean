import Salvage.Chunk.Varint
import Salvage.Cipher.Rc4

/-!
# Keys of protected chunks

Texts are enciphered under a key made from their own length. Code is enciphered, behind its first
word, under a key made from the line where the function is defined and a seed that is common to the
file. An unknown seed is found by trying all of them until the code looks like code.
-/

namespace Salvage.Chunk

/-! ## Texts -/

/-- The key octets that carry information; the six before them are zero. -/
def keyOf (a b : UInt8) (i : Nat) : UInt8 :=
  if i % 8 = 6 then a else if i % 8 = 7 then b else 0

def textMark (length : Nat) : Nat :=
  length % 254

def textCipher (length : Nat) : Rc4 :=
  let m := UInt8.ofNat (textMark length)
  Rc4.schedule (keyOf m (m + 1))

def decipherText (text : Bytes) : Bytes :=
  if textMark text.length = 0 then text else (textCipher text.length).apply text

/-! ## Code -/

def innerSeed (line : UInt32) (seed : UInt16) : UInt16 :=
  ((line ^^^ seed.toUInt32) % 0xFFF1 + 15).toUInt16

def codeCipher (line : UInt32) (seed : UInt16) : Rc4 :=
  let s := innerSeed line seed
  Rc4.schedule (keyOf s.toUInt8 (s >>> 8).toUInt8)

/-- The plain form of code: its first word stays, and all else is under the key stream. -/
def decipherCode (line : UInt32) (seed : UInt16) (code : Bytes) : Bytes :=
  code.take 4 ++ (codeCipher line seed).apply (code.drop 4)

/-! ## The search for a seed -/

def plainOpcode (w : UInt32) : UInt8 :=
  (w &&& 0x7F).toUInt8

/-- Whether at least three tenths of the first ten words have an operation code in use. -/
def looksLikeCode (ws : List UInt32) : Bool :=
  let first := ws.take 10
  decide (3 * first.length ≤ 10 * first.countP fun w => decide (plainOpcode w ≤ 82))

def sample (line : UInt32) (code : Bytes) (seed : UInt16) : List UInt32 :=
  words (decipherCode line seed (code.take 40))

def findSeedFrom (line : UInt32) (code : Bytes) : Nat → Option UInt16
  | 0 => none
  | n + 1 =>
    let seed := UInt16.ofNat (0xFFFF - n)
    if looksLikeCode (sample line code seed) then some seed else findSeedFrom line code n

def findSeed (line : UInt32) (code : Bytes) : Option UInt16 :=
  findSeedFrom line code 0x10000

end Salvage.Chunk
