import Salvage.Cipher.Modes

/-!
# Padded chains of blocks

A text is filled up to whole blocks with octets that each hold the number of octets added; at least
one octet is added.
-/

namespace Salvage.Padding

inductive Fault where
  | empty
  | unaligned
  | badLength
  | badOctets

def Fault.message : Fault → String
  | empty => "Zero-length input cannot be unpadded"
  | unaligned => "Input data is not padded"
  | badLength => "Padding is incorrect."
  | badOctets => "PKCS#7 padding is incorrect."

def blockLength : Nat := 16

def pad (text : Bytes) : Bytes :=
  let n := blockLength - text.length % blockLength
  text ++ List.replicate n (UInt8.ofNat n)

def unpad (text : Bytes) : Except Fault Bytes :=
  match text.getLast? with
  | none => .error .empty
  | some last =>
    let n := last.toNat
    let kept := text.length - n
    if text.length % blockLength ≠ 0 then .error .unaligned
    else if n = 0 ∨ blockLength < n then .error .badLength
    else if (text.drop kept).all (· == last) then .ok (text.take kept)
    else .error .badOctets

end Salvage.Padding

namespace Salvage.Padded

inductive Fault where
  | cipher (f : Cipher.Fault)
  | padding (f : Padding.Fault)

def Fault.message : Fault → String
  | cipher f => f.message
  | padding f => f.message

def encrypt (key vector text : Bytes) : Except Fault Bytes :=
  (Cbc.encrypt key vector (Padding.pad text)).mapError .cipher

def decrypt (key vector b : Bytes) : Except Fault Bytes := do
  let text ← (Cbc.decrypt key vector b).mapError .cipher
  (Padding.unpad text).mapError .padding

end Salvage.Padded
