import Salvage.Cipher.Padded
import Salvage.Compress.Gzip

/-!
# Sealed resources

A sealed resource starts with three fixed octets and a flag. What follows is encrypted under a key
that depends on the name of the resource. Decrypted, it is a hash of the content and the content,
which is compressed if the flag says so.
-/

namespace Salvage.Sealed

def mark : Bytes := [0x22, 0x4A, 0x67]

def rawKey : Bytes :=
  [0x99, 0x64, 0xB1, 0xB0, 0x6B, 0x03, 0x8D, 0x7F, 0xB7, 0x7D, 0xB6, 0xA7, 0x54, 0x90, 0x8B, 0x73]

def compressedFlag : UInt8 := 0xB1

def vector : Bytes :=
  List.replicate 16 0

def key (name : String) : Bytes :=
  let hash := Bytes.ofLittleEndian 4 (PolyHash.ofUpper name).toNat
  Bytes.xor rawKey (hash ++ hash ++ hash ++ hash)

/-- A compressed content; octets that cannot be uncompressed are left as they are. -/
def uncompress (b : Bytes) : Bytes :=
  if Gzip.mark.isPrefixOf b then
    match Gzip.decompress b with
    | .ok text => text
    | .error _ => b
  else
    let r := inflate b
    match r.halt with
    | some (.invalid _) => b
    | _ => r.output

def hashOf (content : Bytes) : Bytes :=
  Bytes.ofLittleEndian 4 (PolyHash.ofBytes content).toNat

def content (text : Bytes) : Bytes :=
  if text.take 4 = hashOf (text.drop 4) then text.drop 4 else text

def decrypt (data : Bytes) (name : String) : Option Bytes :=
  match data with
  | 0x22 :: 0x4A :: 0x67 :: flag :: body =>
    match Cbc.decrypt (key name) vector body with
    | .error _ => none
    | .ok padded =>
      let text := match Padding.unpad padded with
        | .ok text => text
        | .error _ => padded
      if text.length < 4 then none
      else if flag = compressedFlag then some (uncompress (content text))
      else some (content text)
  | _ => none

def encrypt (flag : UInt8) (content : Bytes) (name : String) : Except Cipher.Fault Bytes := do
  let body ← Cbc.encrypt (key name) vector (Padding.pad (hashOf content ++ content))
  return mark ++ flag :: body

@[simp] theorem length_key (name : String) : (key name).length = 16 := by
  simp [key, rawKey, Bytes.xor]

end Salvage.Sealed
