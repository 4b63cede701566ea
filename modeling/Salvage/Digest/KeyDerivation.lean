import Salvage.Digest.Sha1

/-! # Keys from passwords -/

namespace Salvage

namespace Hmac

def blockLength : Nat := 64

def blockKey (key : Bytes) : Bytes :=
  let short := if blockLength < key.length then Sha1.digest key else key
  short ++ List.replicate (blockLength - short.length) 0

def sha1 (key message : Bytes) : Bytes :=
  let k := blockKey key
  let inner := Sha1.digest (k.map (· ^^^ 0x36) ++ message)
  Sha1.digest (k.map (· ^^^ 0x5C) ++ inner)

end Hmac

namespace KeyDerivation

def iterate (password : Bytes) : Nat → Bytes → Bytes → Bytes
  | 0, _, total => total
  | n + 1, last, total =>
    let next := Hmac.sha1 password last
    iterate password n next (Bytes.xor total next)

def block (password salt : Bytes) (count i : Nat) : Bytes :=
  let first := Hmac.sha1 password (salt ++ Bytes.ofBigEndian 4 i)
  iterate password (count - 1) first first

/-- A key of `length` octets made from a password and a salt by `count` keyed digests for each
block. -/
def pbkdf2 (password salt : Bytes) (length count : Nat) : Bytes :=
  ((List.range ((length + 19) / 20)).flatMap fun i => block password salt count (i + 1)).take length

end KeyDerivation

end Salvage
