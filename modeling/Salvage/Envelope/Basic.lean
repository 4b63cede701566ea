import Salvage.Digest.KeyDerivation
import Salvage.Digest.Sha256
import Salvage.Job.Basic

/-!
# Envelopes

An envelope keeps octets under a password. A key and a starting block are derived from the password
and a salt; what is encrypted starts with a second salt, and the first salt stands behind the first
block.
-/

namespace Salvage.Envelope

def saltLength : Nat := 16

structure Keys where
  key : Bytes
  vector : Bytes

def keys (password salt : Bytes) : Keys :=
  let b := KeyDerivation.pbkdf2 password salt 48 10
  { key := b.take 32, vector := b.drop 32 }

def wrapBody (text password salt : Bytes) : Except Padded.Fault Bytes :=
  let k := keys password salt
  Padded.encrypt k.key k.vector text

def saltOf (b : Bytes) : Bytes :=
  (b.drop saltLength).take saltLength

def bodyOf (b : Bytes) : Bytes :=
  b.take saltLength ++ b.drop (2 * saltLength)

def unwrapBody (b password : Bytes) : Except Padded.Fault Bytes :=
  let k := keys password (saltOf b)
  Padded.decrypt k.key k.vector (bodyOf b)

def wrap (inner outer text password : Bytes) : Except Padded.Fault Bytes := do
  let b ← wrapBody (inner ++ text) (Sha256.digest password) outer
  return b.take saltLength ++ outer ++ b.drop saltLength

def unwrap (b password : Bytes) : Except Padded.Fault Bytes := do
  return (← unwrapBody b (Sha256.digest password)).drop saltLength

def encrypt (text password : Bytes) : Job Bytes := do
  let inner ← Job.draw saltLength
  let outer ← Job.draw saltLength
  Job.ofExcept .padded (wrap inner outer text password)

def decrypt (b password : Bytes) : Job Bytes :=
  Job.ofExcept .padded (unwrap b password)

end Salvage.Envelope
