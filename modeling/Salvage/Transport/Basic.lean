import Salvage.Doc.Parser
import Salvage.Job.Basic

/-!
# Messages on the way

What a game and its server send each other is encrypted under one key, each message with a starting
block of its own. The starting block stands either beside the message in an object or in front of it.
Both are sent in base 64.
-/

namespace Salvage.Transport

def key : Bytes :=
  [34, 172, 175, 193, 121, 131, 83, 33, 34, 54, 167, 156, 137, 63, 244, 195, 54, 64, 92, 75, 145, 41,
   11, 164, 65, 216, 163, 192, 136, 20, 31, 80]

structure Message where
  text : String
  vector : Bytes

instance : ToDoc Message := ⟨fun m => .arr [.str m.text, .str (Hex.encode m.vector)]⟩

def decrypt (vector body : Bytes) : Except Fault Message := do
  let b ← (Padded.decrypt key vector body).mapError .padded
  let text ← (Utf8.decode b).mapError .text
  return { text, vector }

def octetsAt (d : Doc) (name : String) : Except Fault Bytes := do
  match ← (d.item name).mapError .shape with
  | .str s => (Base64.decodeText s).mapError .base64
  | d => throw (.shape (.notOctets d.kind))

def decryptObject (s : String) : Except Fault Message := do
  let d ← (Doc.parse s).mapError .document
  let vector ← octetsAt d "iv"
  let body ← octetsAt d "value"
  decrypt vector body

def decryptBody (b : Bytes) : Except Fault Message :=
  decrypt (b.take Aes.Block.length) (b.drop Aes.Block.length)

def decryptIfObject (b : Bytes) : Except Fault (Option Message) := do
  let s ← (Utf8.decode b).mapError .text
  if Text.startsWith (Text.strip s) "\x7b" then return some (← decryptObject s) else return none

def shownLength : Nat := 32

def decode (s : String) : Job Message := do
  let b ← Job.ofExcept .base64 (Base64.decodeText s)
  Job.print ("Raw first 32 bytes (hex): " ++
    " ".intercalate ((b.take shownLength).map fun x => Hex.natPadded 2 x.toNat))
  Job.print ("Raw length: " ++ Decimal.nat b.length)
  match decryptIfObject b with
  | .ok (some m) =>
    Job.print ("[✓] Decrypted JSON-wrapped data with IV: " ++ Hex.encode m.vector)
    return m
  | other =>
    if let .error f := other then Job.print ("[!] Not JSON-wrapped: " ++ f.message)
    let m ← Job.ofExcept id (decryptBody b)
    Job.print ("[✓] Decrypted embedded-IV format with IV: " ++ Hex.encode m.vector)
    return m

def command (s : String) : Job Unit :=
  Job.recover
    (do
      let m ← decode s
      Job.print ("\n[✓] IV: " ++ Hex.encode m.vector)
      Job.print "[✓] Decrypted output:\n"
      Job.print m.text)
    fun f => Job.print ("\n× Decryption failed: " ++ f.message)

end Salvage.Transport
