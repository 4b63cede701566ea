import Salvage.Pak.Store
import Salvage.Text.Case

/-!
# Metadata of a game

The metadata file of a game is inside an archive inside the game's archive, and every octet of it is
mixed with one and the same octet.
-/

namespace Salvage.Metadata

open Job

def mark : Bytes := [0xAF, 0x1B, 0xB1, 0xFA]

def usualPath : String :=
  "assets/bin/Data/Managed/Metadata/global-metadata.dat"

def keyOf (first : UInt8) : UInt8 :=
  first ^^^ 0xAF

def decrypt (key : UInt8) (b : Bytes) : Bytes :=
  b.map (· ^^^ key)

def spelled (b : Bytes) : String :=
  " ".intercalate (b.map fun x => Hex.natPaddedUpper 2 x.toNat)

def innerArchive? (names : List String) : Option String :=
  let found := names.filter (Text.endsWith · ".apk")
  (found.find? (Text.holds · "p42")).or found.head?

def member? (names : List String) : Option String :=
  if names.contains usualPath then some usualPath
  else names.find? fun n => Text.holds (Text.lower n) "global-metadata.dat"

def decryptTo (output encrypted : String) (b : Bytes) : Job String := do
  note ("Size: " ++ Decimal.nat b.length ++ " bytes")
  note ("First bytes: " ++ spelled (b.take 16))
  if b.take 4 = mark then
    note "Already decrypted"
    return encrypted
  match b with
  | [] => throw .outside
  | first :: _ =>
    let key := keyOf first
    note ("XOR key: 0x" ++ Hex.natPaddedUpper 2 key.toNat)
    let text := decrypt key b
    if text.take 4 = mark then
      let version := Bytes.window text 4 4
      if version.length < 4 then throw (.short 4)
      note ("✓ Valid IL2CPP header (version " ++ Decimal.nat (Bytes.littleEndian version) ++ ")")
    else
      note "Warning: Invalid header after decryption"
    let target := PathText.join output "global-metadata-decrypted.dat"
    writeFile target text
    note ("✓ Encrypted: " ++ encrypted)
    note ("✓ Decrypted: " ++ target)
    return target

/-- Takes the metadata out of the game at a path and decrypts them; the path of the result. -/
def extract (path output : String) : Job (Option String) := do
  if !(← pathExists path) then
    note ("Error: " ++ path ++ " not found")
    return none
  makeDirectories output
  let outer ← Store.openArchive (← readFile path)
  match innerArchive? outer.names with
  | none =>
    note "No APK found in XAPK"
    return none
  | some name =>
    note ("Extracting: " ++ name)
    let inner := PathText.join output "temp.apk"
    writeFile inner []
    writeFile inner (← Store.readMember outer name)
    let archive ← Store.openArchive (← readFile inner)
    match member? archive.names with
    | none =>
      note "Metadata not found"
      removeFile inner
      return none
    | some m =>
      note ("Found: " ++ m)
      let encrypted := PathText.join output "global-metadata.dat"
      writeFile encrypted []
      writeFile encrypted (← Store.readMember archive m)
      removeFile inner
      return some (← decryptTo output encrypted (← readFile encrypted))

end Salvage.Metadata
