import Salvage.Job.Walk
import Salvage.Text.Case

/-! # Directories of asset bundles -/

namespace Salvage.Bundle

open Job

def password : Bytes :=
  Bytes.ofString "System.Byte[]"

def decryptFile (source target name : String) : Job Unit := do
  let data ← readFile source
  let salt := Utf8.encode (Text.replaceAll name ".ab" "")
  writeFile target (← ofExcept .bundle (decrypt data password salt 32 100))

def decryptNamed (base out dir name : String) (count : Nat) : Job Nat := do
  let source := PathText.join dir name
  let relative ← relative source base
  let target := PathText.join out relative
  makeDirectories (PathText.directory target)
  note ("Decrypting " ++ relative ++ "...")
  match ← attempt (decryptFile source target name) with
  | .ok _ => return count + 1
  | .error f =>
    complain ("[!] Failed to decrypt " ++ relative ++ ": " ++ f.message)
    return count

/-- Decrypts the bundles among some files of a directory; how many have been decrypted, or the same
number as a last one when the stop sign is raised. -/
def decryptFiles (base out dir : String) : List String → Nat → Job (Job.Course Nat)
  | [], count => return .go count
  | name :: r, count => do
    if ← stopped then
      warn "Bundle decryption aborted by user."
      note ("Processed " ++ Decimal.nat count ++ " files before stop request.")
      return .stop count
    if Text.endsWith (Text.lower name) ".ab" then
      decryptFiles base out dir r (← decryptNamed base out dir name count)
    else decryptFiles base out dir r count

def decryptAll (base out : String) : Job Nat := do
  if !(← isDirectory out) then change (·.makeDirectory out)
  match ← walk (fun v => decryptFiles base out v.path v.files) base 0 with
  | .stop count => return count
  | .go count =>
    note ("Finished decrypting " ++ Decimal.nat count ++ " .ab files in " ++ base ++ ".")
    return count

end Salvage.Bundle
