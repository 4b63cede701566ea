import Salvage.Bundle.Batch
import Salvage.Descriptor.Build

/-!
# Descriptor sets from asset bundles

The descriptor set is the first text object of an encrypted bundle. It is decrypted, taken out, and
written as definition files.
-/

namespace Salvage.Descriptor

open Job

def setName : String := "moon.pb"

def textKind : String := "TextAsset"

def objectsOf (path : Path) : Job (List BundleObject) := do
  match (← get).bundles.lookup path.name with
  | none => return []
  | some (.unreadable words) => throw (.unreadableBundle words)
  | some (.holding objects) => return objects

inductive Search where
  | found
  | none
  | stopped

def takeText (out : Path) : List BundleObject → Job Search
  | [] => return .none
  | o :: r => do
    if ← stopped then
      warn "Proto extraction stopped mid-process."
      return .stopped
    if o.kind = textKind then
      let target := PathText.join out.text setName
      Job.writeFile target o.data
      note ("  ✓ Extracted TextAsset → " ++ target)
      return .found
    takeText out r

/-- Takes the first text object out of the `i`-th of `n` bundles; whether to go on. -/
def searchBundle (out : Path) (n i : Nat) (path : Path) : Job Bool :=
  recover
    (do
      note ("[" ++ Decimal.nat i ++ "/" ++ Decimal.nat n ++ "] Reading " ++ path.name)
      match ← takeText out (← objectsOf path) with
      | .found => return true
      | .none =>
        warn ("  ✗ No TextAsset found in " ++ path.name)
        return true
      | .stopped => return false)
    fun f => do
      complain ("[!] Failed to process " ++ path.text ++ ": " ++ f.message)
      return true

/-- Takes the first text objects out of bundles, `i` of `n` being done; whether the search was not
stopped inside a bundle. -/
def searchBundles (out : Path) (n : Nat) : Nat → List Path → Job Bool
  | _, [] => return true
  | i, p :: r => do
    if ← stopped then
      warn "Proto extraction aborted by user."
      return true
    if ← searchBundle out n (i + 1) p then searchBundles out n (i + 1) r else return false

def decryptBundles (dir out : Path) : Job Unit :=
  recover
    (do
      discard (Bundle.decryptAll dir.text out.text)
      note ("  ✓ Decoded all .ab files from " ++ dir.text ++ " → " ++ out.text))
    fun f => complain ("  ✗ batch_decode failed: " ++ f.message)

/-- Decrypts the bundles in a directory, takes the descriptor set out of them, and writes it as
definition files. -/
def extract (dir out : String) : Job Unit := do
  if ← stopped then
    warn "ProtoExtractor aborted before start."
    return
  let dir := Path.ofString dir
  let out := Path.ofString out
  if !(← pathExists dir.text) then
    warn ("Proto directory not found: " ++ dir.text)
    return
  let bundles := (← tree).matching dir "*.ab*"
  if bundles.isEmpty then
    warn ("No .ab files found in " ++ dir.text)
    return
  makeDirectories out.text
  note ("Found " ++ Decimal.nat bundles.length ++ " proto file(s) in " ++ dir.text)
  decryptBundles dir out
  let decrypted := (← tree).matching out "*.ab"
  let scanned := if decrypted.isEmpty then bundles else decrypted
  note ("Scanning " ++ Decimal.nat scanned.length ++ " decoded .ab file(s) for TextAssets...")
  if ← searchBundles out scanned.length 0 scanned then
    discard (buildFile (PathText.join out.text setName) (out.child "generated").text)
    note ("Proto extraction complete → " ++ (← absolute out.text) ++ "\n")

end Salvage.Descriptor
