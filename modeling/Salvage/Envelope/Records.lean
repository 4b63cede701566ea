import Salvage.Envelope.Scripts

/-!
# Record files in envelopes

A record file is in an envelope under one of several passwords, which are tried one after the other.
-/

namespace Salvage.Envelope

open Job

def reveal (b password : Bytes) (verbose : Bool) : Job Bytes := do
  let body := b.take 0x10 ++ b.drop 0x20
  let salt := Bytes.window b 0x10 0x10
  let derived := KeyDerivation.pbkdf2 (Sha256.digest password) salt 0x30 10
  let key := derived.take 0x20
  let vector := Bytes.window derived 0x20 0x10
  if verbose then
    printAll
      ["  Salt = " ++ Hex.encode salt, "  Key  = " ++ Hex.encode key, "  IV   = " ++ Hex.encode vector]
  let text ← ofExcept .padded (Padded.decrypt key vector body)
  return text.drop 0x10

def recordPasswords : List Bytes :=
  [Bytes.ofString "2cb8cb0dfc88e23152693d06045fd142",
   [0x2e,0x27,0x2c,0x27,0x2b,0x20,0x1e,0x20,0x2a,0x25,0x21,0x1f,0x22,0x2b,0x2c,0x29,
    0x23,0x29,0x26,0x20,0x2d,0x2a,0x1f,0x2a,0x1f,0x1e,0x25,0x2c,0x24,0x1f,0x29,0x2e,
    0x20,0x2d,0x2e,0x24,0x21,0x1e,0x1f,0x1f,0x1e,0x2c,0x25,0x20,0x21,0x2c,0x29,0x24,
    0x2c,0x22,0x20,0x1e,0x1e,0x1e,0x21,0x2b,0x26,0x2a,0x2b,0x2b,0x2c,0x22,0x2d,0x2b]]

/-- Tries passwords, the first one being the `i`-th, until one opens an envelope and its content is
written; whether one does. -/
def tryPasswords (b : Bytes) (target : String) (verbose : Bool) : Nat → List Bytes → Job Bool
  | _, [] => return false
  | i, password :: r => do
    let done ← recover (do
        if verbose then
          print ("  Trying key " ++ Decimal.nat i ++ "/" ++ Decimal.nat recordPasswords.length ++ "...")
        let text ← reveal b password verbose
        makeDirectories (PathText.directory target)
        writeFile target text
        return true)
      fun e => do
        if verbose then print ("    Key " ++ Decimal.nat i ++ " failed: " ++ e.message)
        return false
    if done then return true
    tryPasswords b target verbose (i + 1) r

def extractRecords (source target : String) (verbose : Bool) : Job Bool :=
  recover (do
      let b ← readFile source
      tryPasswords b target verbose 1 recordPasswords)
    fun e => do
      print ("  Error reading file: " ++ e.message)
      return false

/-! ## Directories -/

def extractRecordNames (f : Filter) (ending : String) (source target : Path) :
    List String → Tally → Job Tally
  | [], t => return t
  | name :: r, t => do
    if !Text.endsWith name ending then extractRecordNames f ending source target r t.skip
    else
      let new := Text.replaceAll name ending f.target
      let path := (target.child new).text
      if f.verbose then put ("  Processing: " ++ name ++ "... ")
      let done ← extractRecords (source.child name).text path false
      if f.verbose && !done then print "✗ Failed to decrypt"
      if done then
        let size ← fileSize path
        if f.verbose then print ("✓ → " ++ new ++ " (" ++ kilobytes size ++ ")")
      extractRecordNames f ending source target r (t.count done)

def fromTop (p : Path) : Job String := do
  return ((Path.ofString (← get).root).append p).text

def extractAllRecords (source target ending newEnding : String) (verbose : Bool) : Job Tally := do
  let start := Path.ofString source
  if !(← pathExists start.text) then
    print ("❌ Error: Input directory '" ++ source ++ "' does not exist!")
    return {}
  printAll
    ["Input:  " ++ (← fromTop start), "Output: " ++ (← fromTop (Path.ofString target)),
     "Keys available: " ++ Decimal.nat recordPasswords.length, Text.line '=' 60]
  let f : Filter := { target := newEnding, verbose }
  let course ← walk (fun v t => do
      let rel := relativePart start v
      let dir := (Path.ofString target).append rel
      if v.files.any (Text.endsWith · ending) then
        makePath dir
        if verbose then print ("\n📁 " ++ placeWords rel)
      return .go (← extractRecordNames f ending (Path.ofString v.path) dir v.files t)) start.text {}
  let t := course.value
  printAll t.lines
  if 0 < t.succeeded then
    print ("Success rate: " ++ Percent.render 1 t.succeeded t.processed ++ "%")
  print (Text.line '=' 60)
  return t

/-- Takes all record files below one directory out into another; `program` is the name of the
command. -/
def recordCommand (program : String) (args : List String) : Job (Option Int) := do
  printAll
    [Text.line '=' 60, "FlatBuffer Master File Decryption Tool", Text.line '=' 60, ""]
  let (source, target) ← match args with
    | a :: b :: _ => pure (a, b)
    | _ => do
      printAll
        ["Usage: " ++ program ++ " <input_dir> <output_dir>", "Using defaults:",
         "  Input:  Assets/AssetBundles/Master", "  Output: DecryptedMaster", ""]
      pure ("Assets/AssetBundles/Master", "DecryptedMaster")
  if !(← pathExists source) then
    print ("❌ Error: Input directory '" ++ source ++ "' does not exist!")
    return some 1
  let t ← extractAllRecords source target ".bytes" ".fb" true
  if 0 < t.succeeded then
    printAll
      ["\n✅ Successfully decrypted " ++ Decimal.nat t.succeeded ++ " files!",
       "📂 Output saved to: " ++ (← absolute target)]
    return some 0
  printAll
    ["\n⚠️  No files were successfully decrypted.",
     if t.processed = 0 then "No .bytes files found in the input directory."
     else "All decryption attempts failed. Check your keys."]
  return some 1

end Salvage.Envelope
