import Salvage.Container.Documents
import Salvage.Container.Open
import Salvage.Container.Scripts
import Salvage.Text.Case

/-! # Extracting containers -/

namespace Salvage.Container

open Job

inductive Kind where
  | scripts | documents | unknown

def Kind.ofBytes (b : Bytes) : Kind :=
  let front := (b.take 50).drop 4
  if scriptMark.contains (b.take 1000) then scripts
  else if nameEnd.contains (b.take 100) || (front.contains 0x2E && front.contains 0) then documents
  else unknown

def keepUnknown (b : Bytes) (dir : String) : Job Unit := do
  print "[!] Unknown format"
  print ("[*] First 100 bytes: " ++ Quoted.octets (b.take 100))
  let target := PathText.join dir "unknown_data.bin"
  makeDirectories dir
  writeFile target b
  print ("[*] Saved to: " ++ target)

def extract (b : Bytes) (dir : String) : Job Nat := do
  match Kind.ofBytes b with
  | .scripts =>
    print "[*] Detected: Lua bytecode container"
    extractScripts b dir
  | .documents =>
    print "[*] Detected: JSON container"
    extractDocuments b dir
  | .unknown =>
    keepUnknown b dir
    return 0

def heading (words : String) : Job Unit := do
  print (Text.line '=' 80)
  print words
  print (Text.line '=' 80)

def extractFile (path dir : String) : Job Unit := do
  print ("[*] Reading: " ++ path ++ "\n")
  let sealed ← readFile path
  heading "STEP 1: RC4 Decryption"
  let compressed ← ofExcept id (decrypt key sealed)
  print ("[+] Decrypted: " ++ Decimal.groupedNat compressed.length ++ " bytes\n")
  heading "STEP 2: LZMA Decompression"
  let b ← decompress compressed
  print ""
  heading "STEP 3: Auto-Detect and Extract"
  let count ← extract b dir
  print ""
  print (Text.line '=' 80)
  if 0 < count then
    print ("SUCCESS! Extracted " ++ Decimal.nat count ++ " file(s)")
    print ("Output: " ++ (← absolute dir))
  else
    print "No files extracted"
  print (Text.line '=' 80)

def usualDirectory (path : String) : String :=
  let name := Text.lower path
  if Text.holds name "lua" then "extracted_lua"
  else if Text.holds name "json" then "extracted_json"
  else "extracted"

def usage : List String :=
  ["\nUsage: python decrypt.py <input_file> [output_dir]", "\nSupports:",
   "  - Lua bytecode containers (multiple .luac files)",
   "  - JSON configuration files (multiple .json files)", "\nExamples:",
   "  python decrypt.py luagame.txt extracted_lua", "  python decrypt.py jsonconfig.txt extracted_json"]

def command : List String → Job (Option Int)
  | [] => do
    printAll usage
    return some 1
  | path :: r => do
    recover (extractFile path (r.headD (usualDirectory path))) fun f =>
      print ("\n[-] Error: " ++ f.message)
    return none

end Salvage.Container
