import Salvage.Doc.Printer
import Salvage.Job.Basic
import Salvage.Protocol.Source

/-! # Definitions of many scripts -/

namespace Salvage.Protocol

def readScript (path : String) : Job Definitions := do
  Job.ofExcept .noNumber (definitionsOf (← Job.readText path))

/-- Definitions with others added; those whose key is there already are skipped with a word. -/
def mergeInto (file : String) : Definitions → Definitions → Job Definitions
  | ds, [] => return ds
  | ds, (k, d) :: r => do
    if ds.any (·.1 == k) then
      Job.print ("[!] Duplicate " ++ k.text ++ " in " ++ file ++ ", skipping")
      mergeInto file ds r
    else mergeInto file (ds ++ [(k, d)]) r

def mergeAll : Definitions → List Path → Job Definitions
  | ds, [] => return ds
  | ds, p :: r => do
    mergeAll (← mergeInto p.name ds (← readScript p.text)) r

def merge (dir out : String) : Job Unit := do
  let ds ← mergeAll [] ((← Job.tree).matching (Path.ofString dir) "*.lua")
  let out := (Path.ofString out).text
  Job.writeText out (ds.toDoc.render .report)
  Job.print ("[+] Wrote " ++ Decimal.nat ds.length ++ " entries → " ++ out)

/-- Merges as a command line says; the exit code, if the command ends by itself. -/
def mergeCommand : List String → Job (Option Int)
  | dir :: out :: _ => do
    merge dir out
    return none
  | _ => do
    Job.print "Usage: python parse_protocol.py <luas_dir> <mappings.json>"
    return some 1

end Salvage.Protocol
