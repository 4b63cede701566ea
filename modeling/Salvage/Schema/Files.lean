import Salvage.Doc.Parser
import Salvage.Job.Basic
import Salvage.Schema.Code
import Salvage.Schema.Text

/-!
# Schema files

A packed schema becomes a document, and the document becomes a text or code.
-/

namespace Salvage.Schema

open Job

def beside (path : Path) (extension : String) : Job Path :=
  match path.withExtension? extension with
  | some p => return p
  | none => throw (.noName path.text)

def unpackCommand : List String → Job (Option Int)
  | [file] => do
    let path := Path.ofString file
    let s ← ofExcept .schema (ofBytes (← readFile path.text))
    let target ← beside path ".json"
    writeText target.text (s.toNamedDoc.render .report)
    print ("[+] Decoded → " ++ target.text)
    return none
  | _ => do
    print "Usage: python proto2json.py spb.bytes"
    return some 1

def readDocument (path : Path) : Job Doc := do
  ofExcept .document (Doc.parse (← readText path.text))

def textCommand : List String → Job (Option Int)
  | [] => do
    print "Usage: python json_to_sproto.py spb.json"
    return some 1
  | file :: _ => do
    let path := Path.ofString file
    let (text, types, protocols) ← ofExcept .shape (write (← readDocument path))
    let target ← beside path ".sproto"
    writeText target.text text
    print ("[+] Wrote " ++ target.text ++ " (" ++ Decimal.nat types ++ " types, " ++
      Decimal.nat protocols ++ " protocols)")
    return none

def code (d : Doc) : Except Doc.ShapeFault (String × String) := do
  let types ← d.item "types"
  let protocols ← d.item "protocols"
  return (← structuresCode types, ← enumerationCode protocols)

def codeCommand : List String → Job (Option Int)
  | [] => do
    print "Usage: python sproto2rust.py spb.json"
    return some 1
  | file :: _ => do
    let path := Path.ofString file
    let (structures, enumeration) ← ofExcept .shape (code (← readDocument path))
    writeText (path.parent.child "message.rs").text structures
    writeText (path.parent.child "msgid.rs").text enumeration
    print "[+] Generated message.rs and msgid.rs"
    return none

end Salvage.Schema
