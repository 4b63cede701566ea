import Salvage.Table.Convert

/-! # Looking at one table -/

namespace Salvage.Table

def kindWord (code : Option Int) : String :=
  match code.bind Kind.ofCode? with
  | some k => k.name
  | none => "type" ++ (code.map Decimal.int).getD "None"

def rowLine (i : Nat) (row : Row) : String :=
  "  " ++ Decimal.nat i ++ ": " ++ row.listing

def inspect (path : String) : Job Unit := do
  Job.print ("Loading " ++ path ++ "...")
  let t ← loadFile path
  Job.print ("\n" ++ t.summary (PathText.base path))
  match t.magic with
  | none => throw (.unformattable .null)
  | some magic =>
    Job.print ("[header] has_pk=" ++
      (match t.keyed with | none => "None" | some b => if b then "True" else "False") ++
      ", pk_idx=0, magic=0x" ++ Hex.natPaddedUpper 8 magic)
  Job.print "\n[columns]"
  Job.printAll (t.columns.map fun c =>
    "  " ++ c.name.getD "None" ++ " (" ++ kindWord c.code ++ ")")
  Job.print "\n[data] First 3 rows:"
  Job.printAll ((List.range 3).zip t.rows |>.map fun (i, row) => rowLine i row)
  let n := t.rows.length
  if 3 < n then
    Job.print "\n[data] Last row:"
    Job.printAll (t.rows.getLast?.toList.map (rowLine (n - 1)))
  let target := Text.replaceAll path fileExtension "" ++ ".tsv"
  Job.writeText target t.toTsv
  Job.print ("\n[output] Wrote " ++ target)

def inspectCommand : List String → Job Unit
  | [] => Job.print "Usage: python debug.py <file.tab.bytes>"
  | path :: _ => inspect path

end Salvage.Table
