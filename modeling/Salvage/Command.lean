import Salvage.Assembly.Command
import Salvage.Chunk.Batch
import Salvage.Container.Extract
import Salvage.Decompile.Course
import Salvage.Envelope.Records
import Salvage.Flat.Convert
import Salvage.Metadata.Masked
import Salvage.Protocol.Generate
import Salvage.Protocol.Merge
import Salvage.Schema.Files
import Salvage.Script.PlainText
import Salvage.Table.Inspect
import Salvage.Transport.Basic

/-!
# The commands

Every job that works on files alone can be asked for by a name and arguments.
-/

namespace Salvage

structure Command where
  name : String
  summary : String
  /-- The job, given the arguments after the name; the exit code, if it sets one. -/
  job : List String → Job (Option Int)

namespace Command

def silent (job : Job Unit) : Job (Option Int) := do
  job
  return none

def ofWork (work : Chunk.Work Nat) : Job (Option Int) := do
  let w ← get
  let (code, bench) := StateT.run work { tree := w.tree }
  set { w with
    tree := bench.tree
    console := w.console ++ [Utf8.decodeReplacing bench.printed]
    complaints := w.complaints ++ [Utf8.decodeReplacing bench.complaints] }
  return some code

def all : List Command :=
  [⟨"convert-tables", "binary tables to tab-separated texts", fun xs => silent (Table.convertCommand xs)⟩,
   ⟨"inspect-table", "what a binary table holds", fun xs => silent (Table.inspectCommand xs)⟩,
   ⟨"convert-scripts", "plain scripts without their byte order marks",
      fun xs => silent (Script.convertTextCommand xs)⟩,
   ⟨"decrypt-chunks", "compiled scripts under a cipher", fun xs => ofWork (Chunk.Work.command "salvage" xs)⟩,
   ⟨"decompile", "compiled scripts to texts", Decompile.command⟩,
   ⟨"decrypt-scripts", "scripts in envelopes", Envelope.scriptCommand "salvage"⟩,
   ⟨"decrypt-records", "record files in envelopes", Envelope.recordCommand "salvage"⟩,
   ⟨"convert-records", "record files to documents", Flat.command⟩,
   ⟨"convert-libraries", "program libraries to their own names", Assembly.command⟩,
   ⟨"extract", "scripts and documents of a container", Container.command⟩,
   ⟨"unpack-schema", "a packed schema to a document", Schema.unpackCommand⟩,
   ⟨"write-schema", "a schema as text", Schema.textCommand⟩,
   ⟨"generate-types", "code for the types of a schema", Schema.codeCommand⟩,
   ⟨"merge-protocols", "the message definitions of many scripts", Protocol.mergeCommand⟩,
   ⟨"generate-messages", "code for message definitions", fun _ => silent Protocol.Generator.run⟩,
   ⟨"unmask-metadata", "metadata without their mask", fun _ => silent Metadata.unmaskFile⟩,
   ⟨"decode-message", "the text of a message in base 64",
      fun xs => silent (Transport.command (xs.head?.getD ""))⟩]

def usage : List String :=
  "salvage <command> <arguments>" ::
    all.map fun c => "  " ++ Decimal.padRight ' ' 20 c.name ++ c.summary

def run : List String → Job (Option Int)
  | [] => do
    Job.printAll usage
    return some 1
  | name :: xs =>
    match all.find? fun c => c.name == name with
    | some c => c.job xs
    | none => do
      Job.printAll usage
      return some 1

end Command

end Salvage
