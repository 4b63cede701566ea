import Salvage.Archive.Zip
import Salvage.Bundle.Key
import Salvage.Cipher.Mask
import Salvage.Cipher.Padded
import Salvage.Compress.Gzip
import Salvage.Compress.Lzma
import Salvage.Decompile.Literal
import Salvage.Doc.Fault
import Salvage.Doc.Shape
import Salvage.Ghost.Asset
import Salvage.Pak.Basic
import Salvage.Schema.Packed
import Salvage.Table.Load
import Salvage.Workspace.Fault
import Salvage.Workspace.Network

/-!
# Why a job ends early

Some jobs look at what they need before they start, and refuse to start without it.
-/

namespace Salvage

inductive Refusal where
  | noDecompiler (path : String)
  | noMachine
  | noSettings (path : String)

def Refusal.message : Refusal → String
  | noDecompiler path => "unluac jar not found: " ++ path
  | noMachine => "Java not found. Please install Java."
  | noSettings path => "Configuration file not found: " ++ path

inductive Fault where
  | file (f : FileFault)
  | text (f : Utf8.Fault)
  | document (f : Doc.SyntaxFault)
  | table (f : Table.LoadFault)
  | shape (f : Doc.ShapeFault)
  | archive (f : Zip.Fault)
  | pak (f : Pak.Fault)
  | cipher (f : Cipher.Fault)
  | padded (f : Padded.Fault)
  | gzip (f : Gzip.Fault)
  | base64 (f : Base64.Fault)
  | mask (f : Mask.Fault)
  | unwritable
  | emptyKey
  | stream (f : Lzma.Fault)
  | ghost (f : Ghost.Fault)
  | literal (f : Literal.Fault)
  | noCatalog (name : String)
  | noDefinitions (name : String) (places : List String)
  | notBelow (path base : String)
  | bundle (f : Bundle.Fault)
  | schema (f : Schema.Fault)
  | network (f : NetworkFault)
  | refused (r : Refusal)
  | unreadableBundle (words : String)
  | noPath
  | noName (path : String)
  | noNumber (text : String)
  | notFinite (x : Binary64)
  | noWorkers
  | mismatch
  | outsideTask (words : String)
  | interrupted
  | noMessage
  | outside
  | short (n : Nat)
  | unformattable (kind : Doc.Kind)

def Fault.message : Fault → String
  | file f => f.message
  | text f => f.message
  | document f => f.message
  | table f => f.message
  | shape f => f.message
  | archive f => f.message
  | pak f => f.message
  | cipher f => f.message
  | padded f => f.message
  | gzip f => f.message
  | base64 f => f.message
  | mask _ => ""
  | unwritable => "Object of type bytes is not JSON serializable"
  | emptyKey => "integer division or modulo by zero"
  | stream f => f.message
  | ghost f => f.message
  | literal f => f.message
  | noCatalog name => "Invalid OctoCache header in " ++ name
  | noDefinitions name places =>
    name ++ " not found in [" ++
      ", ".intercalate (places.map fun p => "PosixPath(" ++ Quoted.text p ++ ")") ++ "]"
  | notBelow path base =>
    Quoted.text path ++ " is not in the subpath of " ++ Quoted.text base ++
      " OR one path is relative and the other is absolute."
  | bundle f => f.message
  | schema f => f.message
  | network f => f.message
  | refused r => r.message
  | unreadableBundle words => words
  | noPath => "no path specified"
  | noName path => "PosixPath(" ++ Quoted.text path ++ ") has an empty name"
  | noNumber s => "invalid literal for int() with base 10: " ++ Quoted.text s
  | notFinite x =>
    if x.kind = .nan then "cannot convert float NaN to integer"
    else "cannot convert float infinity to integer"
  | noWorkers => "max_workers must be greater than 0"
  | mismatch => ""
  | outsideTask words => words
  | interrupted => ""
  | noMessage => "Error parsing message"
  | outside => "index out of range"
  | short n => "unpack requires a buffer of " ++ Decimal.nat n ++ " bytes"
  | unformattable kind => "unsupported format string passed to " ++ kind.name ++ ".__format__"

/-- The faults of one kind as causes for which a job ends early. -/
class IsFault (ε : Type) where
  toFault : ε → Fault

instance : IsFault Fault := ⟨id⟩
instance : IsFault Doc.ShapeFault := ⟨.shape⟩
instance : IsFault Schema.Fault := ⟨.schema⟩
instance : IsFault Pak.Fault := ⟨.pak⟩
instance : IsFault Bundle.Fault := ⟨.bundle⟩
instance : IsFault Base64.Fault := ⟨.base64⟩
instance : IsFault Mask.Fault := ⟨.mask⟩
instance : IsFault Padded.Fault := ⟨.padded⟩
instance : IsFault Ghost.Fault := ⟨.ghost⟩
instance : IsFault Literal.Fault := ⟨.literal⟩

end Salvage
