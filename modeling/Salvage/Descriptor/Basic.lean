import Salvage.Wire.Schema

/-!
# Descriptors of message formats

A descriptor set describes files of message formats: their packages, imports, enumerations and
messages. It is itself a message.
-/

namespace Salvage.Descriptor

open Wire

structure Enumeration where
  name : Bytes
  values : List (Bytes × Int)

structure Field where
  name : Bytes
  number : Int
  label : Int
  type : Int
  typeName : Bytes

inductive Message where
  | mk (name : Bytes) (enumerations : List Enumeration) (nested : List Message) (fields : List Field)

structure File where
  name : Bytes
  package : Bytes
  imports : List Bytes
  enumerations : List Enumeration
  messages : List Message

/-! ## The format of a set -/

inductive Kind where
  | set | file | message | field | oneof | enumeration | value | service | method
  | extensionRange | range
  | fileOptions | messageOptions | fieldOptions | oneofOptions | enumerationOptions | valueOptions
  | serviceOptions | methodOptions | extensionRangeOptions
  | declaration | editionDefault | featureSupport | features
  | plainOption | namePart | sourceInfo | location

def inner : Kind → List (Nat × Kind)
  | .set => [(1, .file)]
  | .file => [(4, .message), (5, .enumeration), (6, .service), (7, .field), (8, .fileOptions),
      (9, .sourceInfo)]
  | .message => [(2, .field), (3, .message), (4, .enumeration), (5, .extensionRange), (6, .field),
      (7, .messageOptions), (8, .oneof), (9, .range)]
  | .field => [(8, .fieldOptions)]
  | .oneof => [(2, .oneofOptions)]
  | .enumeration => [(2, .value), (3, .enumerationOptions), (4, .range)]
  | .value => [(3, .valueOptions)]
  | .service => [(2, .method), (3, .serviceOptions)]
  | .method => [(4, .methodOptions)]
  | .extensionRange => [(3, .extensionRangeOptions)]
  | .fileOptions => [(50, .features), (999, .plainOption)]
  | .messageOptions => [(12, .features), (999, .plainOption)]
  | .fieldOptions => [(20, .editionDefault), (21, .features), (22, .featureSupport),
      (999, .plainOption)]
  | .oneofOptions => [(1, .features), (999, .plainOption)]
  | .enumerationOptions => [(7, .features), (999, .plainOption)]
  | .valueOptions => [(2, .features), (4, .featureSupport), (999, .plainOption)]
  | .serviceOptions => [(34, .features), (999, .plainOption)]
  | .methodOptions => [(35, .features), (999, .plainOption)]
  | .extensionRangeOptions => [(2, .declaration), (50, .features), (999, .plainOption)]
  | .plainOption => [(2, .namePart)]
  | .sourceInfo => [(1, .location)]
  | _ => []

def rows : Kind → List Nat
  | .file => [10, 11]
  | .fieldOptions => [19]
  | .location => [1, 2]
  | _ => []

def schema : Wire.Schema Kind := fun kind field =>
  match (inner kind).lookup field with
  | some k => .message k
  | none => if (rows kind).contains field then .numbers else .plain

/-! ## Reading -/

def choice (field : Nat) (most : Int) (rs : List Wire.Record) : Int :=
  (((allNumbers field rs).map signed32).filter fun n => 1 ≤ n ∧ n ≤ most).getLast?.getD 1

def Field.ofRecords (rs : List Wire.Record) : Field :=
  { name := octetsOf 1 rs, number := numberOf 3 rs, label := choice 4 3 rs
    type := choice 5 18 rs, typeName := octetsOf 6 rs }

def Enumeration.ofRecords (rs : List Wire.Record) : Enumeration :=
  { name := octetsOf 1 rs
    values := (messagesOf 2 rs).map fun v => (octetsOf 1 v, numberOf 2 v) }

def Message.ofRecords : Nat → List Wire.Record → Message
  | 0, rs => .mk (octetsOf 1 rs) [] [] []
  | depth + 1, rs =>
    .mk (octetsOf 1 rs) ((messagesOf 4 rs).map .ofRecords)
      ((messagesOf 3 rs).map (Message.ofRecords depth)) ((messagesOf 2 rs).map .ofRecords)

def File.ofRecords (rs : List Wire.Record) : File :=
  { name := octetsOf 1 rs, package := octetsOf 2 rs, imports := allOctets 3 rs
    enumerations := (messagesOf 5 rs).map .ofRecords
    messages := (messagesOf 4 rs).map (Message.ofRecords depthLimit) }

def parse? (b : Bytes) : Option (List File) :=
  (Wire.parse? schema Wire.depthLimit .set b).map fun rs => (Wire.messagesOf 1 rs).map .ofRecords

end Salvage.Descriptor
