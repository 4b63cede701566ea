import Salvage.Doc.Basic
import Salvage.Wire.Schema

/-!
# Catalogues of assets

A catalogue is a message that lists the asset bundles and the other resources of a game with their
sizes, digests and dependencies.
-/

namespace Salvage

open Wire

namespace Catalog

inductive State where
  | none
  | add
  | update
  | latest
  | delete

def State.ofNumber? (n : Int) : Option State :=
  match n with
  | 0 => some .none
  | 1 => some .add
  | 2 => some .update
  | 3 => some .latest
  | 4 => some .delete
  | _ => Option.none

def State.name : State → String
  | none => "NONE"
  | add => "ADD"
  | update => "UPDATE"
  | latest => "LATEST"
  | delete => "DELETE"

structure Asset where
  id : Option Int
  path : Option Bytes
  name : Option Bytes
  size : Option Int
  checksum : Option Nat
  digest : Option Bytes
  priority : Option Int
  tags : List Int
  dependencies : List Int
  objectName : Option Bytes
  generation : Option Nat
  version : Option Int
  state : Option State

end Catalog

structure Catalog where
  revision : Option Int
  bundles : List Catalog.Asset
  tagNames : List Bytes
  resources : List Catalog.Asset
  address : Option Bytes

namespace Catalog

/-! ## From messages -/

inductive MessageKind where
  | catalog
  | asset

def schema : Wire.Schema MessageKind
  | .catalog, 2 | .catalog, 4 => .message .asset
  | .asset, 8 | .asset, 9 => .numbers
  | _, _ => .plain

def Asset.ofRecords (rs : List Wire.Record) : Asset :=
  let signed (field : Nat) := (number? field rs).map signed32
  let text (field : Nat) := lastOctets? field rs
  { id := signed 1
    path := text 2
    name := text 3
    size := signed 4
    checksum := (number? 5 rs).map fun v => v.toNat % 0x100000000
    digest := text 6
    priority := signed 7
    tags := (numbersOf 8 rs).map signed32
    dependencies := (numbersOf 9 rs).map signed32
    objectName := text 10
    generation := (number? 11 rs).map UInt64.toNat
    version := signed 12
    state := ((allNumbers 13 rs).filterMap fun v => State.ofNumber? (signed32 v)).getLast? }

def ofRecords (rs : List Wire.Record) : Catalog :=
  { revision := (number? 1 rs).map signed32
    bundles := (messagesOf 2 rs).map Asset.ofRecords
    tagNames := allOctets 3 rs
    resources := (messagesOf 4 rs).map Asset.ofRecords
    address := lastOctets? 5 rs }

def parse? (b : Bytes) : Option Catalog :=
  (Wire.parse? schema Wire.depthLimit .catalog b).map ofRecords

/-! ## To documents -/

def optional {α : Type} (name : String) (toDoc : α → Doc) (a : Option α) : List (String × Doc) :=
  (a.map fun a => (name, toDoc a)).toList

def filled {α : Type} (name : String) (toDoc : α → Doc) (xs : List α) : List (String × Doc) :=
  if xs.isEmpty then [] else [(name, .arr (xs.map toDoc))]

def textDoc (b : Bytes) : Doc :=
  .str (shown b)

def Asset.toDoc (a : Asset) : Doc :=
  .obj (optional "id" .int a.id ++ optional "filepath" textDoc a.path ++
    optional "name" textDoc a.name ++ optional "size" .int a.size ++
    optional "crc" (fun n : Nat => .int n) a.checksum ++ optional "md5" textDoc a.digest ++
    optional "priority" .int a.priority ++ filled "tagid" .int a.tags ++
    filled "dependencie" .int a.dependencies ++ optional "objectName" textDoc a.objectName ++
    optional "generation" (fun n => .str (Decimal.nat n)) a.generation ++
    optional "uploadVersionId" .int a.version ++ optional "state" (fun s => .str s.name) a.state)

def toDoc (c : Catalog) : Doc :=
  .obj (optional "revision" .int c.revision ++ filled "assetBundleList" Asset.toDoc c.bundles ++
    filled "tagname" textDoc c.tagNames ++ filled "resourceList" Asset.toDoc c.resources ++
    optional "urlFormat" textDoc c.address)

end Catalog

end Salvage
