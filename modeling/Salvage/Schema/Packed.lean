import Salvage.Schema.Basic
import Salvage.Text.Utf8

/-!
# Packed schemas

A packed record starts with the number of its slots and the slots, words of two octets. A slot holds
`(x + 1) * 2` for the number `x`, one for nothing, or zero for something that stands behind the slots
as a blob: four octets of length, and the content. All numbers have their lowest octet first.
-/

namespace Salvage.Schema

inductive Subject where
  | field | type | protocol

def Subject.word : Subject → String
  | field => "field"
  | type => "type"
  | protocol => "proto"

inductive Fault where
  | short (n : Nat)
  | longBlob
  | slot (subject : Subject) (place value : Nat)
  /-- A slot of the schema itself that should stand for a blob and holds something else. -/
  | schemaSlot

def Fault.message : Fault → String
  | short n => "unpack_from requires a buffer of at least " ++ Decimal.nat n ++ " bytes"
  | longBlob => "packbytes exceeds buffer"
  | slot s place v =>
    s.word ++ " tag" ++ Decimal.nat place ++ "!=0x0000 (0x" ++ Hex.natPadded 2 v ++ ")"
  | schemaSlot => ""

/-! ## Numbers and blobs -/

abbrev Read := StateT Bytes (Except Fault)

def numberOf (n : Nat) : Read Nat := fun b =>
  if b.length < n then .error (.short n) else .ok (Bytes.littleEndian (b.take n), b.drop n)

def slot : Read Nat :=
  numberOf 2

def blob : Read Bytes := do
  let size ← numberOf 4
  let b ← get
  if b.length < size then throw .longBlob
  set (b.drop size)
  return b.take size

def text : Read String := do
  return Utf8.decodeSkipping (← blob)

def unpacked (v : Int) : Int :=
  v.fdiv 2 - 1

def value : Read Int := do
  return unpacked (← slot)

def value? : Read (Option Int) := do
  let v ← slot
  return if v = 1 then none else some (unpacked v)

def marker (subject : Subject) (place : Nat) : Read Unit := do
  let v ← slot
  if v ≠ 0 then throw (.slot subject place v)

def only {α : Type} (p : Prop) [Decidable p] (other : α) (read : Read α) : Read α :=
  if p then read else return other

/-! ## Numbers and blobs at a position -/

/-- The place of a position among `n` octets; negative ones count from the end. -/
def placeOf? (n : Nat) (i : Int) : Option Nat :=
  if 0 ≤ i then some i.toNat
  else if 0 ≤ i + n then some (i + n).toNat
  else none

def numberAt (n : Nat) (b : Bytes) (i : Int) : Except Fault (Nat × Int) :=
  match placeOf? b.length i with
  | none => .error (.short n)
  | some k => do
    let (v, _) ← numberOf n (b.drop k)
    return (v, i + n)

def blobAt (b : Bytes) (i : Int) : Except Fault (Bytes × Int) := do
  let (size, start) ← numberAt 4 b i
  if (b.length : Int) < start + size then throw .longBlob
  return (b.slice start (start + size), start + size)

/-! ## Records -/

def eachUpTo {α : Type} (read : Read α) : Nat → Bytes → Except Fault (List α)
  | 0, _ => .ok []
  | n + 1, b =>
    if b.isEmpty then .ok []
    else do
      let (record, rest) ← blob b
      let (a, _) ← read record
      return a :: (← eachUpTo read n rest)

def each {α : Type} (read : Read α) (b : Bytes) : Except Fault (List α) :=
  eachUpTo read b.length b

def readField : Read Field := do
  let count ← slot
  marker .field 0
  let builtin ← value?
  let typeId ← value?
  let tag ← value
  let repeated ← only (5 ≤ count) false (do return (← value) == 1)
  let keyTag ← only (6 ≤ count) none (some <$> value)
  let isMap ← only (7 ≤ count) false (do let _ ← value; return true)
  let name ← text
  return { name, tag, builtin, typeId, repeated, keyTag, isMap }

def readRecord : Read Record := do
  let count ← slot
  marker .type 0
  if count = 1 then return { name := ← text, fields := [] }
  marker .type 1
  let name ← text
  let fields ← each readField (← blob)
  return { name, fields }

/-- The slots for the response of a protocol with `count` slots: its type, and whether an empty one
confirms. -/
def readResponse (count : Nat) : Read (Option Int × Bool) := do
  match ← value? with
  | some id => return (some id, false)
  | none => return (none, ← only (count = 5) false (do return (← value) == 1))

def readExchange : Read Exchange := do
  let count ← slot
  marker .protocol 0
  let tag ← value
  let request ← only (3 ≤ count) none value?
  let (response, confirm) ← only (4 ≤ count) (none, false) (readResponse count)
  let name ← text
  return { name, tag, request, response, confirm }

def records (b : Bytes) : Except Fault (List Record) :=
  each readRecord b

def exchanges (b : Bytes) : Except Fault (List Exchange) :=
  each readExchange b

def schemaMarker : Read Unit := do
  if (← slot) ≠ 0 then throw .schemaSlot

def parts : Read (Bytes × Bytes) := do
  let count ← slot
  schemaMarker
  only (2 ≤ count) () schemaMarker
  let types ← blob
  let protocols ← only (2 ≤ count) [] blob
  return (types, protocols)

def ofBytes (b : Bytes) : Except Fault Schema := do
  let ((types, protocols), _) ← parts b
  return { types := ← records types, protocols := ← exchanges protocols }

end Salvage.Schema
