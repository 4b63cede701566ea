import Salvage.Text.Quoted
import Salvage.Text.Utf8
import Salvage.Wire.Record

/-!
# Messages with a schema

A schema says which fields of a message are messages themselves and which are rows of numbers.
Everything else in a message may be read without it.
-/

namespace Salvage.Wire

inductive FieldKind (κ : Type) where
  | message (k : κ)
  | numbers
  | plain

abbrev Schema (κ : Type) := κ → Nat → FieldKind κ

def sequence? {α : Type} : List (Option α) → Option (List α)
  | [] => some []
  | none :: _ => none
  | some a :: r => (sequence? r).map (a :: ·)

def refine? {κ : Type} (schema : Schema κ) (inside : κ → Bytes → Option (List Record)) (kind : κ) :
    Record → Option Record
  | (field, .octets b) =>
    match schema kind field with
    | .message k => (inside k b).map fun m => (field, .message m)
    | .numbers => (packed? b).map fun _ => (field, .octets b)
    | .plain => some (field, .octets b)
  | r => some r

def parse? {κ : Type} (schema : Schema κ) : Nat → κ → Bytes → Option (List Record)
  | 0, kind, b => do
    sequence? ((← records? 0 b).map (refine? schema (fun _ _ => none) kind))
  | depth + 1, kind, b => do
    sequence? ((← records? (depth + 1) b).map (refine? schema (parse? schema depth) kind))

def depthLimit : Nat := 100

/-! ## Fields -/

def allOctets (field : Nat) (rs : List Record) : List Bytes :=
  rs.filterMap fun
    | (n, .octets b) => if n = field then some b else none
    | _ => none

def allNumbers (field : Nat) (rs : List Record) : List UInt64 :=
  rs.filterMap fun
    | (n, .number v) => if n = field then some v else none
    | _ => none

def messagesOf (field : Nat) (rs : List Record) : List (List Record) :=
  rs.filterMap fun
    | (n, .message m) => if n = field then some m else none
    | _ => none

def octetsOf (field : Nat) (rs : List Record) : Bytes :=
  (allOctets field rs).getLast?.getD []

def signed32 (v : UInt64) : Int :=
  let n : Nat := v.toNat % 0x100000000
  if n < 0x80000000 then n else (n : Int) - 0x100000000

def numberOf (field : Nat) (rs : List Record) : Int :=
  ((allNumbers field rs).getLast?.map signed32).getD 0

def shown (b : Bytes) : String :=
  match Utf8.decode b with
  | .ok s => s
  | .error _ => Quoted.octets b

def number? (field : Nat) (rs : List Record) : Option UInt64 :=
  (allNumbers field rs).getLast?

def lastOctets? (field : Nat) (rs : List Record) : Option Bytes :=
  (allOctets field rs).getLast?

def numbersOf (field : Nat) (rs : List Record) : List UInt64 :=
  rs.flatMap fun
    | (n, .number v) => if n = field then [v] else []
    | (n, .octets b) => if n = field then (packed? b).getD [] else []
    | _ => []

end Salvage.Wire
