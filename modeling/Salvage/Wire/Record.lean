import Salvage.Bytes.Basic

/-!
# Records of a message

A message is a row of records. A record has the number of a field and a value in one of a few forms:
a number in groups of seven bits, four or eight octets, or octets with their length before them.
Older messages hold groups of records between a start and an end.
-/

namespace Salvage.Wire

inductive Value where
  | number (n : UInt64)
  | eight (b : Bytes)
  | four (b : Bytes)
  | octets (b : Bytes)
  | message (records : List (Nat × Value))
  | group

abbrev Record := Nat × Value

/-- A number in groups of seven bits, the lowest first, in at most `n` octets, and what follows
it. -/
def varint? : Nat → Bytes → Option (Nat × Bytes)
  | 0, _ => none
  | _ + 1, [] => none
  | n + 1, b :: r =>
    if b < 128 then some (b.toNat, r)
    else (varint? n r).map fun (v, rest) => (b.toNat % 128 + 128 * v, rest)

def numberLength : Nat := 10

def shortLength : Nat := 5

def tag? (b : Bytes) : Option (Nat × Nat × Bytes) :=
  match varint? shortLength b with
  | some (v, rest) => if v < 0x100000000 then some (v / 8, v % 8, rest) else none
  | none => none

def take? (n : Nat) (b : Bytes) : Option (Bytes × Bytes) :=
  if n ≤ b.length then some (b.take n, b.drop n) else none

def octets? (b : Bytes) : Option (Bytes × Bytes) :=
  match varint? shortLength b with
  | some (n, rest) => if n < 0x80000000 then take? n rest else none
  | none => none

/-- What follows a group of a field, whose start has been read; groups may be nested `depth` deep.
At most `fuel` records. -/
def afterGroup? : Nat → Nat → Nat → Bytes → Option Bytes
  | 0, _, _, _ => none
  | fuel + 1, depth, field, b =>
    match tag? b with
    | none => none
    | some (number, form, rest) =>
      if number = field ∧ form = 4 then some rest
      else
        let next : Option Bytes :=
          match form with
          | 0 => (varint? numberLength rest).map Prod.snd
          | 1 => (take? 8 rest).map Prod.snd
          | 2 => (octets? rest).map Prod.snd
          | 3 => match depth with
            | 0 => none
            | depth + 1 => afterGroup? fuel depth number rest
          | 5 => (take? 4 rest).map Prod.snd
          | _ => none
        match next with
        | none => none
        | some rest => afterGroup? fuel depth field rest

def value? (depth field form : Nat) (b : Bytes) : Option (Value × Bytes) :=
  match form with
  | 0 => (varint? numberLength b).map fun (n, r) => (.number (UInt64.ofNat n), r)
  | 1 => (take? 8 b).map fun (x, r) => (.eight x, r)
  | 2 => (octets? b).map fun (x, r) => (.octets x, r)
  | 3 => match depth with
    | 0 => none
    | depth + 1 => (afterGroup? (b.length + 1) depth field b).map fun r => (.group, r)
  | 5 => (take? 4 b).map fun (x, r) => (.four x, r)
  | _ => none

def recordsUpTo? (depth : Nat) : Nat → Bytes → Option (List Record)
  | _, [] => some []
  | 0, _ => none
  | fuel + 1, b =>
    match tag? b with
    | none => none
    | some (field, form, rest) =>
      if field = 0 then none
      else
        match value? depth field form rest with
        | none => none
        | some (v, rest) => (recordsUpTo? depth fuel rest).map ((field, v) :: ·)

def records? (depth : Nat) (b : Bytes) : Option (List Record) :=
  recordsUpTo? depth b.length b

def packedUpTo? : Nat → Bytes → Option (List UInt64)
  | _, [] => some []
  | 0, _ => none
  | fuel + 1, b =>
    match varint? numberLength b with
    | none => none
    | some (n, rest) => (packedUpTo? fuel rest).map (UInt64.ofNat n :: ·)

def packed? (b : Bytes) : Option (List UInt64) :=
  packedUpTo? b.length b

end Salvage.Wire
