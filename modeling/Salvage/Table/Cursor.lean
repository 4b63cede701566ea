import Salvage.Table.Kind
import Salvage.Table.Value
import Salvage.Text.Utf8

/-!
# Reading cells

A cursor goes through the octets of a table from a position up to a limit. Each read gives a value
and moves the cursor, also when it ends in a fault.
-/

namespace Salvage.Table

/-! ## String pools

Columns may store their texts in a common pool: the cell holds an index, and the pool holds the end
offset of each text.
-/

structure Pool where
  columnSize : Int := -1
  columns : List Int := []
  ends : List Int := []
  contentStart : Int := 0

namespace Pool

def isColumn (p : Pool) (column : Int) : Bool :=
  0 ≤ column && 0 < p.columnSize && p.columns.contains column

def entryAt? (ends : List Int) (i : Int) : Option Int :=
  if 0 ≤ i then ends[i.toNat]?
  else if 0 ≤ i + ends.length then ends[(i + ends.length).toNat]?
  else none

inductive Lookup where
  | absent
  | outside
  | found (s : String)
deriving DecidableEq

def untilZero (b : Bytes) : Bytes :=
  b.takeWhile (· != 0)

def text? (p : Pool) (data : Bytes) (start index : Int) : Lookup :=
  if index + 1 > p.ends.length ∨ p.ends.isEmpty then .absent
  else
    let first := if index ≤ 0 then some 0 else entryAt? p.ends (index - 1)
    match first, entryAt? p.ends index with
    | some lo, some hi =>
      if start + hi > data.length then .absent
      else .found (Utf8.decodeSkipping (untilZero (Bytes.slice data (start + lo) (start + hi))))
    | _, _ => .outside

end Pool

/-! ## Cursors -/

structure PoolView where
  pool : Pool
  data : Bytes
  start : Int

structure Cursor where
  source : Option Bytes
  limit : Int
  /-- The position of the next octet; a negative one counts from the end. -/
  pos : Int
  pooled : Bool := false
  view : Option PoolView := none

inductive ReadFault where
  | closed
  /-- The cursor is closed, noticed while looking for the end of a text. -/
  | closedText
  | outside
  /-- A word at a position of an octet string of a size lies partly outside. -/
  | shortWord (position : Int) (size : Nat)
  | shortQuad (count : Nat)
  | unknownKind (code : Option Int)
  | tooGreat

def ReadFault.message : ReadFault → String
  | closed => "'NoneType' object is not subscriptable"
  | closedText => "'NoneType' object has no attribute 'index'"
  | outside => "index out of range"
  | shortWord position size =>
    if 0 ≤ position then
      "unpack_from requires a buffer of at least " ++ Decimal.int (position + 4) ++
        " bytes for unpacking 4 bytes at offset " ++ Decimal.int position ++
        " (actual buffer size is " ++ Decimal.nat size ++ ")"
    else if 0 < position + 4 then
      "not enough data to unpack 4 bytes at offset " ++ Decimal.int position
    else
      "offset " ++ Decimal.int position ++ " out of range for " ++ Decimal.nat size ++
        "-byte buffer"
  | shortQuad count =>
    "not enough values to unpack (expected 4, got " ++ Decimal.nat count ++ ")"
  | unknownKind none => "None"
  | unknownKind (some code) => Decimal.int code
  | tooGreat => "integer division result too large for a float"

namespace Cursor

def load (data : Bytes) (limit : Option Int) (pos : Int) : Cursor :=
  let l := limit.getD 0
  { source := some data, limit := if l = 0 then data.length else l, pos := pos }

def ofBytes (data : Bytes) : Cursor :=
  load data none 0

def close (c : Cursor) : Cursor :=
  { c with source := none, pooled := false, view := none }

def atEnd (c : Cursor) : Bool :=
  c.limit ≤ c.pos

def advance (c : Cursor) (n : Nat) : Cursor :=
  { c with pos := c.pos + n }

def here (c : Cursor) : Except ReadFault UInt8 :=
  match c.source with
  | none => .error .closed
  | some b =>
    match Bytes.at? b c.pos with
    | none => .error .outside
    | some x => .ok x

/-- Seven bits from each octet, least significant first, up to the first octet without its high bit
or to the limit; `value` holds the bits below `shift`. -/
def variantFrom (c : Cursor) (value shift : Nat) : EStateM.Result ReadFault Cursor Nat :=
  if _h : c.pos < c.limit then
    match c.here with
    | .error e => .error e c
    | .ok b =>
      let v := value ||| ((b.toNat % 128) <<< shift)
      if b < 0x80 then .ok v (c.advance 1) else variantFrom (c.advance 1) v (shift + 7)
  else .ok value c
termination_by (c.limit - c.pos).toNat
decreasing_by
  simp only [advance]
  omega

def digitsFrom (c : Cursor) (value shift : Nat) : EStateM.Result ReadFault Cursor Nat :=
  if _h : c.pos < c.limit then
    match c.here with
    | .error e => .error e c
    | .ok b =>
      let v := value ||| ((b.toNat % 128) <<< shift)
      if b < 0x80 then .ok v (c.advance 1) else digitsFrom (c.advance 1) v (shift + 7)
  else .ok value c
termination_by (c.limit - c.pos).toNat
decreasing_by
  simp only [advance]
  omega

def toZero (c : Cursor) : EStateM.Result ReadFault Cursor Unit :=
  if _h : c.pos < c.limit then
    match c.here with
    | .error e => .error e c
    | .ok b => if b = 0 then .ok () c else toZero (c.advance 1)
  else .ok () c
termination_by (c.limit - c.pos).toNat
decreasing_by
  simp only [advance]
  omega

end Cursor

abbrev Read := EStateM ReadFault Cursor

namespace Read

/-! ## Octets and words -/

def octet : Read (Option UInt8) := do
  let c ← get
  if c.atEnd then return none
  match c.here with
  | .error e => throw e
  | .ok b =>
    set (c.advance 1)
    return some b

/-- The four octets at the position, least significant first, if they lie before the limit. -/
def word : Read (Option Nat) := do
  let c ← get
  if c.pos + 4 > c.limit then return none
  match c.source with
  | none => throw .closed
  | some b =>
    let start := if c.pos < 0 then c.pos + b.length else c.pos
    if (c.pos < 0 ∧ 0 < c.pos + 4) ∨ start < 0 ∨ (b.length : Int) < start + 4 then
      throw (.shortWord c.pos b.length)
    set (c.advance 4)
    return some (Bytes.littleEndian (Bytes.window b start.toNat 4))

/-- The four octets of a cut at the position, or zero when they lie beyond the limit. -/
def quad : Read Nat := do
  let c ← get
  if c.pos + 4 > c.limit then return 0
  match c.source with
  | none => throw .closed
  | some b =>
    let four := Bytes.slice b c.pos (c.pos + 4)
    if four.length ≠ 4 then throw (.shortQuad four.length)
    set (c.advance 4)
    return Bytes.littleEndian four

/-! ## Numbers in groups of seven bits -/

def variant : Read (Option Nat) := fun c =>
  if c.atEnd then .ok none c
  else
    match c.variantFrom 0 0 with
    | .error e c => .error e c
    | .ok v c => .ok (if v = 0 then none else some v) c

/-- The digits of a fixed-point number as an unsigned number; zero reads as absent. -/
def digits : Read (Option Nat) := fun c =>
  if c.atEnd then .ok none c
  else
    match c.digitsFrom 0 0 with
    | .error e c => .error e c
    | .ok v c => .ok (if v = 0 then none else some v) c

def maxInt32 : Nat := 2147483647

/-- The signed number of an unsigned one: a number beyond 31 bits stands for a negative one. -/
def signed (v : Nat) : Int :=
  if v > maxInt32 then -((maxInt32 - v % (maxInt32 + 1) : Nat) + 1 : Int) else v

def int : Read (Option Int) := do
  return (← variant).map signed

def intOrZero : Read Int := do
  return (← int).getD 0

def variantsUpTo : Nat → List (Option Nat) → Read (List (Option Nat))
  | 0, acc => return acc.reverse
  | fuel + 1, acc => do
    if (← get).atEnd then return acc.reverse
    let v ← variant
    variantsUpTo fuel (v :: acc)

def variants : Read (List (Option Nat)) := do
  let c ← get
  variantsUpTo (c.limit - c.pos).toNat []

/-! ## Texts -/

def cstring : Read (Option String) := fun c =>
  if c.atEnd then .ok none c
  else
    match c.toZero with
    | .error e c => .error e c
    | .ok () d =>
      if d.atEnd then .ok none d
      else
        .ok (some (Utf8.decodeSkipping (Bytes.slice (d.source.getD []) c.pos d.pos))) (d.advance 1)

def string : Read (Option String) := do
  if (← get).pooled then
    let index ← intOrZero
    match (← get).view with
    | none => return none
    | some v =>
      match v.pool.text? v.data v.start index with
      | .absent => return none
      | .outside => throw .outside
      | .found s => return some s
  else
    let c ← get
    if c.atEnd then return none
    match c.source with
    | none => throw .closedText
    | some b =>
      match Bytes.findFrom? [0] b (Bytes.cutPoint b.length c.pos) with
      | none => return none
      | some stop =>
        if (stop : Int) = c.pos then
          set (c.advance 1)
          return none
        set { c with pos := (stop : Int) + 1 }
        return some (Utf8.decodeSkipping (Bytes.slice b c.pos stop))

/-! ## Cells -/

def mark : Read Value := do
  match ← octet with
  | some 1 => return .yes
  | _ => return .absent

def textCell : Read Value := do
  match ← string with
  | some s => return .text s
  | none => return .absent

def intCell : Read Value := do
  match ← int with
  | some i => return .int i
  | none => return .absent

def float : Read Value := do
  match ← int with
  | some i => return .real (Binary64.ofRatio (decide (i < 0)) i.natAbs 10000)
  | none => return .absent

def fixedPoint (value exponent : Int) : Except ReadFault Value :=
  if 0 < exponent then
    match Binary64.ofIntRatio? value (Nat.pow 10 exponent.toNat) with
    | some x => .ok (.real x)
    | none => .error .tooGreat
  else .ok (.int value)

def fix : Read Value := do
  match ← digits with
  | none => return .int 0
  | some v =>
    match ← octet with
    | none => return .absent
    | some b =>
      let value : Int := if b < 0x80 then v else -(v : Int)
      match fixedPoint value (b.toNat % 128) with
      | .ok x => return x
      | .error e => throw e

/-- The components of a vector under their names, absent ones as `missing` gives them. -/
def vectorOf (missing : Value → Value) : List String → List (Key × Value) → Read Value
  | [], acc => return .map acc.reverse
  | name :: r, acc => do
    let v ← fix
    vectorOf missing r ((.text name, missing v) :: acc)

def fix2 : Read Value := vectorOf id ["x", "y"] []

def fix3 : Read Value := vectorOf id ["x", "y", "z"] []

def fixQuaternion : Read Value :=
  vectorOf (fun v => if v.isAbsent then .int 0 else v) ["x", "y", "z", "w"] []

def many (one : Read Value) : Nat → List Value → Read Value
  | 0, acc => return .list acc.reverse
  | n + 1, acc => do
    let v ← one
    many one n (v :: acc)

def listOf (one : Read Value) : Read Value := do
  let n ← intOrZero
  if n ≤ 0 then return .absent
  many one n.toNat []

def manyEntries (key : Read Key) (one : Read Value) :
    Nat → List (Key × Value) → Read Value
  | 0, acc => return .map acc
  | n + 1, acc => do
    let k ← key
    let v ← one
    manyEntries key one n (Value.insert k v acc)

def mapOf (key : Read Key) (one : Read Value) : Read Value := do
  let n ← intOrZero
  if n ≤ 0 then return .absent
  manyEntries key one n.toNat []

def textKey : Read Key := do
  match ← string with
  | some s => return .text s
  | none => return .absent

def intKey : Read Key := do
  return .int (← intOrZero)

def intItem : Read Value := do
  return .int (← intOrZero)

def floatItem : Read Value := do
  return (← float).orElse (.real (.zero false))

def cellOf : Kind → Read Value
  | .bool => mark
  | .string => textCell
  | .fix => fix
  | .listString => listOf textCell
  | .listBool => listOf mark
  | .listInt => listOf intItem
  | .listFloat => listOf floatItem
  | .listFix => listOf fix
  | .mapStringString => mapOf textKey textCell
  | .mapIntInt => mapOf intKey intItem
  | .mapIntString => mapOf intKey textCell
  | .mapStringInt => mapOf textKey intCell
  | .mapIntFloat => mapOf intKey float
  | .int => intCell
  | .float => float
  | .fix2 => fix2
  | .fix3 => fix3
  | .fixQuaternion => fixQuaternion
  | .listFix2 => listOf fix2
  | .listFix3 => listOf fix3
  | .listFixQuaternion => listOf fixQuaternion

def cell (code : Option Int) : Read Value :=
  match code.bind Kind.ofCode? with
  | some k => cellOf k
  | none => throw (.unknownKind code)

def atColumn (column : Int) : Read Unit :=
  modify fun c =>
    match c.view with
    | none => c
    | some v => { c with pooled := v.pool.isColumn column }

end Read

end Salvage.Table
