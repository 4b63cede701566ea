import Salvage.Table.Basic

/-!
# Loading binary tables

A table file has a header of numbers in groups of seven bits behind its length, index blocks, the
content, and a string pool. Content that holds only plain numbers is read as one array of numbers;
everything else is read cell by cell. A file that starts with a `Name` column is tab-separated text
already.
-/

namespace Salvage.Table

inductive LoadFault where
  | allZeros
  | noHeaderLength
  | noColumnCount
  | noKeyColumn
  /-- A row of the tab-separated text goes on behind a carriage return. -/
  | brokenLine

def LoadFault.message : LoadFault → String
  | allZeros => "File is empty or corrupted (all zeros)"
  | noHeaderLength => "unsupported operand type(s) for +: 'int' and 'NoneType'"
  | noColumnCount => "'NoneType' object cannot be interpreted as an integer"
  | noKeyColumn => "list index out of range"
  | brokenLine =>
    "new-line character seen in unquoted field - do you need to open the file in universal-newline mode?"

/-! ## The header -/

abbrev HeaderRead := EStateM LoadFault (Table × Cursor)

namespace HeaderRead

def lift {α : Type} (fallback : α) (r : Read α) : HeaderRead α := fun (t, c) =>
  match r c with
  | .ok a c => .ok a (t, c)
  | .error _ c => .ok fallback (t, c)

def update (f : Table → Table) : HeaderRead Unit :=
  modify fun (t, c) => (f t, c)

def columns : Nat → HeaderRead Unit
  | 0 => return ()
  | n + 1 => do
    let code ← lift none Read.int
    let name ← lift none Read.string
    update fun t => { t with columns := t.columns ++ [⟨code, name⟩] }
    columns n

def columnAt? (cs : List Column) (i : Int) : Option Column :=
  if 0 ≤ i then cs[i.toNat]?
  else if 0 ≤ i + cs.length then cs[(i + cs.length).toNat]?
  else none

def primaryKey : HeaderRead Unit := do
  let index ← lift 0 Read.intOrZero
  let t := (← get).1
  if index < t.columns.length then
    match columnAt? t.columns index with
    | none => throw .noKeyColumn
    | some c => update fun t => { t with primaryKey := c.name }
  let n ← lift 0 Read.intOrZero
  update fun t => { t with keyLength := n }

def header : HeaderRead Unit := do
  let length ← lift none Read.word
  update fun t => { t with headerLength := length }
  let count ← lift none Read.int
  update fun t => { t with columnCount := count }
  match count with
  | none => throw .noColumnCount
  | some n => columns n.toNat
  let mark ← lift .absent Read.mark
  update fun t => { t with keyed := if mark.isAbsent then none else some true }
  if !mark.isAbsent then primaryKey
  let n ← lift 0 Read.intOrZero
  update fun t => { t with rowIndexLength := n }
  let n ← lift 0 Read.intOrZero
  update fun t => { t with rowCount := n }
  let n ← lift 0 Read.intOrZero
  update fun t => { t with contentLength := n }
  match length with
  | none => throw .noHeaderLength
  | some l =>
    if (← get).2.pos + 4 ≤ 4 + (l : Int) then
      let w ← lift none Read.word
      update fun t => { t with magic := w }

end HeaderRead

/-! ## The string pool -/

structure PoolSizes where
  columns : Int
  texts : Int
  mapLength : Int
  offsetsLength : Int

inductive PoolHeader where
  | missing
  | oversized
  | found (length : Nat) (sizes : PoolSizes)

def readPoolHeader : Read PoolHeader := do
  match ← Read.word with
  | none => return .missing
  | some length =>
    if length = 0 ∨ length > 10000 then return .missing
    let columns ← Read.intOrZero
    if columns ≤ 0 ∨ columns > 100 then return .missing
    let texts ← Read.intOrZero
    let mapLength ← Read.intOrZero
    let offsetsLength ← Read.intOrZero
    if texts > 100000 ∨ mapLength > 10000 ∨ offsetsLength > 100000 then return .oversized
    return .found length ⟨columns, texts, mapLength, offsetsLength⟩

/-- The numbers from the cursor on, from the `i`-th to the `n`-th: `none` in second place when the
octets end before the last. -/
def readNumbers (size : Nat) : Nat → Nat → List Int → Read (List Int × Option Nat)
  | 0, _, acc => return (acc.reverse, none)
  | n + 1, i, acc => do
    if (← get).pos ≥ size then return (acc.reverse, some i)
    let v ← Read.intOrZero
    readNumbers size n (i + 1) (v :: acc)

def readPoolBody (data : Bytes) (position : Int) (length : Nat) (s : PoolSizes) (t : Table) :
    Table × List String :=
  let mapStart := position + 4 + length
  let t := { t with pool :=
    { t.pool with
      columnSize := s.columns
      contentStart := 4 + length + s.mapLength + s.offsetsLength
      columns := [] } }
  let failed (t : Table) (e : ReadFault) (notes : List String) : Table × List String :=
    ({ t with pool := { t.pool with columnSize := 0 } },
      notes ++ ["[ERROR] Failed to read string pool: " ++ e.message])
  let cursor := Cursor.ofBytes data
  match readNumbers data.length s.columns.toNat 0 [] { cursor with pos := mapStart } with
  | .error e _ => failed t e []
  | .ok (columns, stop) _ =>
    let notes := match stop with
      | some i => ["[ERROR] Reached end of file reading column map at index " ++ Decimal.nat i]
      | none => []
    let t := { t with pool := { t.pool with columns := (columns.map (· + 1)).eraseDups, ends := [] } }
    let offsets := { cursor with pos := mapStart + s.mapLength }
    match readNumbers data.length s.texts.toNat 0 [] offsets with
    | .error e _ => failed t e notes
    | .ok (ends, stop) _ =>
      let t := { t with pool := { t.pool with ends := ends } }
      match stop with
      | some i =>
        (t, notes ++
          ["[ERROR] Reached end of file reading offset array at index " ++ Decimal.nat i])
      | none => (t, notes)

def readPool (data : Bytes) (t : Table) : Table × List String :=
  let none' := { t with pool := { t.pool with columnSize := 0 } }
  let position := t.poolStart
  if position ≥ data.length then (none', [])
  else
    match readPoolHeader { Cursor.ofBytes data with pos := position } with
    | .error e _ => (none', ["[ERROR] Failed to read string pool: " ++ e.message])
    | .ok .missing _ => (none', [])
    | .ok .oversized _ => (none', ["[ERROR] String pool sizes look invalid, skipping"])
    | .ok (.found length sizes) _ => readPoolBody data position length sizes t

/-! ## Content as an array of numbers -/

/-- Whether a number is too great to be anything but a column offset. -/
def isLarge (v : Option Nat) : Bool :=
  match v with
  | some n => 10000000 ≤ n
  | none => false

def looksColumnar (vals : List (Option Nat)) (count : Int) : Bool :=
  decide (count - 1 ≤ ((Bytes.cut vals 0 count).countP isLarge : Int))

def isIdentifier (v : Option Nat) : Bool :=
  match v with
  | some n => 1000000 ≤ n && n ≤ 4000000000
  | none => false

def rowStarts (n : Nat) (count : Int) : List Nat :=
  let stop := min 10000 ((n : Int) - count)
  if count ≤ 0 ∨ stop ≤ 0 then []
  else (List.range ((stop.toNat + count.toNat - 1) / count.toNat)).map (· * count.toNat)

def hasIdColumn (t : Table) : Bool :=
  t.columnNames.contains (some "Id")

def streak (count : Nat) : Nat → List (Option Nat) → Nat
  | 0, _ => 0
  | n + 1, rest =>
    if rest.length < count then 0
    else if isIdentifier (rest.head?.join) then streak count n (rest.drop count) + 1
    else 0

def startsRows (hasId : Bool) (count : Nat) (rest : List (Option Nat)) : Bool :=
  let first := rest.head?.join
  let second := if count > 1 then (rest.drop 1).head?.join else none
  let misfit := hasId && first.isSome &&
    (!isIdentifier first || (match second with | some n => decide (10000000 ≤ n) | none => false))
  !misfit && decide (10 ≤ streak count (min 10 (rest.length / count)) rest)

def findRowStart (t : Table) (vals : List (Option Nat)) (count : Int) : Nat :=
  ((rowStarts vals.length count).find? fun s =>
    startsRows (hasIdColumn t) count.toNat (vals.drop s)).getD 0

/-- Whether from the row `rest` begins with on at least three of five identifiers are missing. -/
def isGarbage (count maxRows index : Nat) (rest : List (Option Nat)) : Bool :=
  let rows := List.range (min 5 (maxRows - index))
  decide (3 ≤ rows.countP fun k => (rest.drop (k * count)).head?.join.isNone)

def plainRowCount (t : Table) (vals : List (Option Nat)) (count : Int) : Int :=
  let maxRows : Int := (vals.length : Int).fdiv count
  if 0 < t.rowCount ∧ t.rowCount ≤ maxRows then t.rowCount
  else if hasIdColumn t && t.isKeyed then
    let found := (List.range maxRows.toNat).find? fun i =>
      decide (10 ≤ i) && (vals.drop (i * count.toNat)).head?.join.isNone &&
        isGarbage count.toNat maxRows.toNat i (vals.drop (i * count.toNat))
    match found with
    | some i => i
    | none => maxRows
  else maxRows

def numberRow : List (Option String) → List (Option Nat) → Row → Row × List (Option Nat)
  | [], vals, row => (row, vals)
  | name :: names, vals, row =>
    let v : Value :=
      match vals.head?.join with
      | some n => .int n
      | none => .absent
    numberRow names vals.tail (row.store name v)

def numberRows (names : List (Option String)) : Nat → List (Option Nat) → List Row → List Row
  | 0, _, acc => acc.reverse
  | n + 1, vals, acc =>
    let (row, rest) := numberRow names vals []
    numberRows names n rest (row :: acc)

def contentNumbers (content : Bytes) : List (Option Nat) :=
  match Read.variants (Cursor.ofBytes content) with
  | .ok vals _ => vals
  | .error _ _ => []

def rowsOfNumbers (t : Table) (content : Bytes) : List Row :=
  let vals := contentNumbers content
  let count := t.columnCount.getD 0
  if count ≤ vals.length ∧ looksColumnar vals count then
    let rest := vals.drop (findRowStart t vals count)
    let n := if 0 < t.rowCount then t.rowCount else (rest.length : Int).fdiv count
    numberRows t.columnNames n.toNat rest []
  else
    let n :=
      if 0 < t.rowCount ∧ t.rowCount < (vals.length : Int).fdiv count then t.rowCount
      else plainRowCount t vals count
    numberRows t.columnNames n.toNat vals []

/-! ## Content cell by cell -/

def sampleNumbers : Nat → List (Option Nat) → Cursor → List (Option Nat)
  | 0, acc, _ => acc.reverse
  | n + 1, acc, c =>
    match Read.variant c with
    | .ok v c => sampleNumbers n (v :: acc) c
    | .error _ _ => acc.reverse

def beginsColumnar (t : Table) (c : Cursor) : Bool :=
  let count := t.columnCount.getD 0
  let sample := sampleNumbers (min count 10).toNat [] c
  decide (count ≤ sample.length) && looksColumnar sample count

def skipNumbers : Nat → Cursor → Cursor
  | 0, c => c
  | n + 1, c =>
    match Read.variant c with
    | .ok _ c => skipNumbers n c
    | .error _ c => c

/-- Whether a row of numbers begins with an identifier and a number that is no column offset. -/
def isFirstRow (hasId : Bool) (count : Nat) (rest : List (Option Nat)) : Bool :=
  hasId && isIdentifier rest.head?.join && decide (1 < count) &&
    (match (rest.drop 1).head?.join with
      | some n => decide (n < 10000000)
      | none => false)

def skipOffsets (t : Table) (content : Bytes) (c : Cursor) : Cursor :=
  let vals := contentNumbers content
  let count := t.columnCount.getD 0
  let found := (rowStarts vals.length count).find? fun s =>
    isFirstRow (hasIdColumn t) count.toNat (vals.drop s)
  match found with
  | some s => skipNumbers s c
  | none => c

def readCells : Nat → List Column → Row → Cursor → Option Row × Cursor
  | _, [], row, c => (some row, c)
  | i, col :: cols, row, c =>
    match (do Read.atColumn (i + 1); Read.cell col.code : Read Value) c with
    | .error _ c => (none, c)
    | .ok v c => readCells (i + 1) cols (row.store col.name v) c

/-- Rows up to a number of them: they end with the content, with a cell that cannot be read, and,
behind the fourth row of a keyed table, with a missing identifier. -/
def readRows (t : Table) : Nat → List Row → Cursor → List Row
  | 0, acc, _ => acc.reverse
  | n + 1, acc, c =>
    if c.atEnd then acc.reverse
    else
      match readCells 0 t.columns [] c with
      | (none, _) => acc.reverse
      | (some row, c) =>
        let missing := match row.get? (some "Id") with
          | some v => v.isAbsent
          | none => true
        if t.isKeyed && hasIdColumn t && missing && decide (4 ≤ acc.length) then acc.reverse
        else readRows t n (row :: acc) c

def rowsOfCells (t : Table) (data content : Bytes) : List Row :=
  let maxRows := if 0 < t.rowCount ∧ t.rowCount < 1000000 then t.rowCount.toNat else 100000
  let c := { Cursor.ofBytes content with view := some (t.poolView data) }
  let start := if beginsColumnar t c then skipOffsets t content c else c
  readRows t maxRows [] start

/-! ## Files -/

def needsCells (t : Table) : Bool :=
  0 < t.pool.columnSize || t.columns.any fun c =>
    match c.code.bind Kind.ofCode? with
    | some k => k.isCollection || k.isText
    | none => false

structure Loaded where
  table : Table
  notes : List String := []
  fault : Option LoadFault := none

def contentOf (data : Bytes) (t : Table) : Bytes × List String :=
  let stop := t.poolStart
  if stop > data.length then
    (Bytes.slice data t.contentStart data.length,
      ["[WARN] Content end (" ++ Decimal.int stop ++ ") exceeds file size (" ++
        Decimal.nat data.length ++ ")"])
  else (Bytes.slice data t.contentStart stop, [])

def loadContent (data : Bytes) (t : Table) : Loaded :=
  let (content, warned) := contentOf data t
  let (t, notes) := readPool data t
  let rows := if needsCells t then rowsOfCells t data content else rowsOfNumbers t content
  { table := { t with rows := rows }, notes := warned ++ notes }

def textRow : List String → List String → Row → Row
  | name :: names, s :: fields, row => textRow names fields (row.set (some name) (.text s))
  | _, _, row => row

def loadText (data : Bytes) : Loaded :=
  match Delimited.parse? (Utf8.decodeSkipping data) with
  | none => { table := {}, fault := some .brokenLine }
  | some [] => { table := {} }
  | some (names :: lines) =>
    { table :=
      { columnCount := some names.length
        columns := names.map fun n => ⟨some 14, some n⟩
        rows := lines.map fun l => textRow names l []
        rowCount := lines.length } }

def isText (data : Bytes) : Bool :=
  Bytes.startsWith (Bytes.ofString "Name\t") data

def load (data : Bytes) : Loaded :=
  if isText data then loadText data
  else if 100 < data.length ∧ data.take 100 = List.replicate 100 0 then
    { table := {}, fault := some .allZeros }
  else
    match HeaderRead.header (({} : Table), Cursor.ofBytes data) with
    | .error e (t, _) => { table := t, fault := some e }
    | .ok _ (t, _) => loadContent data t

end Salvage.Table
