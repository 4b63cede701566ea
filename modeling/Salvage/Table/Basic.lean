import Salvage.Table.Cursor
import Salvage.Table.Delimited

/-! # Binary tables -/

namespace Salvage

structure Table.Column where
  code : Option Int
  name : Option String

/-- A row: cells under column names, in the order of first writing. -/
abbrev Table.Row := List (Option String × Table.Value)

structure Table where
  headerLength : Option Nat := some 0
  columnCount : Option Int := some 0
  columns : List Table.Column := []
  keyed : Option Bool := some false
  primaryKey : Option String := none
  keyLength : Int := 0
  rowIndexLength : Int := 0
  rowCount : Int := 0
  contentLength : Int := 0
  magic : Option Nat := some 0
  pool : Table.Pool := {}
  rows : List Table.Row := []

namespace Table

/-! ## Sections -/

def indexStart (t : Table) : Int :=
  4 + (t.headerLength.getD 0 : Nat)

/-- Whether there is a primary-key block, a missing mark counting as no. -/
def isKeyed (t : Table) : Bool :=
  t.keyed == some true

def contentStart (t : Table) : Int :=
  t.indexStart + (if t.isKeyed then t.keyLength else 0) + t.rowIndexLength

def poolStart (t : Table) : Int :=
  t.contentStart + t.contentLength

def poolContentStart (t : Table) : Int :=
  t.poolStart + t.pool.contentStart

def poolView (t : Table) (data : Bytes) : PoolView :=
  ⟨t.pool, data, t.poolContentStart⟩

/-! ## Columns and rows -/

def columnNames (t : Table) : List (Option String) :=
  t.columns.map (·.name)

def Row.set (name : Option String) (value : Value) : Row → Row
  | [] => [(name, value)]
  | (k, v) :: r => if k = name then (k, value) :: r else (k, v) :: Row.set name value r

def Row.get? (name : Option String) : Row → Option Value
  | [] => none
  | (k, v) :: r => if k = name then some v else Row.get? name r

def isHiddenFlag (name : Option String) : Bool :=
  name == some "IsHiddenMode" || name == some "ShowTips" || name == some "IsHidden"

def Row.store (name : Option String) (value : Value) (row : Row) : Row :=
  row.set name (if isHiddenFlag name && value.isZero then .text "" else value)

def Row.listing (row : Row) : String :=
  Value.listing (.map (row.map fun (k, v) => ((k.map Key.text).getD .absent, v)))

def Row.fields (names : List (Option String)) (row : Row) : List String :=
  names.map fun n => ((row.get? n).map Value.display).getD ""

def toTsv (t : Table) : String :=
  let names := t.columnNames
  Delimited.render (names.map (·.getD "") :: t.rows.map (Row.fields names))

def summary (t : Table) (fileName : String) : String :=
  "BinaryTable('" ++ fileName ++ "', cols=" ++ (t.columnCount.map Decimal.int).getD "None" ++
    ", rows=" ++ Decimal.nat t.rows.length ++ ")"

end Table

end Salvage
