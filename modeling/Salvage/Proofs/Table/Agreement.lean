import Salvage.Proofs.Table.Cells
import Salvage.Proofs.Table.Rows

/-!
# Two ways of reading numbers

A content without texts and collections is read as one array of numbers, not cell by cell. The array
holds the plain numbers: it knows neither the sign of a number, nor truth values, nor the places of
a fraction, nor the row that ends a table. So the two ways agree on those contents only in which
none of this occurs.
-/

namespace Salvage.Table

open Read

/-! ## Cells -/

def Column.kind? (c : Column) : Option Kind :=
  c.code.bind Kind.ofCode?

def Kind.isSingle : Kind → Bool
  | .bool | .int | .float => true
  | _ => false

def Kind.groupValue (k : Kind) (g : Bytes) : Value :=
  match k with
  | .bool => if g = [1] then .yes else .absent
  | .int => (((groupRead g).map signed).map Value.int).getD .absent
  | .float => (((groupRead g).map signed).map fun i =>
      Value.real (Binary64.ofRatio (decide (i < 0)) i.natAbs 10000)).getD .absent
  | _ => .absent

def numberValue (g : Bytes) : Value :=
  ((groupRead g).map fun n => Value.int n).getD .absent

/-- The greatest number on which the two ways agree: that of 31 bits for whole numbers, and zero for
truth values and numbers in ten-thousandths. -/
def Kind.greatest : Kind → Nat
  | .int => maxInt32
  | _ => 0

variable {c : Cursor} {pre g : Bytes} {cols : List Column} {r : List Bytes} {t : Table}

lemma cellOf_group {k : Kind} (hk : k.isSingle = true)
    (hmark : k = .bool → g.length = 1) {rest : Bytes} (hg : IsGroup rest g)
    (hc : c.Between pre (g ++ rest)) :
    cellOf k c = .ok (k.groupValue g) (c.advance g.length) := by
  have hint : int c = .ok ((groupRead g).map signed) (c.advance g.length) := by
    rw [int, bind_of_ok (variant_group hg hc)]
    rfl
  cases k with
  | bool =>
    obtain ⟨b, rfl⟩ := List.length_eq_one_iff.mp (hmark rfl)
    rw [cellOf, mark, bind_of_ok (octet_cons hc), Kind.groupValue]
    by_cases hb : b = 1
    · rw [hb]
      rfl
    · rw [if_neg (by simpa using hb)]
      refine congrFun (?_ : _ = pure Value.absent) (c.advance 1)
      split
      · next h => exact absurd (Option.some.inj h) hb
      · rfl
  | int =>
    rw [cellOf, intCell, bind_of_ok hint, Kind.groupValue]
    cases (groupRead g).map signed <;> rfl
  | float =>
    rw [cellOf, float, bind_of_ok hint, Kind.groupValue]
    cases (groupRead g).map signed <;> rfl
  | _ => cases hk

lemma numberValue_isZero (g : Bytes) : (numberValue g).isZero = false := by
  rw [numberValue, groupRead, numberRead]
  split_ifs with hn
  · rfl
  · simpa [Value.isZero] using hn

lemma signed_neg {n : Nat} (h : maxInt32 < n) : signed n < 0 := by
  rw [signed, if_pos h]
  omega

/-- **The two ways agree on a cell** exactly for the numbers that have neither sign nor places and
are no truth values. -/
lemma stored_eq_iff_agrees {k : Kind} (hk : k.isSingle = true)
    (hmark : k = .bool → g.length = 1) (name : Option String) :
    Row.stored name (k.groupValue g) = Row.stored name (numberValue g) ↔
      groupNumber g ≤ k.greatest := by
  rw [Row.stored_of_isZero name (numberValue_isZero g)]
  by_cases hn : groupNumber g = 0
  · have hread : groupRead g = none := by rw [groupRead, numberRead, if_pos hn]
    have hvalue : k.groupValue g = .absent := by
      cases k with
      | bool =>
        have hne : g ≠ [1] := by
          rintro rfl
          cases hn
        rw [Kind.groupValue, if_neg hne]
      | int => rw [Kind.groupValue, hread]; rfl
      | float => rw [Kind.groupValue, hread]; rfl
      | _ => cases hk
    rw [hvalue, numberValue, hread, hn]
    exact iff_of_true (Row.stored_of_isZero name rfl) (Nat.zero_le _)
  · have hread : groupRead g = some (groupNumber g) := by rw [groupRead, numberRead, if_neg hn]
    rw [numberValue, hread]
    cases k with
    | bool =>
      refine iff_of_false ?_ (mt Nat.le_zero.mp hn)
      rw [Kind.groupValue]
      split_ifs
      · rw [Row.stored_of_isZero name rfl]
        exact Value.noConfusion
      · rw [Row.stored_of_isZero name rfl]
        exact Value.noConfusion
    | int =>
      have hvalue : Kind.int.groupValue g = .int (signed (groupNumber g)) := by
        rw [Kind.groupValue, hread]
        rfl
      rw [hvalue]
      by_cases hle : groupNumber g ≤ maxInt32
      · have hsigned : signed (groupNumber g) = groupNumber g := by
          rw [signed, if_neg (Nat.not_lt.mpr hle)]
        rw [hsigned]
        exact iff_of_true (Row.stored_of_isZero name (by simpa [Value.isZero] using hn)) hle
      · have hneg := signed_neg (Nat.lt_of_not_le hle)
        have hne : signed (groupNumber g) ≠ 0 := by omega
        rw [Row.stored_of_isZero name (by simpa [Value.isZero] using hne)]
        refine iff_of_false (fun h => ?_) hle
        have hint : signed (groupNumber g) = groupNumber g := Value.int.inj h
        omega
    | float =>
      refine iff_of_false ?_ (mt Nat.le_zero.mp hn)
      rw [Kind.groupValue, hread, Row.stored]
      split_ifs <;> exact Value.noConfusion
    | _ => cases hk

/-! ## Rows -/

def Column.IsSingle (c : Column) : Prop :=
  ∃ k ∈ c.kind?, k.isSingle = true

instance (c : Column) : Decidable c.IsSingle :=
  inferInstanceAs (Decidable (∃ k ∈ c.kind?, k.isSingle = true))

def Column.Takes (c : Column) (g : Bytes) : Prop :=
  c.kind? = some .bool → g.length = 1

instance (c : Column) (g : Bytes) : Decidable (c.Takes g) :=
  inferInstanceAs (Decidable (c.kind? = some .bool → g.length = 1))

def Column.Agrees (c : Column) (g : Bytes) : Prop :=
  ∀ k ∈ c.kind?, groupNumber g ≤ k.greatest

instance (c : Column) (g : Bytes) : Decidable (c.Agrees g) :=
  inferInstanceAs (Decidable (∀ k ∈ c.kind?, groupNumber g ≤ k.greatest))

instance (R : Column → Bytes → Prop) [∀ c g, Decidable (R c g)] (cols : List Column)
    (r : List Bytes) : Decidable (List.Forall₂ R cols r) :=
  decidable_of_iff (cols.length = r.length ∧ ∀ p ∈ cols.zip r, R p.1 p.2) <| by
    rw [List.forall₂_iff_zip]
    exact and_congr_right fun _ => ⟨fun h _ _ hmem => h _ hmem, fun h p hmem => h hmem⟩

def cellRow (cols : List Column) (r : List Bytes) : Row :=
  List.zipWith
    (fun c g => (c.name, Row.stored c.name ((c.kind?.map (·.groupValue g)).getD .absent)))
    cols r

def numberForm (cols : List Column) (r : List Bytes) : Row :=
  List.zipWith (fun c g => (c.name, Row.stored c.name (numberValue g))) cols r

lemma Column.stored_eq_iff {c : Column} (hc : c.IsSingle) (hg : c.Takes g) :
    Row.stored c.name (numberValue g) =
        Row.stored c.name ((c.kind?.map (·.groupValue g)).getD .absent) ↔ c.Agrees g := by
  obtain ⟨k, hk, hsingle⟩ := hc
  have hmark : k = .bool → g.length = 1 := by
    rintro rfl
    exact hg hk
  have hagrees : c.Agrees g ↔ groupNumber g ≤ k.greatest := by
    constructor
    · intro h
      exact h k hk
    · intro h k' hk'
      rwa [Option.mem_unique hk' hk]
  rw [hagrees, hk, Option.map_some, Option.getD_some, eq_comm]
  exact stored_eq_iff_agrees hsingle hmark c.name

lemma numberForm_eq_iff (hcols : ∀ c ∈ cols, c.IsSingle) (hr : List.Forall₂ Column.Takes cols r) :
    numberForm cols r = cellRow cols r ↔ List.Forall₂ Column.Agrees cols r := by
  induction hr with
  | nil => exact iff_of_true rfl .nil
  | @cons c g cols r hg hr ih =>
    have hrest := ih fun d hd => hcols d (List.mem_cons_of_mem _ hd)
    have hcell := Column.stored_eq_iff (hcols c List.mem_cons_self) hg
    rw [List.forall₂_cons, ← hrest, ← hcell, numberForm, cellRow, List.zipWith_cons_cons,
      List.zipWith_cons_cons, List.cons.injEq, Prod.mk.injEq]
    exact ⟨fun h => ⟨h.1.2, h.2⟩, fun h => ⟨⟨rfl, h.1⟩, h.2⟩⟩

lemma Read.atColumn_between {rest : Bytes} (hc : c.Between pre rest)
    (column : Int) : ∃ c', atColumn column c = .ok () c' ∧ c'.Between pre rest := by
  cases hview : c.view with
  | none =>
    refine ⟨c, ?_, hc⟩
    cases c
    cases hview
    rfl
  | some v => exact ⟨_, atColumn_of_view hview column, hc.source_eq, hc.limit_eq, hc.pos_eq⟩

lemma readCells_groups (hcols : ∀ c ∈ cols, c.IsSingle)
    (hr : List.Forall₂ Column.Takes cols r) {rest : List Bytes} (hgroups : AreGroups (r ++ rest))
    (i : Nat) (row : Row) (hnames : (row.map Prod.fst ++ cols.map Column.name).Nodup)
    (hc : c.Between pre (r ++ rest).flatten) :
    ∃ c', readCells i cols row c = (some (row ++ cellRow cols r), c') ∧
      c'.Between (pre ++ r.flatten) rest.flatten := by
  induction hr generalizing i row c pre with
  | nil =>
    refine ⟨c, ?_, ?_⟩
    · rw [cellRow, List.zipWith_nil_left, List.append_nil]
      rfl
    · rw [List.flatten_nil, List.append_nil]
      exact hc
  | @cons col g cols r hg hr ih =>
    obtain ⟨k, hk, hsingle⟩ := hcols col List.mem_cons_self
    obtain ⟨hgroup, hrest⟩ := hgroups
    rw [List.cons_append, List.flatten_cons] at hc
    obtain ⟨c₁, hset, hc₁⟩ := atColumn_between hc (i + 1)
    have hcell : cell col.code = cellOf k := by
      have hcode : col.code.bind Kind.ofCode? = some k := hk
      rw [cell, hcode]
    have hmark : k = .bool → g.length = 1 := by
      rintro rfl
      exact hg hk
    have hread : cell col.code c₁ = .ok (k.groupValue g) (c₁.advance g.length) := by
      rw [hcell, cellOf_group hsingle hmark hgroup hc₁]
    have hrow : cellRow (col :: cols) (g :: r) =
        (col.name, Row.stored col.name (k.groupValue g)) :: cellRow cols r := by
      rw [cellRow, List.zipWith_cons_cons, hk]
      rfl
    obtain ⟨hname, hnames'⟩ := Row.names_cons hnames (Row.stored col.name (k.groupValue g))
    obtain ⟨c', hrun, hbetween⟩ :=
      ih (fun d hd => hcols d (List.mem_cons_of_mem _ hd)) hrest (i + 1) _ hnames' hc₁.advance
    refine ⟨c', ?_, ?_⟩
    · rw [readCells_cons hset hread hname, hrun, hrow, List.append_assoc]
      rfl
    · rw [List.flatten_cons, ← List.append_assoc]
      exact hbetween

lemma numberRow_groups (hr : r.length = cols.length) (rest : List (Option Nat)) (row : Row)
    (hnames : (row.map Prod.fst ++ cols.map Column.name).Nodup) :
    numberRow (cols.map Column.name) (r.map groupRead ++ rest) row =
      (row ++ numberForm cols r, rest) := by
  induction cols generalizing r row with
  | nil =>
    obtain rfl := List.length_eq_zero_iff.mp hr
    rw [numberForm, List.zipWith_nil_left, List.append_nil]
    rfl
  | cons col cols ih =>
    obtain ⟨g, r, rfl⟩ := List.exists_cons_of_length_eq_add_one hr
    have hstep : numberRow ((col :: cols).map Column.name) ((g :: r).map groupRead ++ rest) row =
        numberRow (cols.map Column.name) (r.map groupRead ++ rest)
          (row.store col.name (numberValue g)) := by
      rw [List.map_cons, List.map_cons, List.cons_append, numberRow, numberValue]
      cases groupRead g <;> rfl
    obtain ⟨hname, hnames'⟩ := Row.names_cons hnames (Row.stored col.name (numberValue g))
    rw [hstep, Row.store_of_notMem _ hname, ih (Nat.succ.inj hr) _ hnames', List.append_assoc]
    rfl

/-! ## Contents -/

def numberOffsets (t : Table) (content : Bytes) : Nat :=
  let vals := contentNumbers content
  let count := t.columnCount.getD 0
  if count ≤ vals.length ∧ looksColumnar vals count then findRowStart t vals count else 0

/-- A content of single numbers under different names: its groups fall into as many rows, fewer than
a million, as the header announces, and neither way takes numbers for column offsets. -/
@[mk_iff]
structure NumberContent (t : Table) (content : Bytes) (rows : List (List Bytes)) : Prop where
  columnCount_eq : t.columnCount = some (t.columns.length : Int)
  columns_ne : t.columns ≠ []
  names_nodup : t.columnNames.Nodup
  columns_single : ∀ c ∈ t.columns, c.IsSingle
  groups_eq : groups content = rows.flatten
  rows_fit : ∀ r ∈ rows, List.Forall₂ Column.Takes t.columns r
  rowCount_eq : t.rowCount = rows.length
  rows_lt : rows.length < 1000000
  cellOffsets_eq : cellOffsets t content = 0
  numberOffsets_eq : numberOffsets t content = 0

instance (t : Table) (content : Bytes) (rows : List (List Bytes)) :
    Decidable (NumberContent t content rows) :=
  decidable_of_iff _ (numberContent_iff t content rows).symm

lemma rowsAt_groups (hne : t.columns ≠ []) (hnames : t.columnNames.Nodup)
    (hcols : ∀ c ∈ t.columns, c.IsSingle) {rows : List (List Bytes)}
    (hrows : ∀ r ∈ rows, List.Forall₂ Column.Takes t.columns r) (hgroups : AreGroups rows.flatten)
    (hc : c.Between pre rows.flatten.flatten) : RowsAt t c (rows.map (cellRow t.columns)) := by
  induction rows generalizing c pre with
  | nil => exact .done hc.atEnd_eq
  | cons r rows ih =>
    have hr := hrows r List.mem_cons_self
    rw [List.flatten_cons] at hc hgroups
    have hend : c.atEnd = false := by
      have hlength := Bytes.length_le_length_flatten hgroups.ne_nil
      have hpos := List.length_pos_iff.mpr hne
      rw [hr.length_eq] at hpos
      rw [List.length_append] at hlength
      rw [hc.atEnd_eq, List.isEmpty_eq_false_iff, ← List.length_pos_iff]
      omega
    obtain ⟨c', hcells, hc'⟩ := readCells_groups hcols hr hgroups 0 [] hnames hc
    rw [List.nil_append] at hcells
    exact .row hend hcells
      (ih (fun r' hr' => hrows r' (List.mem_cons_of_mem _ hr')) hgroups.of_append hc')

def blankRow (cols : List Column) : Row :=
  cols.map fun c => (c.name, .absent)

lemma numberRow_nil (cols : List Column) (row : Row)
    (hnames : (row.map Prod.fst ++ cols.map Column.name).Nodup) :
    numberRow (cols.map Column.name) [] row = (row ++ blankRow cols, []) := by
  induction cols generalizing row with
  | nil => simp [blankRow, numberRow]
  | cons col cols ih =>
    have hstep : numberRow ((col :: cols).map Column.name) [] row =
        numberRow (cols.map Column.name) [] (row.store col.name .absent) := rfl
    obtain ⟨hname, hnames'⟩ := Row.names_cons hnames .absent
    rw [hstep, Row.store_of_notMem _ hname, Row.stored_of_isZero col.name rfl, ih _ hnames',
      List.append_assoc]
    rfl

/-- **Rows are cut from the front of the array**, and then rows without numbers from its end. -/
lemma numberRows_groups (hnames : (cols.map Column.name).Nodup)
    {rows : List (List Bytes)} (hrows : ∀ r ∈ rows, r.length = cols.length) (n : Nat)
    (acc : List Row) :
    numberRows (cols.map Column.name) (rows.length + n) (rows.flatten.map groupRead) acc =
      acc.reverse ++ (rows.map (numberForm cols) ++ List.replicate n (blankRow cols)) := by
  induction rows generalizing acc with
  | nil =>
    rw [List.length_nil, Nat.zero_add, List.map_nil, List.nil_append, List.flatten_nil,
      List.map_nil]
    induction n generalizing acc with
    | zero => rw [List.replicate_zero, List.append_nil]; rfl
    | succ n ih =>
      rw [numberRows, numberRow_nil cols [] hnames]
      dsimp only
      rw [ih, List.reverse_cons, List.append_assoc, List.replicate_succ]
      rfl
  | cons r rows ih =>
    have hrow :=
      numberRow_groups (hrows r List.mem_cons_self) (rows.flatten.map groupRead) [] hnames
    rw [List.length_cons, Nat.add_right_comm, numberRows, List.flatten_cons, List.map_append, hrow]
    dsimp only
    rw [ih (fun r' hr' => hrows r' (List.mem_cons_of_mem _ hr')), List.reverse_cons,
      List.append_assoc]
    rfl

/-- So many rows are cut from an array without column offsets that has room for as many as the
header announces. -/
lemma plainRowCount_of_fdiv {vals : List (Option Nat)} {count : Int}
    (h : (vals.length : Int).fdiv count = t.rowCount) :
    plainRowCount t vals count = t.rowCount := by
  rw [plainRowCount, h]
  by_cases hrows : 0 < t.rowCount
  · rw [if_pos ⟨hrows, Int.le_refl _⟩]
  · have hzero : t.rowCount.toNat = 0 := by omega
    rw [if_neg (fun hn => hrows hn.1), hzero, List.range_zero, List.find?_nil]
    split_ifs <;> rfl

/-- **Rows are cut from the array behind its column offsets**, as many as the header announces. -/
lemma rowsOfNumbers_eq_numberRows {content : Bytes} {k : Nat}
    (hk : t.columnCount = some (k : Int)) (hpos : 0 < k)
    (hroom : ((contentNumbers content).length : Int).fdiv k = t.rowCount) :
    rowsOfNumbers t content = numberRows t.columnNames t.rowCount.toNat
      ((contentNumbers content).drop (numberOffsets t content)) [] := by
  rw [rowsOfNumbers, numberOffsets, hk, Option.getD_some]
  by_cases hcolumnar : (k : Int) ≤ (contentNumbers content).length ∧
      looksColumnar (contentNumbers content) k
  · have hrows : 0 < t.rowCount := by
      rw [← hroom, Int.fdiv_eq_ediv_of_nonneg _ (Int.natCast_nonneg k), ← Int.natCast_ediv]
      exact Int.natCast_pos.mpr (Nat.div_pos (Int.ofNat_le.mp hcolumnar.1) hpos)
    dsimp only
    rw [if_pos hcolumnar, if_pos hcolumnar, if_pos hrows]
  · rw [if_neg hcolumnar, if_neg hcolumnar, hroom, plainRowCount_of_fdiv hroom, ite_self,
      List.drop_zero]

namespace NumberContent

variable {t : Table} {content : Bytes} {rows : List (List Bytes)}

lemma length_row (h : NumberContent t content rows) : ∀ r ∈ rows, r.length = t.columns.length :=
  fun r hr => (h.rows_fit r hr).length_eq.symm

lemma length_numbers (h : NumberContent t content rows) :
    (contentNumbers content).length = rows.length * t.columns.length := by
  have hrows := h.length_row
  rw [contentNumbers_eq, List.length_map, h.groups_eq, List.length_flatten,
    List.map_congr_left hrows]
  simp

lemma rowsOfCells_eq_kept (h : NumberContent t content rows) (data : Bytes) :
    rowsOfCells t data content =
      keptFrom (t.isKeyed && hasIdColumn t) 0 (rows.map (cellRow t.columns)) := by
  have hgroups : AreGroups rows.flatten := by
    rw [← h.groups_eq]
    exact areGroups_groups content
  have hc : (contentCursor t data content).Between [] rows.flatten.flatten := by
    rw [← h.groups_eq, flatten_groups]
    exact contentCursor_between t data content
  have hlimit : (rows.map (cellRow t.columns)).length ≤ rowLimit t := by
    have := h.rows_lt
    rw [List.length_map, rowLimit, h.rowCount_eq]
    split_ifs <;> omega
  exact rowsOfCells_eq h.columnCount_eq h.cellOffsets_eq
    (rowsAt_groups h.columns_ne h.names_nodup h.columns_single h.rows_fit hgroups hc) hlimit

lemma fdiv_numbers (h : NumberContent t content rows) :
    ((contentNumbers content).length : Int).fdiv t.columns.length = t.rowCount := by
  have hpos := List.length_pos_iff.mpr h.columns_ne
  rw [h.length_numbers, h.rowCount_eq, Nat.cast_mul]
  exact Int.mul_fdiv_cancel _ (by omega)

lemma rowsOfNumbers_eq_map (h : NumberContent t content rows) :
    rowsOfNumbers t content = rows.map (numberForm t.columns) := by
  have hpos := List.length_pos_iff.mpr h.columns_ne
  have hrows := numberRows_groups h.names_nodup h.length_row 0 []
  rw [rowsOfNumbers_eq_numberRows h.columnCount_eq hpos h.fdiv_numbers, h.numberOffsets_eq,
    List.drop_zero, h.rowCount_eq, Int.toNat_natCast, contentNumbers_eq, h.groups_eq]
  rwa [List.reverse_nil, List.nil_append, List.replicate_zero, List.append_nil] at hrows

end NumberContent

/-- **When the two ways of reading numbers agree.** They read the same rows from a content of single
numbers if and only if no cell needs more than the array knows — no whole number is beyond 31 bits
and no truth value and no number in ten-thousandths is other than zero — and no row behind the
fourth one of a table with a primary key and an identifier column lacks its identifier.

**Proof sketch.** The array gives all rows, the reading cell by cell the first ones up to the one
that is taken for the end. So they are the same only if none is taken for the end, and then the rows
have to agree cell by cell. -/
theorem number_rows_agree_iff {t : Table} {content : Bytes} {rows : List (List Bytes)}
    (h : NumberContent t content rows) (data : Bytes) :
    rowsOfNumbers t content = rowsOfCells t data content ↔
      (∀ r ∈ rows, List.Forall₂ Column.Agrees t.columns r) ∧
        (t.isKeyed = true → hasIdColumn t = true →
          ∀ row ∈ (rows.map (cellRow t.columns)).drop 4, identified row = true) := by
  have hforms : rows.map (numberForm t.columns) = rows.map (cellRow t.columns) ↔
      ∀ r ∈ rows, List.Forall₂ Column.Agrees t.columns r := by
    rw [List.map_inj_left]
    exact forall₂_congr fun r hr => numberForm_eq_iff h.columns_single (h.rows_fit r hr)
  have hkept := keptFrom_eq_self_iff (t.isKeyed && hasIdColumn t) (rows.map (cellRow t.columns))
  rw [Bool.and_eq_true, and_imp] at hkept
  rw [h.rowsOfNumbers_eq_map, h.rowsOfCells_eq_kept, ← hforms, ← hkept]
  constructor
  · intro heq
    have hall : keptFrom (t.isKeyed && hasIdColumn t) 0 (rows.map (cellRow t.columns)) =
        rows.map (cellRow t.columns) := by
      apply (keptFrom_isPrefix _ _).eq_of_length
      rw [← heq, List.length_map, List.length_map]
    exact ⟨heq.trans hall, hall⟩
  · rintro ⟨hforms, hall⟩
    exact hforms.trans hall.symm

/-- Identifiers, truth values and rates, in five rows under a primary key. -/
def tallyTable : Table :=
  { columnCount := some 3
    columns := [⟨some 14, some "Id"⟩, ⟨some 1, some "On"⟩, ⟨some 15, some "Rate"⟩]
    keyed := some true
    rowCount := 5 }

def tallyRows : List (List Bytes) :=
  [[[0xAC, 0x02], [0], [0]], [[2], [0], [0]], [[0], [0], [0]], [[4], [0], [0]],
    [[0xFF, 0xFF, 0xFF, 0xFF, 0x07], [0], [0]]]

/-- Both ways read the tally alike. -/
theorem tally_rows_agree :
    NumberContent tallyTable tallyRows.flatten.flatten tallyRows ∧
      rowsOfNumbers tallyTable tallyRows.flatten.flatten =
        rowsOfCells tallyTable [] tallyRows.flatten.flatten := by
  have hcontent : NumberContent tallyTable tallyRows.flatten.flatten tallyRows := by
    with_unfolding_all decide
  have hcells : ∀ r ∈ tallyRows, List.Forall₂ Column.Agrees tallyTable.columns r := by
    decide
  have hidentified : ∀ row ∈ (tallyRows.map (cellRow tallyTable.columns)).drop 4,
      identified row = true := by
    decide
  exact ⟨hcontent, (number_rows_agree_iff hcontent []).mpr ⟨hcells, fun _ _ => hidentified⟩⟩

def deltaTable : Table :=
  { columnCount := some 3
    columns := [⟨some 14, some "Id"⟩, ⟨some 14, some "Delta"⟩, ⟨some 15, some "Rate"⟩]
    rowCount := 1 }

def deltaRows : List (List Bytes) :=
  [[[1], [0xFF, 0xFF, 0xFF, 0xFF, 0x0F], [0x98, 0x75]]]

/-- The array loses the sign of a number and the places of a fraction. -/
theorem array_loses_sign_and_places :
    NumberContent deltaTable deltaRows.flatten.flatten deltaRows ∧
      (rowsOfNumbers deltaTable deltaRows.flatten.flatten).map (Row.fields deltaTable.columnNames) =
        [["1", "4294967295", "15000"]] ∧
      (rowsOfCells deltaTable [] deltaRows.flatten.flatten).map
          (Row.fields deltaTable.columnNames) =
        [["1", "-1", "1.5"]] ∧
      rowsOfNumbers deltaTable deltaRows.flatten.flatten ≠
        rowsOfCells deltaTable [] deltaRows.flatten.flatten := by
  have hnumbers : (rowsOfNumbers deltaTable deltaRows.flatten.flatten).map
      (Row.fields deltaTable.columnNames) = [["1", "4294967295", "15000"]] := by
    with_unfolding_all decide
  have hcells : (rowsOfCells deltaTable [] deltaRows.flatten.flatten).map
      (Row.fields deltaTable.columnNames) = [["1", "-1", "1.5"]] := by
    with_unfolding_all decide
  refine ⟨by with_unfolding_all decide, hnumbers, hcells, fun h => ?_⟩
  rw [h, hcells] at hnumbers
  exact absurd hnumbers (by decide)

end Salvage.Table
