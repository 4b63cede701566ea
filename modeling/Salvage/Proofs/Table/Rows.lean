import Mathlib.Data.List.TakeWhile
import Salvage.Proofs.Table.Numbers

/-!
# Reading rows

Rows are read from the front of a content, one after the other, until the content ends. Two habits
of the reading stand against this. Numbers at the front that look like column offsets are passed
over. And a table with a primary key and an identifier column ends, behind its fourth row, with the
first row whose identifier is absent.
-/

namespace Salvage.Table

/-! ## Column offsets -/

/-- The numbers at the front of a content that are taken for column offsets, when it is read cell by
cell: if there are at most ten columns and all but one of the first numbers, one for each column,
are large, those before the first row that begins with an identifier and a number that is not large.
-/
def cellOffsets (t : Table) (content : Bytes) : Nat :=
  let vals := contentNumbers content
  let count := t.columnCount.getD 0
  if count ≤ 10 ∧ looksColumnar vals count then
    ((rowStarts vals.length count).find? fun s =>
      isFirstRow (hasIdColumn t) count.toNat (vals.drop s)).getD 0
  else 0

/-- Whether numbers look like column offsets depends on the first ones only, and absent ones do not
count. -/
lemma looksColumnar_take (vals : List (Option Nat)) (n k : Nat) :
    looksColumnar (vals.take n ++ List.replicate k none) n = looksColumnar vals n := by
  have hcount : ((vals.take n ++ List.replicate k none).take n).countP isLarge =
      (vals.take n).countP isLarge := by
    rw [List.take_append, List.countP_append, List.take_take, Nat.min_self]
    simp [isLarge, List.countP_replicate, List.take_replicate]
  rw [looksColumnar, looksColumnar, Bytes.cut_zero, Bytes.cut_zero, hcount]

variable {t : Table} {n : Nat} {c : Cursor} {content : Bytes}

lemma beginsColumnar_eq (hn : t.columnCount = some (n : Int)) (hc : c.Between [] content) :
    beginsColumnar t c = (decide (n ≤ 10) && looksColumnar (contentNumbers content) n) := by
  have hgroups : c.Between [] (groups content).flatten := by
    rwa [flatten_groups]
  rw [beginsColumnar, hn, Option.getD_some,
    sampleNumbers_groups (areGroups_groups content) _ _ hgroups, contentNumbers_eq]
  have hlength (m : Nat) : (((groups content).take m).map groupRead ++
      List.replicate (m - (groups content).length) none).length = m := by
    rw [List.length_append, List.length_map, List.length_take, List.length_replicate]
    omega
  rw [List.reverse_nil, List.nil_append, hlength]
  by_cases hten : n ≤ 10
  · have hmin : (min (n : Int) 10).toNat = n := by omega
    rw [hmin, List.map_take, looksColumnar_take, decide_eq_true hten,
      decide_eq_true (Int.le_refl _)]
  · have hmin : (min (n : Int) 10).toNat = 10 := by omega
    have hmany : ¬ (n : Int) ≤ (10 : Nat) := by omega
    rw [hmin, decide_eq_false hten, decide_eq_false hmany, Bool.false_and, Bool.false_and]

lemma start_eq (hn : t.columnCount = some (n : Int))
    (hoffsets : cellOffsets t content = 0) (hc : c.Between [] content) :
    (if beginsColumnar t c then skipOffsets t content c else c) = c := by
  rw [beginsColumnar_eq hn hc]
  rw [cellOffsets, hn, Option.getD_some] at hoffsets
  split_ifs with hcolumnar
  · rw [Bool.and_eq_true, decide_eq_true_eq] at hcolumnar
    rw [if_pos ⟨by omega, hcolumnar.2⟩] at hoffsets
    rw [skipOffsets, hn, Option.getD_some]
    split
    · next s hfound =>
      rw [hfound, Option.getD_some] at hoffsets
      rw [hoffsets, skipNumbers]
    · rfl
  · rfl

/-! ## The end of a table -/

def identified (row : Row) : Bool :=
  match row.get? (some "Id") with
  | some v => !v.isAbsent
  | none => false

/-- The rows behind `k` others that are kept: if rows can end the table, those behind the fourth one
only up to the first without an identifier. -/
def keptFrom (ends : Bool) (k : Nat) (rows : List Row) : List Row :=
  if ends then rows.take (4 - k) ++ (rows.drop (4 - k)).takeWhile identified else rows

lemma keptFrom_nil (ends : Bool) (k : Nat) : keptFrom ends k [] = [] := by
  cases ends <;> simp [keptFrom]

lemma keptFrom_cons (ends : Bool) (k : Nat) (row : Row) (rows : List Row) :
    keptFrom ends k (row :: rows) =
      if ends && !identified row && decide (4 ≤ k) then []
      else row :: keptFrom ends (k + 1) rows := by
  cases ends with
  | false => simp [keptFrom]
  | true =>
    by_cases hk : 4 ≤ k
    · have hzero : 4 - k = 0 := by omega
      have hzero' : 4 - (k + 1) = 0 := by omega
      cases hrow : identified row <;> simp [keptFrom, hk, hzero, hzero', hrow]
    · have hsucc : 4 - k = 4 - (k + 1) + 1 := by omega
      simp [keptFrom, hk, hsucc]

lemma keptFrom_isPrefix (ends : Bool) (rows : List Row) : keptFrom ends 0 rows <+: rows := by
  cases ends with
  | false => exact List.prefix_refl rows
  | true =>
    conv_rhs => rw [← List.take_append_drop 4 rows]
    exact (List.prefix_append_right_inj _).mpr (List.takeWhile_prefix _)

lemma keptFrom_eq_self_iff (ends : Bool) (rows : List Row) :
    keptFrom ends 0 rows = rows ↔ (ends = true → ∀ row ∈ rows.drop 4, identified row = true) := by
  cases ends with
  | false => simp [keptFrom]
  | true =>
    have hsplit : keptFrom true 0 rows = rows ↔
        rows.take 4 ++ (rows.drop 4).takeWhile identified = rows.take 4 ++ rows.drop 4 := by
      rw [List.take_append_drop]
      rfl
    rw [hsplit, List.append_cancel_left_eq, List.takeWhile_eq_self_iff]
    exact ⟨fun h _ => h, fun h => h rfl⟩

/-! ## Rows -/

inductive RowsAt (t : Table) : Cursor → List Row → Prop
  | done {c : Cursor} (hend : c.atEnd = true) : RowsAt t c []
  | row {c c' : Cursor} {row : Row} {rows : List Row} (hend : c.atEnd = false)
      (hcells : readCells 0 t.columns [] c = (some row, c')) (hrows : RowsAt t c' rows) :
      RowsAt t c (row :: rows)

lemma readRows_succ {c' : Cursor} {row : Row} (hend : c.atEnd = false)
    (hcells : readCells 0 t.columns [] c = (some row, c')) (n : Nat) (acc : List Row) :
    readRows t (n + 1) acc c =
      if t.isKeyed && hasIdColumn t && !identified row && decide (4 ≤ acc.length) then acc.reverse
      else readRows t n (row :: acc) c' := by
  rw [readRows, hend, if_neg Bool.false_ne_true, hcells, identified]
  dsimp only
  cases row.get? (some "Id") with
  | none => rfl
  | some v => rw [Bool.not_not]

lemma readRows_eq {rows : List Row} (h : RowsAt t c rows) (hn : rows.length ≤ n) (acc : List Row) :
    readRows t n acc c =
      acc.reverse ++ keptFrom (t.isKeyed && hasIdColumn t) acc.length rows := by
  induction h generalizing n acc with
  | done hend =>
    rw [keptFrom_nil, List.append_nil]
    cases n with
    | zero => rfl
    | succ n => rw [readRows, if_pos hend]
  | row hend hcells _ ih =>
    obtain ⟨n, rfl⟩ := Nat.exists_eq_add_one.mpr (Nat.lt_of_lt_of_le (Nat.succ_pos _) hn)
    rw [readRows_succ hend hcells, keptFrom_cons, ih (Nat.le_of_succ_le_succ hn)]
    split_ifs
    · rw [List.append_nil]
    · rw [List.reverse_cons, List.append_assoc, List.length_cons, List.singleton_append]

def contentCursor (t : Table) (data content : Bytes) : Cursor :=
  { Cursor.ofBytes content with view := some (t.poolView data) }

lemma contentCursor_between (t : Table) (data content : Bytes) :
    (contentCursor t data content).Between [] content := by
  have h := Cursor.between_ofBytes content
  exact ⟨h.source_eq, h.limit_eq, h.pos_eq⟩

def rowLimit (t : Table) : Nat :=
  if 0 < t.rowCount ∧ t.rowCount < 1000000 then t.rowCount.toNat else 100000

lemma rowsOfCells_eq (hn : t.columnCount = some (n : Int))
    {data : Bytes} (hoffsets : cellOffsets t content = 0) {rows : List Row}
    (hrows : RowsAt t (contentCursor t data content) rows) (hlimit : rows.length ≤ rowLimit t) :
    rowsOfCells t data content = keptFrom (t.isKeyed && hasIdColumn t) 0 rows := by
  let c := contentCursor t data content
  calc rowsOfCells t data content
      = readRows t (rowLimit t) []
          (if beginsColumnar t c then skipOffsets t content c else c) := rfl
    _ = readRows t (rowLimit t) [] c := by
      rw [start_eq hn hoffsets (contentCursor_between t data content)]
    _ = keptFrom (t.isKeyed && hasIdColumn t) 0 rows := readRows_eq hrows hlimit []

end Salvage.Table
