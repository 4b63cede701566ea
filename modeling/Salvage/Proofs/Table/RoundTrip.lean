import Salvage.Proofs.Table.Layout
import Salvage.Proofs.Table.Rows

/-!
# Tables are read back

A table that is written in the layout of table files is read back with its columns and rows, in the
form in which cells are read, as far as the reading keeps its rows.
-/

namespace Salvage.Table

namespace Layout

/-! ## Rows -/

def readForm (l : Layout) : List Row :=
  l.rows.map (Cells.row l.texts 0 l.fields)

lemma rowsAt_rows {t : Table} {fs : List Field} (ht : t.columns = fs.map Field.column)
    (hfs : fs ≠ []) (hnames : (fs.map fun f => some f.name).Nodup)
    {texts : Nat → Option (List String)} {rs : List (Cells fs)} (hrs : ∀ r ∈ rs, r.Fits texts 0 fs)
    {c : Cursor} {pre : Bytes} (hc : c.Between pre (rs.flatMap (Cells.encode texts 0 fs)))
    (hbears : c.Bears texts) : RowsAt t c (rs.map (Cells.row texts 0 fs)) := by
  induction rs generalizing c pre with
  | nil => exact .done hc.atEnd_eq
  | cons r rs ih =>
    rw [List.flatMap_cons] at hc
    have hend : c.atEnd = false := by
      rw [hc.atEnd_eq, List.isEmpty_eq_false_iff]
      exact List.append_ne_nil_of_left_ne_nil (r.encode_ne_nil hfs) _
    obtain ⟨c', hcells, hc', hbears'⟩ :=
      readCells_takes fs r 0 (hrs r List.mem_cons_self) [] hnames hc hbears
    rw [List.nil_append] at hcells
    rw [← ht] at hcells
    exact .row hend hcells (ih (fun r' hr' => hrs r' (List.mem_cons_of_mem _ hr')) hc' hbears')

/-! ## Tables that can be written -/

/-- The tables that can be written: the file is shorter than `2 ^ 31` octets and is not taken for
text, some column holds texts or collections, the primary key is a column, there are fewer than a
million rows, their cells can be written, and the pool is believed. -/
@[mk_iff]
structure Fits (l : Layout) : Prop where
  size_lt : l.encode.length < 2 ^ 31
  not_text : isText l.encode = false
  collects : ∃ f ∈ l.fields, f.kind.isText ∨ f.kind.isCollection
  key_lt : ∀ k ∈ l.key, k.column < l.fields.length
  rows_lt : l.rows.length < 1000000
  cells_fit : ∀ r ∈ l.rows, r.Fits l.texts 0 l.fields
  pool_fits : ∀ p ∈ l.pool, p.Fits

instance (l : Layout) : Decidable l.Fits :=
  decidable_of_iff _ (fits_iff l).symm

def readPool (l : Layout) : Pool :=
  (l.pool.map PoolPlan.pool).getD { columnSize := 0 }

def table (l : Layout) : Table :=
  { l.header with
    pool := l.readPool
    rows := keptFrom (l.header.isKeyed && hasIdColumn l.header) 0 l.readForm }

lemma encode_eq (l : Layout) : l.encode = l.front ++ (l.content ++ l.poolOctets) := by
  simp only [encode, front, List.append_assoc]

variable {l : Layout}

lemma Fits.fields_ne (h : l.Fits) : l.fields ≠ [] := by
  obtain ⟨f, hf, _⟩ := h.collects
  exact List.ne_nil_of_mem hf

lemma Fits.heading_fits (h : l.Fits) : l.heading.Fits := by
  have hsize := h.size_lt
  have hrows := h.rows_lt
  have hfields : l.fields.length ≤ (l.heading.labels.flatMap Label.encode).length := by
    have := l.heading.length_labels_le
    rwa [heading, List.length_map] at this
  have hfront : (l.front ++ l.content).length < 2 ^ 31 := by
    rw [encode_eq, ← List.append_assoc, List.length_append] at hsize
    omega
  refine Heading.fits_of_length ?_ (show l.rows.length < 2 ^ 31 by omega) fun k hk => ?_
  · rwa [front_heading]
  · have hcolumn := h.key_lt k hk
    have hhead : (l.heading.labels.flatMap Label.encode).length ≤ l.heading.head.length := by
      simp only [Heading.head, Heading.headFront, List.length_append]
      omega
    rw [head_heading] at hhead
    simp only [front, List.length_append] at hfront
    omega

/-! ## Sections -/

lemma isKeyed_header (l : Layout) : l.header.isKeyed = l.key.isSome := by
  rw [isKeyed, header]
  cases l.key <;> rfl

lemma poolStart_header (l : Layout) : l.header.poolStart = (l.front ++ l.content).length := by
  rw [← table_heading, Heading.poolStart_table, front_heading]
  rfl

lemma contentOf_encode (l : Layout) : contentOf l.encode l.header = (l.content, []) := by
  rw [encode_eq, ← front_heading, ← table_heading]
  exact l.heading.contentOf_front l.poolOctets

def rowless (l : Layout) : Table :=
  { l.header with pool := l.readPool }

lemma readPool_encode (h : l.Fits) : Table.readPool l.encode l.header = (l.rowless, []) := by
  have hdata : l.encode = (l.front ++ l.content) ++ l.poolOctets := by
    rw [encode_eq, List.append_assoc]
  cases hpool : l.pool with
  | none =>
    have hoctets : l.poolOctets = [] := by rw [poolOctets, hpool]; rfl
    rw [hdata, hoctets, List.append_nil, ← front_heading, ← table_heading, rowless, readPool, hpool,
      ← table_heading]
    exact l.heading.readPool_of_end
  | some p =>
    have hoctets : l.poolOctets = p.encode := by rw [poolOctets, hpool]; rfl
    have hsize := h.size_lt
    rw [hdata, hoctets] at hsize ⊢
    rw [PoolPlan.readPool_encode (h.pool_fits p hpool) hsize (poolStart_header l), rowless,
      readPool, hpool]
    rfl

lemma text?_rowless {p : PoolPlan} (hp : l.pool = some p) {i : Nat} {s : String}
    (hs : p.texts[i]? = some s) :
    l.rowless.pool.text? l.encode l.rowless.poolContentStart i = .found s := by
  have hpool : l.rowless.pool = p.pool := by rw [rowless, readPool, hp]; rfl
  have hdata : l.encode = ((l.front ++ l.content) ++ (Bytes.ofLittleEndian 4 p.head.length ++
      (p.head ++ (p.columnMap ++ p.offsets)))) ++ p.content := by
    simp only [encode_eq, poolOctets, hp, Option.map_some, Option.getD_some, PoolPlan.encode,
      List.append_assoc]
  have hstart : l.rowless.poolContentStart = ((l.front ++ l.content) ++
      (Bytes.ofLittleEndian 4 p.head.length ++ (p.head ++ (p.columnMap ++ p.offsets)))).length := by
    rw [poolContentStart, hpool, show l.rowless.poolStart = l.header.poolStart from rfl,
      poolStart_header]
    simp only [PoolPlan.pool, List.length_append, Bytes.length_ofLittleEndian]
    omega
  rw [hpool, hdata, hstart]
  exact p.text?_pool _ hs

lemma contentCursor_bears (h : l.Fits) :
    (contentCursor l.rowless l.encode l.content).Bears l.texts := by
  refine ⟨_, rfl, fun i => ?_⟩
  cases hp : l.pool with
  | none =>
    have htexts : l.texts i = none := by rw [texts, hp]; rfl
    have hpool : l.rowless.pool = { columnSize := 0 } := by rw [rowless, readPool, hp]; rfl
    rw [htexts]
    change l.rowless.pool.isColumn (i + 1) = false
    rw [hpool]
    simp [Pool.isColumn]
  | some p =>
    have hfits := h.pool_fits p hp
    have hpool : l.rowless.pool = p.pool := by rw [rowless, readPool, hp]; rfl
    have hcolumn : l.rowless.pool.isColumn (i + 1) = decide (i ∈ p.columns) := by
      rw [hpool, PoolPlan.isColumn_pool hfits]
    by_cases hi : i ∈ p.columns
    · have htexts : l.texts i = some p.texts := by rw [texts, hp, Option.bind_some, if_pos hi]
      rw [htexts]
      refine ⟨hcolumn.trans (decide_eq_true hi), _, rfl, fun j s hj => ⟨?_, text?_rowless hp hj⟩⟩
      have hlt : j < p.texts.length := (List.getElem?_eq_some_iff.mp hj).1
      rw [PoolPlan.texts, List.length_map] at hlt
      have := hfits.entries_le
      omega
    · have htexts : l.texts i = none := by rw [texts, hp, Option.bind_some, if_neg hi]
      rw [htexts]
      exact hcolumn.trans (decide_eq_false hi)

lemma needsCells_rowless (h : l.Fits) : needsCells l.rowless = true := by
  obtain ⟨f, hf, hkind⟩ := h.collects
  rw [needsCells, Bool.or_eq_true, List.any_eq_true]
  refine .inr ⟨f.column, List.mem_map_of_mem hf, ?_⟩
  rw [Field.column, Option.bind_some, Kind.ofCode?_code]
  rw [Bool.or_eq_true]
  exact hkind.symm

/-! ## Loading -/

lemma rowsOfCells_rowless (h : l.Fits) (hoffsets : cellOffsets l.header l.content = 0) :
    rowsOfCells l.rowless l.encode l.content = l.table.rows := by
  have hnames : (l.fields.map fun f => some f.name).Nodup := by
    have := l.names_nodup.map (Option.some_injective String)
    rwa [List.map_map] at this
  have hrows : RowsAt l.rowless (contentCursor l.rowless l.encode l.content) l.readForm :=
    rowsAt_rows rfl h.fields_ne hnames h.cells_fit (contentCursor_between _ _ _)
      (contentCursor_bears h)
  have hlimit : l.readForm.length ≤ rowLimit l.rowless := by
    have hcount : l.rowless.rowCount = l.rows.length := rfl
    have := h.rows_lt
    rw [readForm, List.length_map, rowLimit, hcount]
    split_ifs <;> omega
  exact rowsOfCells_eq (t := l.rowless) rfl hoffsets hrows hlimit

/-- **The octets of a table are loaded as this table**, with the rows that are kept.

**Proof sketch.** The header is read back, so the content and the pool are found where they were
written. The pool is read back, so a cursor over the content reads the texts of each column as they
were written, and the rows follow. -/
lemma load_encode (h : l.Fits) (hoffsets : cellOffsets l.header l.content = 0) :
    load l.encode = { table := l.table } := by
  have hload : load l.encode = loadContent l.encode l.header := by
    have htext := h.not_text
    rw [encode_eq, ← front_heading] at htext ⊢
    rw [← table_heading]
    exact Heading.load_eq h.heading_fits (by simpa [heading] using h.fields_ne) htext
  rw [hload]
  rw [loadContent, contentOf_encode, readPool_encode h]
  dsimp only
  rw [if_pos (needsCells_rowless h), rowsOfCells_rowless h hoffsets]
  rfl

/-- **All rows come back if and only if none is taken for the end of the table.** A table in the
layout of table files, no numbers of which are taken for column offsets, is loaded without a fault
and without a note, with its columns and with the rows that are kept; and these are all of its rows,
in the form in which cells are read, exactly if the table has no primary key, or no identifier
column, or each row behind the fourth one has an identifier. -/
theorem rows_return_iff {l : Layout} (h : l.Fits) (hoffsets : cellOffsets l.header l.content = 0) :
    load l.encode = { table := l.table } ∧
      (load l.encode).table.columns = l.fields.map Field.column ∧
      ((load l.encode).table.rows = l.readForm ↔
        (l.key.isSome → "Id" ∈ l.fields.map Field.name →
          ∀ row ∈ l.readForm.drop 4, identified row = true)) := by
  have hid : hasIdColumn l.header = true ↔ "Id" ∈ l.fields.map Field.name := by
    simp [hasIdColumn, columnNames, header, Field.column]
  rw [load_encode h hoffsets]
  refine ⟨rfl, rfl, ?_⟩
  rw [show ({ table := l.table } : Loaded).table.rows = _ from rfl, table, keptFrom_eq_self_iff,
    Bool.and_eq_true, isKeyed_header, hid, and_imp]

end Layout

def idField : Field :=
  ⟨.int, .one .number, rfl, "Id", by decide, by with_unfolding_all decide⟩

def nameField : Field :=
  ⟨.string, .one .text, rfl, "Name", by decide, by with_unfolding_all decide⟩

def scoreField : Field :=
  ⟨.mapStringInt, .map .text .number, rfl, "Scores", by decide, by with_unfolding_all decide⟩

def rosterLayout : Layout where
  fields := [idField, nameField, scoreField]
  names_nodup := by decide
  key := some ⟨0, [7, 7]⟩
  magic := some 0xCAFE
  rowIndex := [1, 2, 3]
  rows := [((1 : Int32), "ada", [("a", (300 : Int32)), ("", (0 : Int32))], ()),
    ((-1 : Int32), "", [], ()), ((0 : Int32), "bob", [], ()), ((0 : Int32), "ada", [], ()),
    ((5 : Int32), "bob", [("é", (-7 : Int32))], ())]
  pool := some
    { columns := [1]
      entries := [⟨"", by with_unfolding_all decide, [], by simp⟩,
        ⟨"ada", by with_unfolding_all decide, [0], by simp⟩,
        ⟨"bob", by with_unfolding_all decide, [], by simp⟩] }

/-- Every row of the roster comes back: the one behind the fourth has an identifier. -/
theorem roster_rows_return :
    rosterLayout.Fits ∧ cellOffsets rosterLayout.header rosterLayout.content = 0 ∧
      (load rosterLayout.encode).table.rows = rosterLayout.readForm := by
  have hfits : rosterLayout.Fits := by with_unfolding_all decide
  have hoffsets : cellOffsets rosterLayout.header rosterLayout.content = 0 := by
    with_unfolding_all decide
  have hidentified : ∀ row ∈ rosterLayout.readForm.drop 4, identified row = true := by
    decide
  exact ⟨hfits, hoffsets,
    (Layout.rows_return_iff hfits hoffsets).2.2.mpr fun _ _ => hidentified⟩

def gapLayout : Layout where
  fields := [idField, nameField]
  names_nodup := by decide
  key := some ⟨0, []⟩
  magic := none
  rowIndex := []
  rows := [((1 : Int32), "a", ()), ((2 : Int32), "a", ()), ((3 : Int32), "a", ()),
    ((4 : Int32), "a", ()), ((0 : Int32), "a", ())]
  pool := none

/-- Where numbers are taken for column offsets, the rows before the data are lost. -/
example :
    let rows := [((5 : Int32), "éé", ()), ((2000000 : Int32), "a", ())]
    let l : Layout := { gapLayout with key := none, rows }
    l.Fits ∧ cellOffsets l.header l.content = 2 ∧ (load l.encode).table.rows.length = 1 := by
  with_unfolding_all decide

/-- The row without an identifier is taken for the end of the table, although the table can be
written and none of its numbers are taken for column offsets. -/
theorem gap_ends_table :
    gapLayout.Fits ∧ cellOffsets gapLayout.header gapLayout.content = 0 ∧
      gapLayout.readForm.length = 5 ∧ (load gapLayout.encode).table.rows.length = 4 := by
  with_unfolding_all decide

end Salvage.Table
