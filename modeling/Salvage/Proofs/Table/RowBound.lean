import Salvage.Proofs.Table.Agreement
import Salvage.Proofs.Table.Moves

/-!
# Rows and octets

Whatever octets a file holds, its rows are bounded by the octets of its content section, with two
exceptions. An array that begins with column offsets has as many rows as the header announces. And
a row of texts does not move over octets without a zero, so that it is read again and again, up to
the number of rows that the header announces.
-/

namespace Salvage.Table

/-! ## Rows -/

/-- The columns from the `i`-th on hold texts that stand in the content. -/
def PlainFrom (pool : Pool) (i : Nat) (cols : List Column) : Prop :=
  ∀ p ∈ cols.zipIdx i, p.1.kind? = some .string ∧ pool.isColumn (p.2 + 1) = false

instance (pool : Pool) (i : Nat) (cols : List Column) : Decidable (PlainFrom pool i cols) :=
  inferInstanceAs (Decidable (∀ p ∈ cols.zipIdx i, _))

lemma plainFrom_cons {pool : Pool} {i : Nat} {col : Column} {cols : List Column} :
    PlainFrom pool i (col :: cols) ↔
      (col.kind? = some .string ∧ pool.isColumn (i + 1) = false) ∧ PlainFrom pool (i + 1) cols := by
  rw [PlainFrom, List.zipIdx_cons, List.forall_mem_cons]
  rfl

section Cells

variable {v : PoolView} {c c' : Cursor} {pre rest : Bytes} {cols : List Column} {i : Nat}
  {row row' : Row}

lemma readCells_of_ok (hview : c.view = some v) {col : Column} {w : Value}
    (hcell : Read.cell col.code { c with pooled := v.pool.isColumn (i + 1) } = .ok w c') :
    readCells i (col :: cols) row c = readCells (i + 1) cols (row.store col.name w) c' := by
  rw [readCells, Read.bind_of_ok (Read.atColumn_of_view hview (i + 1)), hcell]

lemma readCells_of_error (hview : c.view = some v) {col : Column} {e : ReadFault}
    (hcell : Read.cell col.code { c with pooled := v.pool.isColumn (i + 1) } = .error e c') :
    readCells i (col :: cols) row c = (none, c') := by
  rw [readCells, Read.bind_of_ok (Read.atColumn_of_view hview (i + 1)), hcell]

/-- **The cells of a row move the cursor**, unless all columns hold texts that stand in the content
and no zero is before the cursor. -/
lemma readCells_moves (hc : c.Between pre rest) (hview : c.view = some v)
    (hr : readCells i cols row c = (some row', c')) :
    ∃ pre' rest', c'.Between pre' rest' ∧ c'.view = some v ∧ rest' <:+ rest ∧
      (rest ≠ [] → rest'.length < rest.length ∨
        PlainFrom v.pool i cols ∧ (cols ≠ [] → 0 ∉ rest)) := by
  induction cols generalizing i row c pre rest with
  | nil =>
    obtain ⟨-, rfl⟩ := Prod.mk.inj hr
    exact ⟨pre, rest, hc, hview, List.suffix_refl rest,
      fun _ => .inr ⟨fun p hp => absurd hp List.not_mem_nil, fun h => absurd rfl h⟩⟩
  | cons col cols ih =>
    have hset : Cursor.Between { c with pooled := v.pool.isColumn (i + 1) } pre rest :=
      ⟨hc.source_eq, hc.limit_eq, hc.pos_eq⟩
    cases hcell : Read.cell col.code { c with pooled := v.pool.isColumn (i + 1) } with
    | error e d =>
      rw [readCells_of_error hview hcell] at hr
      cases (Prod.mk.inj hr).1
    | ok w d =>
      rw [readCells_of_ok hview hcell] at hr
      obtain ⟨n, hn, rfl, hmove⟩ := Read.cell_moves hset hcell
      obtain ⟨pre', rest', hc', hview', hsuffix, hrest⟩ := ih (hset.advance_take hn) hview hr
      refine ⟨pre', rest', hc', hview', hsuffix.trans (List.drop_suffix n rest), fun hne => ?_⟩
      have hle := hsuffix.length_le
      have hpos := List.length_pos_iff.mpr hne
      rw [List.length_drop] at hle
      obtain hn0 | ⟨hkind, hplain, hzero⟩ := hmove hne
      · exact .inl (by omega)
      · -- this cell may stay only as a plain text; the others decide whether the row does
        by_cases hn0 : n = 0
        · subst hn0
          obtain hlt | ⟨hcols, -⟩ := hrest hne
          · exact .inl hlt
          · exact .inr ⟨plainFrom_cons.mpr ⟨⟨hkind, hplain⟩, hcols⟩, fun _ => hzero⟩
        · exact .inl (by omega)

lemma Row.get?_set (name name' : Option String) (w : Value) (row : Row) :
    Row.get? name' (Row.set name w row) = if name' = name then some w else Row.get? name' row := by
  induction row with
  | nil => rw [Row.set, Row.get?, Row.get?]; exact if_congr eq_comm rfl rfl
  | cons p row ih =>
    obtain ⟨k, u⟩ := p
    by_cases hk : k = name
    · subst hk
      rw [Row.set, if_pos rfl, Row.get?, Row.get?]
      by_cases h : k = name'
      · rw [if_pos h, if_pos h.symm]
      · rw [if_neg h, if_neg (Ne.symm h), if_neg h]
    · rw [Row.set, if_neg hk, Row.get?, Row.get?, ih]
      by_cases h : k = name'
      · rw [if_pos h, if_pos h, if_neg fun he => hk (h.trans he)]
      · rw [if_neg h, if_neg h]

lemma identified_store_absent (name : Option String) (h : identified row = false) :
    identified (row.store name .absent) = false := by
  have hstore : row.store name .absent = row.set name .absent := by
    change row.set name (Row.stored name .absent) = _
    rw [Row.stored_of_isZero name rfl]
  rw [hstore, identified, Row.get?_set]
  by_cases hname : some "Id" = name
  · rw [if_pos hname]
    rfl
  · rw [if_neg hname]
    exact h

/-- **Rows of texts that stand in the content are always read.** They end behind a zero, or where
they began; and without a zero before the cursor all their cells are absent.

**Proof sketch.** Induction on the columns. Without a zero the first text is absent and the cursor
stays, so the same holds for the other columns. Otherwise the cursor goes behind the first zero,
where octets are left unless that zero is the last octet. -/
lemma readCells_plain (row : Row) (hcols : PlainFrom v.pool i cols) (hc : c.Between pre rest)
    (hview : c.view = some v) :
    ∃ row' c' pre' rest', readCells i cols row c = (some row', c') ∧ c'.Between pre' rest' ∧
      c'.view = some v ∧ rest' <:+ rest ∧
      (rest ≠ [] → rest.getLast? ≠ some 0 → rest' ≠ []) ∧
      (cols = [] ∨ 0 ∉ rest →
        rest' = rest ∧ (identified row = false → identified row' = false)) := by
  induction cols generalizing i row c pre rest with
  | nil =>
    exact ⟨row, c, pre, rest, rfl, hc, hview, List.suffix_refl rest, fun hne _ => hne,
      fun _ => ⟨rfl, id⟩⟩
  | cons col cols ih =>
    obtain ⟨⟨hkind, hpool⟩, hcols⟩ := plainFrom_cons.mp hcols
    have hset : Cursor.Between { c with pooled := v.pool.isColumn (i + 1) } pre rest :=
      ⟨hc.source_eq, hc.limit_eq, hc.pos_eq⟩
    have hcell : Read.cell col.code = Read.textCell := by
      have hcode : col.code.bind Kind.ofCode? = some .string := hkind
      rw [Read.cell, hcode]
      rfl
    obtain ⟨hzero, hstay⟩ | ⟨a, b, w, hsplit, hmove⟩ := Read.textCell_plain hset hpool
    · obtain ⟨row', c', pre', rest', hrun, hc', hview', hsuffix, hne, hzeroless⟩ :=
        ih (row.store col.name .absent) hcols hset hview
      refine ⟨row', c', pre', rest', ?_, hc', hview', hsuffix, hne, fun _ => ?_⟩
      · rw [readCells_of_ok hview (by rw [hcell, hstay]), hrun]
      · obtain ⟨hsame, hid⟩ := hzeroless (.inr hzero)
        exact ⟨hsame, fun h => hid (identified_store_absent col.name h)⟩
    · have hbehind : rest.drop (a.length + 1) = b := by
        rw [hsplit, List.append_cons, List.drop_left' (by simp)]
      have hadvance := hset.advance_take (show a.length + 1 ≤ rest.length by rw [hsplit]; simp)
      rw [hbehind] at hadvance
      obtain ⟨row', c', pre', rest', hrun, hc', hview', hsuffix, hne, -⟩ :=
        ih (row.store col.name w) hcols hadvance hview
      refine ⟨row', c', pre', rest', ?_, hc', hview', ?_, fun _ hlast => ?_, fun h => ?_⟩
      · rw [readCells_of_ok hview (by rw [hcell, hmove]), hrun]
      · exact hsuffix.trans (hbehind ▸ List.drop_suffix _ rest)
      · have hb : b ≠ [] := by
          rintro rfl
          exact hlast (by rw [hsplit]; simp)
        refine hne hb ?_
        rwa [hsplit, List.getLast?_append_of_ne_nil _ (List.cons_ne_nil _ _),
          List.getLast?_cons_of_ne_nil hb] at hlast
      · obtain h | h := h
        · cases h
        · exact absurd (by rw [hsplit]; simp) h

end Cells

/-! ## How many rows are read -/

section Count

variable {t : Table} {v : PoolView} (n : Nat) (acc : List Row) {c : Cursor} {pre rest : Bytes}

/-- **Rows read one after the other.** An invariant that every row keeps, and under which there are
at most `m` rows, bounds the rows read. -/
lemma length_readRows_le_of_step {m : Nat} (inv : Nat → List Row → Cursor → Prop)
    (hbound : ∀ n acc c, inv n acc c → acc.length ≤ m)
    (hstep : ∀ n acc c row c', inv (n + 1) acc c → c.atEnd = false →
      readCells 0 t.columns [] c = (some row, c') →
      (t.isKeyed && hasIdColumn t && !identified row && decide (4 ≤ acc.length)) = false →
      inv n (row :: acc) c')
    (h : inv n acc c) : (readRows t n acc c).length ≤ m := by
  have hle := hbound n acc c h
  rw [← List.length_reverse] at hle
  induction n generalizing acc c with
  | zero => exact hle
  | succ n ih =>
    cases hend : c.atEnd with
    | true => rwa [readRows, if_pos hend]
    | false =>
      cases hcells : readCells 0 t.columns [] c with
      | mk o c' =>
        cases o with
        | none => rwa [readRows, hcells, hend]
        | some row =>
          rw [readRows_succ hend hcells]
          cases hstop : t.isKeyed && hasIdColumn t && !identified row &&
              decide (4 ≤ acc.length) with
          | true => exact hle
          | false =>
            have hrow := hstep n acc c row c' h hend hcells hstop
            exact ih _ hrow (List.length_reverse.trans_le (hbound n _ c' hrow))

lemma length_readRows_le_limit (t : Table) (n : Nat) (acc : List Row) (c : Cursor) :
    (readRows t n acc c).length ≤ acc.length + n := by
  refine length_readRows_le_of_step n acc (fun k a _ => a.length + k = acc.length + n) ?_ ?_ rfl
  · intro k a _ h
    omega
  · intro k a _ row _ h _ _ _
    rw [List.length_cons]
    omega

lemma getLast?_of_suffix {rest rest' : Bytes} (h : rest' <:+ rest) (hne : rest' ≠ []) :
    rest'.getLast? = rest.getLast? := by
  obtain ⟨front, rfl⟩ := h
  rw [List.getLast?_append_of_ne_nil _ hne]

/-- The cursor cannot stay before these octets: some column holds something else than texts that
stand in the content, or the octets end with a zero. -/
def Leaves (t : Table) (v : PoolView) (rest : Bytes) : Prop :=
  PlainFrom v.pool 0 t.columns → t.columns ≠ [] ∧ (rest ≠ [] → rest.getLast? = some 0)

lemma length_readRows_le (hc : c.Between pre rest) (hview : c.view = some v)
    (hleaves : Leaves t v rest) : (readRows t n acc c).length ≤ acc.length + rest.length := by
  refine length_readRows_le_of_step n acc (fun _ a c => ∃ pre r, c.Between pre r ∧
    c.view = some v ∧ Leaves t v r ∧ a.length + r.length ≤ acc.length + rest.length) ?_ ?_
    ⟨pre, rest, hc, hview, hleaves, le_rfl⟩
  · rintro _ a c ⟨-, r, -, -, -, hle⟩
    omega
  · rintro _ a c row c' ⟨pre, r, hc, hview, hleaves, hle⟩ hend hcells -
    have hne : r ≠ [] := by
      rwa [hc.atEnd_eq, List.isEmpty_eq_false_iff] at hend
    obtain ⟨pre', r', hc', hview', hsuffix, hmove⟩ := readCells_moves hc hview hcells
    obtain hlt | ⟨hplain, hzero⟩ := hmove hne
    · -- the octets behind the row end as all of them do
      refine ⟨pre', r', hc', hview', fun hplain => ⟨(hleaves hplain).1, fun hne' => ?_⟩, ?_⟩
      · exact (getLast?_of_suffix hsuffix hne').trans ((hleaves hplain).2 hne)
      · rw [List.length_cons]
        omega
    · -- a row that stays has no zero before it, but the last octet is one
      obtain ⟨hcols, hlast⟩ := hleaves hplain
      exact absurd (List.mem_of_getLast? (hlast hne)) (hzero hcols)

/-- A table that ends with a missing identifier has at most four rows more than there are octets
before the cursor. -/
lemma length_readRows_le_max (hc : c.Between pre rest) (hview : c.view = some v)
    (hends : (t.isKeyed && hasIdColumn t) = true) :
    (readRows t n acc c).length ≤ max 4 (acc.length + rest.length) := by
  have hcols : t.columns ≠ [] := by
    intro hnil
    rw [Bool.and_eq_true, hasIdColumn, columnNames, hnil] at hends
    cases hends.2
  -- the rows leave room for the octets, until the cursor stays
  refine length_readRows_le_of_step n acc (fun _ a c => ∃ pre r, c.Between pre r ∧
    c.view = some v ∧ a.length ≤ max 4 (acc.length + rest.length) ∧
      (a.length + r.length ≤ acc.length + rest.length ∨ PlainFrom v.pool 0 t.columns ∧ 0 ∉ r)) ?_ ?_
    ⟨pre, rest, hc, hview, by omega, .inl le_rfl⟩
  · exact fun _ _ _ ⟨_, _, _, _, hle, _⟩ => hle
  · rintro _ a c row c' ⟨pre, r, hc, hview, -, hroom⟩ hend hcells hkept
    obtain ⟨pre', r', hc', hview', -, hmove⟩ := readCells_moves hc hview hcells
    rw [hc.atEnd_eq, List.isEmpty_eq_false_iff] at hend
    by_cases hstays : PlainFrom v.pool 0 t.columns ∧ 0 ∉ r
    · obtain ⟨row₁, c₁, pre₁, r₁, hrun, hc₁, hview₁, -, -, hstill⟩ :=
        readCells_plain [] hstays.1 hc hview
      obtain ⟨hrow, rfl⟩ := Prod.mk.inj (hrun.symm.trans hcells)
      cases hrow
      obtain ⟨rfl, hid⟩ := hstill (.inr hstays.2)
      rw [hends, hid rfl] at hkept
      have hfew : ¬ 4 ≤ a.length := by simpa using hkept
      refine ⟨pre₁, r₁, hc₁, hview₁, ?_, .inr hstays⟩
      rw [List.length_cons]
      omega
    · have hlt := (hmove hend).resolve_right fun h => hstays ⟨h.1, h.2 hcols⟩
      have hle := hroom.resolve_right hstays
      refine ⟨pre', r', hc', hview', ?_, .inl ?_⟩ <;> rw [List.length_cons] <;> omega

/-- **Rows of texts before octets that do not end with a zero never end**, but for a missing
identifier behind the fourth row. -/
lemma le_length_readRows (hc : c.Between pre rest) (hview : c.view = some v)
    (hplain : PlainFrom v.pool 0 t.columns) (hne : rest ≠ [])
    (hlast : t.columns ≠ [] → rest.getLast? ≠ some 0) :
    min 4 (acc.length + n) ≤ (readRows t n acc c).length ∧
      ((t.isKeyed && hasIdColumn t) = false → acc.length + n ≤ (readRows t n acc c).length) := by
  induction n generalizing acc c pre rest with
  | zero =>
    rw [readRows, List.length_reverse]
    omega
  | succ n ih =>
    have hend : c.atEnd = false := by
      rwa [hc.atEnd_eq, List.isEmpty_eq_false_iff]
    obtain ⟨row, c', pre', rest', hrun, hc', hview', hsuffix, hgoes, hstill⟩ :=
      readCells_plain [] hplain hc hview
    have hne' : rest' ≠ [] := by
      by_cases hcols : t.columns = []
      · rwa [(hstill (.inl hcols)).1]
      · exact hgoes hne (hlast hcols)
    have hlast' : t.columns ≠ [] → rest'.getLast? ≠ some 0 := fun hcols => by
      rw [getLast?_of_suffix hsuffix hne']
      exact hlast hcols
    have hrows := ih (row :: acc) hc' hview' hne' hlast'
    rw [List.length_cons] at hrows
    rw [readRows_succ hend hrun]
    split_ifs with hstop
    · simp only [Bool.and_eq_true, decide_eq_true_eq] at hstop
      rw [List.length_reverse, hstop.1.1.1, hstop.1.1.2]
      refine ⟨?_, fun h => by cases h⟩
      omega
    · exact ⟨by omega, fun hends => by have := hrows.2 hends; omega⟩

end Count

/-! ## Arrays of numbers -/

@[simp] lemma length_numberRows (names : List (Option String)) (n : Nat)
    (vals : List (Option Nat)) (acc : List Row) :
    (numberRows names n vals acc).length = acc.length + n := by
  induction n generalizing vals acc with
  | zero => rw [numberRows, List.length_reverse]; rfl
  | succ n ih =>
    rw [numberRows, ih, List.length_cons]
    omega

lemma length_contentNumbers_le (content : Bytes) :
    (contentNumbers content).length ≤ content.length := by
  have hlength := Bytes.length_le_length_flatten (areGroups_groups content).ne_nil
  rwa [flatten_groups, ← List.length_map, ← contentNumbers_eq] at hlength

lemma fdiv_le (n : Nat) (k : Int) : (n : Int).fdiv k ≤ n := by
  rcases Int.le_total 0 k with hk | hk
  · rw [Int.fdiv_eq_ediv_of_nonneg _ hk]
    exact Int.ediv_le_self k (Int.natCast_nonneg n)
  · exact (Int.fdiv_nonpos_of_nonneg_of_nonpos (Int.natCast_nonneg n) hk).trans
      (Int.natCast_nonneg n)

lemma plainRowCount_le (t : Table) (vals : List (Option Nat)) (count : Int) :
    plainRowCount t vals count ≤ vals.length := by
  have hroom := fdiv_le vals.length count
  rw [plainRowCount]
  dsimp only
  split_ifs with hrows
  · exact hrows.2.trans hroom
  · split
    · next j hfound =>
      have hj := List.mem_range.mp (List.mem_of_find?_eq_some hfound)
      omega
    · exact hroom
  · exact hroom

def BeginsWithOffsets (t : Table) (content : Bytes) : Prop :=
  t.columnCount.getD 0 ≤ (contentNumbers content).length ∧
    looksColumnar (contentNumbers content) (t.columnCount.getD 0) = true

instance (t : Table) (content : Bytes) : Decidable (BeginsWithOffsets t content) :=
  inferInstanceAs (Decidable (_ ∧ _))

variable {t : Table} {content : Bytes}

/-- **An array with column offsets has the rows that the header announces**, if it announces any. -/
lemma length_rowsOfNumbers (h : BeginsWithOffsets t content)
    (hrows : 0 < t.rowCount) : (rowsOfNumbers t content).length = t.rowCount.toNat := by
  rw [rowsOfNumbers]
  dsimp only
  rw [if_pos (show _ ∧ _ from h), if_pos hrows, length_numberRows]
  exact Nat.zero_add _

lemma length_rowsOfNumbers_le (h : ¬ (BeginsWithOffsets t content ∧ 0 < t.rowCount)) :
    (rowsOfNumbers t content).length ≤ content.length := by
  have hnumbers := length_contentNumbers_le content
  rw [rowsOfNumbers]
  dsimp only
  by_cases hcolumnar : BeginsWithOffsets t content
  · have hrows : ¬ 0 < t.rowCount := fun hrows => h ⟨hcolumnar, hrows⟩
    rw [if_pos (show _ ∧ _ from hcolumnar), if_neg hrows, length_numberRows]
    have hroom := fdiv_le ((contentNumbers content).drop
      (findRowStart t (contentNumbers content) (t.columnCount.getD 0))).length
      (t.columnCount.getD 0)
    rw [List.length_drop] at hroom ⊢
    rw [List.length_nil]
    omega
  · rw [if_neg (show ¬ (_ ∧ _) from hcolumnar), length_numberRows, List.length_nil]
    have hroom := fdiv_le (contentNumbers content).length (t.columnCount.getD 0)
    have hplain := plainRowCount_le t (contentNumbers content) (t.columnCount.getD 0)
    split_ifs <;> omega

/-- **The rows of an array are bounded by its octets**, unless it begins with column offsets and the
header announces more rows. -/
lemma length_rowsOfNumbers_le_iff (t : Table) (content : Bytes) :
    (rowsOfNumbers t content).length ≤ content.length ↔
      ¬ (BeginsWithOffsets t content ∧ (content.length : Int) < t.rowCount) := by
  constructor
  · rintro hle ⟨hoffsets, hlt⟩
    rw [length_rowsOfNumbers hoffsets (by omega)] at hle
    omega
  · intro h
    by_cases hrows : BeginsWithOffsets t content ∧ 0 < t.rowCount
    · have hfew : ¬ (content.length : Int) < t.rowCount := fun hlt => h ⟨hrows.1, hlt⟩
      rw [length_rowsOfNumbers hrows.1 hrows.2]
      omega
    · exact length_rowsOfNumbers_le hrows

/-! ## Content cell by cell -/

lemma lt_of_mem_rowStarts {n s : Nat} {count : Int} (h : s ∈ rowStarts n count) : s < n := by
  rw [rowStarts] at h
  split_ifs at h with hnone
  · exact absurd h List.not_mem_nil
  · obtain ⟨k, hk, rfl⟩ := List.mem_map.mp h
    have hcount : 0 < count.toNat := by omega
    have hblocks := (Nat.le_div_iff_mul_le hcount).mp (List.mem_range.mp hk)
    rw [Nat.succ_mul] at hblocks
    omega

lemma skipNumbers_groups {gs hs : List Bytes} (hgroups : AreGroups (gs ++ hs)) {c : Cursor}
    {pre : Bytes} (hc : c.Between pre (gs ++ hs).flatten) :
    skipNumbers gs.length c = c.advance gs.flatten.length := by
  induction gs generalizing c pre with
  | nil => exact (Cursor.advance_zero c).symm
  | cons g gs ih =>
    rw [List.cons_append, List.flatten_cons] at hc
    rw [List.length_cons, skipNumbers, Read.variant_group hgroups.1 hc]
    dsimp only
    rw [ih hgroups.2 hc.advance, Cursor.advance_advance, List.flatten_cons, List.length_append]

def rowCursor (t : Table) (data content : Bytes) : Cursor :=
  let c := contentCursor t data content
  if beginsColumnar t c then skipOffsets t content c else c

/-- **The first row stands inside the content**, behind none or some of its numbers. -/
lemma rowCursor_between (t : Table) (data content : Bytes) :
    ∃ pre rest, (rowCursor t data content).Between pre rest ∧
      (rowCursor t data content).view = some (t.poolView data) ∧ rest <:+ content ∧
      (content ≠ [] → rest ≠ []) := by
  have hfront := contentCursor_between t data content
  rw [rowCursor]
  split_ifs
  · rw [skipOffsets]
    split
    · next s hfound =>
      -- the first `s` numbers are passed over, and there are more than `s`
      have hs := lt_of_mem_rowStarts (List.mem_of_find?_eq_some hfound)
      rw [contentNumbers_eq, List.length_map] at hs
      have hsplit := List.take_append_drop s (groups content)
      have hgroups : AreGroups ((groups content).take s ++ (groups content).drop s) := by
        rw [hsplit]
        exact areGroups_groups content
      have hcontent : content =
          ((groups content).take s).flatten ++ ((groups content).drop s).flatten := by
        rw [← List.flatten_append, hsplit, flatten_groups]
      have hc : (contentCursor t data content).Between []
          ((groups content).take s ++ (groups content).drop s).flatten := by
        rwa [List.flatten_append, ← hcontent]
      have hskip := skipNumbers_groups hgroups hc
      rw [List.length_take_of_le hs.le] at hskip
      rw [hskip]
      rw [List.flatten_append] at hc
      refine ⟨_, _, hc.advance, rfl, ⟨_, hcontent.symm⟩, fun _ hnil => ?_⟩
      have hmany := Bytes.length_le_length_flatten hgroups.of_append.ne_nil
      rw [hnil, List.length_drop, List.length_nil] at hmany
      omega
    · exact ⟨[], content, hfront, rfl, List.suffix_refl content, id⟩
  · exact ⟨[], content, hfront, rfl, List.suffix_refl content, id⟩

/-- How many rows are read where the cursor stays: as many as the header announces, or four if a
missing identifier ends the table. -/
def rowBudget (t : Table) : Nat :=
  if t.isKeyed && hasIdColumn t then min 4 (rowLimit t) else rowLimit t

/-- All columns hold texts that stand in the content, and its last text has no zero behind it, so
that it is never passed over. -/
@[mk_iff]
structure EndsOpen (t : Table) (content : Bytes) : Prop where
  plain : PlainFrom t.pool 0 t.columns
  content_ne : content ≠ []
  last_ne : t.columns ≠ [] → content.getLast? ≠ some 0

instance (t : Table) (content : Bytes) : Decidable (EndsOpen t content) :=
  decidable_of_iff _ (endsOpen_iff t content).symm

lemma endsOpen_rows {rows : List Row} :
    EndsOpen { t with rows := rows } content ↔ EndsOpen t content :=
  ⟨fun h => ⟨h.plain, h.content_ne, h.last_ne⟩, fun h => ⟨h.plain, h.content_ne, h.last_ne⟩⟩

/-- **Where the last text has no zero behind it**, the rows are bounded by their budget or by the
octets, whichever is more, and the budget is used up. -/
lemma length_rowsOfCells_of_endsOpen (h : EndsOpen t content) (data : Bytes) :
    rowBudget t ≤ (rowsOfCells t data content).length ∧
      (rowsOfCells t data content).length ≤ max (rowBudget t) content.length := by
  obtain ⟨pre, rest, hc, hview, hsuffix, hne⟩ := rowCursor_between t data content
  change rowBudget t ≤ (readRows t (rowLimit t) [] (rowCursor t data content)).length ∧
    (readRows t (rowLimit t) [] (rowCursor t data content)).length ≤ _
  have hrest := hsuffix.length_le
  have hlast : t.columns ≠ [] → rest.getLast? ≠ some 0 := fun hcols => by
    rw [getLast?_of_suffix hsuffix (hne h.content_ne)]
    exact h.last_ne hcols
  have hlimit := length_readRows_le_limit t (rowLimit t) [] (rowCursor t data content)
  have hlower := le_length_readRows (rowLimit t) [] hc hview h.plain (hne h.content_ne) hlast
  rw [List.length_nil, Nat.zero_add] at hlimit hlower
  rw [rowBudget]
  cases hends : t.isKeyed && hasIdColumn t with
  | true =>
    have hupper := length_readRows_le_max (rowLimit t) [] hc hview hends
    rw [List.length_nil, Nat.zero_add] at hupper
    rw [if_pos rfl]
    omega
  | false =>
    rw [if_neg Bool.false_ne_true]
    exact ⟨hlower.2 hends, hlimit.trans (Nat.le_max_left _ _)⟩

lemma length_rowsOfCells_le (h : ¬ EndsOpen t content)
    (data : Bytes) : (rowsOfCells t data content).length ≤ content.length := by
  obtain ⟨pre, rest, hc, hview, hsuffix, hne⟩ := rowCursor_between t data content
  change (readRows t (rowLimit t) [] (rowCursor t data content)).length ≤ _
  refine le_trans ?_ hsuffix.length_le
  rw [← Nat.zero_add rest.length]
  by_cases hnil : rest = []
  · -- nothing is before the cursor, so that no row is read at all
    subst hnil
    cases rowLimit t with
    | zero => exact Nat.le_refl _
    | succ n =>
      have hend : (rowCursor t data content).atEnd = true := hc.atEnd_eq
      rw [readRows, if_pos hend]
      exact Nat.le_refl _
  · refine length_readRows_le _ [] hc hview fun hplain => ?_
    have hcontent : content ≠ [] := by
      rintro rfl
      exact hnil (List.suffix_nil.mp hsuffix)
    have hclosed : t.columns ≠ [] ∧ content.getLast? = some 0 := by
      by_contra hopen
      exact h ⟨hplain, hcontent, fun hcols hlast => hopen ⟨hcols, hlast⟩⟩
    exact ⟨hclosed.1, fun hrest => (getLast?_of_suffix hsuffix hrest).trans hclosed.2⟩

/-- **The rows read cell by cell are bounded by the octets**, unless the last text has no zero
behind it and the budget is greater. -/
lemma length_rowsOfCells_le_iff (t : Table) (data content : Bytes) :
    (rowsOfCells t data content).length ≤ content.length ↔
      ¬ (EndsOpen t content ∧ content.length < rowBudget t) := by
  by_cases hopen : EndsOpen t content
  · obtain ⟨hlower, hupper⟩ := length_rowsOfCells_of_endsOpen hopen data
    constructor
    · rintro hle ⟨-, hlt⟩
      omega
    · intro h
      have hfew : ¬ content.length < rowBudget t := fun hlt => h ⟨hopen, hlt⟩
      omega
  · exact ⟨fun _ h => hopen h.1, fun _ => length_rowsOfCells_le hopen data⟩

lemma length_rowsOfCells_of_lt (h : EndsOpen t content)
    (data : Bytes) (hlt : content.length < rowBudget t) :
    (rowsOfCells t data content).length = rowBudget t := by
  obtain ⟨hlower, hupper⟩ := length_rowsOfCells_of_endsOpen h data
  omega

/-! ## Files -/

lemma readPool_fst (data : Bytes) (t : Table) :
    ∃ p, (readPool data t).1 = { t with pool := p } := by
  rw [readPool]
  split_ifs
  · exact ⟨_, rfl⟩
  · split
    · exact ⟨_, rfl⟩
    · exact ⟨_, rfl⟩
    · exact ⟨_, rfl⟩
    · rw [readPoolBody]
      dsimp only
      split
      · exact ⟨_, rfl⟩
      · split
        · exact ⟨_, rfl⟩
        · split <;> exact ⟨_, rfl⟩

def contentSection (data : Bytes) : Bytes :=
  (contentOf data (load data).table).1

@[mk_iff]
structure Overcounts (t : Table) (content : Bytes) : Prop where
  array : needsCells t = false
  offsets : BeginsWithOffsets t content
  octets_lt : (content.length : Int) < t.rowCount

instance (t : Table) (content : Bytes) : Decidable (Overcounts t content) :=
  decidable_of_iff _ (overcounts_iff t content).symm

/-- The rows are read cell by cell and never come behind the last text, and more of them are read
than there are octets. -/
@[mk_iff]
structure Stalls (t : Table) (content : Bytes) : Prop where
  cells : needsCells t = true
  endsOpen : EndsOpen t content
  octets_lt : content.length < rowBudget t

instance (t : Table) (content : Bytes) : Decidable (Stalls t content) :=
  decidable_of_iff _ (stalls_iff t content).symm

lemma load_eq_loadContent {data : Bytes} (htext : isText data = false)
    (hfault : (load data).fault = none) : ∃ t, load data = loadContent data t := by
  rw [load, htext, if_neg Bool.false_ne_true] at hfault ⊢
  split_ifs at hfault ⊢
  split at hfault
  · cases hfault
  · exact ⟨_, rfl⟩

lemma table_load {data : Bytes} (htext : isText data = false) (hfault : (load data).fault = none) :
    ∃ t : Table, (load data).table =
      { t with
        rows := if needsCells t then rowsOfCells t data (contentSection data)
          else rowsOfNumbers t (contentSection data) } := by
  obtain ⟨t, hload⟩ := load_eq_loadContent htext hfault
  obtain ⟨p, hpool⟩ := readPool_fst data t
  have htable : (load data).table =
      { (readPool data t).1 with
        rows := if needsCells (readPool data t).1 then
            rowsOfCells (readPool data t).1 data (contentOf data t).1
          else rowsOfNumbers (readPool data t).1 (contentOf data t).1 } := by
    rw [hload]
    rfl
  have hcontent : contentSection data = (contentOf data t).1 := by
    rw [contentSection, htable, hpool]
    rfl
  exact ⟨(readPool data t).1, by rw [htable, hcontent]⟩

/-- **When the rows are bounded by the octets.** A file that is loaded has at most as many rows as
its content section has octets, unless the header announces more rows to an array behind column
offsets, or the last text of a table of texts has no zero behind it. In the first case the table has
the rows that the header announces, in the second as many as are read at most.

**Proof sketch.** An array is bounded by its numbers, and each of them has an octet, unless the
header gives the number of rows. Cell by cell, a row that moves the cursor uses up an octet; a row
that does not move it has texts only, with no zero before the cursor, and is read again up to the
limit. -/
theorem rows_le_octets_iff (data : Bytes) (htext : isText data = false)
    (hfault : (load data).fault = none) :
    ((load data).table.rows.length ≤ (contentSection data).length ↔
      ¬ Overcounts (load data).table (contentSection data) ∧
        ¬ Stalls (load data).table (contentSection data)) ∧
    (Overcounts (load data).table (contentSection data) →
      (load data).table.rows.length = (load data).table.rowCount.toNat) ∧
    (Stalls (load data).table (contentSection data) →
      (load data).table.rows.length = rowBudget (load data).table) := by
  obtain ⟨t, htable⟩ := table_load htext hfault
  generalize contentSection data = content at htable ⊢
  rw [htable]
  cases hcells : needsCells t with
  | false =>
    rw [if_neg Bool.false_ne_true]
    have hstalls : ∀ rows, ¬ Stalls { t with rows := rows } content := fun _ h =>
      Bool.false_ne_true (hcells.symm.trans h.cells)
    refine ⟨(length_rowsOfNumbers_le_iff t content).trans ⟨fun h => ⟨?_, hstalls _⟩, ?_⟩, ?_, ?_⟩
    · exact fun hover => h ⟨hover.offsets, hover.octets_lt⟩
    · exact fun h hover => h.1 ⟨hcells, hover.1, hover.2⟩
    · exact fun hover => length_rowsOfNumbers hover.offsets
        (Int.lt_of_le_of_lt (Int.natCast_nonneg _) hover.octets_lt)
    · exact fun h => absurd h (hstalls _)
  | true =>
    rw [if_pos rfl]
    have hover : ∀ rows, ¬ Overcounts { t with rows := rows } content := fun _ h =>
      Bool.false_ne_true (h.array.symm.trans hcells)
    refine ⟨(length_rowsOfCells_le_iff t data content).trans ⟨fun h => ⟨hover _, ?_⟩, ?_⟩, ?_, ?_⟩
    · exact fun hstalls => h ⟨endsOpen_rows.mp hstalls.endsOpen, hstalls.octets_lt⟩
    · exact fun h hstalls => h.2 ⟨hcells, endsOpen_rows.mpr hstalls.1, hstalls.2⟩
    · exact fun h => absurd h (hover _)
    · exact fun hstalls =>
        length_rowsOfCells_of_lt (endsOpen_rows.mp hstalls.endsOpen) data hstalls.octets_lt

def openNotes : Bytes :=
  [8, 0, 0, 0, 1, 2, 65, 0, 0, 0, 5, 2, 72, 105]

/-- Two octets are read as five rows. -/
theorem openNotes_rows_outnumber_octets :
    isText openNotes = false ∧ (load openNotes).fault = none ∧
      contentSection openNotes = [72, 105] ∧ (load openNotes).table.rows.length = 5 := by
  have htext : isText openNotes = false := by with_unfolding_all decide
  have hfault : (load openNotes).fault = none := by with_unfolding_all decide
  have hstalls : Stalls (load openNotes).table (contentSection openNotes) := by
    with_unfolding_all decide
  have hbudget : rowBudget (load openNotes).table = 5 := by with_unfolding_all decide
  exact ⟨htext, hfault, by with_unfolding_all decide,
    ((rows_le_octets_iff openNotes htext hfault).2.2 hstalls).trans hbudget⟩

/-- A table of one number whose header announces five rows. -/
def shortTally : Bytes :=
  [8, 0, 0, 0, 1, 14, 65, 0, 0, 0, 5, 1, 7]

/-- **More rows than octets.** A single octet is read as five rows, the last four of them empty. -/
theorem shortTally_rows_outnumber_octets :
    isText shortTally = false ∧ (load shortTally).fault = none ∧
      contentSection shortTally = [7] ∧
      (load shortTally).table.rows.map (Row.fields [some "A"]) = [["7"], [""], [""], [""], [""]] ∧
      ¬ (load shortTally).table.rows.length ≤ (contentSection shortTally).length := by
  with_unfolding_all decide

end Salvage.Table
