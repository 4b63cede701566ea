import Salvage.Proofs.Table.Agreement
import Salvage.Proofs.Table.Layout

/-!
# Tables of whole numbers

A table all columns of which hold whole numbers is read as one array of numbers. The array is looked
at before it is cut into rows: if all but one of the numbers of the first row are large, they are
taken for column offsets, and the data are taken to begin with the first of ten rows that all begin
with an identifier. If that is not the first row, the rows before it are lost, and as many rows
without numbers come behind the last one.
-/

namespace Salvage.Table

/-! ## Arrays of rows -/

lemma isIdentifier_numberRead (v : Nat) :
    isIdentifier (numberRead v) = true ↔ 1000000 ≤ v ∧ v ≤ 4000000000 := by
  rw [numberRead]
  split_ifs with hv
  · simp [isIdentifier, hv]
  · simp [isIdentifier]

lemma isLarge_numberRead (v : Nat) : isLarge (numberRead v) = decide (10000000 ≤ v) := by
  rw [numberRead]
  split_ifs with hv
  · simp [isLarge, hv]
  · rfl

section Rows

variable {rows : List (List Nat)} {k : Nat} (hrows : ∀ r ∈ rows, r.length = k)

include hrows

lemma length_flatten_rows : rows.flatten.length = rows.length * k := by
  rw [List.length_flatten, List.map_congr_left hrows]
  simp

lemma drop_flatten_rows (j : Nat) : rows.flatten.drop (j * k) = (rows.drop j).flatten := by
  induction j generalizing rows with
  | zero => rw [Nat.zero_mul, List.drop_zero, List.drop_zero]
  | succ j ih =>
    cases rows with
    | nil => simp
    | cons r rows =>
      have hr : r.length = k := hrows r List.mem_cons_self
      rw [List.flatten_cons, Nat.succ_mul, Nat.add_comm, ← List.drop_drop, List.drop_left' hr,
        ih fun r' hr' => hrows r' (List.mem_cons_of_mem _ hr'), List.drop_succ_cons]

variable (hk : 0 < k)

include hk

lemma head?_flatten_rows (hne : rows ≠ []) :
    (rows.flatten.map numberRead).head?.join = numberRead ((rows.headD []).headD 0) := by
  obtain ⟨r, rest, rfl⟩ := List.exists_cons_of_ne_nil hne
  have hr : r.length = k := hrows r List.mem_cons_self
  obtain ⟨v, r, rfl⟩ := List.exists_cons_of_length_pos (hr ▸ hk)
  simp

lemma streak_flatten_cons {r : List Nat} (hr : r.length = k) (m : Nat) :
    streak k (m + 1) ((r :: rows).flatten.map numberRead) =
      if isIdentifier (numberRead (r.headD 0)) then streak k m (rows.flatten.map numberRead) + 1
      else 0 := by
  have hall : ∀ r' ∈ r :: rows, r'.length = k := by
    intro r' hr'
    obtain rfl | hmem := List.mem_cons.mp hr'
    · exact hr
    · exact hrows r' hmem
  have hlong : ¬ ((r :: rows).flatten.map numberRead).length < k := by
    rw [List.flatten_cons, List.length_map, List.length_append]
    omega
  have hrest : ((r :: rows).flatten.map numberRead).drop k = rows.flatten.map numberRead := by
    rw [List.flatten_cons, List.map_append, List.drop_left' (by rw [List.length_map, hr])]
  rw [streak, if_neg hlong, head?_flatten_rows hall hk (List.cons_ne_nil _ _), hrest]
  rfl

lemma le_streak_iff (m : Nat) :
    m ≤ streak k m (rows.flatten.map numberRead) ↔
      m ≤ rows.length ∧ ∀ r ∈ rows.take m, isIdentifier (numberRead (r.headD 0)) = true := by
  induction m generalizing rows with
  | zero => simp
  | succ m ih =>
    cases rows with
    | nil =>
      have hnone : streak k (m + 1) (([] : List (List Nat)).flatten.map numberRead) = 0 := by
        rw [streak]
        exact if_pos hk
      rw [hnone]
      simp
    | cons r rows =>
      have hrest : ∀ r' ∈ rows, r'.length = k := fun r' hr' => hrows r' (List.mem_cons_of_mem _ hr')
      rw [streak_flatten_cons hrest hk (hrows r List.mem_cons_self), List.take_succ_cons,
        List.forall_mem_cons, List.length_cons]
      split_ifs with hfirst
      · rw [Nat.succ_le_succ_iff, Nat.succ_le_succ_iff, ih hrest]
        simp only [hfirst, true_and]
      · exact iff_of_false (Nat.not_succ_le_zero m) fun h => hfirst h.2.1

omit hrows hk in
lemma streak_le (m : Nat) (vals : List (Option Nat)) : streak k m vals ≤ m := by
  induction m generalizing vals with
  | zero => rfl
  | succ m ih =>
    rw [streak]
    split_ifs
    · exact Nat.zero_le _
    · exact Nat.succ_le_succ (ih _)
    · exact Nat.zero_le _

end Rows

/-- The data may begin with the first of some rows: it is the first of ten rows that begin with an
identifier, and under an identifier column its second number is not large. -/
def BeginsData (hasId : Bool) (rows : List (List Nat)) : Prop :=
  10 ≤ rows.length ∧ (∀ r ∈ rows.take 10, 1000000 ≤ r.headD 0) ∧
    (hasId = true → ∀ v ∈ (rows.headD [])[1]?, v < 10000000)

instance (hasId : Bool) (rows : List (List Nat)) : Decidable (BeginsData hasId rows) :=
  inferInstanceAs (Decidable (_ ∧ _ ∧ _))

structure AreRows (k : Nat) (rows : List (List Nat)) : Prop where
  length_eq : ∀ r ∈ rows, r.length = k
  lt : ∀ r ∈ rows, ∀ v ∈ r, v < 2 ^ 31

namespace AreRows

variable {k : Nat} {rows : List (List Nat)}

lemma drop (h : AreRows k rows) (j : Nat) : AreRows k (rows.drop j) :=
  ⟨fun r hr => h.length_eq r (List.mem_of_mem_drop hr),
    fun r hr => h.lt r (List.mem_of_mem_drop hr)⟩

lemma isIdentifier_iff (h : AreRows k rows) {r : List Nat} (hr : r ∈ rows) :
    isIdentifier (numberRead (r.headD 0)) = true ↔ 1000000 ≤ r.headD 0 := by
  have hlt : r.headD 0 < 2 ^ 31 := by
    cases r with
    | nil => exact Nat.two_pow_pos 31
    | cons v r => exact h.lt _ hr v List.mem_cons_self
  rw [isIdentifier_numberRead]
  omega

lemma second_eq (h : AreRows k rows) (hne : rows ≠ []) :
    (if k > 1 then ((rows.flatten.map numberRead).drop 1).head?.join else none) =
      ((rows.headD [])[1]?).bind numberRead := by
  obtain ⟨r, rest, rfl⟩ := List.exists_cons_of_ne_nil hne
  have hr : r.length = k := h.length_eq r List.mem_cons_self
  rw [List.headD_cons]
  split_ifs with hk
  · obtain ⟨v, r, rfl⟩ := List.exists_cons_of_length_pos (show 0 < r.length by omega)
    rw [List.length_cons] at hr
    obtain ⟨w, r, rfl⟩ := List.exists_cons_of_length_pos (show 0 < r.length by omega)
    simp
  · rw [List.getElem?_eq_none (by omega), Option.bind_none]

lemma startsRows_iff (h : AreRows k rows) (hk : 0 < k) (hasId : Bool) :
    startsRows hasId k (rows.flatten.map numberRead) = true ↔ BeginsData hasId rows := by
  have hroom : (rows.flatten.map numberRead).length / k = rows.length := by
    rw [List.length_map, length_flatten_rows h.length_eq, Nat.mul_div_cancel _ hk]
  have hstreak : 10 ≤ streak k (min 10 ((rows.flatten.map numberRead).length / k))
      (rows.flatten.map numberRead) ↔
        10 ≤ rows.length ∧ ∀ r ∈ rows.take 10, 1000000 ≤ r.headD 0 := by
    rw [hroom]
    by_cases hten : 10 ≤ rows.length
    · rw [Nat.min_eq_left hten, le_streak_iff h.length_eq hk]
      refine and_congr_right fun _ => forall₂_congr fun r hr => ?_
      exact h.isIdentifier_iff (List.mem_of_mem_take hr)
    · refine iff_of_false (fun hle => ?_) fun hle => hten hle.1
      have := streak_le (k := k) (min 10 rows.length) (rows.flatten.map numberRead)
      omega
  rw [startsRows, Bool.and_eq_true, decide_eq_true_eq, hstreak, BeginsData, and_comm, and_assoc]
  refine and_congr_right fun hten => and_congr_right fun hleads => ?_
  -- the first row begins with an identifier already, so only its second number can be a misfit
  have hne : rows ≠ [] := List.ne_nil_of_length_pos (by omega)
  obtain ⟨r, rest, rfl⟩ := List.exists_cons_of_ne_nil hne
  have hfirst : isIdentifier (numberRead (r.headD 0)) = true :=
    (h.isIdentifier_iff List.mem_cons_self).mpr (hleads r List.mem_cons_self)
  have hpresent : (numberRead (r.headD 0)).isSome = true := by
    cases hread : numberRead (r.headD 0) with
    | none => rw [hread] at hfirst; cases hfirst
    | some v => rfl
  rw [head?_flatten_rows h.length_eq hk hne, h.second_eq hne, List.headD_cons, hfirst, hpresent,
    Bool.and_true, Bool.not_true, Bool.false_or]
  change (!(hasId && isLarge (r[1]?.bind numberRead))) = true ↔ _
  cases hasId with
  | false => simp
  | true =>
    cases hsecond : r[1]? with
    | none => simp [isLarge]
    | some v => simp [isLarge_numberRead]

/-! ## Where the data begin -/

/-- The rows with which the data are allowed to begin: each but the last, as long as it is near the
front. -/
lemma rowStarts_eq (n : Nat) (hk : 0 < k) :
    ∃ m, rowStarts (n * k) k = (List.range m).map (· * k) ∧
      ∀ j, j < m ↔ j * k < 10000 ∧ j + 1 < n := by
  rw [rowStarts]
  have hlast (j : Nat) : j * k + k < n * k ↔ j + 1 < n := by
    rw [← Nat.succ_mul]
    exact Nat.mul_lt_mul_right hk
  by_cases hstop : (k : Int) ≤ 0 ∨ min 10000 (((n * k : Nat) : Int) - k) ≤ 0
  · refine ⟨0, if_pos hstop, fun j => iff_of_false (Nat.not_lt_zero j) fun h => ?_⟩
    have := (hlast j).mpr h.2
    omega
  · refine ⟨_, if_neg hstop, fun j => ?_⟩
    rw [← hlast, Int.toNat_natCast, ← Nat.succ_le_iff, Nat.le_div_iff_mul_le hk, Nat.succ_mul]
    omega

lemma findRowStart_eq_find? (h : AreRows k rows) (hk : 0 < k) (t : Table) :
    ∃ m, (∀ j, j < m ↔ j * k < 10000 ∧ j + 1 < rows.length) ∧
      findRowStart t (rows.flatten.map numberRead) k =
        (((List.range m).find? fun j =>
          decide (BeginsData (hasIdColumn t) (rows.drop j))).map (· * k)).getD 0 := by
  obtain ⟨m, hstarts, hm⟩ := rowStarts_eq rows.length hk
  refine ⟨m, hm, ?_⟩
  have hbegins (j : Nat) : startsRows (hasIdColumn t) k
      ((rows.flatten.map numberRead).drop (j * k)) =
        decide (BeginsData (hasIdColumn t) (rows.drop j)) := by
    rw [← List.map_drop, drop_flatten_rows h.length_eq, Bool.eq_iff_iff, decide_eq_true_eq]
    exact (h.drop j).startsRows_iff hk _
  rw [findRowStart, List.length_map, length_flatten_rows h.length_eq, hstarts, List.find?_map,
    Int.toNat_natCast]
  simp only [Function.comp_def, hbegins]

lemma findRowStart_eq (h : AreRows k rows) (hk : 0 < k) (t : Table) {j : Nat}
    (hnear : j * k < 10000) (hbegins : BeginsData (hasIdColumn t) (rows.drop j))
    (hfirst : ∀ i < j, ¬ BeginsData (hasIdColumn t) (rows.drop i)) :
    findRowStart t (rows.flatten.map numberRead) k = j * k := by
  obtain ⟨m, hm, hfind⟩ := h.findRowStart_eq_find? hk t
  have hj : j < m := by
    have hten := hbegins.1
    rw [List.length_drop] at hten
    exact (hm j).mpr ⟨hnear, by omega⟩
  have hfound : ((List.range m).find? fun j =>
      decide (BeginsData (hasIdColumn t) (rows.drop j))) = some j := by
    rw [List.find?_range_eq_some]
    refine ⟨decide_eq_true hbegins, List.mem_range.mpr hj, fun i hi => ?_⟩
    rw [decide_eq_false (hfirst i hi)]
    rfl
  rw [hfind, hfound]
  rfl

lemma findRowStart_eq_zero (h : AreRows k rows) (hk : 0 < k) (t : Table)
    (hnone : ∀ j, j * k < 10000 → ¬ BeginsData (hasIdColumn t) (rows.drop j)) :
    findRowStart t (rows.flatten.map numberRead) k = 0 := by
  obtain ⟨m, hm, hfind⟩ := h.findRowStart_eq_find? hk t
  have hfound : ((List.range m).find? fun j =>
      decide (BeginsData (hasIdColumn t) (rows.drop j))) = none := by
    rw [List.find?_eq_none]
    intro j hj
    rw [decide_eq_true_eq]
    exact hnone j ((hm j).mp (List.mem_range.mp hj)).1
  rw [hfind, hfound]
  rfl

lemma looksColumnar_iff (h : AreRows k rows) (hne : rows ≠ []) :
    looksColumnar (rows.flatten.map numberRead) k = true ↔
      k ≤ (rows.headD []).countP (fun v => decide (10000000 ≤ v)) + 1 := by
  obtain ⟨r, rest, rfl⟩ := List.exists_cons_of_ne_nil hne
  have hr : r.length = k := h.length_eq r List.mem_cons_self
  have hfirst : ((r :: rest).flatten.map numberRead).take k = r.map numberRead := by
    rw [List.flatten_cons, List.map_append, List.take_left' (by rw [List.length_map, hr])]
  have hcount : (r.map numberRead).countP isLarge = r.countP fun v => decide (10000000 ≤ v) := by
    rw [List.countP_map]
    exact List.countP_congr fun v _ => by rw [Function.comp, isLarge_numberRead]
  rw [looksColumnar, Bytes.cut_zero, hfirst, hcount, decide_eq_true_eq, List.headD_cons]
  omega

end AreRows

/-! ## Sheets -/

structure Sheet where
  names : List String
  names_nodup : names.Nodup
  names_plain : ∀ n ∈ names, 0 ∉ Bytes.ofString n
  key : Option KeyBlock
  magic : Option UInt32
  rowIndex : Bytes
  rows : List (List Nat)
  areRows : AreRows names.length rows

namespace Sheet

variable (s : Sheet)

def content : Bytes :=
  (s.rows.flatten.map encodeNumber).flatten

def heading : Heading where
  labels := s.names.attach.map fun n => ⟨14, by decide, by decide, n.1, s.names_plain n.1 n.2⟩
  key := s.key
  magic := s.magic
  rowIndex := s.rowIndex
  rowCount := s.rows.length
  content := s.content

def encode : Bytes :=
  s.heading.front ++ s.content

def rowForm (r : List Nat) : Row :=
  List.zipWith (fun n (v : Nat) => (textRead none n, if v = 0 then .absent else .int v)) s.names r

def readForm : List Row :=
  s.rows.map s.rowForm

def blank : Row :=
  s.names.map fun n => (textRead none n, .absent)

/-- The tables that can be written: the file is shorter than `2 ^ 31` octets and is not taken for
text, and the place of the key is a number of 31 bits. -/
@[mk_iff]
structure Fits : Prop where
  size_lt : s.encode.length < 2 ^ 31
  not_text : isText s.encode = false
  key_lt : ∀ k ∈ s.key, k.column < 2 ^ 31

instance : Decidable s.Fits :=
  decidable_of_iff _ (fits_iff s).symm

/-- The data are taken to begin with the `j`-th row: all but one of the numbers of the first row are
large, and the `j`-th row, near the front, is the first one with which data may begin. -/
@[mk_iff]
structure StartsAt (j : Nat) : Prop where
  columnar : s.names.length ≤ (s.rows.headD []).countP (fun v => decide (10000000 ≤ v)) + 1
  near : j * s.names.length < 10000
  begins : BeginsData (decide ("Id" ∈ s.names)) (s.rows.drop j)
  first : ∀ i < j, ¬ BeginsData (decide ("Id" ∈ s.names)) (s.rows.drop i)

instance (j : Nat) : Decidable (s.StartsAt j) :=
  decidable_of_iff _ (startsAt_iff s j).symm

/-! ## Sections -/

lemma columns_heading :
    s.heading.table.columns = s.names.map fun n => ⟨some 14, textRead none n⟩ := by
  change (s.names.attach.map _).map Label.column = _
  rw [List.map_map]
  exact List.attach_map_val (f := fun n => (⟨some 14, textRead none n⟩ : Column))

lemma length_labels : s.heading.labels.length = s.names.length := by
  change (s.names.attach.map _).length = _
  rw [List.length_map, List.length_attach]

def rowless : Table :=
  { s.heading.table with pool := { columnSize := 0 } }

lemma columnCount_rowless : s.rowless.columnCount = some (s.names.length : Int) := by
  rw [← length_labels]
  rfl

lemma names_rowless : (s.rowless.columns.map Column.name).Nodup := by
  have hnames : s.rowless.columns.map Column.name = s.names.map (textRead none) := by
    change s.heading.table.columns.map Column.name = _
    rw [columns_heading, List.map_map]
    rfl
  rw [hnames]
  exact s.names_nodup.map (textRead_injective none)

lemma hasIdColumn_rowless : hasIdColumn s.rowless = decide ("Id" ∈ s.names) := by
  have hread (n : String) : textRead none n = some "Id" ↔ n = "Id" := by
    rw [textRead]
    split_ifs with hn
    · simp [hn]
    · exact Option.some_inj
  change (s.heading.table.columns.map Column.name).contains (some "Id") = _
  rw [columns_heading, List.map_map, Bool.eq_iff_iff, List.contains_iff_mem, List.mem_map,
    decide_eq_true_eq]
  constructor
  · rintro ⟨n, hn, hid⟩
    rwa [(hread n).mp hid] at hn
  · exact fun hn => ⟨"Id", hn, rfl⟩

lemma needsCells_rowless : needsCells s.rowless = false := by
  rw [needsCells, Bool.or_eq_false_iff]
  refine ⟨rfl, ?_⟩
  change s.heading.table.columns.any _ = false
  rw [columns_heading, List.any_map]
  exact List.any_eq_false.mpr fun _ _ => Bool.false_ne_true

lemma contentNumbers_content : contentNumbers s.content = s.rows.flatten.map numberRead := by
  have hgroups (ns : List Nat) : AreGroups (ns.map encodeNumber) := by
    induction ns with
    | nil => trivial
    | cons n ns ih => exact ⟨(encodeNumber_isGroup n _).1, ih⟩
  rw [content, contentNumbers_flatten (hgroups _), List.map_map]
  exact List.map_congr_left fun n _ => congrArg numberRead (encodeNumber_isGroup n []).2

variable {s}

lemma length_rows_le (hne : s.names ≠ []) : s.rows.length ≤ s.content.length := by
  have hnonempty : ∀ b ∈ s.rows.flatten.map encodeNumber, b ≠ [] := by
    intro b hb
    obtain ⟨n, _, rfl⟩ := List.mem_map.mp hb
    exact encodeNumber_ne_nil n
  have hlength := Bytes.length_le_length_flatten hnonempty
  rw [List.length_map, length_flatten_rows s.areRows.length_eq] at hlength
  exact (Nat.le_mul_of_pos_right _ (List.length_pos_iff.mpr hne)).trans hlength

lemma load_encode (h : s.Fits) (hne : s.names ≠ []) :
    load s.encode =
      { table := { s.rowless with rows := rowsOfNumbers s.rowless s.content } } := by
  have hsize := h.size_lt
  have hrows := length_rows_le hne
  have hfits : s.heading.Fits := by
    refine Heading.fits_of_length hsize ?_ h.key_lt
    rw [encode, List.length_append] at hsize
    exact (hrows.trans (Nat.le_add_left _ _)).trans_lt hsize
  have hlabels : s.heading.labels ≠ [] := by
    rw [ne_eq, ← List.length_eq_zero_iff, length_labels, List.length_eq_zero_iff]
    exact hne
  have hcontent : contentOf s.encode s.heading.table = (s.content, []) := by
    have := s.heading.contentOf_front []
    rwa [List.append_nil] at this
  have hpool : readPool s.encode s.heading.table = (s.rowless, []) := s.heading.readPool_of_end
  rw [encode, Heading.load_eq hfits hlabels h.not_text, ← encode, loadContent, hcontent, hpool]
  dsimp only
  rw [needsCells_rowless]
  rfl

/-! ## Rows -/

lemma numberForm_eq (r : List Nat) :
    numberForm s.rowless.columns (r.map encodeNumber) = s.rowForm r := by
  have hcell (n : String) (v : Nat) :
      Row.stored (textRead none n) (numberValue (encodeNumber v)) =
        if v = 0 then .absent else .int v := by
    rw [Row.stored_of_isZero _ (numberValue_isZero _), numberValue, groupRead,
      (encodeNumber_isGroup v []).2, numberRead]
    split_ifs <;> rfl
  change numberForm s.heading.table.columns _ = _
  rw [columns_heading, numberForm, rowForm, List.zipWith_map]
  simp only [hcell]

lemma blankRow_eq : blankRow s.rowless.columns = s.blank := by
  change blankRow s.heading.table.columns = _
  rw [columns_heading, blankRow, blank, List.map_map]
  rfl

variable {j : Nat}

/-- **The rows behind the numbers that are taken for column offsets**, and behind them as many rows
without numbers as were lost. -/
lemma rowsOfNumbers_eq (hne : s.names ≠ []) (hj : j ≤ s.rows.length)
    (hoffsets : numberOffsets s.rowless s.content = j * s.names.length) :
    rowsOfNumbers s.rowless s.content = s.readForm.drop j ++ List.replicate j s.blank := by
  have hk := List.length_pos_iff.mpr hne
  have hrows := s.areRows.length_eq
  have hroom : ((contentNumbers s.content).length : Int).fdiv s.names.length =
      s.rowless.rowCount := by
    rw [contentNumbers_content, List.length_map, length_flatten_rows hrows, Nat.cast_mul]
    exact Int.mul_fdiv_cancel _ (by omega)
  have hvals : (contentNumbers s.content).drop (j * s.names.length) =
      ((s.rows.drop j).map (List.map encodeNumber)).flatten.map groupRead := by
    rw [contentNumbers_content, ← List.map_drop, drop_flatten_rows hrows, ← List.map_flatten,
      List.map_map]
    exact List.map_congr_left fun n _ => (congrArg numberRead (encodeNumber_isGroup n []).2).symm
  have hcount : s.rowless.rowCount.toNat =
      ((s.rows.drop j).map (List.map encodeNumber)).length + j := by
    rw [List.length_map, List.length_drop]
    change s.rows.length = _
    omega
  have hlength : ∀ r ∈ (s.rows.drop j).map (List.map encodeNumber),
      r.length = s.rowless.columns.length := by
    intro r hr
    obtain ⟨r, hmem, rfl⟩ := List.mem_map.mp hr
    rw [List.length_map, hrows r (List.mem_of_mem_drop hmem)]
    change _ = s.heading.table.columns.length
    rw [columns_heading, List.length_map]
  rw [rowsOfNumbers_eq_numberRows s.columnCount_rowless hk hroom, hoffsets, hvals, hcount]
  refine (numberRows_groups s.names_rowless hlength j []).trans ?_
  rw [List.reverse_nil, List.nil_append, blankRow_eq, List.map_map, readForm, ← List.map_drop]
  simp only [Function.comp_def, numberForm_eq]

lemma numberOffsets_eq (hne : s.names ≠ []) :
    numberOffsets s.rowless s.content =
      if s.rows ≠ [] ∧
          s.names.length ≤ (s.rows.headD []).countP (fun v => decide (10000000 ≤ v)) + 1 then
        findRowStart s.rowless (s.rows.flatten.map numberRead) s.names.length
      else 0 := by
  have hlong : (s.names.length : Int) ≤ (s.rows.flatten.map numberRead).length ↔ s.rows ≠ [] := by
    rw [List.length_map, length_flatten_rows s.areRows.length_eq, Int.ofNat_le]
    cases hrows : s.rows with
    | nil => simp [hne]
    | cons r rest => simp [Nat.succ_mul]
  rw [numberOffsets, columnCount_rowless, Option.getD_some, contentNumbers_content]
  refine if_congr ?_ rfl rfl
  rw [hlong]
  exact and_congr_right fun hrows => s.areRows.looksColumnar_iff hrows

lemma rows_of_startsAt (hne : s.names ≠ []) (h : s.StartsAt j) :
    rowsOfNumbers s.rowless s.content = s.readForm.drop j ++ List.replicate j s.blank := by
  have hk := List.length_pos_iff.mpr hne
  have hten := h.begins.1
  rw [List.length_drop] at hten
  refine rowsOfNumbers_eq hne (by omega) ?_
  have hrows : s.rows ≠ [] := List.ne_nil_of_length_pos (by omega)
  rw [numberOffsets_eq hne, if_pos ⟨hrows, h.columnar⟩]
  apply s.areRows.findRowStart_eq hk _ h.near
  · rw [hasIdColumn_rowless]
    exact h.begins
  · rw [hasIdColumn_rowless]
    exact h.first

lemma rows_of_not_startsAt (hne : s.names ≠ []) (h : ∀ j, ¬ s.StartsAt j) :
    rowsOfNumbers s.rowless s.content = s.readForm := by
  have hk := List.length_pos_iff.mpr hne
  have hall :
      rowsOfNumbers s.rowless s.content = s.readForm.drop 0 ++ List.replicate 0 s.blank := by
    refine rowsOfNumbers_eq hne (Nat.zero_le _) ?_
    rw [numberOffsets_eq hne, Nat.zero_mul]
    split_ifs with hcolumnar
    · apply s.areRows.findRowStart_eq_zero hk
      rw [hasIdColumn_rowless]
      intro j hnear
      -- the first row with which data may begin would be one that they are taken to begin with
      induction j using Nat.strongRecOn with
      | _ j ih =>
        intro hbegins
        refine h j ⟨hcolumnar.2, hnear, hbegins, fun i hi => ih i hi ?_⟩
        exact (Nat.mul_le_mul_right _ hi.le).trans_lt hnear
    · rfl
  rwa [List.drop_zero, List.replicate_zero, List.append_nil] at hall

/-- A list that stays the same when its first items are dropped and as many others come behind the
last one holds only these. -/
lemma eq_of_mem_of_shift {α : Type} {l : List α} {b : α} (hj : 0 < j)
    (h : l.drop j ++ List.replicate j b = l) : ∀ x ∈ l, x = b := by
  -- each item is the one `j` places behind it, or one of those at the end
  have hitem : ∀ n i x, l.length ≤ i + n → l[i]? = some x → x = b := by
    intro n
    induction n with
    | zero =>
      intro i x hi hx
      rw [List.getElem?_eq_none (show l.length ≤ i from hi)] at hx
      cases hx
    | succ n ih =>
      intro i x hi hx
      rw [← h, List.getElem?_append] at hx
      split_ifs at hx
      · rw [List.getElem?_drop] at hx
        exact ih (j + i) x (by omega) hx
      · rw [List.getElem?_replicate] at hx
        split_ifs at hx
        exact (Option.some.inj hx).symm
  intro x hx
  obtain ⟨i, hi, rfl⟩ := List.getElem_of_mem hx
  exact hitem l.length i _ (Nat.le_add_left _ _) (List.getElem?_eq_getElem hi)

lemma headD_of_rowForm_eq (hne : s.names ≠ []) {r : List Nat} (h : s.rowForm r = s.blank) :
    r.headD 0 = 0 := by
  obtain ⟨n, names, hnames⟩ := List.exists_cons_of_ne_nil hne
  cases r with
  | nil => rfl
  | cons v r =>
    rw [rowForm, blank, hnames, List.zipWith_cons_cons, List.map_cons, List.cons.injEq,
      Prod.mk.injEq] at h
    by_contra hv
    rw [if_neg (show ¬ v = 0 from hv)] at h
    cases h.1.2

lemma shifted_ne_readForm (hne : s.names ≠ []) (h : s.StartsAt j) (hj : 0 < j) :
    s.readForm.drop j ++ List.replicate j s.blank ≠ s.readForm := by
  intro hshift
  obtain ⟨hten, hleads, -⟩ := h.begins
  have hpos : 0 < (s.rows.drop j).length := by omega
  obtain ⟨r, rest, hrest⟩ := List.exists_cons_of_length_pos hpos
  have hmem : r ∈ s.rows := by
    apply List.mem_of_mem_drop (i := j)
    rw [hrest]
    exact List.mem_cons_self
  have hlead : 1000000 ≤ r.headD 0 := by
    apply hleads
    rw [hrest]
    exact List.mem_cons_self
  have hblank := eq_of_mem_of_shift hj hshift (s.rowForm r) (List.mem_map_of_mem hmem)
  rw [headD_of_rowForm_eq hne hblank] at hlead
  omega

/-- **All rows of a table of whole numbers come back if and only if its data are not taken to begin
with another row than the first.** A table without columns is refused. Any other one is loaded
without a fault and without a note, with one column for each name and, unless its data are taken to
begin with a row behind the first, with exactly its rows in their order, zero as absent. If they are
taken to begin with the `j`-th row, the rows before it are lost, and `j` rows without numbers come
behind the last one. -/
theorem whole_rows_return_iff (s : Sheet) (h : s.Fits) :
    (s.names = [] → (load s.encode).fault = some .noColumnCount ∧ (load s.encode).table.rows = []) ∧
    (s.names ≠ [] →
      (load s.encode).fault = none ∧ (load s.encode).notes = [] ∧
      (load s.encode).table.columns = (s.names.map fun n => ⟨some 14, textRead none n⟩) ∧
      ((load s.encode).table.rows = s.readForm ↔ ¬ ∃ j, 0 < j ∧ s.StartsAt j) ∧
      ∀ j, s.StartsAt j →
        (load s.encode).table.rows = s.readForm.drop j ++ List.replicate j s.blank) := by
  constructor
  · intro hnil
    have hsize := h.size_lt
    have htext := h.not_text
    have hhead : s.heading.head.length < 2 ^ 32 := by
      simp only [encode, Heading.front, List.length_append] at hsize
      omega
    have hlabels : s.heading.labels = [] := by
      rw [← List.length_eq_zero_iff, length_labels, hnil]
      rfl
    exact Heading.load_of_labels_nil hhead hlabels htext
  · intro hne
    rw [load_encode h hne]
    refine ⟨rfl, rfl, s.columns_heading, ?_, fun j hj => rows_of_startsAt hne hj⟩
    change rowsOfNumbers s.rowless s.content = s.readForm ↔ _
    constructor
    · rintro hrows ⟨j, hj, hstarts⟩
      rw [rows_of_startsAt hne hstarts] at hrows
      exact shifted_ne_readForm hne hstarts hj hrows
    · intro hnone
      by_cases hfirst : s.StartsAt 0
      · rw [rows_of_startsAt hne hfirst, List.drop_zero, List.replicate_zero, List.append_nil]
      · refine rows_of_not_startsAt hne fun j hstarts => ?_
        cases j with
        | zero => exact hfirst hstarts
        | succ j => exact hnone ⟨j + 1, Nat.succ_pos j, hstarts⟩

end Sheet

/-- Eleven identifiers with amounts under a primary key; the first identifier is large. -/
def stockSheet : Sheet where
  names := ["Id", "Amount"]
  names_nodup := by decide
  names_plain := by with_unfolding_all decide
  key := some ⟨0, [7, 7]⟩
  magic := some 0xCAFE
  rowIndex := [1, 2, 3]
  rows := (List.range 11).map fun i => [20000000 - i, 5 * i]
  areRows := ⟨by decide, by decide⟩

/-- All rows of the stock come back: its data are taken to begin with the first row. -/
theorem stock_rows_return :
    stockSheet.Fits ∧ (load stockSheet.encode).table.rows = stockSheet.readForm := by
  have hfits : stockSheet.Fits := by with_unfolding_all decide
  have hbegins : BeginsData (decide ("Id" ∈ stockSheet.names)) (stockSheet.rows.drop 0) := by
    decide
  have hne : stockSheet.names ≠ [] := List.cons_ne_nil _ _
  refine ⟨hfits, ((Sheet.whole_rows_return_iff stockSheet hfits).2 hne).2.2.2.1.mpr ?_⟩
  rintro ⟨j, hj, hstarts⟩
  exact hstarts.first 0 hj hbegins

/-- One column of eleven numbers, of which only the first lies below a million. -/
def tollSheet : Sheet where
  names := ["Toll"]
  names_nodup := by decide
  names_plain := by with_unfolding_all decide
  key := none
  magic := none
  rowIndex := []
  rows := [5] :: (List.range 10).map fun i => [1000000 + i]
  areRows := ⟨by decide, by decide⟩

/-- The first row of the tolls is lost, and a row without numbers comes behind the last one. -/
theorem first_toll_is_lost :
    tollSheet.Fits ∧
      (load tollSheet.encode).table.rows.map (Row.fields [some "Toll"]) =
        [["1000000"], ["1000001"], ["1000002"], ["1000003"], ["1000004"], ["1000005"], ["1000006"],
          ["1000007"], ["1000008"], ["1000009"], [""]] ∧
      (load tollSheet.encode).table.rows ≠ tollSheet.readForm := by
  have hrows : (load tollSheet.encode).table.rows.map (Row.fields [some "Toll"]) =
      [["1000000"], ["1000001"], ["1000002"], ["1000003"], ["1000004"], ["1000005"], ["1000006"],
        ["1000007"], ["1000008"], ["1000009"], [""]] := by
    with_unfolding_all decide
  have hform : (tollSheet.readForm.map (Row.fields [some "Toll"])).head? = some ["5"] := by
    with_unfolding_all decide
  refine ⟨by with_unfolding_all decide, hrows, fun h => ?_⟩
  rw [← h, hrows] at hform
  exact absurd hform (by decide)

end Salvage.Table
