import Mathlib.Data.List.Nodup
import Salvage.Proofs.Table.Cursor
import Salvage.Table.Load

/-!
# Cells in the layout of table files

The columns whose cells can be written are those of ten kinds: single truth values, texts and
numbers, lists of them, and maps between them. The shape of a kind decides what data its cells hold,
how the data are written, and in which form they are read back.
-/

namespace Salvage.Table

open Read

/-! ## Items -/

/-- What a single cell or a place in a collection holds. -/
inductive Item where
  | mark
  | text
  | number
  | count
deriving DecidableEq

namespace Item

def Data : Item → Type
  | mark => Bool
  | text => String
  | number => Int32
  | count => Int32

instance : (i : Item) → DecidableEq i.Data
  | mark => inferInstanceAs (DecidableEq Bool)
  | text => inferInstanceAs (DecidableEq String)
  | number => inferInstanceAs (DecidableEq Int32)
  | count => inferInstanceAs (DecidableEq Int32)

def read : Item → Read Value
  | mark => Read.mark
  | text => textCell
  | number => intCell
  | count => intItem

def encode (texts : Option (List String)) : (i : Item) → i.Data → Bytes
  | mark, (b : Bool) => [if b then 1 else 0]
  | text, s => encodeText texts s
  | number, n => encodeInt n
  | count, n => encodeInt n

def Fits (texts : Option (List String)) : (i : Item) → i.Data → Prop
  | text, s => TextFits texts s
  | _, _ => True

instance (texts : Option (List String)) : (i : Item) → (d : i.Data) → Decidable (i.Fits texts d)
  | text, (s : String) => inferInstanceAs (Decidable (TextFits texts s))
  | mark, _ => .isTrue trivial
  | number, _ => .isTrue trivial
  | count, _ => .isTrue trivial

def value (texts : Option (List String)) : (i : Item) → i.Data → Value
  | mark, (b : Bool) => if b then .yes else .absent
  | text, s => ((textRead texts s).map Value.text).getD .absent
  | number, (n : Int32) => if n = 0 then .absent else .int n.toInt
  | count, (n : Int32) => .int n.toInt

variable {texts : Option (List String)}

lemma encode_ne_nil (i : Item) (d : i.Data) : i.encode texts d ≠ [] := by
  cases i with
  | mark => exact List.cons_ne_nil _ _
  | text => exact encodeText_ne_nil texts d
  | number => exact encodeNumber_ne_nil _
  | count => exact encodeNumber_ne_nil _

lemma read_takes (i : Item) {d : i.Data} (h : i.Fits texts d) :
    Read.Takes texts i.read (i.encode texts d) (i.value texts d) := by
  cases i with
  | mark => exact Read.mark_takes d
  | text => exact textCell_takes h
  | number => exact intCell_takes d
  | count => exact (intOrZero_takes_int d).bind_pure Value.int

end Item

inductive KeyItem where
  | text
  | number
deriving DecidableEq

namespace KeyItem

def item : KeyItem → Item
  | text => .text
  | number => .count

def read : KeyItem → Read Key
  | text => textKey
  | number => intKey

def key (texts : Option (List String)) : (k : KeyItem) → k.item.Data → Key
  | text, (s : String) => ((textRead texts s).map Key.text).getD .absent
  | number, (n : Int32) => .int n.toInt

variable {texts : Option (List String)}

lemma read_takes (k : KeyItem) {d : k.item.Data} (h : k.item.Fits texts d) :
    Read.Takes texts k.read (k.item.encode texts d) (k.key texts d) := by
  cases k with
  | text => exact textKey_takes h
  | number => exact (intOrZero_takes_int d).bind_pure Key.int

lemma key_injective (texts : Option (List String)) (k : KeyItem) :
    Function.Injective (k.key texts) := by
  intro d e h
  cases k with
  | text =>
    apply textRead_injective texts
    change ((textRead texts d).map Key.text).getD .absent =
      ((textRead texts e).map Key.text).getD .absent at h
    cases hd : textRead texts d <;> cases he : textRead texts e <;> simp_all
  | number => exact Int32.toInt_inj.mp (Key.int.inj h)

end KeyItem

/-! ## Shapes -/

inductive Shape where
  | one (i : Item)
  | list (i : Item)
  | map (k : KeyItem) (i : Item)
deriving DecidableEq

namespace Shape

def Data : Shape → Type
  | one i => i.Data
  | list i => List i.Data
  | map k i => List (k.item.Data × i.Data)

def read : Shape → Read Value
  | one i => i.read
  | list i => listOf i.read
  | map k i => mapOf k.read i.read

def encode (texts : Option (List String)) : (s : Shape) → s.Data → Bytes
  | one i, d => i.encode texts d
  | list i, (ds : List i.Data) => encodeNumber ds.length ++ ds.flatMap (i.encode texts)
  | map k i, (ds : List (k.item.Data × i.Data)) =>
    encodeNumber ds.length ++
      ds.flatMap fun d => k.item.encode texts d.1 ++ i.encode texts d.2

/-- Whether a cell can be written: its parts can, a collection has fewer than `2 ^ 31` of them, and
no key of a map comes twice. -/
def Fits (texts : Option (List String)) : (s : Shape) → s.Data → Prop
  | one i, d => i.Fits texts d
  | list i, (ds : List i.Data) => ds.length < 2 ^ 31 ∧ ∀ d ∈ ds, i.Fits texts d
  | map k i, (ds : List (k.item.Data × i.Data)) =>
    ds.length < 2 ^ 31 ∧ (∀ d ∈ ds, k.item.Fits texts d.1 ∧ i.Fits texts d.2) ∧
      (ds.map Prod.fst).Nodup

instance (texts : Option (List String)) : (s : Shape) → (d : s.Data) → Decidable (s.Fits texts d)
  | one i, (d : i.Data) => inferInstanceAs (Decidable (i.Fits texts d))
  | list i, (ds : List i.Data) =>
    inferInstanceAs (Decidable (ds.length < 2 ^ 31 ∧ ∀ d ∈ ds, i.Fits texts d))
  | map k i, (ds : List (k.item.Data × i.Data)) =>
    inferInstanceAs (Decidable (ds.length < 2 ^ 31 ∧
      (∀ d ∈ ds, k.item.Fits texts d.1 ∧ i.Fits texts d.2) ∧ (ds.map Prod.fst).Nodup))

def value (texts : Option (List String)) : (s : Shape) → s.Data → Value
  | one i, d => i.value texts d
  | list i, (ds : List i.Data) => if ds = [] then .absent else .list (ds.map (i.value texts))
  | map k i, (ds : List (k.item.Data × i.Data)) =>
    if ds = [] then .absent
    else .map (ds.map fun d => (k.key texts d.1, i.value texts d.2))

variable {texts : Option (List String)}

lemma encode_ne_nil (s : Shape) (d : s.Data) : s.encode texts d ≠ [] := by
  cases s with
  | one i => exact i.encode_ne_nil d
  | list i => exact List.append_ne_nil_of_left_ne_nil (encodeNumber_ne_nil _) _
  | map k i => exact List.append_ne_nil_of_left_ne_nil (encodeNumber_ne_nil _) _

variable {i : Item}

lemma many_takes {ds : List i.Data} (h : ∀ d ∈ ds, i.Fits texts d) (acc : List Value) :
    Read.Takes texts (many i.read ds.length acc) (ds.flatMap (i.encode texts))
      (.list (acc.reverse ++ ds.map (i.value texts))) := by
  induction ds generalizing acc with
  | nil =>
    rw [List.map_nil, List.append_nil]
    exact Read.Takes.pure _
  | cons d ds ih =>
    have hd := i.read_takes (h d List.mem_cons_self)
    have hds := ih (fun e he => h e (List.mem_cons_of_mem _ he)) (i.value texts d :: acc)
    rw [List.reverse_cons, List.append_assoc, List.singleton_append, ← List.map_cons] at hds
    exact hd.bind hds

lemma insert_of_notMem {key : Key} (v : Value) {entries : List (Key × Value)}
    (h : key ∉ entries.map Prod.fst) : Value.insert key v entries = entries ++ [(key, v)] := by
  induction entries with
  | nil => rfl
  | cons e entries ih =>
    rw [List.map_cons, List.mem_cons, not_or] at h
    rw [Value.insert, if_neg (Ne.symm h.1), ih h.2, List.cons_append]

/-- Entries one after the other are read back behind those already read.

**Proof sketch.** Along the entries: the key of the next one is among neither those already read nor
those to come, so it is written at the end. -/
lemma manyEntries_takes {k : KeyItem} {ds : List (k.item.Data × i.Data)}
    (h : ∀ d ∈ ds, k.item.Fits texts d.1 ∧ i.Fits texts d.2) (acc : List (Key × Value))
    (hnodup : (acc.map Prod.fst ++ ds.map fun d => k.key texts d.1).Nodup) :
    Read.Takes texts (manyEntries k.read i.read ds.length acc)
      (ds.flatMap fun d => k.item.encode texts d.1 ++ i.encode texts d.2)
      (.map (acc ++ ds.map fun d => (k.key texts d.1, i.value texts d.2))) := by
  induction ds generalizing acc with
  | nil =>
    rw [List.map_nil, List.append_nil]
    exact Read.Takes.pure _
  | cons d ds ih =>
    obtain ⟨hkey, hitem⟩ := h d List.mem_cons_self
    have hnew : k.key texts d.1 ∉ acc.map Prod.fst := by
      intro hmem
      exact (List.disjoint_of_nodup_append hnodup) hmem List.mem_cons_self
    have hds := ih (fun e he => h e (List.mem_cons_of_mem _ he))
      (Value.insert (k.key texts d.1) (i.value texts d.2) acc) (by
        rw [insert_of_notMem _ hnew, List.map_append, List.append_assoc]
        exact hnodup)
    have hentries : Value.insert (k.key texts d.1) (i.value texts d.2) acc ++
          ds.map (fun d => (k.key texts d.1, i.value texts d.2)) =
        acc ++ (d :: ds).map fun d => (k.key texts d.1, i.value texts d.2) := by
      rw [insert_of_notMem _ hnew, List.append_assoc]
      rfl
    rw [hentries] at hds
    rw [List.flatMap_cons, List.append_assoc]
    exact (k.read_takes hkey).bind ((i.read_takes hitem).bind hds)

lemma collection_takes {α : Type} {ds : List α} (hlength : ds.length < 2 ^ 31)
    (parts : Nat → Read Value) {a : Bytes} {v : Value} (h : Read.Takes texts (parts ds.length) a v)
    (hempty : ds = [] → a = []) :
    Read.Takes texts
      (do
        let n ← intOrZero
        if n ≤ 0 then return Value.absent
        parts n.toNat)
      (encodeNumber ds.length ++ a) (if ds = [] then .absent else v) := by
  have hn : Read.Takes texts intOrZero (encodeNumber ds.length) (ds.length : Int) :=
    intOrZero_takes_of_lt hlength
  refine hn.bind ?_
  by_cases hds : ds = []
  · rw [if_pos hds, hempty hds, if_pos (by simp [hds])]
    exact Read.Takes.pure _
  · have hpos : ¬ (ds.length : Int) ≤ 0 := by
      have := List.length_pos_iff.mpr hds
      omega
    rw [if_neg hds, if_neg hpos, Int.toNat_natCast]
    exact h

lemma listOf_takes {ds : List i.Data} (h : (list i).Fits texts ds) :
    Read.Takes texts (listOf i.read) ((list i).encode texts ds) ((list i).value texts ds) := by
  obtain ⟨hlength, hitems⟩ := h
  have hempty : ds = [] → ds.flatMap (i.encode texts) = [] := by
    rintro rfl
    rfl
  exact collection_takes hlength (fun n => many i.read n []) (many_takes hitems []) hempty

lemma mapOf_takes {k : KeyItem} {ds : List (k.item.Data × i.Data)} (h : (map k i).Fits texts ds) :
    Read.Takes texts (mapOf k.read i.read) ((map k i).encode texts ds)
      ((map k i).value texts ds) := by
  obtain ⟨hlength, hentries, hnodup⟩ := h
  have hkeys : (ds.map fun d => k.key texts d.1).Nodup := by
    have := hnodup.map (k.key_injective texts)
    rwa [List.map_map] at this
  have hempty : ds = [] →
      ds.flatMap (fun d => k.item.encode texts d.1 ++ i.encode texts d.2) = [] := by
    rintro rfl
    rfl
  exact collection_takes hlength (fun n => manyEntries k.read i.read n [])
    (manyEntries_takes hentries [] hkeys) hempty

lemma read_takes (s : Shape) {d : s.Data} (h : s.Fits texts d) :
    Read.Takes texts s.read (s.encode texts d) (s.value texts d) := by
  cases s with
  | one i => exact i.read_takes h
  | list i => exact listOf_takes h
  | map k i => exact mapOf_takes h

end Shape

lemma Shape.value_isZero {s : Shape} (hs : s ≠ .one .count) (texts : Option (List String))
    (d : s.Data) : (s.value texts d).isZero = false := by
  match s, d with
  | .one .mark, (b : Bool) => cases b <;> rfl
  | .one .text, (t : String) =>
    change (((textRead texts t).map Value.text).getD .absent).isZero = false
    cases textRead texts t <;> rfl
  | .one .number, (n : Int32) =>
    change (if n = 0 then Value.absent else .int n.toInt).isZero = false
    split_ifs with hn
    · rfl
    · have hne : n.toInt ≠ 0 := fun h => hn (Int32.toInt_inj.mp h)
      simpa [Value.isZero] using hne
  | .one .count, _ => exact absurd rfl hs
  | .list i, (ds : List i.Data) =>
    rw [Shape.value]
    split_ifs <;> rfl
  | .map k i, (ds : List (k.item.Data × i.Data)) =>
    rw [Shape.value]
    split_ifs <;> rfl

/-! ## Columns -/

def Kind.shape? : Kind → Option Shape
  | .bool => some (.one .mark)
  | .string => some (.one .text)
  | .int => some (.one .number)
  | .listString => some (.list .text)
  | .listBool => some (.list .mark)
  | .listInt => some (.list .count)
  | .mapStringString => some (.map .text .text)
  | .mapIntInt => some (.map .number .count)
  | .mapIntString => some (.map .number .text)
  | .mapStringInt => some (.map .text .number)
  | _ => none

lemma Kind.shape?_ne (k : Kind) : k.shape? ≠ some (.one .count) := by
  cases k <;> decide

lemma Kind.ofCode?_code (k : Kind) : Kind.ofCode? k.code = some k := by
  cases k <;> rfl

lemma Kind.code_lt (k : Kind) : k.code < 2 ^ 31 := by
  cases k <;> decide

structure Field where
  kind : Kind
  shape : Shape
  shape_eq : kind.shape? = some shape
  name : String
  name_ne : name ≠ ""
  name_plain : 0 ∉ Bytes.ofString name

namespace Field

def column (f : Field) : Column :=
  ⟨some (f.kind.code : Nat), some f.name⟩

def encode (f : Field) : Bytes :=
  encodeNumber f.kind.code ++ encodeText none f.name

lemma cell_column (f : Field) : cell f.column.code = f.shape.read := by
  have hcell : cell f.column.code = cellOf f.kind := by
    simp [cell, column, Kind.ofCode?_code]
  rw [hcell]
  obtain ⟨kind, shape, hshape, _, _, _⟩ := f
  cases kind <;> cases hshape <;> rfl

lemma value_isZero (f : Field) (texts : Option (List String)) (d : f.shape.Data) :
    (f.shape.value texts d).isZero = false := by
  apply Shape.value_isZero
  intro hshape
  exact f.kind.shape?_ne (f.shape_eq.trans (congrArg some hshape))

end Field

/-! ## Rows -/

def Cells : List Field → Type
  | [] => Unit
  | f :: fs => f.shape.Data × Cells fs

namespace Cells

/-- The octets of a row from the `i`-th column on, where `texts` says how each column writes texts.
-/
def encode (texts : Nat → Option (List String)) : Nat → (fs : List Field) → Cells fs → Bytes
  | _, [], _ => []
  | i, f :: fs, (d, ds) => f.shape.encode (texts i) d ++ encode texts (i + 1) fs ds

def Fits (texts : Nat → Option (List String)) : Nat → (fs : List Field) → Cells fs → Prop
  | _, [], _ => True
  | i, f :: fs, (d, ds) => f.shape.Fits (texts i) d ∧ Fits texts (i + 1) fs ds

instance (texts : Nat → Option (List String)) :
    (i : Nat) → (fs : List Field) → (ds : Cells fs) → Decidable (ds.Fits texts i fs)
  | _, [], _ => .isTrue trivial
  | i, f :: fs, (d, ds) =>
    have := instDecidableFits texts (i + 1) fs ds
    inferInstanceAs (Decidable (f.shape.Fits (texts i) d ∧ Fits texts (i + 1) fs ds))

def row (texts : Nat → Option (List String)) : Nat → (fs : List Field) → Cells fs → Row
  | _, [], _ => []
  | i, f :: fs, (d, ds) => (some f.name, f.shape.value (texts i) d) :: row texts (i + 1) fs ds

lemma encode_ne_nil {texts : Nat → Option (List String)} {i : Nat} {fs : List Field} (hfs : fs ≠ [])
    (ds : Cells fs) : ds.encode texts i fs ≠ [] := by
  cases fs with
  | nil => exact absurd rfl hfs
  | cons f fs =>
    obtain ⟨d, ds⟩ := ds
    exact List.append_ne_nil_of_left_ne_nil (f.shape.encode_ne_nil d) _

end Cells

def Cursor.Bears (c : Cursor) (texts : Nat → Option (List String)) : Prop :=
  ∃ v, c.view = some v ∧ ∀ i : Nat,
    Cursor.Serves { c with pooled := v.pool.isColumn (i + 1) } (texts i)

variable {c : Cursor} {row : Row}

lemma Read.atColumn_of_view {v : PoolView} (h : c.view = some v) (column : Int) :
    atColumn column c = .ok () { c with pooled := v.pool.isColumn column } := by
  cases c
  cases h
  rfl

def Row.stored (name : Option String) (v : Value) : Value :=
  if isHiddenFlag name && v.isZero then .text "" else v

lemma Row.stored_of_isZero (name : Option String) {v : Value} (hv : v.isZero = false) :
    Row.stored name v = v := by
  rw [Row.stored, hv, Bool.and_false, if_neg Bool.false_ne_true]

lemma Row.store_of_notMem {name : Option String} (v : Value)
    (h : name ∉ row.map Prod.fst) : Row.store name v row = row ++ [(name, Row.stored name v)] := by
  change Row.set name (Row.stored name v) row = _
  induction row with
  | nil => rfl
  | cons e row ih =>
    rw [List.map_cons, List.mem_cons, not_or] at h
    rw [Row.set, if_neg (Ne.symm h.1), ih h.2, List.cons_append]

lemma Row.names_cons {name : Option String} {names : List (Option String)}
    (h : (row.map Prod.fst ++ name :: names).Nodup) (v : Value) :
    name ∉ row.map Prod.fst ∧ ((row ++ [(name, v)]).map Prod.fst ++ names).Nodup := by
  constructor
  · intro hmem
    exact (List.disjoint_of_nodup_append h) hmem List.mem_cons_self
  · rw [List.map_append, List.append_assoc]
    exact h

lemma readCells_cons {i : Nat} {col : Column} {c₁ c₂ : Cursor} {v : Value}
    (hset : atColumn (i + 1) c = .ok () c₁) (hcell : cell col.code c₁ = .ok v c₂)
    (hname : col.name ∉ row.map Prod.fst) (cols : List Column) :
    readCells i (col :: cols) row c =
      readCells (i + 1) cols (row ++ [(col.name, Row.stored col.name v)]) c₂ := by
  have hread : (do atColumn (i + 1); cell col.code : Read Value) c = .ok v c₂ := by
    rw [bind_of_ok hset, hcell]
  rw [readCells, hread]
  dsimp only
  rw [Row.store_of_notMem v hname]

/-- **The cells of a row are read back**, and the cursor goes behind them.

**Proof sketch.** Along the columns: set to its column, the cursor reads texts as the column writes
them, so the cell is read back; its name is new to the row. -/
lemma readCells_takes {texts : Nat → Option (List String)} (fs : List Field) (ds : Cells fs)
    (i : Nat) (hfits : ds.Fits texts i fs) (row : Row)
    (hnames : (row.map Prod.fst ++ fs.map fun f => some f.name).Nodup) {pre rest : Bytes}
    (hc : c.Between pre (ds.encode texts i fs ++ rest)) (hbears : c.Bears texts) :
    ∃ c', readCells i (fs.map Field.column) row c = (some (row ++ ds.row texts i fs), c') ∧
      c'.Between (pre ++ ds.encode texts i fs) rest ∧ c'.Bears texts := by
  induction fs generalizing i row c pre with
  | nil =>
    refine ⟨c, ?_, ?_, hbears⟩
    · rw [Cells.row, List.append_nil]
      rfl
    · rw [Cells.encode, List.append_nil]
      exact hc
  | cons f fs ih =>
    obtain ⟨d, ds⟩ := ds
    obtain ⟨hcell, hcells⟩ := hfits
    rw [Cells.encode] at hc ⊢
    rw [List.append_assoc] at hc
    obtain ⟨v, hview, hserves⟩ := id hbears
    have hset_between : Cursor.Between { c with pooled := v.pool.isColumn (i + 1) } pre
        (f.shape.encode (texts i) d ++ (ds.encode texts (i + 1) fs ++ rest)) :=
      ⟨hc.source_eq, hc.limit_eq, hc.pos_eq⟩
    have hread := f.shape.read_takes hcell hset_between (hserves i)
    rw [← f.cell_column] at hread
    obtain ⟨hname, hnames'⟩ := Row.names_cons hnames (f.shape.value (texts i) d)
    have hbears' : Cursor.Bears (Cursor.advance { c with pooled := v.pool.isColumn (i + 1) }
        (f.shape.encode (texts i) d).length) texts :=
      ⟨v, hview, fun j => (hserves j).advance _⟩
    obtain ⟨c', hrun, hbetween, hend⟩ := ih ds (i + 1) hcells _ hnames' hset_between.advance hbears'
    refine ⟨c', ?_, ?_, hend⟩
    · rw [List.map_cons, readCells_cons (atColumn_of_view hview (i + 1)) hread hname,
        Row.stored_of_isZero _ (f.value_isZero (texts i) d),
        show f.column.name = some f.name from rfl, hrun, Cells.row, List.append_assoc]
      rfl
    · rw [← List.append_assoc]
      exact hbetween

end Salvage.Table
