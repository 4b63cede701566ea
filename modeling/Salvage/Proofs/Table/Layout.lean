import Salvage.Proofs.Table.Cells
import Salvage.Proofs.Table.Pool

/-!
# The layout of table files

A file begins with a header: its length, the columns, the primary key, and the lengths of the
sections behind it. Whatever the columns and the sections are, the header is read back, and the
content is found where it was written.
-/

namespace Salvage.Table

open Bytes (ofLittleEndian length_ofLittleEndian)

/-! ## Reading headers -/

namespace HeaderRead

variable {α β : Type} {pre a b : Bytes} {t t' t'' : Table}

/-- With the octets `a` at the cursor, behind `pre`, the step turns the table `t` into `t'`, gives
`v` and goes behind them. -/
def Turns (pre : Bytes) (m : HeaderRead α) (a : Bytes) (t t' : Table) (v : α) : Prop :=
  ∀ ⦃c : Cursor⦄ ⦃rest : Bytes⦄, c.Between pre (a ++ rest) → c.Serves none →
    m (t, c) = .ok v (t', c.advance a.length)

lemma bind_of_ok {m : HeaderRead α} {f : α → HeaderRead β} {s s' : Table × Cursor} {v : α}
    (h : m s = .ok v s') : (m >>= f) s = f v s' := by
  change EStateM.bind m f s = _
  rw [EStateM.bind, h]

namespace Turns

variable {m : HeaderRead α} {f : α → HeaderRead β} {v : α} {w : β}

lemma pure (v : α) : Turns pre (Pure.pure v) [] t t v := by
  intro c rest _ _
  change EStateM.Result.ok v (t, c) = _
  rw [List.length_nil, Cursor.advance_zero]

lemma bind (h : Turns pre m a t t' v) (h' : Turns (pre ++ a) (f v) b t' t'' w) :
    Turns pre (m >>= f) (a ++ b) t t'' w := by
  intro c rest hc hs
  rw [List.append_assoc] at hc
  rw [bind_of_ok (h hc hs), h' hc.advance (hs.advance _), Cursor.advance_advance,
    List.length_append]

variable {r : Read α}

lemma lift (h : Read.Takes none r a v) (fallback : α) :
    Turns pre (HeaderRead.lift fallback r) a t t v := by
  intro c rest hc hs
  rw [HeaderRead.lift, h hc hs]

lemma lift_bind (h : Read.Takes none r a v) {fallback : α} (h' : Turns (pre ++ a) (f v) b t t' w) :
    Turns pre (HeaderRead.lift fallback r >>= f) (a ++ b) t t' w :=
  (lift h fallback).bind h'

lemma update_bind {g : Table → Table} {f : Unit → HeaderRead β}
    (h : Turns pre (f ()) b (g t) t' w) : Turns pre (update g >>= f) b t t' w := by
  intro c rest hc hs
  exact h hc hs

lemma get_bind {f : Table × Cursor → HeaderRead β}
    (h : ∀ c : Cursor, c.pos = pre.length → Turns pre (f (t, c)) b t t' w) :
    Turns pre (get >>= f) b t t' w := by
  intro c rest hc hs
  exact h c hc.pos_eq hc hs

lemma lift_update (h : Read.Takes none r a v) {fallback : α} {g : α → Table → Table} :
    Turns pre (HeaderRead.lift fallback r >>= fun x => update (g x)) a t (g v t) () := by
  have h' : Turns (pre ++ a) (update (g v)) [] t (g v t) () := by
    intro c rest _ _
    rw [List.length_nil, Cursor.advance_zero]
    rfl
  rw [← List.append_nil a]
  exact lift_bind h h'

end Turns

end HeaderRead

section Load

variable {data : Bytes} {t : Table} {c : Cursor} (htext : isText data = false)
  (hzeros : data.take 100 ≠ List.replicate 100 0)

include htext hzeros

lemma load_of_ok (hrun : HeaderRead.header ({}, Cursor.ofBytes data) = .ok () (t, c)) :
    load data = loadContent data t := by
  rw [load, htext, if_neg Bool.false_ne_true, if_neg fun h => hzeros h.2, hrun]

lemma load_of_error {e : LoadFault}
    (hrun : HeaderRead.header ({}, Cursor.ofBytes data) = .error e (t, c)) :
    load data = { table := t, fault := some e } := by
  rw [load, htext, if_neg Bool.false_ne_true, if_neg fun h => hzeros h.2, hrun]

end Load

/-! ## Headers -/

structure Label where
  code : Nat
  code_pos : 0 < code
  code_lt : code < 2 ^ 31
  name : String
  name_plain : 0 ∉ Bytes.ofString name

namespace Label

def column (c : Label) : Column :=
  ⟨some (c.code : Int), textRead none c.name⟩

def encode (c : Label) : Bytes :=
  encodeNumber c.code ++ encodeText none c.name

end Label

structure KeyBlock where
  column : Nat
  octets : Bytes

structure Heading where
  labels : List Label
  key : Option KeyBlock
  magic : Option UInt32
  rowIndex : Bytes
  rowCount : Nat
  content : Bytes

namespace Heading

variable (h : Heading)

def keyHead : Bytes :=
  match h.key with
  | none => [0]
  | some k => 1 :: (encodeNumber k.column ++ encodeNumber k.octets.length)

/-- The octets of the header up to the length of the content. -/
def headFront : Bytes :=
  encodeNumber h.labels.length ++ (h.labels.flatMap Label.encode ++ (h.keyHead ++
    (encodeNumber h.rowIndex.length ++ (encodeNumber h.rowCount ++
      encodeNumber h.content.length))))

def trailer : Bytes :=
  (h.magic.map fun w => Bytes.ofLittleEndian 4 w.toNat).getD []

def head : Bytes :=
  h.headFront ++ h.trailer

def keyBlock : Bytes :=
  (h.key.map KeyBlock.octets).getD []

def front : Bytes :=
  Bytes.ofLittleEndian 4 h.head.length ++ (h.head ++ (h.keyBlock ++ h.rowIndex))

def table : Table where
  headerLength := some h.head.length
  columnCount := some (h.labels.length : Int)
  columns := h.labels.map Label.column
  keyed := if h.key.isSome then some true else none
  primaryKey := h.key.bind fun k => h.labels[k.column]?.bind fun c => c.column.name
  keyLength := h.keyBlock.length
  rowIndexLength := h.rowIndex.length
  rowCount := h.rowCount
  contentLength := h.content.length
  magic := some ((h.magic.map UInt32.toNat).getD 0)

structure Fits : Prop where
  labels_lt : h.labels.length < 2 ^ 31
  head_lt : h.head.length < 2 ^ 32
  key_lt : ∀ k ∈ h.key, k.column < 2 ^ 31
  keyBlock_lt : h.keyBlock.length < 2 ^ 31
  rowIndex_lt : h.rowIndex.length < 2 ^ 31
  rowCount_lt : h.rowCount < 2 ^ 31
  content_lt : h.content.length < 2 ^ 31

lemma length_labels_le : h.labels.length ≤ (h.labels.flatMap Label.encode).length := by
  have hne : ∀ b ∈ h.labels.map Label.encode, b ≠ [] := by
    intro b hb
    obtain ⟨c, _, rfl⟩ := List.mem_map.mp hb
    exact List.append_ne_nil_of_left_ne_nil (encodeNumber_ne_nil _) _
  have hlength := Bytes.length_le_length_flatten hne
  rwa [List.length_map, ← List.flatMap_def] at hlength

variable {h}

lemma fits_of_length (hsize : (h.front ++ h.content).length < 2 ^ 31)
    (hrows : h.rowCount < 2 ^ 31) (hkey : ∀ k ∈ h.key, k.column < 2 ^ 31) : h.Fits := by
  have hlabels := length_labels_le h
  have hhead : (h.labels.flatMap Label.encode).length ≤ h.head.length := by
    simp only [head, headFront, List.length_append]
    omega
  simp only [front, List.length_append] at hsize
  refine ⟨?_, ?_, hkey, ?_, ?_, hrows, ?_⟩ <;> omega

/-! ## Reading headers back -/

open HeaderRead

variable {pre : Bytes} {t : Table}

lemma columns_turns (cs : List Label) :
    Turns pre (HeaderRead.columns cs.length) (cs.flatMap Label.encode) t
      { t with columns := t.columns ++ cs.map Label.column } () := by
  induction cs generalizing pre t with
  | nil =>
    rw [List.map_nil, List.append_nil]
    exact Turns.pure ()
  | cons c cs ih =>
    have hcolumns : t.columns ++ (c :: cs).map Label.column =
        (t.columns ++ [c.column]) ++ cs.map Label.column := by
      rw [List.map_cons, List.append_assoc, List.singleton_append]
    rw [List.flatMap_cons, Label.encode, List.append_assoc, hcolumns]
    refine Turns.lift_bind (Read.int_takes_of_lt c.code_pos c.code_lt) ?_
    refine Turns.lift_bind (Read.string_takes c.name_plain) ?_
    exact Turns.update_bind ih

lemma trailer_turns (h : Heading) (hpre : pre.length = 4 + h.headFront.length)
    (ht : t.magic = some 0) :
    Turns pre
      (do
        if (← get).2.pos + 4 ≤ 4 + (h.head.length : Int) then
          let w ← HeaderRead.lift none Read.word
          update fun t => { t with magic := w })
      h.trailer t { t with magic := some ((h.magic.map UInt32.toNat).getD 0) } () := by
  refine Turns.get_bind fun c hpos => ?_
  have hhead : h.head.length = h.headFront.length + h.trailer.length := List.length_append
  dsimp only
  cases hmagic : h.magic with
  | none =>
    have htrailer : h.trailer = [] := by rw [trailer, hmagic]; rfl
    rw [htrailer, List.length_nil] at hhead
    rw [htrailer, if_neg (by omega), Option.map_none, Option.getD_none, ← ht]
    exact Turns.pure ()
  | some w =>
    have htrailer : h.trailer = ofLittleEndian 4 w.toNat := by rw [trailer, hmagic]; rfl
    have hword : Read.Takes none Read.word (ofLittleEndian 4 w.toNat) (some w.toNat) :=
      Read.word_takes w.toNat_lt
    rw [htrailer, length_ofLittleEndian] at hhead
    rw [htrailer, if_pos (by omega)]
    exact Turns.lift_update hword

lemma sizes_turns (hfits : h.Fits)
    (hpre : pre ++ (encodeNumber h.rowIndex.length ++ (encodeNumber h.rowCount ++
      encodeNumber h.content.length)) = ofLittleEndian 4 h.head.length ++ h.headFront)
    (ht : t.magic = some 0) :
    Turns pre
      (do
        let n ← HeaderRead.lift 0 Read.intOrZero
        update fun t => { t with rowIndexLength := n }
        let n ← HeaderRead.lift 0 Read.intOrZero
        update fun t => { t with rowCount := n }
        let n ← HeaderRead.lift 0 Read.intOrZero
        update fun t => { t with contentLength := n }
        if (← get).2.pos + 4 ≤ 4 + (h.head.length : Int) then
          let w ← HeaderRead.lift none Read.word
          update fun t => { t with magic := w })
      (encodeNumber h.rowIndex.length ++ (encodeNumber h.rowCount ++
        (encodeNumber h.content.length ++ h.trailer))) t
      { t with
        rowIndexLength := h.rowIndex.length
        rowCount := h.rowCount
        contentLength := h.content.length
        magic := some ((h.magic.map UInt32.toNat).getD 0) } () := by
  refine Turns.lift_bind (Read.intOrZero_takes_of_lt hfits.rowIndex_lt) ?_
  refine Turns.update_bind ?_
  refine Turns.lift_bind (Read.intOrZero_takes_of_lt hfits.rowCount_lt) ?_
  refine Turns.update_bind ?_
  refine Turns.lift_bind (Read.intOrZero_takes_of_lt hfits.content_lt) ?_
  refine Turns.update_bind ?_
  refine trailer_turns h ?_ ht
  rw [List.append_assoc, List.append_assoc, hpre, List.length_append, length_ofLittleEndian]

lemma primaryKey_turns (hfits : h.Fits) {k : KeyBlock} (hk : h.key = some k)
    (ht : t.columns = h.labels.map Label.column) (hnone : t.primaryKey = none) :
    Turns pre HeaderRead.primaryKey (encodeNumber k.column ++ encodeNumber k.octets.length) t
      { t with
        primaryKey := h.labels[k.column]?.bind fun c => c.column.name
        keyLength := k.octets.length } () := by
  have hlt : k.column < 2 ^ 31 := hfits.key_lt k hk
  have hoctets : k.octets.length < 2 ^ 31 := by
    have := hfits.keyBlock_lt
    rwa [keyBlock, hk] at this
  refine Turns.lift_bind (Read.intOrZero_takes_of_lt hlt) ?_
  refine Turns.get_bind fun c _ => ?_
  by_cases hcolumn : k.column < h.labels.length
  · have hfound : columnAt? t.columns k.column = some h.labels[k.column].column := by
      rw [columnAt?, if_pos (Int.natCast_nonneg _), Int.toNat_natCast, ht, List.getElem?_map,
        List.getElem?_eq_getElem hcolumn]
      rfl
    rw [if_pos (by rw [ht, List.length_map]; omega), hfound]
    refine Turns.update_bind ?_
    rw [List.getElem?_eq_getElem hcolumn]
    exact Turns.lift_update (Read.intOrZero_takes_of_lt hoctets)
  · rw [if_neg (by rw [ht, List.length_map]; omega), List.getElem?_eq_none (by omega),
      Option.bind_none, ← hnone]
    exact Turns.lift_update (Read.intOrZero_takes_of_lt hoctets)

lemma header_turns (hfits : h.Fits) (hne : h.labels ≠ []) :
    Turns [] HeaderRead.header (ofLittleEndian 4 h.head.length ++ h.head) {} h.table () := by
  have hword :
      Read.Takes none Read.word (ofLittleEndian 4 h.head.length) (some h.head.length) :=
    Read.word_takes hfits.head_lt
  have hcount : Read.Takes none Read.int (encodeNumber h.labels.length)
      (some (h.labels.length : Int)) :=
    Read.int_takes_of_lt (List.length_pos_iff.mpr hne) hfits.labels_lt
  have hoctets : ofLittleEndian 4 h.head.length ++ h.head =
      ofLittleEndian 4 h.head.length ++ (encodeNumber h.labels.length ++
        (h.labels.flatMap Label.encode ++ (h.keyHead ++
          (encodeNumber h.rowIndex.length ++ (encodeNumber h.rowCount ++
            (encodeNumber h.content.length ++ h.trailer)))))) := by
    simp only [head, headFront, List.append_assoc]
  rw [hoctets]
  refine Turns.lift_bind hword ?_
  refine Turns.update_bind ?_
  refine Turns.lift_bind hcount ?_
  refine Turns.update_bind ?_
  refine Turns.bind (columns_turns h.labels) ?_
  cases hkey : h.key with
  | none =>
    have hkeyHead : h.keyHead = [if false then 1 else 0] := by rw [keyHead, hkey]; rfl
    have htable :
        h.table = { h.table with keyed := none, primaryKey := none, keyLength := 0 } := by
      simp [table, keyBlock, hkey]
    rw [hkeyHead, htable]
    refine Turns.lift_bind (Read.mark_takes false) ?_
    refine Turns.update_bind ?_
    refine sizes_turns hfits ?_ rfl
    simp [headFront, hkeyHead]
  | some k =>
    have hkeyHead : h.keyHead = [if true then 1 else 0] ++
        (encodeNumber k.column ++ encodeNumber k.octets.length) := by
      rw [keyHead, hkey]
      rfl
    have htable : h.table = { h.table with
        keyed := some true
        primaryKey := h.labels[k.column]?.bind fun c => c.column.name
        keyLength := k.octets.length } := by
      simp [table, keyBlock, hkey]
    rw [hkeyHead, htable, List.append_assoc]
    refine Turns.lift_bind (Read.mark_takes true) ?_
    refine Turns.update_bind ?_
    refine Turns.bind (primaryKey_turns hfits hkey rfl rfl) ?_
    refine sizes_turns hfits ?_ rfl
    simp [headFront, hkeyHead]

/-! ## Sections -/

lemma isKeyed_table (h : Heading) : h.table.isKeyed = h.key.isSome := by
  rw [isKeyed, table]
  cases h.key <;> rfl

lemma contentStart_table (h : Heading) : h.table.contentStart = h.front.length := by
  have hkey : (if h.table.isKeyed then h.table.keyLength else 0) = (h.keyBlock.length : Int) := by
    rw [isKeyed_table]
    cases hkey : h.key with
    | none => simp [keyBlock, hkey]
    | some k => simp [table]
  have hfront : h.front.length = 4 + h.head.length + h.keyBlock.length + h.rowIndex.length := by
    simp only [front, List.length_append, length_ofLittleEndian]
    omega
  rw [contentStart, hkey, hfront, indexStart]
  simp only [table, Option.getD_some]
  omega

lemma poolStart_table (h : Heading) : h.table.poolStart = (h.front ++ h.content).length := by
  rw [poolStart, contentStart_table, List.length_append]
  simp [table]

lemma contentOf_front (h : Heading) (behind : Bytes) :
    contentOf (h.front ++ (h.content ++ behind)) h.table = (h.content, []) := by
  have hinside : ¬ h.table.poolStart > (h.front ++ (h.content ++ behind)).length := by
    rw [poolStart_table]
    simp only [List.length_append]
    omega
  rw [contentOf, if_neg hinside, contentStart_table, poolStart_table, Bytes.slice_append]

lemma readPool_of_end (h : Heading) :
    readPool (h.front ++ h.content) h.table =
      ({ h.table with pool := { columnSize := 0 } }, []) := by
  have hend : h.table.poolStart ≥ (h.front ++ h.content).length := by rw [poolStart_table]
  rw [readPool]
  rw [if_pos hend]
  rfl

/-! ## Loading -/

lemma take_front_ne (hlt : h.head.length < 2 ^ 32) (behind : Bytes) :
    (h.front ++ behind).take 100 ≠ List.replicate 100 0 := by
  intro hzeros
  have hfour : (h.front ++ behind).take 4 = ofLittleEndian 4 h.head.length := by
    rw [front, List.append_assoc]
    exact List.take_left' (length_ofLittleEndian 4 _)
  have hlength : Bytes.littleEndian ((h.front ++ behind).take 4) = h.head.length := by
    rw [hfour, Bytes.littleEndian_ofLittleEndian hlt]
  have hzero : (h.front ++ behind).take 4 = List.replicate 4 0 := by
    have := congrArg (List.take 4) hzeros
    rwa [List.take_take] at this
  have hpos : 0 < h.head.length := by
    have := List.length_pos_iff.mpr (encodeNumber_ne_nil h.labels.length)
    simp only [head, headFront, List.length_append]
    omega
  rw [hzero] at hlength
  exact absurd hlength.symm (Nat.pos_iff_ne_zero.mp hpos)

lemma load_eq (hfits : h.Fits) (hne : h.labels ≠ []) {behind : Bytes}
    (htext : isText (h.front ++ behind) = false) :
    load (h.front ++ behind) = loadContent (h.front ++ behind) h.table := by
  have hsplit : h.front ++ behind = (ofLittleEndian 4 h.head.length ++ h.head) ++
      (h.keyBlock ++ (h.rowIndex ++ behind)) := by
    simp only [front, List.append_assoc]
  have hc : (Cursor.ofBytes (h.front ++ behind)).Between []
      ((ofLittleEndian 4 h.head.length ++ h.head) ++
        (h.keyBlock ++ (h.rowIndex ++ behind))) := by
    rw [← hsplit]
    exact Cursor.between_ofBytes _
  have hheader : HeaderRead.header ({}, Cursor.ofBytes (h.front ++ behind)) = .ok () (h.table, _) :=
    header_turns hfits hne hc rfl
  exact load_of_ok htext (take_front_ne hfits.head_lt behind) hheader

lemma load_of_labels_nil (hlt : h.head.length < 2 ^ 32) (hnil : h.labels = []) {behind : Bytes}
    (htext : isText (h.front ++ behind) = false) :
    (load (h.front ++ behind)).fault = some .noColumnCount ∧
      (load (h.front ++ behind)).table.rows = [] := by
  have hword :
      Read.Takes none Read.word (ofLittleEndian 4 h.head.length) (some h.head.length) :=
    Read.word_takes hlt
  have hcount : Read.Takes none Read.int (encodeNumber h.labels.length) none := by
    rw [hnil]
    exact Read.int_takes 0
  obtain ⟨rest, hsplit⟩ : ∃ rest, h.front ++ behind =
      ofLittleEndian 4 h.head.length ++ (encodeNumber h.labels.length ++ rest) := by
    simp only [front, head, headFront, List.append_assoc]
    exact ⟨_, rfl⟩
  have hc : (Cursor.ofBytes (h.front ++ behind)).Between []
      (ofLittleEndian 4 h.head.length ++ (encodeNumber h.labels.length ++ rest)) := by
    rw [← hsplit]
    exact Cursor.between_ofBytes _
  -- the header has noted its length and found no number of columns
  have hrun : HeaderRead.header ({}, Cursor.ofBytes (h.front ++ behind)) =
      .error .noColumnCount ({ headerLength := some h.head.length, columnCount := none },
        ((Cursor.ofBytes (h.front ++ behind)).advance
          (ofLittleEndian 4 h.head.length).length).advance
            (encodeNumber h.labels.length).length) := by
    unfold HeaderRead.header
    rw [HeaderRead.bind_of_ok (Turns.lift hword none hc rfl)]
    exact HeaderRead.bind_of_ok (Turns.lift hcount none hc.advance rfl)
  rw [load_of_error htext (take_front_ne hlt behind) hrun]
  exact ⟨rfl, rfl⟩

end Heading

/-! ## Tables -/

def Field.label (f : Field) : Label :=
  ⟨f.kind.code, Nat.succ_pos _, f.kind.code_lt, f.name, f.name_plain⟩

lemma Field.column_label (f : Field) : f.label.column = f.column := by
  rw [Label.column, Field.column, Field.label, textRead, if_neg f.name_ne]

structure Layout where
  fields : List Field
  names_nodup : (fields.map Field.name).Nodup
  key : Option KeyBlock
  magic : Option UInt32
  rowIndex : Bytes
  rows : List (Cells fields)
  pool : Option PoolPlan

namespace Layout

variable (l : Layout)

def texts (i : Nat) : Option (List String) :=
  l.pool.bind fun p => if i ∈ p.columns then some p.texts else none

def content : Bytes :=
  l.rows.flatMap (Cells.encode l.texts 0 l.fields)

def keyHead : Bytes :=
  match l.key with
  | none => [0]
  | some k => 1 :: (encodeNumber k.column ++ encodeNumber k.octets.length)

/-- The octets of the header up to the length of the content. -/
def headFront : Bytes :=
  encodeNumber l.fields.length ++ (l.fields.flatMap Field.encode ++ (l.keyHead ++
    (encodeNumber l.rowIndex.length ++ (encodeNumber l.rows.length ++
      encodeNumber l.content.length))))

def trailer : Bytes :=
  (l.magic.map fun w => Bytes.ofLittleEndian 4 w.toNat).getD []

def head : Bytes :=
  l.headFront ++ l.trailer

def keyBlock : Bytes :=
  (l.key.map KeyBlock.octets).getD []

def poolOctets : Bytes :=
  (l.pool.map PoolPlan.encode).getD []

def encode : Bytes :=
  Bytes.ofLittleEndian 4 l.head.length ++
    (l.head ++ (l.keyBlock ++ (l.rowIndex ++ (l.content ++ l.poolOctets))))

def header : Table where
  headerLength := some l.head.length
  columnCount := some (l.fields.length : Int)
  columns := l.fields.map Field.column
  keyed := if l.key.isSome then some true else none
  primaryKey := l.key.bind fun k => l.fields[k.column]?.map Field.name
  keyLength := l.keyBlock.length
  rowIndexLength := l.rowIndex.length
  rowCount := l.rows.length
  contentLength := l.content.length
  magic := some ((l.magic.map UInt32.toNat).getD 0)

def front (l : Layout) : Bytes :=
  Bytes.ofLittleEndian 4 l.head.length ++ (l.head ++ (l.keyBlock ++ l.rowIndex))

def heading : Heading where
  labels := l.fields.map Field.label
  key := l.key
  magic := l.magic
  rowIndex := l.rowIndex
  rowCount := l.rows.length
  content := l.content

lemma head_heading : l.heading.head = l.head := by
  have hlabels : (l.fields.map Field.label).flatMap Label.encode = l.fields.flatMap Field.encode :=
    List.flatMap_map _ _ _
  rw [Heading.head, Heading.headFront, head, headFront]
  simp only [heading, hlabels, List.length_map]
  rfl

lemma front_heading : l.heading.front = l.front := by
  rw [Heading.front, head_heading, front]
  rfl

lemma table_heading : l.heading.table = l.header := by
  have hcolumns : (l.fields.map Field.label).map Label.column = l.fields.map Field.column := by
    rw [List.map_map]
    exact List.map_congr_left fun f _ => f.column_label
  have hkey (k : KeyBlock) : ((l.fields.map Field.label)[k.column]?.bind fun c => c.column.name) =
      l.fields[k.column]?.map Field.name := by
    rw [List.getElem?_map]
    cases l.fields[k.column]? with
    | none => rfl
    | some f => exact congrArg Column.name f.column_label
  rw [Heading.table, head_heading, header]
  simp only [heading, hcolumns, hkey, List.length_map]
  rfl

end Layout

end Salvage.Table
