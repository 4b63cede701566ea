import Mathlib.Data.List.Basic
import Salvage.Proofs.Table.Cursor
import Salvage.Table.Load

/-!
# String pools are read back

The offsets in the pool of a file may be anything: they may go down, and lie behind the file or before
it. What is found under a position is said for all of them; in a pool that was written out, it is the
text.
-/

namespace Salvage.Table

/-! ## Pools to be written -/

structure PoolEntry where
  text : String
  plain : 0 ∉ Bytes.ofString text
  padding : Bytes
  padding_zero : ∀ b ∈ padding.head?, b = 0

def PoolEntry.octets (e : PoolEntry) : Bytes :=
  Bytes.ofString e.text ++ e.padding

structure PoolPlan where
  columns : List Nat
  entries : List PoolEntry

namespace PoolPlan

def texts (p : PoolPlan) : List String :=
  p.entries.map PoolEntry.text

def endsFrom (start : Nat) : List PoolEntry → List Nat
  | [] => []
  | e :: es => (start + e.octets.length) :: endsFrom (start + e.octets.length) es

def ends (p : PoolPlan) : List Nat :=
  endsFrom 0 p.entries

def columnMap (p : PoolPlan) : Bytes :=
  p.columns.flatMap encodeNumber

def offsets (p : PoolPlan) : Bytes :=
  p.ends.flatMap encodeNumber

def content (p : PoolPlan) : Bytes :=
  p.entries.flatMap PoolEntry.octets

def head (p : PoolPlan) : Bytes :=
  encodeNumber p.columns.length ++ (encodeNumber p.entries.length ++
    (encodeNumber p.columnMap.length ++ encodeNumber p.offsets.length))

def encode (p : PoolPlan) : Bytes :=
  Bytes.ofLittleEndian 4 p.head.length ++ (p.head ++ (p.columnMap ++ (p.offsets ++ p.content)))

@[mk_iff]
structure Fits (p : PoolPlan) : Prop where
  columns_pos : 0 < p.columns.length
  columns_le : p.columns.length ≤ 100
  columns_lt : ∀ i ∈ p.columns, i < 2 ^ 31
  entries_le : p.entries.length ≤ 100000
  columnMap_le : p.columnMap.length ≤ 10000
  offsets_le : p.offsets.length ≤ 100000

instance (p : PoolPlan) : Decidable p.Fits :=
  decidable_of_iff _ (fits_iff p).symm

def pool (p : PoolPlan) : Pool where
  columnSize := p.columns.length
  columns := ((p.columns.map Nat.cast).map (· + 1)).eraseDups
  ends := p.ends.map Nat.cast
  contentStart := 4 + p.head.length + p.columnMap.length + p.offsets.length

end PoolPlan

/-! ## Looking up texts -/

namespace Pool

variable {p : Pool} {data : Bytes} {start lo hi : Int} {i : Nat}

/-- The text of a position is noted to begin at `lo` and to end at `hi`, counted from the start of the
content: it begins where the one before it ends, and the first one at the start. -/
structure Spans (p : Pool) (i : Nat) (lo hi : Int) : Prop where
  lo_eq : (0 :: p.ends)[i]? = some lo
  hi_eq : p.ends[i]? = some hi

lemma exists_spans (h : i < p.ends.length) : ∃ lo hi, p.Spans i lo hi :=
  ⟨_, _, List.getElem?_eq_getElem (Nat.lt_succ_of_lt h), List.getElem?_eq_getElem h⟩

lemma text?_of_length_le (h : p.ends.length ≤ i) : p.text? data start i = .absent := by
  rw [text?, if_pos (.inl (by omega))]

lemma text?_of_ends_eq_nil (h : p.ends = []) (j : Int) : p.text? data start j = .absent := by
  rw [text?, if_pos (.inr (by rw [h]; rfl))]

lemma Spans.first_eq (h : p.Spans i lo hi) :
    (if (i : Int) ≤ 0 then some 0 else entryAt? p.ends (i - 1)) = some lo := by
  cases i with
  | zero => exact h.lo_eq
  | succ i =>
    have hprevious : ((i + 1 : Nat) : Int) - 1 = i := by omega
    rw [if_neg (by omega), hprevious, entryAt?, if_pos (Int.natCast_nonneg _), Int.toNat_natCast]
    exact h.lo_eq

/-- **A text is cut out of the content between its beginning and its end**, unless it ends beyond the
octets of the table. -/
lemma Spans.text?_eq (h : p.Spans i lo hi) : p.text? data start i =
    if start + hi > data.length then .absent
    else .found (Utf8.decodeSkipping (untilZero (Bytes.slice data (start + lo) (start + hi)))) := by
  obtain ⟨hi_lt, -⟩ := List.getElem?_eq_some_iff.mp h.hi_eq
  have hinside : ¬ ((i : Int) + 1 > p.ends.length ∨ p.ends.isEmpty) := by
    rw [List.isEmpty_iff_length_eq_zero]
    omega
  have hlast : entryAt? p.ends i = some hi := by
    rw [entryAt?, if_pos (Int.natCast_nonneg _), Int.toNat_natCast, h.hi_eq]
  rw [text?, if_neg hinside, h.first_eq, hlast]

lemma text?_ne_outside (p : Pool) (data : Bytes) (start : Int) (i : Nat) :
    p.text? data start i ≠ .outside := by
  rcases Nat.lt_or_ge i p.ends.length with h | h
  · obtain ⟨lo, hi, hspans⟩ := exists_spans h
    rw [hspans.text?_eq]
    split
    · exact Lookup.noConfusion
    · exact Lookup.noConfusion
  · rw [text?_of_length_le h]
    exact Lookup.noConfusion

/-- **A text depends on the octets between its beginning and its end only**, if it does not end before
the front. -/
lemma Spans.text?_of_agreeOn (h : p.Spans i lo hi) (hfront : 0 ≤ start + hi) {octets : Bytes}
    (hagree : Bytes.AgreeOn (start + lo) (start + hi) data octets) :
    p.text? octets start i = p.text? data start i := by
  rw [h.text?_eq, h.text?_eq, hagree.length_eq, hagree.slice_eq hfront]

end Pool

/-- **What is found under a position of a string pool.** Behind the last text, and in a pool without
texts anywhere, nothing is found. A text that ends beyond the file is not found either. Every other
text that does not end before the front of the file is found; it is decoded from the octets of the
pool between the end of the text before it and its own end, up to the first zero, and no other octets
of the file have a part in it. -/
theorem pool_text_at_position (data : Bytes) (i : Nat) :
    let t := (load data).table
    let look (octets : Bytes) (j : Int) := t.pool.text? octets t.poolContentStart j
    (t.pool.ends = [] → ∀ j, look data j = .absent) ∧
    look data i ≠ .outside ∧
    (t.pool.ends.length ≤ i → look data i = .absent) ∧
    ∀ lo hi, t.pool.Spans i lo hi →
      (data.length < t.poolContentStart + hi → look data i = .absent) ∧
      (0 ≤ t.poolContentStart + hi → t.poolContentStart + hi ≤ data.length →
        ∃ s, look data i = .found s ∧
          (0 ≤ t.poolContentStart + lo → s = Utf8.decodeSkipping (Pool.untilZero
            (Bytes.window data (t.poolContentStart + lo).toNat (hi - lo).toNat))) ∧
          ∀ octets, Bytes.AgreeOn (t.poolContentStart + lo) (t.poolContentStart + hi) data octets →
            look octets i = .found s) := by
  intro t look
  refine ⟨Pool.text?_of_ends_eq_nil, Pool.text?_ne_outside _ _ _ _, Pool.text?_of_length_le, ?_⟩
  intro lo hi hspans
  refine ⟨fun hbeyond => hspans.text?_eq.trans (if_pos hbeyond), fun hfront hend => ?_⟩
  have hfound := hspans.text?_eq.trans (if_neg (Int.not_lt.mpr hend))
  refine ⟨_, hfound, fun hlo => ?_, fun octets hagree => ?_⟩
  · have hlength : t.poolContentStart + hi - (t.poolContentStart + lo) = hi - lo := by omega
    rw [Bytes.slice_eq_window hlo hfront hend, hlength]
  · exact (hspans.text?_of_agreeOn hfront hagree).trans hfound

/-- A table of one text in a pool of two, the second of which ends behind the file. -/
def tornPool : Bytes :=
  [8, 0, 0, 0, 1, 2, 0x41, 0, 0, 0, 1, 1, 0, 4, 0, 0, 0, 1, 2, 1, 2, 0, 1, 5, 0x61, 0x62]

def poolless : Bytes :=
  [8, 0, 0, 0, 1, 14, 0x41, 0, 0, 0, 1, 1, 7]

/-- The first text is found, the second one and a third one are not, and without a pool there is
nothing under any position. -/
theorem tornPool_texts :
    let t := (load tornPool).table
    t.pool.Spans 0 0 1 ∧ t.pool.Spans 1 1 5 ∧ t.poolContentStart = 24 ∧ tornPool.length = 26 ∧
      (∃ s, t.pool.text? tornPool 24 0 = .found s ∧ s = "a") ∧
      t.pool.text? tornPool 24 1 = .absent ∧ t.pool.text? tornPool 24 2 = .absent ∧
      (load poolless).table.pool.ends = [] ∧
      ∀ j, (load poolless).table.pool.text? poolless (load poolless).table.poolContentStart j =
        .absent := by
  intro t
  have hpool : t.pool.ends = [1, 5] ∧ t.poolContentStart = 24 ∧
      (load poolless).table.pool.ends = [] ∧
      Utf8.decodeSkipping (Pool.untilZero (Bytes.window tornPool 24 1)) = "a" := by
    with_unfolding_all decide
  obtain ⟨hends, hstart, hempty, htext⟩ := hpool
  have hfirst : t.pool.Spans 0 0 1 := ⟨rfl, by rw [hends]; rfl⟩
  have hsecond : t.pool.Spans 1 1 5 := ⟨by rw [hends]; rfl, by rw [hends]; rfl⟩
  have hbehind : t.pool.ends.length ≤ 2 := by rw [hends]; decide
  have hlength : tornPool.length = 26 := rfl
  have hzero := ((pool_text_at_position tornPool 0).2.2.2 0 1 hfirst).2
  have hone := ((pool_text_at_position tornPool 1).2.2.2 1 5 hsecond).1
  have htwo := (pool_text_at_position tornPool 2).2.2.1 hbehind
  simp only [show (load tornPool).table.poolContentStart = 24 from hstart, hlength] at hzero hone htwo
  obtain ⟨s, hs, hdecoded, -⟩ := hzero (by decide) (by decide)
  exact ⟨hfirst, hsecond, hstart, hlength, ⟨s, hs, (hdecoded (by decide)).trans htext⟩,
    hone (by decide), htwo, hempty, (pool_text_at_position poolless 0).1 hempty⟩

/-- A table of one text in a pool, which is noted to end before the front of the file. -/
def turnedPool : Bytes :=
  [8, 0, 0, 0, 1, 2, 0x41, 0, 0, 0, 1, 1, 0, 4, 0, 0, 0, 1, 1, 1, 5, 0, 0xE2, 0xFF, 0xFF, 0xFF, 0x0F,
    0x61, 0x62, 0x63, 0x64]

/-- **Positions of a pool without their texts.** The second of two texts is not found, because it ends
behind the file. The number that five octets stand for leads to the first text from the end of the
pool, and the one before it leads out of the pool. Where a text ends before the front of the file,
octets are found that do not lie between its beginning and its end. -/
theorem positions_without_their_texts :
    let t := (load tornPool).table
    let look (j : Int) := t.pool.text? tornPool t.poolContentStart j
    let u := (load turnedPool).table
    (load tornPool).fault = none ∧ t.pool.ends.length = 2 ∧ look 1 = .absent ∧
      Read.intOrZero.run' (Cursor.ofBytes [0xFE, 0xFF, 0xFF, 0xFF, 0x0F]) = some (-2) ∧
      look (-2) = .found "a" ∧
      Read.intOrZero.run' (Cursor.ofBytes [0xFD, 0xFF, 0xFF, 0xFF, 0x0F]) = some (-3) ∧
      look (-3) = .outside ∧
      (load turnedPool).fault = none ∧ u.pool.ends = [-30] ∧
      u.pool.text? turnedPool u.poolContentStart 0 = .found "a" := by
  with_unfolding_all decide

/-! ## Texts by position -/

namespace PoolPlan

lemma untilZero_octets (e : PoolEntry) : Pool.untilZero e.octets = Bytes.ofString e.text := by
  have htext : ∀ b ∈ Bytes.ofString e.text, (b != 0) = true := by
    intro b hb
    have hne : b ≠ 0 := fun h => e.plain (h ▸ hb)
    simpa using hne
  have hpadding : e.padding.takeWhile (· != 0) = [] := by
    cases hp : e.padding with
    | nil => rfl
    | cons b r =>
      have hb : b = 0 := e.padding_zero b (by rw [hp]; rfl)
      simp [hb]
  rw [Pool.untilZero, PoolEntry.octets, List.takeWhile_append_of_pos htext, hpadding,
    List.append_nil]

variable {i : Nat}

lemma endsFrom_getElem? (start : Nat) {es : List PoolEntry} (hi : i ≤ es.length) :
    (start :: endsFrom start es)[i]? =
      some (start + ((es.take i).flatMap PoolEntry.octets).length) := by
  induction es generalizing start i with
  | nil =>
    obtain rfl : i = 0 := Nat.le_zero.mp hi
    simp
  | cons e es ih =>
    cases i with
    | zero => simp
    | succ i =>
      have h := ih (start + e.octets.length) (Nat.le_of_succ_le_succ hi)
      rw [List.getElem?_cons_succ, endsFrom, h, List.take_succ_cons, List.flatMap_cons,
        List.length_append, Nat.add_assoc]

lemma length_endsFrom (start : Nat) (es : List PoolEntry) :
    (endsFrom start es).length = es.length := by
  induction es generalizing start with
  | nil => rfl
  | cons e es ih => rw [endsFrom, List.length_cons, ih, List.length_cons]

lemma content_split (p : PoolPlan) {e : PoolEntry} (he : p.entries[i]? = some e) :
    p.content = (p.entries.take i).flatMap PoolEntry.octets ++
      (e.octets ++ (p.entries.drop (i + 1)).flatMap PoolEntry.octets) := by
  obtain ⟨hi, rfl⟩ := List.getElem?_eq_some_iff.mp he
  rw [content, ← List.flatMap_cons, ← List.drop_eq_getElem_cons hi, ← List.flatMap_append,
    List.take_append_drop]

lemma spans (p : PoolPlan) (hi : i < p.entries.length) :
    p.pool.Spans i ((p.entries.take i).flatMap PoolEntry.octets).length
      ((p.entries.take (i + 1)).flatMap PoolEntry.octets).length := by
  have hpool : p.pool.ends = p.ends.map Nat.cast := rfl
  have hends : (0 :: p.ends.map Nat.cast : List Int) = (0 :: p.ends).map Nat.cast := rfl
  have hlo : (0 :: p.ends)[i]? = _ := endsFrom_getElem? 0 (Nat.le_of_lt hi)
  have hend : p.ends[i]? = _ := endsFrom_getElem? 0 (Nat.succ_le_of_lt hi)
  constructor
  · rw [hpool, hends, List.getElem?_map, hlo, Option.map_some, Nat.zero_add]
  · rw [hpool, List.getElem?_map, hend, Option.map_some, Nat.zero_add]

lemma text?_pool (p : PoolPlan) (front : Bytes) {s : String} (hs : p.texts[i]? = some s) :
    p.pool.text? (front ++ p.content) front.length i = .found s := by
  obtain ⟨e, he, rfl⟩ : ∃ e, p.entries[i]? = some e ∧ e.text = s := by
    simpa [texts] using hs
  obtain ⟨hi, hget⟩ := List.getElem?_eq_some_iff.mp he
  have htake : (p.entries.take (i + 1)).flatMap PoolEntry.octets =
      (p.entries.take i).flatMap PoolEntry.octets ++ e.octets := by
    rw [List.take_add_one, he]
    simp
  have hslice : Bytes.slice (front ++ p.content)
      (front.length + ((p.entries.take i).flatMap PoolEntry.octets).length)
      (front.length + ((p.entries.take i).flatMap PoolEntry.octets ++ e.octets).length) =
      e.octets := by
    have h := Bytes.slice_append (front ++ (p.entries.take i).flatMap PoolEntry.octets) e.octets
      ((p.entries.drop (i + 1)).flatMap PoolEntry.octets)
    rw [p.content_split he]
    simpa [Int.add_assoc] using h
  have hend : ¬ (front.length : Int) +
      ((p.entries.take i).flatMap PoolEntry.octets ++ e.octets).length >
        (front ++ p.content).length := by
    rw [p.content_split he]
    simp only [List.length_append]
    omega
  rw [(p.spans hi).text?_eq, htake, if_neg hend, hslice, untilZero_octets,
    Utf8.decodeSkipping_ofString]

end PoolPlan

/-! ## Reading pools -/

lemma readNumbers_encodeNumber {ns : List Nat} (hns : ∀ n ∈ ns, n < 2 ^ 31) (i : Nat)
    (acc : List Int) {c : Cursor} {pre rest : Bytes}
    (hc : c.Between pre (ns.flatMap encodeNumber ++ rest)) (hs : c.Serves none) {size : Nat}
    (hsize : size = (pre ++ (ns.flatMap encodeNumber ++ rest)).length) :
    readNumbers size ns.length i acc c =
      .ok (acc.reverse ++ ns.map Nat.cast, none) (c.advance (ns.flatMap encodeNumber).length) := by
  induction ns generalizing i acc c pre with
  | nil =>
    rw [List.map_nil, List.append_nil, List.flatMap_nil, List.length_nil, List.length_nil,
      Cursor.advance_zero]
    rfl
  | cons n ns ih =>
    rw [List.flatMap_cons, List.append_assoc] at hc hsize
    have hbefore : ¬ c.pos ≥ size := by
      have := List.length_pos_iff.mpr (encodeNumber_ne_nil n)
      rw [hc.pos_eq, hsize, List.length_append, List.length_append]
      omega
    have hread : Read.intOrZero c = .ok (n : Int) (c.advance (encodeNumber n).length) :=
      Read.intOrZero_takes_of_lt (hns n List.mem_cons_self) hc hs
    have hrest := ih (fun m hm => hns m (List.mem_cons_of_mem _ hm)) (i + 1) (n :: acc) hc.advance
      (hs.advance _) (by rw [hsize, List.append_assoc])
    rw [List.length_cons, readNumbers, Read.get_bind, if_neg hbefore, Read.bind_of_ok hread, hrest,
      List.reverse_cons, List.append_assoc, Cursor.advance_advance, List.flatMap_cons,
      List.length_append]
    rfl

lemma length_encodeNumber_le {n k : Nat} (h : n < 128 ^ (k + 1)) :
    (encodeNumber n).length ≤ k + 1 := by
  induction k generalizing n with
  | zero =>
    rw [encodeNumber, if_pos (show n < 128 from h)]
    exact Nat.le_refl 1
  | succ k ih =>
    rw [encodeNumber]
    split_ifs
    · exact Nat.succ_le_succ (Nat.zero_le _)
    · have hdiv : n / 128 < 128 ^ (k + 1) := by
        rw [Nat.pow_succ] at h
        omega
      exact Nat.succ_le_succ (ih hdiv)

namespace PoolPlan

variable {p : PoolPlan}

lemma length_head_le (h : p.Fits) : p.head.length ≤ 12 := by
  have hcolumns := length_encodeNumber_le (k := 2) (Nat.lt_of_le_of_lt h.columns_le (by decide))
  have hentries := length_encodeNumber_le (k := 2) (Nat.lt_of_le_of_lt h.entries_le (by decide))
  have hmap := length_encodeNumber_le (k := 2) (Nat.lt_of_le_of_lt h.columnMap_le (by decide))
  have hoffsets := length_encodeNumber_le (k := 2) (Nat.lt_of_le_of_lt h.offsets_le (by decide))
  simp only [head, List.length_append]
  omega

lemma readPoolHeader_takes (h : p.Fits) :
    Read.Takes none readPoolHeader (Bytes.ofLittleEndian 4 p.head.length ++ p.head)
      (.found p.head.length
        ⟨p.columns.length, p.entries.length, p.columnMap.length, p.offsets.length⟩) := by
  have hpos : 0 < p.head.length := by
    have := List.length_pos_iff.mpr (encodeNumber_ne_nil p.columns.length)
    rw [head, List.length_append]
    omega
  have hle := length_head_le h
  have hlength : ¬ (p.head.length = 0 ∨ p.head.length > 10000) := by omega
  have hcolumns : ¬ ((p.columns.length : Int) ≤ 0 ∨ (p.columns.length : Int) > 100) := by
    have := h.columns_pos
    have := h.columns_le
    omega
  have hsizes : ¬ ((p.entries.length : Int) > 100000 ∨ (p.columnMap.length : Int) > 10000 ∨
      (p.offsets.length : Int) > 100000) := by
    have := h.entries_le
    have := h.columnMap_le
    have := h.offsets_le
    omega
  have hnumber {n k : Nat} (hn : n ≤ k) (hk : k < 2 ^ 31) :
      Read.Takes none Read.intOrZero (encodeNumber n) (n : Int) :=
    Read.intOrZero_takes_of_lt (Nat.lt_of_le_of_lt hn hk)
  have hoctets : Bytes.ofLittleEndian 4 p.head.length ++ p.head =
      Bytes.ofLittleEndian 4 p.head.length ++ (encodeNumber p.columns.length ++
        (encodeNumber p.entries.length ++ (encodeNumber p.columnMap.length ++
          (encodeNumber p.offsets.length ++ [])))) := by
    rw [List.append_nil, head]
  rw [hoctets]
  refine (Read.word_takes (by omega)).bind ?_
  dsimp only
  rw [if_neg hlength]
  refine (hnumber h.columns_le (by decide)).bind ?_
  rw [if_neg hcolumns]
  refine (hnumber h.entries_le (by decide)).bind ?_
  refine (hnumber h.columnMap_le (by decide)).bind ?_
  refine (hnumber h.offsets_le (by decide)).bind ?_
  rw [if_neg hsizes]
  exact Read.Takes.pure _

lemma le_of_mem_endsFrom {start n : Nat} {es : List PoolEntry} (h : n ∈ endsFrom start es) :
    n ≤ start + (es.flatMap PoolEntry.octets).length := by
  induction es generalizing start with
  | nil => cases h
  | cons e es ih =>
    rw [List.flatMap_cons, List.length_append]
    obtain rfl | hmem := List.mem_cons.mp h
    · omega
    · have := ih hmem
      omega

lemma readPoolBody_encode (h : p.Fits) {front : Bytes}
    (hsize : (front ++ p.encode).length < 2 ^ 31) (t : Table) :
    readPoolBody (front ++ p.encode) front.length p.head.length
        ⟨p.columns.length, p.entries.length, p.columnMap.length, p.offsets.length⟩ t =
      ({ t with pool := p.pool }, []) := by
  have hdata : front ++ p.encode = (front ++ (Bytes.ofLittleEndian 4 p.head.length ++ p.head)) ++
      (p.columnMap ++ (p.offsets ++ p.content)) := by
    simp only [encode, List.append_assoc]
  have hmapStart : (front.length : Int) + 4 + p.head.length =
      (front ++ (Bytes.ofLittleEndian 4 p.head.length ++ p.head)).length := by
    simp only [List.length_append, Bytes.length_ofLittleEndian]
    omega
  have hends : ∀ n ∈ p.ends, n < 2 ^ 31 := by
    intro n hn
    have hle : n ≤ 0 + p.content.length := le_of_mem_endsFrom hn
    simp only [encode, List.length_append] at hsize
    omega
  obtain ⟨c, hcolumns⟩ : ∃ c, readNumbers (front ++ p.encode).length p.columns.length 0 []
      { Cursor.ofBytes (front ++ p.encode) with pos := (front.length : Int) + 4 + p.head.length } =
        .ok (p.columns.map Nat.cast, none) c := by
    rw [hmapStart, hdata]
    exact ⟨_, readNumbers_encodeNumber h.columns_lt 0 [] (Cursor.between_at _ _) rfl rfl⟩
  obtain ⟨c', hoffsets⟩ : ∃ c', readNumbers (front ++ p.encode).length p.entries.length 0 []
      { Cursor.ofBytes (front ++ p.encode) with
        pos := (front.length : Int) + 4 + p.head.length + p.columnMap.length } =
        .ok (p.ends.map Nat.cast, none) c' := by
    rw [hmapStart, hdata, ← List.append_assoc, ← Nat.cast_add, ← List.length_append,
      ← length_endsFrom 0 p.entries]
    exact ⟨_, readNumbers_encodeNumber hends 0 [] (Cursor.between_at _ _) rfl rfl⟩
  rw [readPoolBody]
  rw [Int.toNat_natCast, Int.toNat_natCast, hcolumns]
  dsimp only
  rw [hoffsets]
  rfl

lemma readPool_encode (h : p.Fits) {front : Bytes}
    (hsize : (front ++ p.encode).length < 2 ^ 31) {t : Table} (ht : t.poolStart = front.length) :
    readPool (front ++ p.encode) t = ({ t with pool := p.pool }, []) := by
  have hinside : ¬ t.poolStart ≥ (front ++ p.encode).length := by
    rw [ht, encode, List.length_append, List.length_append, Bytes.length_ofLittleEndian]
    omega
  have hc := Cursor.between_at front p.encode
  have hencode : p.encode = (Bytes.ofLittleEndian 4 p.head.length ++ p.head) ++
      (p.columnMap ++ (p.offsets ++ p.content)) := by
    rw [encode, List.append_assoc]
  have hheader :
      readPoolHeader { Cursor.ofBytes (front ++ p.encode) with pos := front.length } = _ :=
    readPoolHeader_takes h (hencode ▸ hc) rfl
  rw [readPool]
  rw [if_neg hinside, ht, hheader]
  exact readPoolBody_encode h hsize t

lemma isColumn_pool (h : p.Fits) (i : Nat) : p.pool.isColumn (i + 1) = decide (i ∈ p.columns) := by
  have hpos : 0 < p.pool.columnSize := Int.natCast_pos.mpr h.columns_pos
  have hmem : ((i : Int) + 1) ∈ p.pool.columns ↔ i ∈ p.columns := by
    simp [pool, List.mem_eraseDups]
  rw [Bool.eq_iff_iff, Pool.isColumn, Bool.and_eq_true, Bool.and_eq_true, decide_eq_true_eq,
    decide_eq_true_eq, decide_eq_true_eq, List.contains_iff_mem]
  constructor
  · intro hcolumn
    exact hmem.mp hcolumn.2
  · intro hcolumn
    exact ⟨⟨by omega, hpos⟩, hmem.mpr hcolumn⟩

end PoolPlan

end Salvage.Table
