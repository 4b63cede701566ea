import Mathlib.Data.List.Basic
import Salvage.Pak.Basic
import Salvage.Proofs.Text.Utf8

/-!
# The index of a pak file is read whole or not at all

Behind the version, the digest and the number of entries stand the entries one after the other, each
as long as its name. A window or a cut that goes beyond the end of the file is silently shorter, so
that nothing is noticed at the place where a file breaks off. It is noticed behind it: the name moves
the position on by the length that it ought to have, and the last number of the entry, if not an
earlier one, then lies outside.
-/

namespace Salvage.Pak

open Bytes (ofLittleEndian length_ofLittleEndian window_append window)

variable {b pre rest : Bytes} {i n k : Nat}

/-! ## Numbers -/

lemma numberAt_append (pre rest : Bytes) (v : UInt32) :
    numberAt (pre ++ (ofLittleEndian 4 v.toNat ++ rest)) pre.length = .ok v.toNat := by
  have hlength : (ofLittleEndian 4 v.toNat).length = 4 := length_ofLittleEndian 4 _
  have hwindow := window_append pre (ofLittleEndian 4 v.toNat) rest
  rw [hlength] at hwindow
  rw [numberAt, hwindow, if_pos hlength, Bytes.littleEndian_ofLittleEndian v.toNat_lt]

lemma numberAt_of_short (h : b.length < i + 4) : numberAt b i = .error .shortNumber := by
  have hwindow : (window b i 4).length ≠ 4 := by
    simp only [window, List.length_take, List.length_drop]
    omega
  rw [numberAt, if_neg hwindow]

/-! ## Lengths of names -/

lemma toNat_group (n : Nat) : (UInt8.ofNat (128 + n % 128)).toNat = 128 + n % 128 := by
  rw [UInt8.toNat_ofNat']
  omega

lemma not_group_lt (n : Nat) : ¬ UInt8.ofNat (128 + n % 128) < 128 := by
  rw [UInt8.lt_iff_toNat_lt, toNat_group]
  simp

/-- **A length in front of any octets is read back**, with the number of octets that it takes. -/
lemma lengthPrefix?_encodeLength (n : Nat) (rest : Bytes) :
    lengthPrefix? (encodeLength n ++ rest) = some (n, (encodeLength n).length) := by
  induction n using encodeLength.induct with
  | case1 n hn =>
    have htoNat : (UInt8.ofNat n).toNat = n := by
      rw [UInt8.toNat_ofNat']
      omega
    have hlast : UInt8.ofNat n < 128 := by
      rw [UInt8.lt_iff_toNat_lt, htoNat]
      exact hn
    rw [encodeLength, if_pos hn, List.singleton_append, lengthPrefix?, if_pos hlast, htoNat,
      List.length_singleton]
  | case2 n hn ih =>
    have hnumber : (128 + n % 128) % 128 + 128 * (n / 128) = n := by omega
    rw [encodeLength, if_neg hn, List.cons_append, lengthPrefix?, if_neg (not_group_lt n), ih,
      Option.map_some, toNat_group]
    dsimp only
    rw [hnumber, List.length_cons]

lemma lengthPrefix?_take (h : k < (encodeLength n).length) :
    lengthPrefix? ((encodeLength n).take k) = none := by
  induction n using encodeLength.induct generalizing k with
  | case1 n hn =>
    rw [encodeLength, if_pos hn, List.length_singleton] at h
    obtain rfl : k = 0 := by omega
    rfl
  | case2 n hn ih =>
    rw [encodeLength, if_neg hn] at h ⊢
    cases k with
    | zero => rfl
    | succ k =>
      rw [List.take_succ_cons, lengthPrefix?, if_neg (not_group_lt n),
        ih (Nat.lt_of_succ_lt_succ h), Option.map_none]

/-! ## Names -/

lemma viewFrom_append (pre rest : Bytes) : viewFrom (pre ++ rest) pre.length = rest := by
  rw [viewFrom, if_pos (Int.natCast_nonneg _), Int.toNat_natCast, List.drop_left]

lemma nameAt_append (pre rest : Bytes) (name : String) :
    nameAt (pre ++ (encodeLength (Utf8.encode name).length ++ (Utf8.encode name ++ rest)))
        pre.length =
      .ok (name, ((pre ++ (encodeLength (Utf8.encode name).length ++ Utf8.encode name)).length :
        Nat)) := by
  have hslice := Bytes.slice_append (pre ++ encodeLength (Utf8.encode name).length)
    (Utf8.encode name) rest
  simp only [List.append_assoc, List.length_append, Int.natCast_add, ← Int.add_assoc] at hslice
  rw [nameAt, viewFrom_append, lengthPrefix?_encodeLength]
  dsimp only
  rw [hslice, Utf8.decode_eq_ok_iff.mpr rfl]
  simp only [List.length_append, Int.natCast_add, ← Int.add_assoc]

variable {name : String} {es : List (String × Entry)}

/-- Behind a name that breaks off the position is the one that it would have been, or the name is
refused. -/
lemma nameAt_take {j : Int} (h : nameAt (pre ++ (encodeLength n ++ rest).take k)
    pre.length = .ok (name, j)) : j = (pre.length + (encodeLength n).length + n : Nat) := by
  rw [nameAt, viewFrom_append] at h
  rcases Nat.lt_or_ge k (encodeLength n).length with hk | hk
  · -- the octets break off inside the length
    rw [List.take_append_of_le_length (Nat.le_of_lt hk), lengthPrefix?_take hk] at h
    cases h
  · rw [List.take_append, List.take_of_length_le hk, lengthPrefix?_encodeLength] at h
    dsimp only at h
    split at h
    · have hj := (Prod.mk.inj (Except.ok.inj h)).2
      omega
    · cases h

/-! ## Entries -/

def entryOctets (es : List (String × UInt32 × UInt32)) : Bytes :=
  es.flatMap fun (name, offset, size) => encodeEntry name offset.toNat size.toNat

def listed (e : String × UInt32 × UInt32) : String × Entry :=
  (e.1, ⟨e.2.1.toNat, e.2.2.toNat, PolyHash.ofString e.1⟩)

lemma entryOctets_cons (e : String × UInt32 × UInt32) (es : List (String × UInt32 × UInt32)) :
    entryOctets (e :: es) = entryOctets [e] ++ entryOctets es := by
  rw [entryOctets, entryOctets, entryOctets, ← List.flatMap_append, List.singleton_append]

lemma entryOctets_singleton (name : String) (offset size : UInt32) :
    entryOctets [(name, offset, size)] =
      encodeLength (Utf8.encode name).length ++ (Utf8.encode name ++
        (ofLittleEndian 4 offset.toNat ++ ofLittleEndian 4 size.toNat)) := by
  rw [entryOctets, List.flatMap_singleton]
  simp only [encodeEntry, List.append_assoc]

lemma length_entryOctets_singleton (name : String) (offset size : UInt32) :
    (entryOctets [(name, offset, size)]).length =
      (encodeLength (Utf8.encode name).length).length + (Utf8.encode name).length + 8 := by
  rw [entryOctets_singleton]
  simp only [List.length_append, length_ofLittleEndian]
  omega

lemma insert_of_notMem {e : Entry}
    (h : name ∉ es.map Prod.fst) : insert name e es = es ++ [(name, e)] := by
  induction es with
  | nil => rfl
  | cons x r ih =>
    obtain ⟨m, f⟩ := x
    rw [List.map_cons, List.mem_cons, not_or] at h
    rw [insert, if_neg (Ne.symm h.1), ih h.2, List.cons_append]

lemma entriesFrom_succ {j offset size : Nat}
    (hname : nameAt b i = .ok (name, (j : Int))) (hoffset : numberAt b j = .ok offset)
    (hsize : numberAt b (j + 4) = .ok size) :
    entriesFrom b (n + 1) i es =
      entriesFrom b n (j + 8) (insert name ⟨offset, size, PolyHash.ofString name⟩ es) := by
  rw [entriesFrom, hname]
  simp only [bind, Except.bind, Int.toNat_natCast, hoffset, hsize]

lemma entriesFrom_of_short
    (h : ∀ name (j : Int), nameAt b i = .ok (name, j) → b.length < j.toNat + 8) :
    ∃ f, entriesFrom b (n + 1) i es = .error f := by
  rw [entriesFrom]
  cases hname : nameAt b i with
  | error f => exact ⟨f, rfl⟩
  | ok found =>
    obtain ⟨name, j⟩ := found
    have hsize : numberAt b (j.toNat + 4) = .error .shortNumber :=
      numberAt_of_short (h name j hname)
    cases hoffset : numberAt b j.toNat with
    | error f => exact ⟨f, by simp only [bind, Except.bind, hoffset]⟩
    | ok offset => exact ⟨.shortNumber, by simp only [bind, Except.bind, hoffset, hsize]⟩

lemma entriesFrom_cons (pre rest : Bytes) (name : String) (offset size : UInt32)
    (es : List (String × Entry)) (n : Nat) :
    entriesFrom (pre ++ (entryOctets [(name, offset, size)] ++ rest)) (n + 1) pre.length es =
      entriesFrom (pre ++ (entryOctets [(name, offset, size)] ++ rest)) n
        (pre ++ entryOctets [(name, offset, size)]).length
        (insert name ⟨offset.toNat, size.toNat, PolyHash.ofString name⟩ es) := by
  have hoctets : entryOctets [(name, offset, size)] ++ rest =
      encodeLength (Utf8.encode name).length ++ (Utf8.encode name ++
        (ofLittleEndian 4 offset.toNat ++ (ofLittleEndian 4 size.toNat ++ rest))) := by
    rw [entryOctets_singleton]
    simp only [List.append_assoc]
  have hname := nameAt_append pre
    (ofLittleEndian 4 offset.toNat ++ (ofLittleEndian 4 size.toNat ++ rest)) name
  have hoffset := numberAt_append
    (pre ++ (encodeLength (Utf8.encode name).length ++ Utf8.encode name))
    (ofLittleEndian 4 size.toNat ++ rest) offset
  have hsize := numberAt_append (pre ++ (encodeLength (Utf8.encode name).length ++
    (Utf8.encode name ++ ofLittleEndian 4 offset.toNat))) rest size
  have hafter : (pre ++ (encodeLength (Utf8.encode name).length ++ (Utf8.encode name ++
      ofLittleEndian 4 offset.toNat))).length =
      (pre ++ (encodeLength (Utf8.encode name).length ++ Utf8.encode name)).length + 4 := by
    simp only [List.length_append, length_ofLittleEndian]
    omega
  have hend : (pre ++ entryOctets [(name, offset, size)]).length =
      (pre ++ (encodeLength (Utf8.encode name).length ++ Utf8.encode name)).length + 8 := by
    rw [List.length_append, length_entryOctets_singleton]
    simp only [List.length_append]
    omega
  rw [hafter] at hsize
  simp only [List.append_assoc] at hoffset hsize
  rw [hoctets, entriesFrom_succ hname hoffset hsize, hend]

lemma entriesFrom_entryOctets {es : List (String × UInt32 × UInt32)} {acc : List (String × Entry)}
    (hnames : (acc.map Prod.fst ++ es.map Prod.fst).Nodup) (pre rest : Bytes) :
    entriesFrom (pre ++ (entryOctets es ++ rest)) es.length pre.length acc =
      .ok (acc ++ es.map listed) := by
  induction es generalizing acc pre with
  | nil => rw [List.length_nil, entriesFrom, List.map_nil, List.append_nil]
  | cons e es ih =>
    obtain ⟨name, offset, size⟩ := e
    have hnew : name ∉ acc.map Prod.fst := by
      intro hmem
      exact (List.nodup_append.mp hnames).2.2 name hmem name List.mem_cons_self rfl
    have hnames' : ((acc ++ [listed (name, offset, size)]).map Prod.fst ++
        es.map Prod.fst).Nodup := by
      rw [List.map_append, List.append_assoc]
      exact hnames
    have hrest := ih hnames' (pre ++ entryOctets [(name, offset, size)])
    rw [List.append_assoc] at hrest
    rw [List.length_cons, entryOctets_cons, List.append_assoc, entriesFrom_cons,
      insert_of_notMem hnew]
    exact hrest.trans (by rw [List.append_assoc, List.map_cons, List.singleton_append])

/-- **Entries that break off are refused.**

**Proof sketch.** Induction on the entries. If the octets break off behind the first entry, it is
read, and the entries behind it are refused. If they break off inside it, the position behind its
name is right if there is one (`nameAt_take`), so that its last number ends outside the octets. -/
lemma entriesFrom_take {es : List (String × UInt32 × UInt32)} (h : k < (entryOctets es).length)
    (pre : Bytes) (acc : List (String × Entry)) :
    ∃ f, entriesFrom (pre ++ (entryOctets es).take k) es.length pre.length acc = .error f := by
  induction es generalizing pre acc k with
  | nil => simp [entryOctets] at h
  | cons e es ih =>
    obtain ⟨name, offset, size⟩ := e
    rw [List.length_cons, entryOctets_cons]
    rw [entryOctets_cons, List.length_append] at h
    have hlength := length_entryOctets_singleton name offset size
    rcases Nat.lt_or_ge k (entryOctets [(name, offset, size)]).length with hk | hk
    · refine entriesFrom_of_short fun name' j hname => ?_
      rw [entryOctets_singleton, List.append_assoc] at hname
      have hj := nameAt_take hname
      rw [List.length_append, List.length_take, hj, Int.toNat_natCast]
      omega
    · rw [List.take_append, List.take_of_length_le hk, entriesFrom_cons, ← List.append_assoc]
      exact ih (by omega) _ _

/-! ## Files -/

structure Index where
  version : UInt32
  digest : Bytes
  length_digest : digest.length = 16
  /-- The names of the entries, with the place and the number of their octets. -/
  entries : List (String × UInt32 × UInt32)
  nodup : (entries.map Prod.fst).Nodup
  length_lt : entries.length < 2 ^ 32

namespace Index

def octets (x : Index) : Bytes :=
  encode x.version.toNat x.digest (x.entries.map fun (name, offset, size) =>
    (name, offset.toNat, size.toNat))

def listing (x : Index) : List (String × Entry) :=
  x.entries.map listed

def front (x : Index) : Bytes :=
  Bytes.ofLittleEndian 4 x.version.toNat ++ (x.digest ++ Bytes.ofLittleEndian 4 x.entries.length)

lemma octets_eq (x : Index) : x.octets = x.front ++ entryOctets x.entries := by
  rw [octets, encode, front, entryOctets, List.length_map, List.flatMap_map]
  simp only [List.append_assoc]

lemma length_front (x : Index) : x.front.length = 24 := by
  simp only [front, List.length_append, length_ofLittleEndian, x.length_digest]

lemma toNat_length (x : Index) : (UInt32.ofNat x.entries.length).toNat = x.entries.length :=
  UInt32.toNat_ofNat_of_lt' x.length_lt

lemma load_front (x : Index) (rest : Bytes) :
    load (x.front ++ rest) = (entriesFrom (x.front ++ rest) x.entries.length x.front.length []).map
      fun es => ⟨x.front ++ rest, x.version.toNat, x.digest, x.entries.length, es⟩ := by
  have hversion := numberAt_append [] (x.digest ++
    (ofLittleEndian 4 x.entries.length ++ rest)) x.version
  have hcount := numberAt_append (ofLittleEndian 4 x.version.toNat ++ x.digest) rest
    (UInt32.ofNat x.entries.length)
  have hdigest := window_append (ofLittleEndian 4 x.version.toNat) x.digest
    (ofLittleEndian 4 x.entries.length ++ rest)
  have hdata : x.front ++ rest = ofLittleEndian 4 x.version.toNat ++ (x.digest ++
      (ofLittleEndian 4 x.entries.length ++ rest)) := by
    simp only [front, List.append_assoc]
  rw [toNat_length, List.append_assoc, List.length_append, length_ofLittleEndian,
    x.length_digest] at hcount
  rw [length_ofLittleEndian, x.length_digest] at hdigest
  rw [List.nil_append, List.length_nil] at hversion
  rw [load, length_front, hdata, hversion]
  simp only [bind, Except.bind]
  rw [hcount, hdigest]
  dsimp only
  cases entriesFrom _ x.entries.length 24 [] <;> rfl

lemma load_of_short {b : Bytes} (h : b.length < 24) : ∃ f, load b = .error f := by
  have hcount : numberAt b 20 = .error .shortNumber := numberAt_of_short h
  rw [load]
  cases hversion : numberAt b 0 with
  | error f => exact ⟨f, rfl⟩
  | ok version => exact ⟨.shortNumber, by simp only [bind, Except.bind, hcount]⟩

end Index

/-- **The index of a pak file is read whole or not at all**: whatever octets follow it, the version,
the digest, the number of entries and the entries are read back, in their order and with the hashes of
their names; and if it breaks off anywhere, the file is refused. -/
theorem index_whole_or_refused (x : Index) :
    (∀ rest, load (x.octets ++ rest) =
      .ok ⟨x.octets ++ rest, x.version.toNat, x.digest, x.entries.length, x.listing⟩) ∧
    ∀ k < x.octets.length, ∃ f, load (x.octets.take k) = .error f := by
  constructor
  · intro rest
    have hnames : (([] : List (String × Entry)).map Prod.fst ++ x.entries.map Prod.fst).Nodup :=
      x.nodup
    rw [x.octets_eq, List.append_assoc, x.load_front, entriesFrom_entryOctets hnames]
    rfl
  · intro k hk
    rcases Nat.lt_or_ge k x.front.length with hfront | hfront
    · apply Index.load_of_short
      rw [List.length_take, ← x.length_front]
      omega
    · rw [x.octets_eq, List.length_append] at hk
      have hcut : k - x.front.length < (entryOctets x.entries).length := by omega
      obtain ⟨f, hf⟩ := entriesFrom_take hcut x.front []
      refine ⟨f, ?_⟩
      rw [x.octets_eq, List.take_append, List.take_of_length_le hfront, x.load_front, hf]
      rfl

def twoEntries : Index where
  version := 3
  digest := List.replicate 16 0xAB
  length_digest := rfl
  entries := [("ui/mäin", 60, 4), ("", 0xFFFFFFFF, 0)]
  nodup := by decide
  length_lt := by decide

/-- The index of two entries with a stray octet behind it, and without the last octet of its first
name. -/
theorem index_whole_or_refused_two :
    load (twoEntries.octets ++ [0x2A]) =
        .ok ⟨twoEntries.octets ++ [0x2A], 3, List.replicate 16 0xAB, 2, twoEntries.listing⟩ ∧
      32 < twoEntries.octets.length ∧ ∃ f, load (twoEntries.octets.take 32) = .error f := by
  have hlength : 32 < twoEntries.octets.length := by
    have hentries := length_entryOctets_singleton "" 0xFFFFFFFF 0
    have hfirst := length_entryOctets_singleton "ui/mäin" 60 4
    have hsplit : twoEntries.octets = twoEntries.front ++ (entryOctets [("ui/mäin", 60, 4)] ++
        entryOctets [("", 0xFFFFFFFF, 0)]) := by
      rw [twoEntries.octets_eq, ← entryOctets_cons]
      rfl
    rw [hsplit, List.length_append, List.length_append, twoEntries.length_front]
    omega
  exact ⟨(index_whole_or_refused twoEntries).1 _, hlength,
    (index_whole_or_refused twoEntries).2 32 hlength⟩

end Salvage.Pak
