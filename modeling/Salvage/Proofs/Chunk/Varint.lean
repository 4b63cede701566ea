import Mathlib.Tactic.Lemma
import Salvage.Chunk.Varint

/-!
# Numbers in chunks: reading what was written

The groups of a number stand most significant first, and only the last octet has its high bit set.
So a reader that collects seven bits from each octet has, behind each group, the number spelled so
far, and it stops exactly at the last group of the number in front of it. Where no octet has its high
bit set, no number ends and the reader stays where it is.
-/

namespace Salvage.Varint

/-! ## One group -/

lemma shiftLeft_or_group (q r : Nat) (hr : r < 128) :
    (UInt32.ofNat q <<< 7) ||| UInt32.ofNat r = UInt32.ofNat (128 * q + r) := by
  apply UInt32.toNat_inj.mp
  have hshift : (UInt32.ofNat q <<< 7).toNat = 2 ^ 7 * (q % 2 ^ 25) := by
    rw [UInt32.toNat_shiftLeft, UInt32.toNat_ofNat']
    simp only [UInt32.reduceToNat, Nat.reduceMod, Nat.shiftLeft_eq]
    omega
  have hgroup : (UInt32.ofNat r).toNat = r := by
    rw [UInt32.toNat_ofNat']
    omega
  rw [UInt32.toNat_or, hshift, hgroup, ← Nat.two_pow_add_eq_or_of_lt hr, UInt32.toNat_ofNat']
  omega

lemma low_bits (b : UInt8) : (b &&& 0x7F).toUInt32 = UInt32.ofNat (b.toNat % 128) := by
  apply UInt32.toNat_inj.mp
  have hmask : (0x7F : UInt8).toNat = 2 ^ 7 - 1 := rfl
  rw [UInt8.toNat_toUInt32, UInt8.toNat_and, hmask, Nat.and_two_pow_sub_one_eq_mod,
    UInt32.toNat_ofNat']
  omega

/-- One octet read behind the number `q`: its group becomes the last one, and its high bit says
whether there is a further one. -/
lemma readFrom_cons (q count : Nat) (b : UInt8) (rest : Bytes) :
    readFrom (UInt32.ofNat q) count (b :: rest) =
      if b < 0x80 then readFrom (UInt32.ofNat (128 * q + b.toNat % 128)) (count + 1) rest
      else ⟨UInt32.ofNat (128 * q + b.toNat % 128), some (count + 1)⟩ := by
  have hmod : b.toNat % 128 < 128 := Nat.mod_lt _ (by decide)
  rw [readFrom, low_bits, shiftLeft_or_group q _ hmod]

/-! ## Whole numbers -/

lemma groupsOnto_of_ne_zero {n : Nat} (hn : n ≠ 0) (acc : Bytes) :
    groupsOnto n acc = groupsOnto (n / 128) (UInt8.ofNat (n % 128) :: acc) := by
  rw [groupsOnto, dif_neg hn]

lemma groupsOnto_append (n : Nat) (acc rest : Bytes) :
    groupsOnto n acc ++ rest = groupsOnto n (acc ++ rest) := by
  induction n, acc using groupsOnto.induct with
  | case1 acc => simp [groupsOnto]
  | case2 n acc hn ih =>
    rw [groupsOnto_of_ne_zero hn, ih, List.cons_append, groupsOnto_of_ne_zero hn]

lemma length_groupsOnto (n : Nat) (acc : Bytes) :
    (groupsOnto n acc).length = (groupsOnto n []).length + acc.length := by
  have h := congrArg List.length (groupsOnto_append n [] acc)
  simpa using h.symm

lemma readFrom_groupsOnto (n count : Nat) (acc : Bytes) :
    readFrom 0 count (groupsOnto n acc) =
      readFrom (UInt32.ofNat n) (count + (groupsOnto n []).length) acc := by
  induction n, acc using groupsOnto.induct with
  | case1 acc => simp [groupsOnto]
  | case2 n acc hn ih =>
    have hgroup : (UInt8.ofNat (n % 128)).toNat = n % 128 := by
      rw [UInt8.toNat_ofNat']
      omega
    have hopen : UInt8.ofNat (n % 128) < 0x80 := by
      rw [UInt8.lt_iff_toNat_lt, hgroup]
      exact Nat.mod_lt _ (by decide)
    have hnumber : 128 * (n / 128) + n % 128 % 128 = n := by omega
    have hlength : (groupsOnto n []).length = (groupsOnto (n / 128) []).length + 1 := by
      rw [groupsOnto_of_ne_zero hn, length_groupsOnto _ [_], List.length_singleton]
    rw [groupsOnto_of_ne_zero hn, ih, readFrom_cons, if_pos hopen, hgroup, hnumber, hlength,
      Nat.add_assoc]

lemma length_encode_pos (n : Nat) : 0 < (encode n).length := by
  rw [encode, length_groupsOnto]
  simp

lemma encode_of_lt {n : Nat} (h : n < 128) : encode n = [UInt8.ofNat (n + 128)] := by
  rw [encode, Nat.div_eq_of_lt h, Nat.mod_eq_of_lt h, groupsOnto, dif_pos rfl]

/-- **A number in front of any octets is read back**, as far as 32 bits hold it, and as many octets
are read as its encoded form has.

**Proof sketch.** Over the groups before the last one the reader collects `n / 128`
(`readFrom_groupsOnto`). The last octet has its high bit set, so the reader stops there with
`128 * (n / 128) + n % 128`. -/
lemma read_encode (n : Nat) (rest : Bytes) :
    read (encode n ++ rest) = ⟨UInt32.ofNat n, some (encode n).length⟩ := by
  have hlast : (UInt8.ofNat (n % 128 + 128)).toNat = n % 128 + 128 := by
    rw [UInt8.toNat_ofNat']
    omega
  have hclosed : ¬ UInt8.ofNat (n % 128 + 128) < 0x80 := by
    rw [UInt8.lt_iff_toNat_lt, hlast]
    simp
  have hnumber : 128 * (n / 128) + (n % 128 + 128) % 128 = n := by omega
  rw [read, encode, groupsOnto_append, readFrom_groupsOnto, List.singleton_append, readFrom_cons,
    if_neg hclosed, hlast, hnumber, length_groupsOnto _ [_]]
  simp

lemma size_readFrom_of_open (acc : UInt32) (count : Nat) {b : Bytes} (hb : ∀ x ∈ b, x < 0x80) :
    (readFrom acc count b).size = none := by
  induction b generalizing acc count with
  | nil => rfl
  | cons x b ih =>
    rw [List.forall_mem_cons] at hb
    rw [readFrom]
    simp only [if_pos hb.1]
    exact ih _ _ hb.2

/-! ## Buffers -/

@[simp] lemma length_overwrite (data : Bytes) (offset : Nat) (new : Bytes) :
    (overwrite data offset new).length = data.length := by
  simp only [overwrite, List.length_append, List.length_take, List.length_drop]
  omega

/-- **Writing in place** changes the octets from a position on, as far as there are new ones. -/
lemma getElem?_overwrite (data new : Bytes) (offset i : Nat) :
    (overwrite data offset new)[i]? =
      if offset ≤ i ∧ i < offset + new.length ∧ i < data.length then new[i - offset]?
      else data[i]? := by
  simp only [overwrite, List.getElem?_append, List.length_append, List.length_take,
    List.getElem?_take, List.getElem?_drop]
  grind

variable {offset : Nat}

lemma take_overwrite {base : Nat} (h : base ≤ offset) (data new : Bytes) :
    (overwrite data offset new).take base = data.take base := by
  apply List.ext_getElem?
  intro i
  rw [List.getElem?_take, List.getElem?_take, getElem?_overwrite]
  split
  · rw [if_neg (by omega)]
  · rfl

lemma overwrite_append {a b : Bytes} (pre rest : Bytes) (h : b.length = a.length) :
    overwrite (pre ++ (a ++ rest)) pre.length b = pre ++ (b ++ rest) := by
  have hfit : b.take ((pre ++ (a ++ rest)).length - pre.length) = b := by
    apply List.take_of_length_le
    simp only [List.length_append]
    omega
  rw [overwrite]
  simp only [hfit]
  rw [List.take_left, List.drop_append, h]
  simp

lemma drop_overwrite {data new : Bytes} (h : offset + new.length ≤ data.length) :
    (overwrite data offset new).drop offset = new ++ data.drop (offset + new.length) := by
  have hfit : new.take (data.length - offset) = new := List.take_of_length_le (by omega)
  have hfront : (data.take offset).length = offset := List.length_take_of_le (by omega)
  simp only [overwrite, hfit]
  rw [List.append_assoc, List.drop_left' hfront]

lemma write_eq {data : Bytes} {v : UInt32} (h : offset + (encode v.toNat).length ≤ data.length) :
    write data offset v =
      ⟨overwrite data offset (encode v.toNat), offset + (encode v.toNat).length, true⟩ := by
  have hroom : (encode v.toNat).length ≤ data.length - offset := by omega
  simp only [write, Nat.min_eq_right hroom, decide_eq_true hroom]

/-- Nothing is written but from the position on to the one that is reported. -/
lemma getElem?_write (data : Bytes) (offset : Nat) (v : UInt32) {i : Nat}
    (hi : i < offset ∨ (write data offset v).offset ≤ i) :
    (write data offset v).data[i]? = data[i]? := by
  simp only [write] at hi ⊢
  rw [getElem?_overwrite, if_neg (by omega)]

end Salvage.Varint
