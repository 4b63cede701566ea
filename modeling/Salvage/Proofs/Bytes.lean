import Mathlib.Algebra.Group.Nat.Defs
import Mathlib.Data.LawfulXor.Basic
import Salvage.Bytes.Basic

/-!
# Octet strings: numbers, cuts and texts
-/

namespace Salvage.Bytes

/-! ## Numbers -/

lemma littleEndian_lt (b : Bytes) : littleEndian b < 256 ^ b.length := by
  induction b with
  | nil => simp [littleEndian]
  | cons x b ih =>
    have hx : x.toNat < 256 := x.toNat_lt
    simp only [littleEndian, List.length_cons, Nat.pow_succ]
    omega

lemma ofLittleEndian_littleEndian (b : Bytes) : ofLittleEndian b.length (littleEndian b) = b := by
  induction b with
  | nil => rfl
  | cons x b ih =>
    have hx : x.toNat < 256 := x.toNat_lt
    have hlow : UInt8.ofNat (x.toNat + 256 * littleEndian b) = x := by
      apply UInt8.toNat_inj.mp
      rw [UInt8.toNat_ofNat']
      omega
    have hhigh : (x.toNat + 256 * littleEndian b) / 256 = littleEndian b := by omega
    rw [List.length_cons, littleEndian, ofLittleEndian, hlow, hhigh, ih]

lemma littleEndian_ofLittleEndian_mod (n v : Nat) :
    littleEndian (ofLittleEndian n v) = v % 256 ^ n := by
  induction n generalizing v with
  | zero => simp [ofLittleEndian, littleEndian, Nat.mod_one]
  | succ n ih =>
    have hpow : 256 ^ (n + 1) = 256 * 256 ^ n := by rw [Nat.pow_succ, Nat.mul_comm]
    rw [ofLittleEndian, littleEndian, ih, UInt8.toNat_ofNat', hpow, Nat.mod_mul]

variable {n : Nat} {a b : Bytes}

lemma littleEndian_ofLittleEndian {v : Nat} (hv : v < 256 ^ n) :
    littleEndian (ofLittleEndian n v) = v := by
  rw [littleEndian_ofLittleEndian_mod, Nat.mod_eq_of_lt hv]

lemma littleEndian_shiftRight (b : Bytes) (i : Nat) :
    (littleEndian b >>> (8 * i)) % 256 = (b.getD i 0).toNat := by
  induction b generalizing i with
  | nil => simp [littleEndian]
  | cons x b ih =>
    have hx : x.toNat < 256 := x.toNat_lt
    cases i with
    | zero =>
      simp only [littleEndian, Nat.mul_zero, Nat.shiftRight_zero, List.getD_cons_zero]
      omega
    | succ i =>
      have hhigh : (x.toNat + 256 * littleEndian b) >>> 8 = littleEndian b := by
        omega
      rw [littleEndian, Nat.mul_succ, Nat.add_comm (8 * i) 8, Nat.shiftRight_add, hhigh, ih,
        List.getD_cons_succ]

/-! ## Exclusive or -/

@[simp] lemma length_xor (a b : Bytes) : (xor a b).length = min a.length b.length :=
  List.length_zipWith

/-- Octets come back from their exclusive or with a second string under a third one exactly if these
two are the same. -/
lemma xor_xor_eq_iff {k l : Bytes} (hk : k.length = a.length) (hl : l.length = a.length) :
    xor (xor a k) l = a ↔ l = k := by
  induction a generalizing k l with
  | nil =>
    have hk' : k = [] := List.eq_nil_of_length_eq_zero hk
    have hl' : l = [] := List.eq_nil_of_length_eq_zero hl
    simp [hk', hl', xor]
  | cons x a ih =>
    obtain ⟨y, k, rfl⟩ := List.exists_cons_of_length_eq_add_one hk
    obtain ⟨z, l, rfl⟩ := List.exists_cons_of_length_eq_add_one hl
    have hhead : x ^^^ y ^^^ z = x ↔ z = y :=
      calc x ^^^ y ^^^ z = x ↔ x ^^^ (y ^^^ z) = x ^^^ 0 := by rw [UInt8.xor_assoc, UInt8.xor_zero]
        _ ↔ y ^^^ z = 0 := UInt8.xor_right_inj x
        _ ↔ y = z := UInt8.xor_eq_zero_iff
        _ ↔ z = y := eq_comm
    have htail := ih (Nat.succ.inj hk) (Nat.succ.inj hl)
    simp only [xor, List.zipWith_cons_cons, List.cons.injEq] at htail ⊢
    rw [hhead, htail]

lemma xor_xor {k : Bytes} (hk : a.length ≤ k.length) : xor (xor a k) k = a := by
  induction a generalizing k with
  | nil => rfl
  | cons x a ih =>
    obtain ⟨y, k, rfl⟩ := List.exists_cons_of_length_pos (Nat.lt_of_lt_of_le (Nat.succ_pos _) hk)
    have htail := ih (Nat.le_of_succ_le_succ hk)
    simp only [xor, List.zipWith_cons_cons] at htail ⊢
    rw [htail, xor_cancel_right]

/-! ## Windows and pieces -/

lemma window_append (pre a rest : Bytes) : window (pre ++ (a ++ rest)) pre.length a.length = a := by
  rw [window, List.drop_left, List.take_left]

lemma length_window {data : Bytes} {start : Nat} (h : start + n ≤ data.length) :
    (window data start n).length = n := by
  simp only [window, List.length_take, List.length_drop]
  omega

lemma length_le_length_flatten {pieces : List Bytes} (h : ∀ p ∈ pieces, p ≠ []) :
    pieces.length ≤ pieces.flatten.length := by
  induction pieces with
  | nil => exact Nat.le_refl 0
  | cons p pieces ih =>
    have hp := List.length_pos_iff.mpr (h p List.mem_cons_self)
    have hpieces := ih fun q hq => h q (List.mem_cons_of_mem _ hq)
    rw [List.length_cons, List.flatten_cons, List.length_append]
    omega

lemma chunksUpTo_eq {fuel : Nat} (hn : 0 < n) (hb : b.length ≤ fuel) :
    chunksUpTo n fuel b = chunks n b := by
  suffices hfuel : ∀ fuel fuel' (b : Bytes), b.length ≤ fuel → b.length ≤ fuel' →
      chunksUpTo n fuel b = chunksUpTo n fuel' b from
    hfuel fuel b.length b hb (Nat.le_refl _)
  intro fuel
  induction fuel with
  | zero =>
    intro fuel' b hb _
    obtain rfl := List.eq_nil_of_length_eq_zero (Nat.le_zero.mp hb)
    cases fuel' <;> rfl
  | succ fuel ih =>
    intro fuel' b hb hb'
    cases b with
    | nil => cases fuel' <;> rfl
    | cons x b =>
      obtain ⟨fuel', rfl⟩ : ∃ m, fuel' = m + 1 := ⟨fuel' - 1, by rw [List.length_cons] at hb'; omega⟩
      have hdrop : ((x :: b).drop n).length ≤ b.length := by
        rw [List.length_drop, List.length_cons]
        omega
      rw [List.length_cons] at hb hb'
      simp only [chunksUpTo]
      rw [ih fuel' _ (by omega) (by omega)]

lemma chunks_of_ne_nil (hn : 0 < n) (hb : b ≠ []) :
    chunks n b = b.take n :: chunks n (b.drop n) := by
  cases b with
  | nil => exact absurd rfl hb
  | cons x b =>
    have hdrop : ((x :: b).drop n).length ≤ b.length := by
      rw [List.length_drop, List.length_cons]
      omega
    rw [chunks, List.length_cons, chunksUpTo, chunksUpTo_eq hn hdrop]
    · exact fun h => nomatch h

lemma chunks_append (hn : 0 < n) (ha : a.length = n) (b : Bytes) :
    chunks n (a ++ b) = a :: chunks n b := by
  have hne : a ++ b ≠ [] := by
    intro h
    rw [(List.append_eq_nil_iff.mp h).1] at ha
    exact absurd ha (Nat.ne_of_lt hn)
  rw [chunks_of_ne_nil hn hne, List.take_left' ha, List.drop_left' ha]

lemma chunks_induction (hn : 0 < n) {motive : Bytes → Prop} (nil : motive [])
    (cons : ∀ b, b ≠ [] → motive (b.drop n) → motive b) (b : Bytes) : motive b := by
  induction hlen : b.length using Nat.strongRecOn generalizing b with
  | ind m ih =>
    by_cases hb : b = []
    · exact hb ▸ nil
    · have hpos := List.length_pos_iff.mpr hb
      have hdrop := List.length_drop (i := n) (l := b)
      exact cons b hb (ih _ (by omega) _ rfl)

lemma flatten_chunks (hn : 0 < n) (b : Bytes) : (chunks n b).flatten = b := by
  induction b using chunks_induction hn with
  | nil => rfl
  | cons b hb ih =>
    rw [chunks_of_ne_nil hn hb, List.flatten_cons, ih, List.take_append_drop]

lemma bounds_of_mem_chunks (hn : 0 < n) {p : Bytes} (hp : p ∈ chunks n b) :
    p ≠ [] ∧ p.length ≤ n := by
  induction b using chunks_induction hn with
  | nil => cases hp
  | cons b hb ih =>
    rw [chunks_of_ne_nil hn hb, List.mem_cons] at hp
    rcases hp with rfl | hp
    · refine ⟨?_, List.length_take_le n b⟩
      rw [ne_eq, List.take_eq_nil_iff]
      exact fun h => h.elim (Nat.ne_of_gt hn) hb
    · exact ih hp

/-! ## Cuts and search -/

lemma cutPoint_natCast (n i : Nat) : cutPoint n i = min i n := by
  rw [cutPoint, if_neg (by omega), Int.toNat_natCast]

lemma le_of_cutPoint_lt {i : Int} (h : cutPoint n i < n) : i ≤ cutPoint n i := by
  unfold cutPoint at h ⊢
  by_cases hi : i < 0
  · omega
  · rw [if_neg hi] at h ⊢
    omega

lemma cut_zero {α : Type} (xs : List α) (n : Nat) : cut xs 0 n = xs.take n := by
  have hzero : cutPoint xs.length 0 = 0 := cutPoint_natCast xs.length 0 |>.trans (Nat.zero_min _)
  rw [cut, hzero, cutPoint_natCast, List.drop_zero, Nat.sub_zero, ← List.take_eq_take_min]

lemma slice_append (pre a rest : Bytes) :
    slice (pre ++ (a ++ rest)) pre.length (pre ++ a).length = a := by
  rw [slice, cut, cutPoint_natCast, cutPoint_natCast, Nat.min_eq_left, Nat.min_eq_left,
    List.drop_left, List.length_append, Nat.add_sub_cancel_left, List.take_left]
  · simp
  · simp

lemma slice_eq_window {lo hi : Int} (hlo : 0 ≤ lo) (hhi : 0 ≤ hi) (hend : hi ≤ b.length) :
    slice b lo hi = window b lo.toNat (hi - lo).toNat := by
  obtain ⟨l, rfl⟩ := Int.eq_ofNat_of_zero_le hlo
  obtain ⟨h, rfl⟩ := Int.eq_ofNat_of_zero_le hhi
  have hh : h ≤ b.length := Int.ofNat_le.mp hend
  have hlength : ((h : Int) - l).toNat = h - l := by omega
  rw [slice, cut, cutPoint_natCast, cutPoint_natCast, window, Int.toNat_natCast, hlength,
    Nat.min_eq_left hh]
  rcases Nat.le_total l b.length with hl | hl
  · rw [Nat.min_eq_left hl]
  · -- both cuts are empty
    rw [List.drop_of_length_le hl, Nat.min_eq_right hl, List.drop_length, List.take_nil, List.take_nil]

structure AgreeOn (lo hi : Int) (a b : Bytes) : Prop where
  length_eq : b.length = a.length
  getElem?_eq : ∀ k : Nat, lo ≤ k → k < hi → b[k]? = a[k]?

/-- **A cut depends on the octets between its ends only**, if its end is counted from the front. -/
lemma AgreeOn.slice_eq {lo hi : Int} (h : AgreeOn lo hi a b) (hhi : 0 ≤ hi) :
    slice b lo hi = slice a lo hi := by
  obtain ⟨n, rfl⟩ := Int.eq_ofNat_of_zero_le hhi
  simp only [slice, cut, cutPoint_natCast, h.length_eq]
  apply List.ext_getElem?
  intro j
  rw [List.getElem?_take, List.getElem?_take, List.getElem?_drop, List.getElem?_drop]
  split
  · rename_i hj
    have hlow := le_of_cutPoint_lt (show cutPoint a.length lo < a.length by omega)
    exact h.getElem?_eq _ (by omega) (by omega)
  · rfl

lemma find?_zero (ha : 0 ∉ a) (rest : Bytes) : find? [0] (a ++ 0 :: rest) = some a.length := by
  induction a with
  | nil => simp [find?]
  | cons x a ih =>
    rw [List.mem_cons, not_or] at ha
    have hx : ([0] : Bytes).isPrefixOf (x :: (a ++ 0 :: rest)) = false := by
      simp [List.isPrefixOf, ha.1]
    rw [List.cons_append, find?, hx, ih ha.2]
    rfl

lemma find?_zero_eq_none (ha : 0 ∉ a) : find? [0] a = none := by
  induction a with
  | nil => rfl
  | cons x a ih =>
    rw [List.mem_cons, not_or] at ha
    have hx : ([0] : Bytes).isPrefixOf (x :: a) = false := by
      simp [List.isPrefixOf, ha.1]
    rw [find?, hx, ih ha.2]
    rfl

/-! ## Texts -/

lemma toList_loop_eq (a : ByteArray) (i : Nat) (r : List UInt8) :
    ByteArray.toList.loop a i r = r.reverse ++ a.data.toList.drop i := by
  induction i, r using ByteArray.toList.loop.induct a with
  | case1 i r h ih =>
    have hi : i < a.data.size := h
    have hget : a.get! i = a.data.toList[i] := getElem!_pos a.data i hi
    rw [ByteArray.toList.loop, if_pos h, ih, List.reverse_cons, List.append_assoc, hget,
      List.singleton_append, ← List.drop_eq_getElem_cons]
  | case2 i r h =>
    rw [ByteArray.toList.loop, if_neg h, List.drop_of_length_le, List.append_nil]
    exact Nat.le_of_not_lt h

lemma ofString_eq (s : String) : ofString s = s.toByteArray.data.toList := by
  rw [ofString, ByteArray.toList, toList_loop_eq]
  rfl

lemma ofString_injective {s t : String} (h : ofString s = ofString t) : s = t := by
  rw [ofString_eq, ofString_eq] at h
  exact String.toByteArray_inj.mp (ByteArray.ext (Array.toList_inj.mp h))

lemma ofString_eq_nil_iff {s : String} : ofString s = [] ↔ s = "" := by
  have hempty : ofString "" = [] := by
    rw [ofString_eq]
    rfl
  constructor
  · intro h
    exact ofString_injective (h.trans hempty.symm)
  · rintro rfl
    exact hempty

end Salvage.Bytes
