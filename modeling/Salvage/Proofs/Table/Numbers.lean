import Mathlib.Data.List.Basic
import Salvage.Proofs.Table.Cursor
import Salvage.Table.Load

/-!
# Contents as arrays of numbers

Every content falls into groups of octets, each of which holds one number. A signed number is
written as the unsigned one that it is congruent to, in 32 bits or in more, and is read back from
either; a group that no number was written as still stands for one of 32 bits.
-/

namespace Salvage.Table

/-! ## Groups -/

def groups : Bytes → List Bytes
  | [] => []
  | b :: r =>
    if b < 0x80 then [b] :: groups r
    else
      match groups r with
      | [] => [[b]]
      | g :: gs => (b :: g) :: gs

/-- Each piece is the octets of one number in front of the pieces behind it. -/
def AreGroups : List Bytes → Prop
  | [] => True
  | g :: gs => IsGroup gs.flatten g ∧ AreGroups gs

@[simp] lemma flatten_groups (b : Bytes) : (groups b).flatten = b := by
  induction b with
  | nil => rfl
  | cons x b ih =>
    rw [groups]
    split_ifs
    · rw [List.flatten_cons, ih, List.singleton_append]
    · cases hb : groups b with
      | nil =>
        rw [hb] at ih
        simp [← ih]
      | cons g gs =>
        rw [hb] at ih
        simp [← ih]

lemma areGroups_groups (b : Bytes) : AreGroups (groups b) := by
  induction b with
  | nil => trivial
  | cons x b ih =>
    rw [groups]
    split_ifs with hx
    · refine ⟨?_, ih⟩
      rw [IsGroup, if_pos hx]
    · cases hb : groups b with
      | nil =>
        refine ⟨?_, trivial⟩
        rw [IsGroup, if_neg hx]
        exact .inl ⟨rfl, rfl⟩
      | cons g gs =>
        rw [hb] at ih
        refine ⟨?_, ih.2⟩
        rw [IsGroup, if_neg hx]
        exact .inr ih.1

def groupRead (g : Bytes) : Option Nat :=
  numberRead (groupNumber g)

variable {gs : List Bytes}

lemma AreGroups.ne_nil (h : AreGroups gs) : ∀ g ∈ gs, g ≠ [] := by
  induction gs with
  | nil => simp
  | cons g gs ih =>
    intro g' hg'
    obtain rfl | hmem := List.mem_cons.mp hg'
    · exact h.1.ne_nil
    · exact ih h.2 g' hmem

lemma AreGroups.of_append {hs : List Bytes} (h : AreGroups (gs ++ hs)) : AreGroups hs := by
  induction gs with
  | nil => exact h
  | cons g gs ih => exact ih h.2

/-! ## Reading numbers -/

lemma variantsUpTo_groups (hgs : AreGroups gs) {fuel : Nat}
    (hfuel : gs.length ≤ fuel) (acc : List (Option Nat)) {c : Cursor} {pre : Bytes}
    (hc : c.Between pre gs.flatten) :
    Read.variantsUpTo fuel acc c =
      .ok (acc.reverse ++ gs.map groupRead) (c.advance gs.flatten.length) := by
  induction gs generalizing fuel acc c pre with
  | nil =>
    have hend : c.atEnd = true := hc.atEnd_eq
    rw [List.map_nil, List.append_nil, List.flatten_nil, List.length_nil, Cursor.advance_zero]
    cases fuel with
    | zero => rfl
    | succ fuel =>
      rw [Read.variantsUpTo, Read.get_bind, if_pos hend]
      rfl
  | cons g gs ih =>
    obtain ⟨hg, hgs⟩ := hgs
    obtain ⟨fuel, rfl⟩ := Nat.exists_eq_add_one.mpr (Nat.lt_of_lt_of_le (Nat.succ_pos _) hfuel)
    rw [List.flatten_cons] at hc ⊢
    have hend : ¬ c.atEnd = true := by
      rw [hc.atEnd_eq, List.isEmpty_iff]
      exact List.append_ne_nil_of_left_ne_nil hg.ne_nil _
    rw [Read.variantsUpTo, Read.get_bind, if_neg hend, Read.bind_of_ok (Read.variant_group hg hc),
      ih hgs (Nat.le_of_succ_le_succ hfuel) _ hc.advance, Cursor.advance_advance,
      List.length_append, List.reverse_cons, List.append_assoc]
    rfl

lemma contentNumbers_flatten (hgs : AreGroups gs) :
    contentNumbers gs.flatten = gs.map groupRead := by
  have hc : (Cursor.ofBytes gs.flatten).Between [] gs.flatten := Cursor.between_ofBytes _
  have hfuel : gs.length ≤
      ((Cursor.ofBytes gs.flatten).limit - (Cursor.ofBytes gs.flatten).pos).toNat := by
    have := Bytes.length_le_length_flatten hgs.ne_nil
    rw [hc.limit_eq_add]
    omega
  have hrun : Read.variants (Cursor.ofBytes gs.flatten) = _ :=
    variantsUpTo_groups hgs hfuel [] hc
  rw [contentNumbers, hrun]
  rfl

lemma contentNumbers_eq (content : Bytes) :
    contentNumbers content = (groups content).map groupRead := by
  have h := contentNumbers_flatten (areGroups_groups content)
  rwa [flatten_groups] at h

lemma sampleNumbers_groups (hgs : AreGroups gs) (n : Nat)
    (acc : List (Option Nat)) {c : Cursor} {pre : Bytes} (hc : c.Between pre gs.flatten) :
    sampleNumbers n acc c =
      acc.reverse ++ ((gs.take n).map groupRead ++ List.replicate (n - gs.length) none) := by
  induction n generalizing gs acc c pre with
  | zero => simp [sampleNumbers]
  | succ n ih =>
    cases gs with
    | nil =>
      rw [sampleNumbers, Read.variant_nil hc]
      dsimp only
      rw [ih hgs _ hc]
      simp [List.replicate_succ]
    | cons g gs =>
      rw [sampleNumbers, Read.variant_group hgs.1 hc]
      dsimp only
      rw [ih hgs.2 _ hc.advance]
      simp [groupRead]

/-! ## Signed numbers -/

lemma digitsFrom_eq (c : Cursor) (value shift : Nat) :
    c.digitsFrom value shift = c.variantFrom value shift := by
  fun_induction Cursor.variantFrom c value shift with
  | case1 c value shift hpos e he => rw [Cursor.digitsFrom, dif_pos hpos, he]
  | case2 c value shift hpos b hb v hlast =>
    rw [Cursor.digitsFrom, dif_pos hpos, hb]
    exact if_pos hlast
  | case3 c value shift hpos b hb v hmore ih =>
    rw [Cursor.digitsFrom, dif_pos hpos, hb]
    exact (if_neg hmore).trans ih
  | case4 c value shift hend => rw [Cursor.digitsFrom, dif_neg hend]

lemma length_encodeNumber {n k : Nat} (hlow : 128 ^ k ≤ n) (hhigh : n < 128 ^ (k + 1)) :
    (encodeNumber n).length = k + 1 := by
  induction k generalizing n with
  | zero =>
    rw [encodeNumber, if_pos (by omega)]
    rfl
  | succ k ih =>
    rw [Nat.pow_succ] at hlow hhigh
    have hpow : 0 < 128 ^ k := Nat.pow_pos (by decide)
    rw [encodeNumber, if_neg (by omega), List.length_cons, ih (by omega) (by omega)]

namespace Read

lemma digits_eq : digits = variant := by
  funext c
  rw [digits, variant, digitsFrom_eq]

variable {c c' : Cursor}

/-- **A number is read** wherever the cursor stands, over at least one octet if there are any. -/
lemma exists_variant {pre rest : Bytes} (hc : c.Between pre rest) :
    ∃ v, ∃ n ≤ rest.length, (rest ≠ [] → 0 < n) ∧ variant c = .ok v (c.advance n) := by
  cases hgroups : groups rest with
  | nil =>
    have hnil : rest = [] := by rw [← flatten_groups rest, hgroups]; rfl
    subst hnil
    exact ⟨none, 0, Nat.le_refl _, fun h => absurd rfl h, by rw [variant_nil hc, Cursor.advance_zero]⟩
  | cons g gs =>
    have hareGroups := areGroups_groups rest
    have hsplit : rest = g ++ gs.flatten := by rw [← List.flatten_cons, ← hgroups, flatten_groups]
    rw [hgroups] at hareGroups
    rw [hsplit] at hc ⊢
    exact ⟨_, g.length, by simp, fun _ => List.length_pos_iff.mpr hareGroups.1.ne_nil,
      variant_group hareGroups.1 hc⟩

lemma signed_bounds {n : Nat} (hn : n ≠ 0) :
    signed n ≠ 0 ∧ -2 ^ 31 ≤ signed n ∧ signed n ≤ 2 ^ 31 - 1 := by
  rw [signed, maxInt32]
  split_ifs <;> omega

lemma signed_emod {i : Int} (hlow : -2 ^ 31 ≤ i) (hhigh : i < 2 ^ 31) (k : Nat) :
    signed (i % 2 ^ (32 + k)).toNat = i := by
  have hpow : (2 : Int) ^ (32 + k) = 2 ^ 32 * 2 ^ k := pow_add 2 32 k
  have hpos : (0 : Int) < 2 ^ k := Int.pow_pos (by decide)
  rw [signed, maxInt32, hpow]
  generalize (2 : Int) ^ k = m at hpos
  obtain hneg | hneg := Int.lt_or_le i 0
  · have hmod : i % (2 ^ 32 * m) = i + 2 ^ 32 * m := by
      rw [← Int.add_emod_right, Int.emod_eq_of_lt] <;> omega
    rw [hmod]
    split_ifs <;> omega
  · rw [Int.emod_eq_of_lt] <;> [split_ifs <;> omega; omega; omega]

lemma variant_ne_zero {v : Option Nat} (h : variant c = .ok v c') : ∀ n ∈ v, n ≠ 0 := by
  rw [variant] at h
  split at h
  · obtain ⟨rfl, -⟩ := EStateM.Result.ok.inj h
    simp
  · split at h
    · cases h
    · obtain ⟨rfl, -⟩ := EStateM.Result.ok.inj h
      split_ifs <;> simp [*]

lemma int_of_variant {v : Option Nat} (h : variant c = .ok v c') : int c = .ok (v.map signed) c' :=
  bind_of_ok h

lemma int_bounds {v : Option Int} (h : int c = .ok v c') :
    ∀ i ∈ v, i ≠ 0 ∧ -2 ^ 31 ≤ i ∧ i ≤ 2 ^ 31 - 1 := by
  cases hvariant : variant c with
  | error e d =>
    change EStateM.bind variant _ c = _ at h
    rw [EStateM.bind, hvariant] at h
    cases h
  | ok o d =>
    rw [int_of_variant hvariant] at h
    obtain ⟨rfl, -⟩ := EStateM.Result.ok.inj h
    intro i hi
    obtain ⟨n, hn, rfl⟩ := Option.map_eq_some_iff.mp hi
    exact signed_bounds (variant_ne_zero hvariant n hn)

lemma exists_int_at (data : Bytes) (pos : Nat) :
    ∃ v c, int { Cursor.ofBytes data with pos := pos } = .ok v c := by
  suffices h : ∃ v c, variant { Cursor.ofBytes data with pos := pos } = .ok v c by
    obtain ⟨v, c, hc⟩ := h
    exact ⟨_, c, int_of_variant hc⟩
  obtain hinside | houtside := Nat.le_total pos data.length
  · have hc := Cursor.between_at (data.take pos) (data.drop pos)
    rw [List.take_append_drop, List.length_take_of_le hinside] at hc
    obtain ⟨v, n, -, -, hvariant⟩ := exists_variant hc
    exact ⟨v, _, hvariant⟩
  · have hend : Cursor.atEnd { Cursor.ofBytes data with pos := pos } = true := by
      simp [Cursor.atEnd, Cursor.ofBytes, Cursor.load, houtside]
    exact ⟨none, _, by rw [variant, hend]; rfl⟩

lemma int_encoded (i : Int32) (k : Nat) {pre rest : Bytes}
    (hc : c.Between pre (encodeNumber (i.toInt % 2 ^ (32 + k)).toNat ++ rest)) :
    int c = .ok (if i = 0 then none else some i.toInt)
      (c.advance (encodeNumber (i.toInt % 2 ^ (32 + k)).toNat).length) := by
  have hsigned := signed_emod i.le_toInt i.toInt_lt k
  obtain ⟨hgroup, hnumber⟩ := encodeNumber_isGroup (i.toInt % 2 ^ (32 + k)).toNat rest
  rw [int_of_variant (variant_group hgroup hc), hnumber, numberRead]
  by_cases hi : i = 0
  · subst hi
    simp
  · have hne : (i.toInt % 2 ^ (32 + k)).toNat ≠ 0 := by
      intro hzero
      rw [hzero] at hsigned
      exact hi (Int32.toInt_inj.mp hsigned.symm)
    rw [if_neg hne, if_neg hi, Option.map_some, hsigned]

end Read

end Salvage.Table
