import Mathlib.Logic.Relation
import Salvage.Proofs.Chunk.Repair

/-!
# Repairing code in place, in numbers of 32 bits

Code is repaired in place, word by word, in numbers of 32 bits with and without a sign. A target
outside the code is brought into it by two loops, one that adds the number of words while the target
is negative, and one that subtracts it while the target lies behind the code. None of the numbers
overflows in code of less than `2 ^ 31` words, so both loops end with the remainder of the target,
and the whole repair ends with the repaired code.
-/

namespace Salvage.Chunk

/-! ## Numbers of 32 bits -/

section Numbers

variable {a b : Int32} {u : UInt32}

lemma toInt_add_of_bounds (hlow : -2147483648 ≤ a.toInt + b.toInt)
    (hhigh : a.toInt + b.toInt < 2147483648) : (a + b).toInt = a.toInt + b.toInt := by
  rw [Int32.toInt_add, Int.bmod_eq_of_le (by omega) (by omega)]

lemma toInt_sub_of_bounds (hlow : -2147483648 ≤ a.toInt - b.toInt)
    (hhigh : a.toInt - b.toInt < 2147483648) : (a - b).toInt = a.toInt - b.toInt := by
  rw [Int32.toInt_sub, Int.bmod_eq_of_le (by omega) (by omega)]

lemma toInt_toInt32 (h : u.toNat < 2147483648) : u.toInt32.toInt = u.toNat := by
  change u.toBitVec.toInt = u.toBitVec.toNat
  rw [BitVec.toInt_eq_toNat_cond, if_pos]
  change 2 * u.toNat < 2 ^ 32
  omega

lemma toNat_toUInt32 (a : Int32) : (a.toUInt32.toNat : Int) = a.toInt % 4294967296 := by
  have hlt := a.toUInt32.toNat_lt
  change (a.toBitVec.toNat : Int) = a.toBitVec.toInt % 4294967296
  rw [BitVec.toInt_eq_toNat_cond]
  split <;> omega

end Numbers

/-! ## One step -/

inductive RepairStage where
  | look
  | raise (w : Word) (target : Int32)
  | lower (w : Word) (target : Int32)

structure Repairing where
  code : List Word
  index : UInt32
  stage : RepairStage

namespace Repairing

def patched (w : Word) (operand : UInt32) : Word :=
  (w &&& (0x7FFF : UInt32)) ||| (operand <<< 15)

def withConstant (constants : Int32) (w : Word) : Word :=
  if w.opcode = loadConstant ∧ 0 < constants then
    let operand := ((w >>> 15).toInt32 % constants).toUInt32
    if operand = w >>> 15 then w else patched w operand
  else w

def seen (index : UInt32) (w : Word) : Int32 :=
  index.toInt32 + (1 : Int32) + ((w >>> 15).toInt32 - (131071 : Int32))

def store (r : Repairing) (w : Word) : Repairing :=
  ⟨r.code.set r.index.toNat w, r.index + 1, .look⟩

/-- One step of the repair of code of `count` words, until there is none left. -/
def next (count : UInt32) (constants : Int32) (r : Repairing) : Option Repairing :=
  match r.stage with
  | .look =>
    if r.index < count then
      let w := withConstant constants (r.code.getD r.index.toNat 0)
      let target := seen r.index w
      if w.opcode = jump ∧ (target < 0 ∨ count.toInt32 ≤ target) then
        some { r with stage := .raise w target }
      else some (r.store w)
    else none
  | .raise w target =>
    if target < 0 then some { r with stage := .raise w (target.toUInt32 + count).toInt32 }
    else some { r with stage := .lower w target }
  | .lower w target =>
    if count ≤ target.toUInt32 then
      some { r with stage := .lower w (target.toUInt32 - count).toInt32 }
    else some (r.store (patched w ((target - (r.index.toInt32 + (1 : Int32))).toUInt32 + 65535)))

def start (ws : List Word) : Repairing :=
  ⟨ws, 0, .look⟩

/-- Any number of steps of the repair lead from the first to the second. -/
def Reaches (count : UInt32) (constants : Int32) : Repairing → Repairing → Prop :=
  Relation.ReflTransGen fun r r' => next count constants r = some r'

/-! ## Operands in 32 bits -/

section Operands

variable {w : Word} {constants : Int32} {n i : Nat}

lemma toNat_shiftRight (w : Word) : (w >>> 15).toNat = w.bx :=
  rfl

lemma patched_eq {operand : UInt32} {v : Int} (h : (operand.toNat : Int) % 131072 = v % 131072) :
    patched w operand = w.withBx v := by
  have hsame : operand <<< 15 = UInt32.ofNat (v % 0x20000).toNat <<< 15 := by
    apply UInt32.toNat_inj.mp
    have hmod : (15 : UInt32).toNat % 32 = 15 := rfl
    simp only [UInt32.toNat_shiftLeft, UInt32.toNat_ofNat', hmod, Nat.shiftLeft_eq]
    omega
  rw [patched, Word.withBx, hsame]

lemma withConstant_eq (constants : Int32) (w : Word) :
    withConstant constants w = repairConstant constants.toInt w := by
  have hbx := w.bx_lt
  have hoperand : (w >>> 15).toInt32.toInt = w.bx :=
    toInt_toInt32 (by rw [toNat_shiftRight]; omega)
  have hpositive : 0 < constants ↔ 0 < constants.toInt := Int32.lt_iff_toInt_lt
  rw [withConstant, repairConstant]
  by_cases h : w.opcode = loadConstant ∧ 0 < constants.toInt
  · rw [if_pos h, if_pos ⟨h.1, hpositive.mpr h.2⟩]
    have hrem : ((w >>> 15).toInt32 % constants).toInt = w.bx % constants.toInt := by
      rw [Int32.toInt_mod, hoperand, Int.tmod_eq_emod_of_nonneg (by omega)]
    have hnonneg : 0 ≤ (w.bx : Int) % constants.toInt := Int.emod_nonneg _ (by omega)
    have hle : (w.bx : Int) % constants.toInt ≤ w.bx := emod_le_bx h.2
    have hword := toNat_toUInt32 ((w >>> 15).toInt32 % constants)
    rw [hrem] at hword
    have hsame : ((w >>> 15).toInt32 % constants).toUInt32 = w >>> 15 ↔
        (w.bx : Int) % constants.toInt = w.bx := by
      rw [← UInt32.toNat_inj, toNat_shiftRight]
      omega
    by_cases hkept : (w.bx : Int) % constants.toInt = w.bx
    · rw [if_pos hkept, if_pos (hsame.mpr hkept)]
    · rw [if_neg hkept, if_neg (fun hc => hkept (hsame.mp hc))]
      exact patched_eq (by omega)
  · rw [if_neg h, if_neg (fun hc => h ⟨hc.1, hpositive.mp hc.2⟩)]

lemma toInt_seen (hi : i < 2147483647) (w : Word) :
    (seen (UInt32.ofNat i) w).toInt = i + 1 + w.sbx := by
  have hbx := w.bx_lt
  have hindex : (UInt32.ofNat i).toInt32.toInt = i := by
    rw [toInt_toInt32] <;> rw [UInt32.toNat_ofNat'] <;> omega
  have hone : (1 : Int32).toInt = 1 := rfl
  have hhalf : (131071 : Int32).toInt = 131071 := rfl
  have hoperand : (w >>> 15).toInt32.toInt = w.bx :=
    toInt_toInt32 (by rw [toNat_shiftRight]; omega)
  have hleft : ((UInt32.ofNat i).toInt32 + (1 : Int32)).toInt = i + 1 := by
    rw [toInt_add_of_bounds] <;> omega
  have hright : ((w >>> 15).toInt32 - (131071 : Int32)).toInt = w.sbx := by
    rw [toInt_sub_of_bounds, Word.sbx] <;> omega
  rw [Word.sbx] at hright
  rw [seen, toInt_add_of_bounds, hleft, hright, Word.sbx] <;> omega

end Operands

/-! ## Targets are brought into the code -/

section Targets

variable {count : UInt32} (constants : Int32) (code : List Word) (index : UInt32) (w : Word)

lemma reaches_raised (hpos : 0 < count.toNat) (hcount : count.toNat < 2147483648) (t : Int32) :
    ∃ t' : Int32, Reaches count constants ⟨code, index, .raise w t⟩ ⟨code, index, .lower w t'⟩ ∧
      0 ≤ t'.toInt ∧ t'.toInt % count.toNat = t.toInt % count.toNat := by
  -- the distance of the target from zero shrinks
  induction hn : (-t.toInt).toNat using Nat.strongRecOn generalizing t with
  | ind n ih =>
    have hlow := t.le_toInt
    have hzero : t < 0 ↔ t.toInt < 0 := Int32.lt_iff_toInt_lt
    by_cases ht : t.toInt < 0
    · have hstep : next count constants ⟨code, index, .raise w t⟩ =
          some ⟨code, index, .raise w (t.toUInt32 + count).toInt32⟩ := if_pos (hzero.mpr ht)
      have hsum : (t.toUInt32 + count).toInt32.toInt = t.toInt + count.toNat := by
        rw [UInt32.toInt32_add, Int32.toInt32_toUInt32, toInt_add_of_bounds,
          toInt_toInt32 hcount] <;> rw [toInt_toInt32 hcount] <;> omega
      obtain ⟨t', hreach, hnonneg, hsame⟩ := ih _ (by omega) (t.toUInt32 + count).toInt32 rfl
      refine ⟨t', .head hstep hreach, hnonneg, ?_⟩
      rw [hsame, hsum, Int.add_emod_right]
    · have hstep : next count constants ⟨code, index, .raise w t⟩ =
          some ⟨code, index, .lower w t⟩ := if_neg (fun h => ht (hzero.mp h))
      exact ⟨t, .single hstep, by omega, rfl⟩

lemma reaches_lowered (hpos : 0 < count.toNat) (hcount : count.toNat < 2147483648) {t : Int32}
    (ht : 0 ≤ t.toInt) :
    ∃ t' : Int32, Reaches count constants ⟨code, index, .lower w t⟩ ⟨code, index, .lower w t'⟩ ∧
      InCode count.toNat t'.toInt ∧ t'.toInt = t.toInt % count.toNat := by
  induction hn : t.toInt.toNat using Nat.strongRecOn generalizing t with
  | ind n ih =>
    have hhigh := t.toInt_lt
    have hword := toNat_toUInt32 t
    have hbehind : count ≤ t.toUInt32 ↔ (count.toNat : Int) ≤ t.toInt := by
      rw [UInt32.le_iff_toNat_le]
      omega
    by_cases hle : (count.toNat : Int) ≤ t.toInt
    · have hstep : next count constants ⟨code, index, .lower w t⟩ =
          some ⟨code, index, .lower w (t.toUInt32 - count).toInt32⟩ := if_pos (hbehind.mpr hle)
      have hdiff : (t.toUInt32 - count).toInt32.toInt = t.toInt - count.toNat := by
        rw [UInt32.toInt32_sub, Int32.toInt32_toUInt32, toInt_sub_of_bounds,
          toInt_toInt32 hcount] <;> rw [toInt_toInt32 hcount] <;> omega
      obtain ⟨t', hreach, hin, hsame⟩ :=
        ih _ (by omega) (t := (t.toUInt32 - count).toInt32) (by omega) rfl
      refine ⟨t', .head hstep hreach, hin, ?_⟩
      rw [hsame, hdiff, Int.sub_emod_right]
    · exact ⟨t, .refl, ⟨ht, by omega⟩, (Int.emod_eq_of_lt ht (by omega)).symm⟩

lemma reaches_remainder (hpos : 0 < count.toNat) (hcount : count.toNat < 2147483648) (t : Int32) :
    ∃ t' : Int32, Reaches count constants ⟨code, index, .raise w t⟩ ⟨code, index, .lower w t'⟩ ∧
      InCode count.toNat t'.toInt ∧ t'.toInt = t.toInt % count.toNat := by
  obtain ⟨t₁, hraised, hnonneg, hsame⟩ := reaches_raised constants code index w hpos hcount t
  obtain ⟨t₂, hlowered, hin, hrem⟩ := reaches_lowered constants code index w hpos hcount hnonneg
  exact ⟨t₂, hraised.trans hlowered, hin, hrem.trans hsame⟩

end Targets

/-! ## Words are repaired one after the other -/

section Words

variable (constants : Int32) {n : Nat} {done rest : List Word} {w : Word}

lemma store_append (hdone : done.length < 4294967296) (stage : RepairStage) (w' : Word) :
    store ⟨done ++ w :: rest, UInt32.ofNat done.length, stage⟩ w' =
      ⟨done ++ w' :: rest, UInt32.ofNat (done.length + 1), .look⟩ := by
  have hindex : (UInt32.ofNat done.length).toNat = done.length := by
    rw [UInt32.toNat_ofNat']
    omega
  simp [store, hindex, UInt32.ofNat_add]

/-- **Looking at a word**: its constant is brought into range, and it is written unless it is a jump
whose target is seen outside. -/
lemma next_look (hn : n < 2147483648) (hlen : done.length + 1 + rest.length = n) (w : Word) :
    next (UInt32.ofNat n) constants ⟨done ++ w :: rest, UInt32.ofNat done.length, .look⟩ =
      let v := repairConstant constants.toInt w
      if v.opcode = jump ∧ ¬ InCode n (done.length + 1 + v.sbx) then
        some ⟨done ++ w :: rest, UInt32.ofNat done.length,
          .raise v (seen (UInt32.ofNat done.length) v)⟩
      else some ⟨done ++ v :: rest, UInt32.ofNat (done.length + 1), .look⟩ := by
  have hindex : (UInt32.ofNat done.length).toNat = done.length := by
    rw [UInt32.toNat_ofNat']
    omega
  have hcount : (UInt32.ofNat n).toNat = n := by
    rw [UInt32.toNat_ofNat']
    omega
  have hinside : UInt32.ofNat done.length < UInt32.ofNat n := by
    rw [UInt32.lt_iff_toNat_lt]
    omega
  have hword : (done ++ w :: rest).getD done.length 0 = w := by simp
  have hseen := toInt_seen (i := done.length) (by omega) (repairConstant constants.toInt w)
  have houtside : (seen (UInt32.ofNat done.length) (repairConstant constants.toInt w) < 0 ∨
      (UInt32.ofNat n).toInt32 ≤
        seen (UInt32.ofNat done.length) (repairConstant constants.toInt w)) ↔
      ¬ InCode n (done.length + 1 + (repairConstant constants.toInt w).sbx) := by
    rw [Int32.lt_iff_toInt_lt, Int32.le_iff_toInt_le, toInt_toInt32 (by omega), hseen, hcount,
      Int32.toInt_zero, InCode]
    omega
  simp only [next, hinside, ↓reduceIte, hindex, hword, withConstant_eq, houtside,
    store_append (w := w) (by omega : done.length < 4294967296)]

lemma reaches_written (hn : n < 2147483648) (hlen : done.length + 1 + rest.length = n)
    (hop : w.opcode = jump) (hout : ¬ InCode n (done.length + 1 + w.sbx)) :
    ∃ t : Int32, Reaches (UInt32.ofNat n) constants
        ⟨done ++ w :: rest, UInt32.ofNat done.length, .look⟩
        ⟨done ++ w :: rest, UInt32.ofNat done.length, .lower w t⟩ ∧
      InCode n t.toInt ∧ t.toInt = (done.length + 1 + w.sbx) % n ∧
      next (UInt32.ofNat n) constants
          ⟨done ++ w :: rest, UInt32.ofNat done.length, .lower w t⟩ =
        some ⟨done ++ repairJump n done.length w :: rest, UInt32.ofNat (done.length + 1),
          .look⟩ := by
  have hcount : (UInt32.ofNat n).toNat = n := by
    rw [UInt32.toNat_ofNat']
    omega
  have hconstant : repairConstant constants.toInt w = w :=
    repairConstant_of_ne (by rw [hop]; decide)
  have hlook := next_look constants hn hlen w
  simp only [hconstant, hop, hout, not_false_eq_true, and_self, ↓reduceIte] at hlook
  obtain ⟨t, hreach, hin, hrem⟩ := reaches_remainder constants (done ++ w :: rest)
    (UInt32.ofNat done.length) w (by omega : 0 < (UInt32.ofNat n).toNat) (by omega)
    (seen (UInt32.ofNat done.length) w)
  rw [hcount] at hin hrem
  rw [toInt_seen (by omega)] at hrem
  refine ⟨t, .head hlook hreach, hin, hrem, ?_⟩
  obtain ⟨hlow, hhigh⟩ := hin
  have hword := toNat_toUInt32 t
  have hleave : ¬ UInt32.ofNat n ≤ t.toUInt32 := by
    rw [UInt32.le_iff_toNat_le]
    omega
  have hindex : (UInt32.ofNat done.length).toInt32.toInt = done.length := by
    rw [toInt_toInt32] <;> rw [UInt32.toNat_ofNat'] <;> omega
  have hone : (1 : Int32).toInt = 1 := rfl
  have hnext : ((UInt32.ofNat done.length).toInt32 + (1 : Int32)).toInt = done.length + 1 := by
    rw [toInt_add_of_bounds] <;> omega
  have hdistance : (t - ((UInt32.ofNat done.length).toInt32 + (1 : Int32))).toInt =
      t.toInt - (done.length + 1) := by
    rw [toInt_sub_of_bounds] <;> omega
  -- the distance is taken for a number without a sign, and only its seventeen low bits are written
  have hoperand := toNat_toUInt32 (t - ((UInt32.ofNat done.length).toInt32 + (1 : Int32)))
  rw [hdistance] at hoperand
  have hbias : (65535 : UInt32).toNat = 65535 := rfl
  have hpatched : patched w ((t - ((UInt32.ofNat done.length).toInt32 + (1 : Int32))).toUInt32 +
      65535) = repairJump n done.length w := by
    rw [repairJump_of_not_inCode hop hout, ← hrem]
    apply patched_eq
    rw [UInt32.toNat_add, hbias]
    omega
  simp only [next, hleave, ↓reduceIte, hpatched,
    store_append (w := w) (by omega : done.length < 4294967296)]

lemma reaches_repairWord (hn : n < 2147483648) (hlen : done.length + 1 + rest.length = n)
    (w : Word) :
    Reaches (UInt32.ofNat n) constants
      ⟨done ++ w :: rest, UInt32.ofNat done.length, .look⟩
      ⟨done ++ repairWord constants.toInt n done.length w :: rest,
        UInt32.ofNat (done.length + 1), .look⟩ := by
  have hlook := next_look constants hn hlen w
  have hlow := low_repairConstant constants.toInt w
  by_cases hop : w.opcode = jump
  · rw [repairWord_of_jump hop]
    by_cases hin : InCode n (done.length + 1 + w.sbx)
    · have hconstant : repairConstant constants.toInt w = w :=
        repairConstant_of_ne (by rw [hop]; decide)
      simp only [hconstant, hin, not_true_eq_false, and_false, ↓reduceIte] at hlook
      rw [repairJump_of_inCode hin]
      exact .single hlook
    · obtain ⟨t, hreach, -, -, hwrite⟩ := reaches_written constants hn hlen hop hin
      exact hreach.tail hwrite
  · have hop' : (repairConstant constants.toInt w).opcode ≠ jump := by
      rwa [Word.opcode_eq_of_low hlow]
    simp only [hop', false_and, ↓reduceIte] at hlook
    rw [repairWord_of_ne_jump hop]
    exact .single hlook

lemma reaches_repairFrom (hn : n < 2147483648) (done ws rest : List Word)
    (hlen : done.length + ws.length + rest.length = n) :
    Reaches (UInt32.ofNat n) constants
      ⟨done ++ (ws ++ rest), UInt32.ofNat done.length, .look⟩
      ⟨done ++ (repairFrom constants.toInt n done.length ws ++ rest),
        UInt32.ofNat (done.length + ws.length), .look⟩ := by
  induction ws generalizing done with
  | nil => exact .refl
  | cons w ws ih =>
    rw [List.length_cons] at hlen
    have htail : done.length + 1 + (ws ++ rest).length = n := by
      rw [List.length_append]
      omega
    have hfirst := reaches_repairWord constants hn htail w
    have hrest := ih (done ++ [repairWord constants.toInt n done.length w])
      (by rw [List.length_append, List.length_singleton]; omega)
    simp only [List.append_assoc, List.length_append, List.singleton_append,
      List.length_singleton] at hrest
    rw [repairFrom, List.length_cons, Nat.add_comm ws.length, ← Nat.add_assoc]
    exact hfirst.trans hrest

lemma reaches_word {ws : List Word} {i : Nat} (hlen : ws.length < 2147483648)
    (hw : ws[i]? = some w) :
    ∃ done rest, done.length = i ∧ done.length + 1 + rest.length = ws.length ∧
      Reaches (UInt32.ofNat ws.length) constants (start ws)
        ⟨done ++ w :: rest, UInt32.ofNat done.length, .look⟩ := by
  obtain ⟨hi, rfl⟩ := List.getElem?_eq_some_iff.mp hw
  have htake : (ws.take i).length = i := List.length_take_of_le (Nat.le_of_lt hi)
  have hdrop : (ws.drop (i + 1)).length = ws.length - (i + 1) := List.length_drop
  have hreach := reaches_repairFrom constants hlen [] (ws.take i) (ws[i] :: ws.drop (i + 1))
    (by rw [List.length_nil, List.length_cons, htake, hdrop]; omega)
  rw [List.getElem_cons_drop, List.take_append_drop, List.nil_append, List.nil_append, htake,
    List.length_nil, Nat.zero_add] at hreach
  refine ⟨repairFrom constants.toInt ws.length 0 (ws.take i), ws.drop (i + 1), ?_, ?_, ?_⟩
  · rw [length_repairFrom, htake]
  · rw [length_repairFrom, htake, hdrop]
    omega
  · rw [length_repairFrom, htake, List.getElem_cons_drop]
    exact hreach

end Words

end Repairing

/-! ## All of it -/

structure Repaired (constants : Int) (w w' : Word) : Prop where
  low_eq : w' &&& (0x7FFF : UInt32) = w &&& (0x7FFF : UInt32)
  eq_of_ne : w.opcode ≠ loadConstant → w.opcode ≠ jump → w' = w
  bx_eq : w.opcode = loadConstant → 0 < constants → (w'.bx : Int) = w.bx % constants
  bx_lt : w.opcode = loadConstant → 0 < constants → (w'.bx : Int) < constants
  eq_of_lt : w.opcode = loadConstant → 0 < constants → (w.bx : Int) < constants → w' = w

lemma Word.and_eq_of_low {w w' : Word} (h : w.low = w'.low) :
    w &&& (0x7FFF : UInt32) = w' &&& (0x7FFF : UInt32) := by
  have hmask : (0x7FFF : UInt32).toNat = 2 ^ 15 - 1 := rfl
  apply UInt32.toNat_inj.mp
  rw [UInt32.toNat_and, UInt32.toNat_and, hmask, Nat.and_two_pow_sub_one_eq_mod,
    Nat.and_two_pow_sub_one_eq_mod]
  exact h

lemma repaired_repairWord (constants : Int) (count i : Nat) (w : Word) :
    Repaired constants w (repairWord constants count i w) := by
  have hlow := low_repairWord constants count i w
  have hload (hop : w.opcode = loadConstant) :
      repairWord constants count i w = repairConstant constants w :=
    repairWord_of_ne_jump (by rw [hop]; decide)
  refine ⟨Word.and_eq_of_low hlow, fun hload hjump => ?_, fun hop hpos => ?_, fun hop hpos => ?_,
    fun hop hpos hlt => Word.ext hlow ?_⟩
  · rw [repairWord_of_ne_jump hjump, repairConstant_of_ne hload]
  · rw [hload hop, bx_repairConstant hop hpos]
  · rw [hload hop, bx_repairConstant hop hpos]
    exact Int.emod_lt_of_pos _ hpos
  · have hbx := bx_repairConstant hop hpos
    rw [Int.emod_eq_of_lt (by omega) hlt] at hbx
    rw [hload hop]
    omega

/-- **The repair of code ends**, for any code of less than `2 ^ 31` words and any number of
constants in 32 bits. It ends with the repaired code, in which every word is what a repair may make
of the word at its position. On its way, every jump that is seen outside gets to the end of the two
loops with the remainder of its target, which lies in the code, and is written from there. -/
theorem repair_ends_and_keeps (ws : List Word) (constants : Int32) (hlen : ws.length < 2 ^ 31) :
    ∃ last, Repairing.Reaches (UInt32.ofNat ws.length) constants (.start ws) last ∧
      last.next (UInt32.ofNat ws.length) constants = none ∧
      last.code = repair constants.toInt ws.length ws ∧
      ∀ (i : Nat) (w : Word), ws[i]? = some w → ∃ w', last.code[i]? = some w' ∧
        Repaired constants.toInt w w' ∧
        (w.opcode = jump → ¬ InCode ws.length (i + 1 + w.sbx) → ∃ code target,
          Repairing.Reaches (UInt32.ofNat ws.length) constants (.start ws)
            ⟨code, UInt32.ofNat i, .lower w target⟩ ∧
          InCode ws.length target.toInt ∧ target.toInt = (i + 1 + w.sbx) % ws.length ∧
          Repairing.next (UInt32.ofNat ws.length) constants
              ⟨code, UInt32.ofNat i, .lower w target⟩ =
            some ⟨code.set i w', UInt32.ofNat (i + 1), .look⟩) := by
  have hall := Repairing.reaches_repairFrom constants hlen [] ws [] (by simp)
  simp only [List.nil_append, List.append_nil, List.length_nil, Nat.zero_add] at hall
  refine ⟨_, hall, ?_, rfl, fun i w hw => ?_⟩
  · exact if_neg (Nat.lt_irrefl _)
  refine ⟨repairWord constants.toInt ws.length i w, ?_, repaired_repairWord _ _ _ _,
    fun hop hout => ?_⟩
  · change (repair constants.toInt ws.length ws)[i]? = _
    rw [getElem?_repair, hw, Option.map_some]
  · obtain ⟨done, rest, rfl, hrest, hword⟩ := Repairing.reaches_word constants hlen hw
    obtain ⟨target, hend, hin, hrem, hwrite⟩ :=
      Repairing.reaches_written constants hlen hrest hop hout
    refine ⟨done ++ w :: rest, target, hword.trans hend, hin, hrem, ?_⟩
    rw [hwrite, repairWord_of_jump hop, List.set_append_right _ _ (Nat.le_refl _), Nat.sub_self,
      List.set_cons_zero]

def twoRepairs : List Word := [0x18003, 0x80000039]

/-- The repair of these two words ends. The constant is replaced by the other one, and the jump by
one with another wide operand. -/
theorem twoRepairs_repaired :
    twoRepairs.length < 2 ^ 31 ∧ ∃ last, Repairing.Reaches 2 2 (.start twoRepairs) last ∧
      last.next 2 2 = none ∧ last.code = [0x8003, 0x7FFF0039] := by
  have hlen : twoRepairs.length < 2 ^ 31 := by decide
  obtain ⟨last, hreach, hend, hcode, -⟩ := repair_ends_and_keeps twoRepairs 2 hlen
  have hrepair : repair (2 : Int32).toInt 2 twoRepairs = [0x8003, 0x7FFF0039] := by decide
  exact ⟨hlen, last, hreach, hend, hcode.trans hrepair⟩

end Salvage.Chunk
