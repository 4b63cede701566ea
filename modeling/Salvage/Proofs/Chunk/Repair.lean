import Mathlib.Algebra.Group.Nat.Defs
import Salvage.Chunk.Repair

/-!
# What a repair does to one word

A word is its fifteen low bits, which hold the operation code and the first operand, and the wide
operand above them. A repair replaces only the wide operand, and only that of words which load a
constant or jump. Behind every position of repaired code stands the repaired word of that position.
-/

namespace Salvage.Chunk

namespace Word

/-! ## Fields as numbers -/

variable (w : Word) (v : Int)

/-- The fifteen low bits of a word, its operation code and first operand. -/
def low : Nat := w.toNat % 32768

lemma toNat_plainOpcode : (plainOpcode w).toNat = w.toNat % 128 := by
  have hmask : (0x7F : UInt32).toNat = 2 ^ 7 - 1 := rfl
  rw [plainOpcode, UInt32.toNat_toUInt8, UInt32.toNat_and, hmask, Nat.and_two_pow_sub_one_eq_mod]
  omega

lemma bx_eq : w.bx = w.toNat / 32768 := by
  have hshift : (15 : UInt32).toNat % 32 = 15 := rfl
  rw [bx, UInt32.toNat_shiftRight, hshift, Nat.shiftRight_eq_div_pow]

lemma ax_eq : w.ax = w.toNat / 128 := by
  have hshift : (7 : UInt32).toNat % 32 = 7 := rfl
  rw [ax, UInt32.toNat_shiftRight, hshift, Nat.shiftRight_eq_div_pow]

lemma a_eq : w.a = w.toNat / 128 % 256 := by
  have hmask : (0xFF : UInt32).toNat = 2 ^ 8 - 1 := rfl
  rw [a, UInt32.toNat_and, hmask, Nat.and_two_pow_sub_one_eq_mod]
  exact congrArg (· % 256) w.ax_eq

lemma bx_lt : w.bx < 131072 := by
  have hw := w.toNat_lt
  rw [bx_eq]
  omega

lemma a_lt : w.a < 256 := by
  rw [a_eq]
  omega

lemma ax_eq_bx_add_a : w.ax = 256 * w.bx + w.a := by
  rw [ax_eq, bx_eq, a_eq]
  omega

variable {w}

variable {w' : Word}

lemma ext (hlow : w.low = w'.low) (hbx : w.bx = w'.bx) : w = w' := by
  apply UInt32.toNat_inj.mp
  rw [bx_eq, bx_eq] at hbx
  simp only [low] at hlow
  omega

lemma plainOpcode_eq_of_low (h : w.low = w'.low) : plainOpcode w = plainOpcode w' := by
  apply UInt8.toNat_inj.mp
  simp only [low] at h
  rw [toNat_plainOpcode, toNat_plainOpcode]
  omega

lemma opcode_eq_of_low (h : w.low = w'.low) : w.opcode = w'.opcode := by
  rw [opcode, opcode, plainOpcode_eq_of_low h]

lemma a_eq_of_low (h : w.low = w'.low) : w.a = w'.a := by
  simp only [low] at h
  rw [a_eq, a_eq]
  omega

/-! ## Another wide operand -/

variable (w)

lemma toNat_withBx : (w.withBx v).toNat = 32768 * (v % 131072).toNat + w.low := by
  have hv : (v % 131072).toNat < 131072 := by omega
  have hmask : (0x7FFF : UInt32).toNat = 2 ^ 15 - 1 := rfl
  have hshift : (UInt32.ofNat (v % 0x20000).toNat <<< 15).toNat =
      2 ^ 15 * (v % 131072).toNat := by
    have hmod : (15 : UInt32).toNat % 32 = 15 := rfl
    rw [UInt32.toNat_shiftLeft, UInt32.toNat_ofNat', hmod, Nat.shiftLeft_eq]
    omega
  have hlow : w.toNat % 2 ^ 15 < 2 ^ 15 := Nat.mod_lt _ (by decide)
  rw [withBx, UInt32.toNat_or, UInt32.toNat_and, hmask, Nat.and_two_pow_sub_one_eq_mod, hshift,
    Nat.or_comm, ← Nat.two_pow_add_eq_or_of_lt hlow]
  rfl

@[simp] lemma bx_withBx : (w.withBx v).bx = (v % 131072).toNat := by
  have hlow : w.low < 32768 := Nat.mod_lt _ (by decide)
  rw [bx_eq, toNat_withBx]
  omega

@[simp] lemma low_withBx : (w.withBx v).low = w.low := by
  have hlow : w.low < 32768 := Nat.mod_lt _ (by decide)
  rw [low, toNat_withBx]
  omega

lemma withBx_eq_self_iff : w.withBx v = w ↔ v % 131072 = w.bx := by
  constructor
  · intro h
    have hbx := congrArg bx h
    rw [bx_withBx] at hbx
    omega
  · intro h
    refine ext (low_withBx w v) ?_
    rw [bx_withBx]
    omega

end Word

/-! ## One word -/

def InCode (count : Nat) (position : Int) : Prop :=
  0 ≤ position ∧ position < count

instance (count : Nat) (position : Int) : Decidable (InCode count position) :=
  inferInstanceAs (Decidable (_ ∧ _))

section OneWord

variable (constants : Int) (count i : Nat) (w : Word)

lemma low_repairConstant : (repairConstant constants w).low = w.low := by
  unfold repairConstant
  split
  · dsimp only
    split
    · rfl
    · exact w.low_withBx _
  · rfl

lemma low_repairJump : (repairJump count i w).low = w.low := by
  unfold repairJump
  split
  · dsimp only
    split
    · rfl
    · exact w.low_withBx _
  · rfl

lemma low_repairWord : (repairWord constants count i w).low = w.low := by
  rw [repairWord, low_repairJump, low_repairConstant]

variable {constants w}

lemma repairConstant_of_ne (h : w.opcode ≠ loadConstant) : repairConstant constants w = w := by
  rw [repairConstant, if_neg (fun hc => h hc.1)]

variable {count i}

lemma repairJump_of_ne (h : w.opcode ≠ jump) : repairJump count i w = w := by
  rw [repairJump, if_neg h]

lemma repairWord_of_jump (h : w.opcode = jump) :
    repairWord constants count i w = repairJump count i w := by
  have hne : w.opcode ≠ loadConstant := by
    rw [h]
    decide
  rw [repairWord, repairConstant_of_ne hne]

lemma repairWord_of_ne_jump (h : w.opcode ≠ jump) :
    repairWord constants count i w = repairConstant constants w := by
  rw [repairWord, repairJump_of_ne]
  rwa [Word.opcode_eq_of_low (low_repairConstant constants w)]

lemma emod_le_bx (hpos : 0 < constants) : (w.bx : Int) % constants ≤ w.bx := by
  obtain ⟨n, rfl⟩ := Int.eq_ofNat_of_zero_le (Int.le_of_lt hpos)
  exact_mod_cast Nat.mod_le w.bx n

/-- **The wide operand of a word that loads a constant** becomes its remainder by the number of
constants. -/
lemma bx_repairConstant (hop : w.opcode = loadConstant) (hpos : 0 < constants) :
    ((repairConstant constants w).bx : Int) = w.bx % constants := by
  have hlt := w.bx_lt
  have hnonneg : 0 ≤ (w.bx : Int) % constants := Int.emod_nonneg _ (by omega)
  have hle : (w.bx : Int) % constants ≤ w.bx := emod_le_bx hpos
  rw [repairConstant, if_pos ⟨hop, hpos⟩]
  dsimp only
  split
  · next h => exact h.symm
  · rw [Word.bx_withBx]
    omega

lemma repairJump_of_inCode (h : InCode count (i + 1 + w.sbx)) : repairJump count i w = w := by
  unfold repairJump
  split
  · exact if_pos h
  · rfl

lemma repairJump_of_not_inCode (hop : w.opcode = jump) (h : ¬ InCode count (i + 1 + w.sbx)) :
    repairJump count i w = w.withBx ((i + 1 + w.sbx : Int) % count - (i + 1) + 65535) := by
  rw [repairJump, if_pos hop]
  exact if_neg h

/-- **When a jump stays as it is**: if its target is seen in the code, or if the target that is
written comes out as the same wide operand. -/
lemma repairJump_eq_self_iff (hop : w.opcode = jump) :
    repairJump count i w = w ↔ InCode count (i + 1 + w.sbx) ∨
      ((i + 1 + w.sbx : Int) % count - (i + 1) + 65535) % 131072 = w.bx := by
  by_cases h : InCode count (i + 1 + w.sbx)
  · simp only [repairJump_of_inCode h, h, true_or]
  · rw [repairJump_of_not_inCode hop h, Word.withBx_eq_self_iff, or_iff_right h]

end OneWord

/-! ## All words -/

@[simp] lemma length_repairFrom (constants : Int) (count i : Nat) (ws : List Word) :
    (repairFrom constants count i ws).length = ws.length := by
  induction ws generalizing i with
  | nil => rfl
  | cons w ws ih => simp [repairFrom, ih]

lemma getElem?_repairFrom (constants : Int) (count i j : Nat) (ws : List Word) :
    (repairFrom constants count i ws)[j]? = ws[j]?.map (repairWord constants count (i + j)) := by
  induction ws generalizing i j with
  | nil => rfl
  | cons w ws ih =>
    cases j with
    | zero => rfl
    | succ j =>
      rw [repairFrom, List.getElem?_cons_succ, List.getElem?_cons_succ, ih, Nat.add_right_comm,
        Nat.add_assoc]

lemma getElem?_repair (constants : Int) (count : Nat) (ws : List Word) (i : Nat) :
    (repair constants count ws)[i]? = ws[i]?.map (repairWord constants count i) := by
  rw [repair, getElem?_repairFrom, Nat.zero_add]

end Salvage.Chunk
