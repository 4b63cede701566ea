import Salvage.Proofs.Chunk.Repair

/-!
# Where repaired jumps lead

A jump holds its distance in all bits above the operation code, counted from half their range. A
repair takes the wide operand alone for the distance, counted from the end of its range, and writes
the distance back counted from half of it. So it sees other targets than the ones that jumps lead
to. Jumps that lead into the code are changed, and repaired jumps lead out of it.
-/

namespace Salvage.Chunk

namespace Word

def landing (i : Nat) (w : Word) : Int :=
  i + 1 + (w.ax - 16777215)

/-- The distance of a jump in strides of 256 words, a part of a stride counted as a whole one. -/
def strides (w : Word) : Int :=
  (w.ax - 16777215 + 255) / 256

lemma strides_eq (w : Word) : w.strides = w.bx - 65535 := by
  have ha := w.a_lt
  rw [strides, ax_eq_bx_add_a]
  omega

lemma seen_eq (i : Nat) (w : Word) : (i + 1 + w.sbx : Int) = i + 1 + w.strides - 65536 := by
  rw [strides_eq, sbx]
  omega

lemma strides_bounds {count i : Nat} {w : Word} (hi : i < count) (h : InCode count (w.landing i)) :
    0 ≤ i + 1 + w.strides ∧ i + 1 + w.strides ≤ count := by
  simp only [InCode, landing, strides] at h ⊢
  omega

end Word

/-! ## Jumps that stay -/

variable {count : Nat} {w : Word}

/-- A number below `65536` is the remainder of the number that lies `65536` before it, up to whole
ranges of the wide operand, in the cases in which the number of words fits that distance. -/
lemma dvd_emod_sub_iff {x : Int} (hx : 0 ≤ x) (hle : x ≤ count) (hlt : x < 65536) :
    131072 ∣ (x - 65536) % count - x ↔
      (count ∣ 65536 ∧ x < count) ∨ count % 131072 = 65536 := by
  rcases Nat.eq_zero_or_pos count with rfl | hpos
  · obtain rfl : x = 0 := by omega
    decide
  have hnonneg : 0 ≤ (x - 65536) % (count : Int) := Int.emod_nonneg _ (by omega)
  have hrem : (x - 65536) % (count : Int) < count := Int.emod_lt_of_pos _ (by omega)
  by_cases hlong : 65536 ≤ count
  · -- one length of the code brings the number back into it
    have hmod : (x - 65536) % (count : Int) = x - 65536 + count := by
      rw [← Int.add_emod_right, Int.emod_eq_of_lt (by omega) (by omega)]
    rw [hmod]
    constructor
    · intro h
      exact Or.inr (by omega)
    · rintro (⟨hdvd, -⟩ | h)
      · have := Nat.le_of_dvd (by decide) hdvd
        omega
      · omega
  · -- both numbers lie in the code, so that they are equal
    have hsame : 131072 ∣ (x - 65536) % count - x ↔ (x - 65536) % (count : Int) = x := by omega
    rw [hsame]
    constructor
    · intro h
      refine Or.inl ⟨?_, by omega⟩
      have hdvd := Int.dvd_self_sub_emod (x := x - 65536) (m := count)
      rw [h, show x - 65536 - x = -((65536 : Nat) : Int) by omega, Int.dvd_neg] at hdvd
      exact Int.natCast_dvd_natCast.mp hdvd
    · rintro (⟨hdvd, hin⟩ | h)
      · have hzero : (65536 : Int) % count = 0 :=
          Int.emod_eq_zero_of_dvd (Int.natCast_dvd_natCast.mpr hdvd)
        rw [Int.sub_emod, hzero, Int.sub_zero, Int.emod_emod, Int.emod_eq_of_lt hx hin]
      · omega

/-- **Which of the jumps that lead into the code stay**: those that are seen in the code by
accident, and those of code whose length makes up for the difference between reading and writing. -/
lemma repairJump_eq_self_iff_of_inCode {i : Nat} (hi : i < count)
    (hop : w.opcode = jump) (h : InCode count (w.landing i)) :
    repairJump count i w = w ↔
      65536 ≤ i + 1 + w.strides ∨ (count ∣ 65536 ∧ i + 1 + w.strides < count) ∨
        count % 131072 = 65536 := by
  obtain ⟨hlow, hhigh⟩ := Word.strides_bounds hi h
  have hbx := w.bx_lt
  have hstrides := w.strides_eq
  rw [repairJump_eq_self_iff hop, Word.seen_eq]
  by_cases hfar : 65536 ≤ i + 1 + w.strides
  · have hseen : InCode count (i + 1 + w.strides - 65536) := ⟨by omega, by omega⟩
    simp only [hseen, hfar, true_or]
  · have hunseen : ¬ InCode count (i + 1 + w.strides - 65536) := fun hseen => by
      have := hseen.1
      omega
    have hwritten :
        ((i + 1 + w.strides - 65536) % (count : Int) - (i + 1) + 65535) % 131072 = w.bx ↔
          131072 ∣ (i + 1 + w.strides - 65536) % (count : Int) - (i + 1 + w.strides) := by omega
    rw [or_iff_right hunseen, or_iff_right hfar, hwritten,
      dvd_emod_sub_iff hlow hhigh (by omega)]

/-! ## Where jumps lead after a repair -/

/-- The position that a jump at position `i` of code of `count` words leads to after its repair. A
jump that is seen in the code stays. Otherwise the distance to the target that was seen, brought
into the code, is written as a number of strides, and the first operand goes on counting words. -/
def repairedLanding (count i : Nat) (w : Word) : Int :=
  let seen : Int := i + 1 + w.sbx
  if InCode count seen then w.landing i
  else i + 1 + 256 * ((seen % count - (i + 1) + 65535) % 131072 - 65535) + (w.a - 255)

lemma landing_repairJump {i : Nat} (hop : w.opcode = jump) :
    (repairJump count i w).landing i = repairedLanding count i w := by
  rw [repairedLanding]
  by_cases hseen : InCode count (i + 1 + w.sbx)
  · rw [repairJump_of_inCode hseen, if_pos hseen]
  · rw [repairJump_of_not_inCode hop hseen, if_neg hseen, Word.landing, Word.ax_eq_bx_add_a,
      Word.bx_withBx, Word.a_eq_of_low (Word.low_withBx w _)]
    omega

lemma opcode_eq_jump (h : plainOpcode w = jump) : w.opcode = jump := by
  rw [Word.opcode, h]
  decide

/-- **Which jumps of repaired code are kept, and when all lead into the code.** A jump that leads
into the code stays if and only if one of three things holds: its strides lead to position 65536 or
behind it; the number of words divides 65536, and the strides lead to a position before the end; or
the number of words is an odd multiple of 65536. All jumps of the repaired code lead into it if and
only if the positions where their repair leaves each of them do. -/
theorem jumps_kept_and_in_code_iff (constants : Int) (ws : List Word) :
    (∀ (i : Nat) (w : Word), ws[i]? = some w → plainOpcode w = jump →
      InCode ws.length (w.landing i) → ((repair constants ws.length ws)[i]? = some w ↔
        65536 ≤ i + 1 + w.strides ∨
          (ws.length ∣ 65536 ∧ i + 1 + w.strides < ws.length) ∨ ws.length % 131072 = 65536)) ∧
    ((∀ (i : Nat) (w : Word), (repair constants ws.length ws)[i]? = some w →
        plainOpcode w = jump → InCode ws.length (w.landing i)) ↔
      ∀ (i : Nat) (w : Word), ws[i]? = some w → plainOpcode w = jump →
        InCode ws.length (repairedLanding ws.length i w)) := by
  refine ⟨fun i w hw hop hin => ?_, fun h i w hw hop => ?_, fun h i w hw hop => ?_⟩
  · obtain ⟨hi, -⟩ := List.getElem?_eq_some_iff.mp hw
    rw [getElem?_repair, hw, Option.map_some, Option.some_inj,
      repairWord_of_jump (opcode_eq_jump hop),
      repairJump_eq_self_iff_of_inCode hi (opcode_eq_jump hop) hin]
  · have hsame := Word.plainOpcode_eq_of_low (low_repairWord constants ws.length i w)
    have hrepaired := h i (repairWord constants ws.length i w)
      (by rw [getElem?_repair, hw, Option.map_some]) (hsame.trans hop)
    rwa [repairWord_of_jump (opcode_eq_jump hop),
      landing_repairJump (opcode_eq_jump hop)] at hrepaired
  · rw [getElem?_repair, Option.map_eq_some_iff] at hw
    obtain ⟨v, hv, rfl⟩ := hw
    rw [Word.plainOpcode_eq_of_low (low_repairWord constants ws.length i v)] at hop
    rw [repairWord_of_jump (opcode_eq_jump hop), landing_repairJump (opcode_eq_jump hop)]
    exact h i v hv hop

def fourWordJump : List Word := [0x80000039, 0x47, 0x47, 0x47]

/-- Four divides 65536, so the jump stays, and repaired code has no jump that leads out of it. -/
theorem fourWordJump_kept :
    InCode fourWordJump.length (Word.landing 0 0x80000039) ∧
      (repair 0 fourWordJump.length fourWordJump)[0]? = some 0x80000039 ∧
      ∀ (i : Nat) (w : Word), (repair 0 fourWordJump.length fourWordJump)[i]? = some w →
        plainOpcode w = jump → InCode fourWordJump.length (w.landing i) := by
  have hin : InCode fourWordJump.length (Word.landing 0 0x80000039) := by decide
  obtain ⟨hkept, hall⟩ := jumps_kept_and_in_code_iff 0 fourWordJump
  refine ⟨hin, (hkept 0 0x80000039 rfl rfl hin).mpr (Or.inr (Or.inl (by decide))), ?_⟩
  refine hall.mpr fun i w hw hop => ?_
  have hrest : ∀ v ∈ [0x47, 0x47, 0x47], plainOpcode v ≠ jump := by
    intro v hv
    simp only [List.mem_cons, List.not_mem_nil, or_false, or_self] at hv
    subst hv
    decide
  cases i with
  | zero =>
    obtain rfl : 0x80000039 = w := Option.some.inj hw
    decide
  | succ i => exact absurd hop (hrest w (List.mem_of_getElem? hw))

/-- **A jump into the code that is led out of it**: the first of these three words jumps to the
third, and after the repair it jumps to a position 254 words before the code. -/
theorem jump_into_code_is_led_out :
    plainOpcode 0x80000039 = jump ∧ Word.landing 0 0x80000039 = 2 ∧
      repair 0 3 [0x80000039, 0x47, 0x47] = [0x7FFF8039, 0x47, 0x47] ∧
      plainOpcode 0x7FFF8039 = jump ∧ Word.landing 0 0x7FFF8039 = -254 := by
  decide

end Salvage.Chunk
