import Salvage.Proofs.Chunk.Calls

/-!
# The stack size of a function

The stack size of a protected function is raised to what its code needs: all registers that the
deciphered code names lie below it. Operands from 250 on are not taken for registers. The sections
behind the code, with all nested functions, leave the stack size and the code alone.
-/

namespace Salvage.Chunk

/-! ## Registers -/

section Registers

variable {top operand : Nat} {w : Word} {ws : List Word}

lemma le_raise (top operand : Nat) : top ≤ raise top operand := by
  unfold raise
  split <;> omega

lemma operand_le_raise (h : operand < 250) (top : Nat) : operand ≤ raise top operand := by
  unfold raise
  split <;> omega

lemma raise_lt (h : top < 250) (operand : Nat) : raise top operand < 250 := by
  unfold raise
  split <;> omega

/-- A word does not lower the highest register, keeps it below 250, and raises it to its first
operand. -/
lemma raiseBy_bounds (top : Nat) (w : Word) :
    top ≤ raiseBy top w ∧ (top < 250 → raiseBy top w < 250) ∧
      (plainOpcode w ≤ 83 → w.a < 250 → w.a ≤ raiseBy top w) := by
  have hb := le_raise (raise top w.a) w.b
  have hc := le_raise (raise (raise top w.a) w.b) w.c
  have ha := le_raise top w.a
  simp only [raiseBy]
  split
  · next hop =>
    exact ⟨Nat.le_refl _, id, fun hle => absurd hop (UInt8.not_lt.mpr hle)⟩
  · split
    · exact ⟨ha, fun h => raise_lt h _, fun _ h => operand_le_raise h _⟩
    · refine ⟨by omega, fun h => raise_lt (raise_lt (raise_lt h _) _) _, fun _ h => ?_⟩
      have := operand_le_raise h top
      omega

lemma le_foldl_raiseBy (ws : List Word) (top : Nat) : top ≤ ws.foldl raiseBy top := by
  induction ws generalizing top with
  | nil => exact Nat.le_refl _
  | cons w ws ih => exact Nat.le_trans (raiseBy_bounds top w).1 (ih _)

lemma foldl_raiseBy_lt (ws : List Word) (h : top < 250) : ws.foldl raiseBy top < 250 := by
  induction ws generalizing top with
  | nil => exact h
  | cons w ws ih => exact ih ((raiseBy_bounds top w).2.1 h)

lemma highestRegister_lt (ws : List Word) : highestRegister ws < 250 :=
  foldl_raiseBy_lt ws (by decide)

/-- **The highest register of code** is not below the first operand of any of its words that is
taken for a register. -/
lemma a_le_highestRegister (hw : w ∈ ws) (hop : plainOpcode w ≤ 83) (ha : w.a < 250) :
    w.a ≤ highestRegister ws := by
  obtain ⟨before, behind, rfl⟩ := List.append_of_mem hw
  rw [highestRegister, List.foldl_append, List.foldl_cons]
  exact Nat.le_trans ((raiseBy_bounds _ w).2.2 hop ha) (le_foldl_raiseBy behind _)

end Registers

/-! ## What a function begins with -/

structure Numeral where
  octets : Bytes
  value : UInt32
  read_append : ∀ rest, Varint.read (octets ++ rest) = ⟨value, some octets.length⟩

structure Opening where
  nameLength : Numeral
  name : Bytes
  firstLine : Numeral
  lastLine : Numeral
  parameters : UInt8
  variadic : UInt8
  stackSize : UInt8
  count : Numeral
  code : List Word
  length_name : name.length = Walk.textLength nameLength.value
  length_code : code.length = count.value.toNat

namespace Opening

def octets (f : Opening) : Bytes :=
  f.nameLength.octets ++ (f.name ++ (f.firstLine.octets ++ (f.lastLine.octets ++
    ([f.parameters, f.variadic] ++ ([f.stackSize] ++ (f.count.octets ++ ofWords f.code))))))

def deciphered (f : Opening) (size : UInt8) (code : List Word)
    (hcode : code.length = f.code.length) : Opening :=
  { f with
    name := decipherText f.name
    stackSize := size
    code := code
    length_name := (length_decipherText f.name).trans f.length_name
    length_code := hcode.trans f.length_code }

end Opening

lemma Session.Reaches.exists_data {s t : Session} {calls : List Call} {pre rest : Bytes}
    (h : s.Reaches s.offset calls t) (hs : s.Between pre rest) :
    ∃ rest', rest'.length = rest.length ∧ t.data = pre ++ rest' := by
  refine ⟨t.data.drop s.offset, ?_, ?_⟩
  · rw [List.length_drop, h.length_eq, hs.data_eq, hs.offset_eq, List.length_append]
    omega
  · have hsplit := List.take_append_drop s.offset t.data
    rw [h.front_eq, hs.data_eq, hs.offset_eq, List.take_left, ← hs.offset_eq] at hsplit
    exact hsplit.symm

namespace Walk

/-! ## The stack size -/

section Sizes

variable {top register : Nat} {size : UInt8}

/-- **A stack size is not lowered**, as long as it is at most 250 or clearly above the registers. -/
lemma le_stackSize (htop : top < 250)
    (h : size ≤ 250 ∨ size = 255 ∨ top + 5 < size.toNat) : size ≤ stackSize top size := by
  have hlarge : (250 : UInt8).toNat = 250 := rfl
  have hsmall : (UInt8.ofNat (top + 8)).toNat = (top + 8) % 256 := UInt8.toNat_ofNat'
  rw [UInt8.le_iff_toNat_le] at h ⊢
  unfold stackSize
  split
  · next hle =>
    split
    · rcases h with h | rfl | h
      · omega
      · -- registers below 250 are more than five below the greatest size
        exact absurd hle (by simp; omega)
      · omega
    · omega
  · exact Nat.le_refl _

lemma lt_stackSize (htop : top < 250) (h : register ≤ top) (size : UInt8) :
    register < (stackSize top size).toNat := by
  have hlarge : (250 : UInt8).toNat = 250 := rfl
  have hsmall : (UInt8.ofNat (top + 8)).toNat = (top + 8) % 256 := UInt8.toNat_ofNat'
  unfold stackSize
  split
  · split <;> omega
  · omega

end Sizes

/-! ## Steps over the octets of a function -/

lemma numeral_turns (n : Numeral) : Turns number n.octets n.octets (some n.value) :=
  number_turns_of n.read_append

variable {s : Session} {pre rest : Bytes}

/-- **A function whose stack size fits**: what the walk over a function leaves of its octets up to
and with its code.

**Proof sketch.** The steps up to the code section turn the octets one after the other. The sections
behind the code change nothing before the position they start at, whatever the nested functions
do. -/
lemma functionWith_fits {child : Traced Unit} {child' : Walk Unit} (h : Traced.Traces child child')
    (depth : Int) (f : Opening) (hcode : f.code ≠ []) (hs : s.Between pre (f.octets ++ rest)) :
    ∃ code, ∃ hlen : code.length = f.code.length, ∃ rest', rest'.length = rest.length ∧
      ((functionWith true depth child').run s).2.data = pre ++ ((f.deciphered
        (stackSize (highestRegister code) f.stackSize) code hlen).octets ++ rest') := by
  have hs₀ : s.Between pre ((f.nameLength.octets ++ f.name) ++ (f.firstLine.octets ++
      (f.lastLine.octets ++ ([f.parameters, f.variadic] ++ ([f.stackSize] ++ (f.count.octets ++
        (ofWords f.code ++ rest))))))) := by
    simpa only [Opening.octets, List.append_assoc] using hs
  obtain ⟨size, code, s₅, hrun, hlen, hsize, hs₅⟩ := functionWith_between child'
    (source_turns_of depth f.nameLength.read_append f.length_name) (numeral_turns f.firstLine)
    (numeral_turns f.lastLine) f.count.read_append f.length_code hs₀
  obtain rfl := hsize hcode
  rw [hrun]
  obtain ⟨_, -, hreach⟩ := Traced.sections_traces h depth (Nat.le_refl s₅.offset) []
  obtain ⟨rest', hrest, hdata⟩ := hreach.exists_data hs₅
  refine ⟨code, hlen, rest', hrest, hdata.trans ?_⟩
  simp [Opening.octets, Opening.deciphered]

end Walk

/-- **The stack size covers the registers.** Let a function with code stand anywhere in a buffer, at
any depth. After the walk over it and all functions nested in it, its octets up to and with its code
are the old ones with the name deciphered, other code and another stack size. The stack size is not
smaller than before, if it was at most 250, or the greatest one, or more than five above the highest
register of the code. And it is greater than the first operand of every word of the code whose
operation code is in use, as long as this operand is at most 249. -/
theorem stackSize_covers_registers (f : Opening) (hcode : f.code ≠ []) (levels : Nat) (depth : Int)
    (s : Session) (pre rest : Bytes) (hs : s.Between pre (f.octets ++ rest)) :
    ∃ code, ∃ hlen : code.length = f.code.length, ∃ size rest', rest'.length = rest.length ∧
      ((Walk.functionUpTo true levels depth).run s).2.data =
        pre ++ ((f.deciphered size code hlen).octets ++ rest') ∧
      (f.stackSize ≤ 250 ∨ f.stackSize = 255 ∨ highestRegister code + 5 < f.stackSize.toNat →
        f.stackSize ≤ size) ∧
      ∀ w ∈ code, plainOpcode w ≤ 83 → w.a ≤ 249 → w.a < size.toNat := by
  have hwalk : ∃ code, ∃ hlen : code.length = f.code.length, ∃ rest', rest'.length = rest.length ∧
      ((Walk.functionUpTo true levels depth).run s).2.data = pre ++ ((f.deciphered
        (Walk.stackSize (highestRegister code) f.stackSize) code hlen).octets ++ rest') := by
    cases levels with
    | zero => exact Walk.functionWith_fits (.pure ()) depth f hcode hs
    | succ levels =>
      exact Walk.functionWith_fits (Traced.functionUpTo_traces levels (depth + 1)) depth f hcode hs
  obtain ⟨code, hlen, rest', hrest, hdata⟩ := hwalk
  have htop := highestRegister_lt code
  refine ⟨code, hlen, _, rest', hrest, hdata, Walk.le_stackSize htop, fun w hw hop ha => ?_⟩
  exact Walk.lt_stackSize htop (a_le_highestRegister hw hop (by omega)) f.stackSize

/-- Sizes from 251 to 254 may be lowered. -/
example : Walk.stackSize 249 252 = 250 := by decide

def oneWord (size : UInt8) (w : Word) : Opening where
  nameLength := ⟨[0x80], 0, fun _ => rfl⟩
  name := []
  firstLine := ⟨[0x80], 0, fun _ => rfl⟩
  lastLine := ⟨[0x80], 0, fun _ => rfl⟩
  parameters := 0
  variadic := 0
  stackSize := size
  count := ⟨[0x81], 1, fun _ => rfl⟩
  code := [w]
  length_name := rfl
  length_code := rfl

def emptySections : Bytes := List.replicate 7 0x80

/-- A function whose word names register nine, with room for two. -/
theorem register_nine_is_covered :
    (oneWord 2 0x4C9).code ≠ [] ∧ Word.a 0x4C9 = 9 ∧
      ∃ code, ∃ hlen : code.length = (oneWord 2 0x4C9).code.length, ∃ size rest',
        rest'.length = emptySections.length ∧
        ((Walk.function true 0).run { data := (oneWord 2 0x4C9).octets ++ emptySections }).2.data =
          ((oneWord 2 0x4C9).deciphered size code hlen).octets ++ rest' ∧
        2 ≤ size ∧ ∀ w ∈ code, plainOpcode w ≤ 83 → w.a ≤ 249 → w.a < size.toNat := by
  have hcode : (oneWord 2 0x4C9).code ≠ [] := List.cons_ne_nil _ _
  obtain ⟨code, hlen, size, rest', hrest, hdata, hle, hlt⟩ :=
    stackSize_covers_registers (oneWord 2 0x4C9) hcode (Walk.levelsFrom 0) 0
      { data := (oneWord 2 0x4C9).octets ++ emptySections } [] emptySections ⟨rfl, rfl⟩
  rw [Walk.function]
  exact ⟨hcode, rfl, code, hlen, size, rest', hrest, hdata, hle (Or.inl (by decide)), hlt⟩

/-- **An operand that is not taken for a register**: the word has operation code 73 and the first
operand 254, but the stack size is set to eight. -/
theorem register_254_is_not_covered :
    ((Walk.function true 0).run { data := (oneWord 2 0x7F49).octets ++ emptySections }).2.data =
        ((oneWord 2 0x7F49).deciphered 8 [0x7F49] rfl).octets ++ emptySections ∧
      plainOpcode 0x7F49 ≤ 83 ∧ Word.a 0x7F49 = 254 ∧ ¬ Word.a 0x7F49 < (8 : UInt8).toNat := by
  decide +kernel

end Salvage.Chunk
