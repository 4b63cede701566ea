import Salvage.Proofs.Chunk.File

/-!
# The block behind the header

Two tests decide whether a file has a block of 128 octets behind its header. Where its functions are
deciphered, the octet behind the block is looked at; where the file is brought into the standard
form, only its length is. They agree on all files but the shortest and those that are long enough
for a block and do not have one.
-/

namespace Salvage.Chunk

/-! ## Deciphered files -/

lemma functionOffset_ge (data : Bytes) : 33 ≤ functionOffset data := by
  unfold functionOffset
  split <;> omega

variable {data : Bytes}

lemma functionOffset_lt (h : headerFault? data = none) : functionOffset data < data.length := by
  unfold headerFault? at h
  split at h
  · cases h
  · split at h
    · cases h
    · split at h
      · cases h
      · omega

/-- Deciphering the functions of a file keeps its length and the front of its header, up to the flag
that it clears. -/
lemma functionsUnder_keeps (seed : Option UInt16) (data : Bytes) :
    (functionsUnder seed data).1.length = data.length ∧
      (functionsUnder seed data).1.take 6 = data.take 6 := by
  unfold functionsUnder
  split
  · exact ⟨rfl, rfl⟩
  · have hge := functionOffset_ge data
    have hstart : 6 ≤ Session.offset
        { data := data, offset := functionOffset data + 1, seed := seed } := by
      simp only
      omega
    obtain ⟨hlen, hfront⟩ := Walk.function_keeps 0 hstart
    rw [Varint.length_overwrite, Varint.take_overwrite (Nat.le_refl 6)]
    exact ⟨hlen, hfront⟩

/-! ## The standard form -/

lemma startsWith_of_take {p a b : Bytes} (h : a.take p.length = b.take p.length) :
    Bytes.startsWith p a = Bytes.startsWith p b := by
  rw [Bool.eq_iff_iff, Bytes.startsWith, Bytes.startsWith, List.isPrefixOf_iff_prefix,
    List.isPrefixOf_iff_prefix, List.prefix_iff_eq_take, List.prefix_iff_eq_take, h]

/-- From where on the standard form of a file with a mark keeps its octets behind the header, by the
length of the file. -/
def keptOffset (length : Nat) : Nat :=
  if length < 40 then 31 else if length < 162 then 33 else 161

/-- **What stands behind the header of the standard form**: a file that is long enough loses 128
octets, whatever they are. -/
lemma drop_normalize (hmark : Bytes.startsWith (signature ++ [versionMark, 0x30]) data = true) :
    (normalize data).drop standardLength = data.drop (keptOffset data.length) := by
  unfold keptOffset
  by_cases hlen : data.length < 40
  · rw [normalize, if_neg (by omega), if_pos hlen]
    rfl
  have hfront : (data.take 5 ++ [0x00]).length = 6 := by
    simp only [List.length_append, List.length_take, List.length_singleton]
    omega
  -- two octets are left out, so everything behind them moves forward by two
  have hdrop (k : Nat) : (data.take 5 ++ [0x00] ++ data.drop 8).drop (6 + k) =
      data.drop (8 + k) := by
    rw [← hfront, List.drop_length_add_append, List.drop_drop]
  have hshort : (data.take 5 ++ [0x00] ++ data.drop 8).length = data.length - 2 := by
    rw [List.length_append, hfront, List.length_drop]
    omega
  rw [normalize, if_pos ⟨by omega, hmark⟩, if_neg hlen]
  simp only [standardLength, hshort]
  by_cases hlong : data.length < 162
  · rw [if_neg (by omega), if_pos hlong]
    exact hdrop 25
  · rw [if_pos (by omega), if_neg hlong, List.drop_left']
    · exact hdrop 153
    · rw [List.length_take, hshort]
      omega

/-- A file with a mark has a block if it is long enough and the octet behind the block can be a
number of captured variables. -/
lemma hasBlock_iff (hmark : Bytes.startsWith (signature ++ [versionMark, 0x30]) data = true) :
    hasBlock data = true ↔ 162 ≤ data.length ∧ data.getD 161 0 ≤ 20 := by
  have hversion : Bytes.startsWith (signature ++ [versionMark]) data = true := by
    rw [Bytes.startsWith, List.isPrefixOf_iff_prefix] at hmark ⊢
    exact List.IsPrefix.trans (by decide) hmark
  simp [hasBlock, hversion]

lemma drop_eq_drop_iff {i j : Nat} (hi : i ≤ data.length) (hj : j ≤ data.length) :
    data.drop i = data.drop j ↔ i = j := by
  constructor
  · intro h
    have hlen := congrArg List.length h
    rw [List.length_drop, List.length_drop] at hlen
    omega
  · rintro rfl
    rfl

/-- **When the standard form keeps the function that was deciphered.** Let the header of a file be
accepted and have the mark of the form with two flags. Behind the header of the standard form stand
exactly the octets from the place where the function was deciphered on, if and only if the file has
at least 40 octets and, if it is long enough for a block, an octet behind the block that can be a
number of captured variables.

**Proof sketch.** Deciphering keeps the length of the file and its mark, so the standard form keeps
the octets from `keptOffset` on. Both places lie inside the file; they are the same in exactly
these cases. -/
theorem normalize_keeps_function_iff (b : Bench) (data : Bytes)
    (haccepted : headerFault? data = none)
    (hmark : Bytes.startsWith (signature ++ [versionMark, 0x30]) data = true) :
    (normalize ((Work.decryptFunctions data).run b).1).drop standardLength =
        ((Work.decryptFunctions data).run b).1.drop (functionOffset data) ↔
      40 ≤ data.length ∧ (162 ≤ data.length → data.getD 161 0 ≤ 20) := by
  obtain ⟨_, hrun⟩ := Work.decryptFunctions_run data b
  obtain ⟨hlen, htake⟩ := functionsUnder_keeps b.seed data
  have hplain : Bytes.startsWith (signature ++ [versionMark, 0x30])
      (functionsUnder b.seed data).1 = true :=
    (startsWith_of_take (p := signature ++ [versionMark, 0x30]) htake).trans hmark
  have hplace := functionOffset_lt haccepted
  have hblock := hasBlock_iff hmark
  rw [hrun, drop_normalize hplain, hlen]
  unfold functionOffset at hplace ⊢
  rw [drop_eq_drop_iff]
  · unfold keptOffset
    grind
  · unfold keptOffset
    grind
  · grind

def markedHeader : Bytes :=
  [0x1B, 0x4C, 0x75, 0x61, 0x54, 0x30, 0x01, 0x00, 0x19, 0x93, 0x0D, 0x0A, 0x1A, 0x0A, 4, 8, 8,
    0x78, 0x56, 0, 0, 0, 0, 0, 0, 0, 0, 0, 0, 0, 0x28, 0x77, 0x40]

/-- The number of captured variables and the octets of a function without code, whose source has a
name of 254 letters. -/
def namedFunction : Bytes :=
  [0x00, 0x01, 0xFF] ++ List.replicate 254 0x61 ++
    [128, 128, 0, 0, 2, 128, 128, 128, 128, 128, 128, 128, 128]

def blockFile : Bytes :=
  markedHeader ++ List.replicate 128 0xAA ++ namedFunction

def blocklessFile : Bytes :=
  markedHeader ++ namedFunction

/-- The standard form of the file with a block keeps the function. -/
theorem blockFile_keeps_function :
    headerFault? blockFile = none ∧
      Bytes.startsWith (signature ++ [versionMark, 0x30]) blockFile = true ∧
      (normalize ((Work.decryptFunctions blockFile).run {}).1).drop standardLength =
        ((Work.decryptFunctions blockFile).run {}).1.drop (functionOffset blockFile) := by
  have haccepted : headerFault? blockFile = none := by decide +kernel
  have hmark : Bytes.startsWith (signature ++ [versionMark, 0x30]) blockFile = true := by
    decide
  have hfits : 40 ≤ blockFile.length ∧ (162 ≤ blockFile.length → blockFile.getD 161 0 ≤ 20) := by
    decide +kernel
  exact ⟨haccepted, hmark, (normalize_keeps_function_iff {} blockFile haccepted hmark).mpr hfits⟩

/-- **A function that is cut**: the file without a block is accepted, and its function is deciphered
where it stands behind the header, but the standard form has lost the first 128 octets of it. -/
theorem blockless_function_is_cut :
    headerFault? blocklessFile = none ∧
      Bytes.startsWith (signature ++ [versionMark, 0x30]) blocklessFile = true ∧
      ((Work.decryptFunctions blocklessFile).run {}).1.drop (functionOffset blocklessFile) =
        namedFunction ∧
      (normalize ((Work.decryptFunctions blocklessFile).run {}).1).drop standardLength =
        namedFunction.drop 128 ∧
      namedFunction.drop 128 ≠ namedFunction := by
  decide +kernel

end Salvage.Chunk
