import Mathlib.Data.List.TakeWhile
import Salvage.Chunk.Batch
import Salvage.Proofs.Text.Utf8

/-!
# Where deciphered files go

The path of a deciphered file is cut to the room there is for it, and its ending is replaced after that.
A path that fits gets the ending of chunks in place of its own. In a path that was cut, the new ending
stands at the last dot that is left, wherever that is, so that it may reach over the end of the room.
-/

namespace Salvage.Chunk

variable {path stem rest : Bytes}

/-! ## Endings -/

lemma chunkEnding_eq : Bytes.ofString ".luac" = [0x2E, 0x6C, 0x75, 0x61, 0x63] := by
  rw [Utf8.ofString_eq_flatMap]
  decide

lemma doubledEnding_eq :
    Bytes.ofString ".lua.bytes" = [0x2E, 0x6C, 0x75, 0x61, 0x2E, 0x62, 0x79, 0x74, 0x65, 0x73] := by
  rw [Utf8.ofString_eq_flatMap]
  decide

lemma endsWith_iff {b suffix : Bytes} : endsWith b suffix = true ↔ ∃ front, b = front ++ suffix := by
  rw [endsWith, List.isSuffixOf_iff_suffix]
  exact exists_congr fun front => eq_comm

lemma endsWith_doubled_of_chunk (front : Bytes) :
    endsWith (front ++ Bytes.ofString ".luac") (Bytes.ofString ".lua.bytes") = false := by
  rw [← Bool.not_eq_true, endsWith_iff, chunkEnding_eq, doubledEnding_eq]
  rintro ⟨front', h⟩
  have hlast := congrArg List.getLast? h
  simp at hlast

lemma exists_last_dot (h : 0x2E ∈ path) : ∃ stem rest, path = stem ++ 0x2E :: rest ∧ 0x2E ∉ rest := by
  obtain ⟨front, back, hpath, hfront⟩ := List.eq_append_cons_of_mem (List.mem_reverse.mpr h)
  refine ⟨back.reverse, front.reverse, ?_, by rwa [List.mem_reverse]⟩
  rw [← List.reverse_reverse path, hpath, List.reverse_append, List.reverse_cons, List.append_assoc]
  rfl

lemma le_of_dot {i : Nat} (hrest : 0x2E ∉ rest) (h : (stem ++ 0x2E :: rest)[i]? = some 0x2E) :
    i ≤ stem.length := by
  refine Nat.le_of_not_lt fun hlt => ?_
  have hbehind : rest[i - stem.length - 1]? = some 0x2E := by
    rwa [List.getElem?_append_right (by omega), List.getElem?_cons, if_neg (by omega)] at h
  exact hrest (List.mem_of_getElem? hbehind)

lemma withChunkExtension_doubled (stem : Bytes) :
    withChunkExtension (stem ++ Bytes.ofString ".lua.bytes") = stem ++ Bytes.ofString ".luac" := by
  simp only [withChunkExtension]
  rw [if_pos (endsWith_iff.mpr ⟨stem, rfl⟩), List.length_append, Nat.add_sub_cancel, List.take_left]

lemma withChunkExtension_dot (hrest : 0x2E ∉ rest)
    (hend : endsWith (stem ++ 0x2E :: rest) (Bytes.ofString ".lua.bytes") = false) :
    withChunkExtension (stem ++ 0x2E :: rest) = stem ++ Bytes.ofString ".luac" := by
  have htail : (stem ++ 0x2E :: rest).reverse.takeWhile (· != 0x2E) = rest.reverse := by
    rw [List.reverse_append, List.reverse_cons, List.append_assoc, List.takeWhile_append_of_pos]
    · simp
    · intro x hx
      exact bne_iff_ne.mpr fun heq => hrest (heq ▸ List.mem_reverse.mp hx)
  have hlength : (stem ++ 0x2E :: rest).length = stem.length + rest.length + 1 := by
    rw [List.length_append, List.length_cons, Nat.add_assoc]
  have hstem : stem.length + rest.length + 1 - rest.length - 1 = stem.length := by omega
  simp only [withChunkExtension, hend, Bool.false_eq_true, if_false, htail, List.length_reverse,
    hlength]
  rw [if_neg (by omega), hstem, List.take_left]

lemma withChunkExtension_plain (h : 0x2E ∉ path) : withChunkExtension path = path := by
  have hend : endsWith path (Bytes.ofString ".lua.bytes") = false := by
    rw [← Bool.not_eq_true, endsWith_iff, doubledEnding_eq]
    rintro ⟨front, rfl⟩
    exact h (by simp)
  have htail : path.reverse.takeWhile (· != 0x2E) = path.reverse :=
    List.takeWhile_eq_self_iff.mpr fun x hx =>
      bne_iff_ne.mpr fun heq => h (heq ▸ List.mem_reverse.mp hx)
  simp only [withChunkExtension, hend, Bool.false_eq_true, if_false, htail, List.length_reverse,
    if_true]

/-! ## Room -/

/-- **When the new ending fits**: there must be room for it behind every dot.

**Proof sketch.** Of the dots only the last one counts. If the path ends in the doubled ending, that dot
stands further behind than the new ending, which is shorter than the old one. -/
lemma length_withChunkExtension_lt_iff {size : Nat} (hpath : path.length < size) :
    (withChunkExtension path).length < size ↔ ∀ i, path[i]? = some 0x2E → i + 5 < size := by
  have hnew (stem : Bytes) : (stem ++ Bytes.ofString ".luac").length = stem.length + 5 := by
    rw [chunkEnding_eq, List.length_append]
    rfl
  cases hend : endsWith path (Bytes.ofString ".lua.bytes") with
  | true =>
    obtain ⟨stem, rfl⟩ := endsWith_iff.mp hend
    rw [withChunkExtension_doubled, hnew]
    rw [doubledEnding_eq] at hpath ⊢
    rw [List.length_append] at hpath
    have hlong : stem.length + 10 < size := hpath
    refine ⟨fun _ i hi => ?_, fun _ => by omega⟩
    have hlast : stem ++ [0x2E, 0x6C, 0x75, 0x61, 0x2E, 0x62, 0x79, 0x74, 0x65, 0x73] =
        (stem ++ [0x2E, 0x6C, 0x75, 0x61]) ++ 0x2E :: [0x62, 0x79, 0x74, 0x65, 0x73] := by simp
    rw [hlast] at hi
    have hle := le_of_dot (by decide) hi
    rw [List.length_append] at hle
    change i ≤ stem.length + 4 at hle
    omega
  | false =>
    by_cases hdot : 0x2E ∈ path
    · obtain ⟨stem, rest, rfl, hrest⟩ := exists_last_dot hdot
      rw [withChunkExtension_dot hrest hend, hnew]
      constructor
      · intro h i hi
        have := le_of_dot hrest hi
        omega
      · intro h
        exact h stem.length (by simp)
    · rw [withChunkExtension_plain hdot]
      exact ⟨fun _ i hi => absurd (List.mem_of_getElem? hi) hdot, fun _ => hpath⟩

lemma withoutBase_append {base gap rest : Bytes} (hgap : ∀ x ∈ gap, isDivider x = true)
    (hrest : ∀ x ∈ rest.head?, isDivider x = false) :
    withoutBase base (base ++ (gap ++ rest)) = rest := by
  have hbase : base.isPrefixOf (base ++ (gap ++ rest)) = true := by
    rw [List.isPrefixOf_iff_prefix]
    exact List.prefix_append _ _
  rw [withoutBase, if_pos hbase, List.drop_left, List.dropWhile_append_of_pos hgap]
  cases rest with
  | nil => rfl
  | cons x rest =>
    rw [List.dropWhile_cons_of_neg]
    simp [hrest x rfl]

/-- **When the path of a deciphered file fits** with a zero behind it: exactly if there is room, and room
for the new ending behind every dot that is not cut off. A path that need not be cut is the output
directory, a slash and the path below the input directory, with the ending of chunks in place of its
own ending. -/
theorem outputPath_fits_iff (base gap stem ending outputBase : Bytes) (size : Nat)
    (hgap : ∀ x ∈ gap, isDivider x = true)
    (hstart : ∀ x ∈ (stem ++ ending).head?, isDivider x = false)
    (hending : ending = Bytes.ofString ".luac" ∨ ending = Bytes.ofString ".lua.bytes") :
    let file := base ++ (gap ++ (stem ++ ending))
    let whole := outputBase ++ 0x2F :: (stem ++ ending)
    ((outputPathBytes base file outputBase size).length + 1 ≤ size ↔
      0 < size ∧ ∀ i, i + 1 < size → whole[i]? = some 0x2E → i + 5 < size) ∧
    (whole.length + 1 ≤ size → outputPathBytes base file outputBase size =
      outputBase ++ 0x2F :: (stem ++ Bytes.ofString ".luac")) := by
  intro file whole
  have hpath : outputPathBytes base file outputBase size =
      withChunkExtension (whole.take (size - 1)) := by
    rw [outputPathBytes, withoutBase_append hgap hstart, List.append_assoc]
    rfl
  rw [hpath]
  constructor
  · rcases Nat.eq_zero_or_pos size with rfl | hsize
    · simp
    have hcut : (whole.take (size - 1)).length < size := by
      have := List.length_take_le (size - 1) whole
      omega
    rw [Nat.succ_le_iff, length_withChunkExtension_lt_iff hcut, and_iff_right hsize]
    refine forall_congr' fun i => ?_
    rw [List.getElem?_take]
    split
    · exact ⟨fun h _ => h, fun h => h (by omega)⟩
    · exact ⟨fun _ hi => by omega, fun _ hi => nomatch hi⟩
  · intro hroom
    have hsplit (e : Bytes) : outputBase ++ 0x2F :: (stem ++ e) = (outputBase ++ 0x2F :: stem) ++ e := by
      simp
    rw [List.take_of_length_le (by omega)]
    change withChunkExtension (outputBase ++ 0x2F :: (stem ++ ending)) = _
    rw [hsplit, hsplit]
    rcases hending with rfl | rfl
    · have hend := endsWith_doubled_of_chunk (outputBase ++ 0x2F :: stem)
      rw [chunkEnding_eq] at hend ⊢
      rw [withChunkExtension_dot (by decide) hend, chunkEnding_eq]
    · exact withChunkExtension_doubled _

/-- A file with the doubled ending below two slashes. -/
theorem outputPath_fits_iff_doubled :
    (∀ x ∈ ([0x2F, 0x2F] : Bytes), isDivider x = true) ∧
    (∀ x ∈ ([0x61] ++ Bytes.ofString ".lua.bytes").head?, isDivider x = false) ∧
    outputPathBytes [0x69] ([0x69] ++ ([0x2F, 0x2F] ++ ([0x61] ++ Bytes.ofString ".lua.bytes"))) [0x6F]
      512 = [0x6F] ++ 0x2F :: ([0x61] ++ Bytes.ofString ".luac") := by
  have hgap : ∀ x ∈ ([0x2F, 0x2F] : Bytes), isDivider x = true := by simp [isDivider]
  have hstart : ∀ x ∈ ([0x61] ++ Bytes.ofString ".lua.bytes").head?, isDivider x = false := by
    simp [isDivider]
  have hroom : ([0x6F] ++ 0x2F :: ([0x61] ++ Bytes.ofString ".lua.bytes")).length + 1 ≤ 512 := by
    rw [doubledEnding_eq]
    decide
  exact ⟨hgap, hstart,
    (outputPath_fits_iff [0x69] [0x2F, 0x2F] [0x61] _ [0x6F] 512 hgap hstart (.inr rfl)).2 hroom⟩

/-- The file `in/a.luac` to the directory `out` with room for ten octets: the path is cut to `out/a.lua`,
and with its new ending and the zero it takes eleven. -/
theorem cut_path_overruns :
    outputPathBytes (Bytes.ofString "in") (Bytes.ofString "in/a.luac") (Bytes.ofString "out") 10 =
        Bytes.ofString "out/a.luac" ∧
      (Bytes.ofString "out/a.luac").length + 1 = 11 := by
  simp only [outputPathBytes, withChunkExtension, Utf8.ofString_eq_flatMap]
  decide

end Salvage.Chunk
