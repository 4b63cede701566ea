import Salvage.Proofs.Chunk.Recovery

/-!
# The search for a seed in place

An unknown seed is searched for in the buffer itself. For one seed after the other the code is put
back, deciphered in place and tested, and the search stops at the first seed that passes. What one
try leaves behind never reaches the next one, so the search gives the least seed that passes, with
the code deciphered under it, or puts the code back.
-/

namespace Salvage.Chunk

variable {line : UInt32} {seed : UInt16} {code : Bytes} {count : Nat}

/-! ## The least seed that passes -/

/-- At least thirty of a hundred among the first ten words of the code, deciphered under the seed,
have an operation code up to 82. -/
def Passes (line : UInt32) (code : Bytes) (seed : UInt16) : Prop :=
  30 * min (code.length / 4) 10 ≤
    100 * ((words (decipherCode line seed code)).take 10).countP
      fun w => decide (w.toNat % 128 ≤ 82)

instance (line : UInt32) (code : Bytes) (seed : UInt16) : Decidable (Passes line code seed) :=
  inferInstanceAs (Decidable (_ ≤ _))

lemma looksLikeCode_iff_passes (hcode : code.length = 4 * count) :
    looksLikeCode (words (decipherCode line seed code)) = true ↔ Passes line code seed := by
  have hwords : (words (decipherCode line seed code)).length = count :=
    length_words (by rw [length_decipherCode, hcode])
  have hop (w : UInt32) : decide (plainOpcode w ≤ 82) = decide (w.toNat % 128 ≤ 82) := by
    rw [decide_eq_decide, UInt8.le_iff_toNat_le, Word.toNat_plainOpcode]
    exact Iff.rfl
  have hfour : code.length / 4 = count := by omega
  simp only [looksLikeCode, Passes, hop, List.length_take, hwords, hfour, decide_eq_true_eq]
  omega

lemma looksLikeCode_of_findSeedFrom {n : Nat} (h : findSeedFrom line code n = some seed) :
    looksLikeCode (sample line code seed) = true := by
  induction n with
  | zero => simp [findSeedFrom] at h
  | succ n ih =>
    rw [findSeedFrom] at h
    split at h
    · next htest =>
      obtain rfl := Option.some.inj h
      exact htest
    · exact ih h

lemma findSeed_of_passes (hcode : code.length = 4 * count) (h : Passes line code seed) :
    ∃ found ≤ seed, findSeed line code = some found ∧ ∀ u < found, ¬ Passes line code u := by
  obtain ⟨found, hle, hfound, -, hbefore⟩ := findSeed_least ((looksLikeCode_iff_passes hcode).mpr h)
  refine ⟨found, hle, hfound, fun u hu hpass => ?_⟩
  rw [← looksLikeCode_iff_passes hcode, hbefore u hu] at hpass
  exact Bool.false_ne_true hpass

lemma passes_of_findSeed (hcode : code.length = 4 * count) (h : findSeed line code = some seed) :
    Passes line code seed := by
  rw [← looksLikeCode_iff_passes hcode, ← looksLikeCode_sample]
  exact looksLikeCode_of_findSeedFrom h

lemma findSeed_eq_some_iff (hcode : code.length = 4 * count) :
    findSeed line code = some seed ↔ Passes line code seed ∧ ∀ u < seed, ¬ Passes line code u := by
  constructor
  · intro h
    have hpass := passes_of_findSeed hcode h
    obtain ⟨found, -, hfound, hbefore⟩ := findSeed_of_passes hcode hpass
    obtain rfl : found = seed := Option.some.inj (hfound.symm.trans h)
    exact ⟨hpass, hbefore⟩
  · rintro ⟨hpass, hnone⟩
    obtain ⟨found, hle, hfound, -⟩ := findSeed_of_passes hcode hpass
    rcases UInt16.lt_or_eq_of_le hle with hlt | rfl
    · exact absurd (passes_of_findSeed hcode hfound) (hnone found hlt)
    · exact hfound

lemma findSeed_eq_none_iff (hcode : code.length = 4 * count) :
    findSeed line code = none ↔ ∀ u, ¬ Passes line code u := by
  constructor
  · intro h u hu
    obtain ⟨found, -, hfound, -⟩ := findSeed_of_passes hcode hu
    rw [h] at hfound
    exact absurd hfound (by simp)
  · intro h
    cases hfound : findSeed line code with
    | none => rfl
    | some found => exact absurd (passes_of_findSeed hcode hfound) (h found)

lemma take_decipherCode (line : UInt32) (seed : UInt16) (code : Bytes) :
    (decipherCode line seed code).take 4 = code.take 4 := by
  rw [← decipherCode_take (Nat.le_refl 4), decipherCode, List.take_take, Nat.min_self,
    List.drop_take, Nat.sub_self, List.take_zero, Rc4.apply, List.append_nil]

/-! ## Tries in the buffer -/

namespace Walk

/-- Tries the last `n` seeds on code that is kept beside the buffer: each is tried on the code put
back, and must leave the first word as it is. If none passes, the code is put back. -/
def tryFrom (offset count : Nat) (line : UInt32) (kept : Bytes) : Nat → Walk (Option UInt16)
  | 0 => do
    put offset kept
    return none
  | n + 1 => do
    let seed := UInt16.ofNat (0xFFFF - n)
    put offset kept
    codeUnder offset count line seed
    let region := Bytes.window (← get).data offset (4 * count)
    if region.take 4 = kept.take 4 ∧ looksLikeCode (words region) = true then return some seed
    else tryFrom offset count line kept n

def searchInPlace (offset count : Nat) (line : UInt32) : Walk (Option UInt16) := do
  if count = 0 then return none
  tryFrom offset count line (Bytes.window (← get).data offset (4 * count)) 0x10000

section Tries

variable {s : Session} {pre now kept post : Bytes}

lemma codeUnder_between (hdata : s.data = pre ++ (code ++ post)) (hcode : code.length = 4 * count)
    (line : UInt32) (seed : UInt16) :
    (codeUnder pre.length count line seed).run s =
      ((), { s with data := pre ++ (decipherCode line seed code ++ post) }) := by
  rw [codeUnder, get_bind_run, window_between hdata hcode]
  exact put_between hdata (length_decipherCode _ _ _)

/-- **The tries from a seed on**, whatever earlier tries have left in the place of the code.

**Proof sketch.** Every try starts by putting the code back, so what it tests is the code deciphered
once, under its own seed. The first word is never deciphered. -/
lemma tryFrom_run (hdata : s.data = pre ++ (now ++ post)) (hnow : now.length = 4 * count)
    (hkept : kept.length = 4 * count) (line : UInt32) (n : Nat) :
    (tryFrom pre.length count line kept n).run s = (findSeedFrom line kept n, { s with data :=
      pre ++ ((findSeedFrom line kept n).elim kept (decipherCode line · kept) ++ post) }) := by
  induction n generalizing s now with
  | zero =>
    rw [tryFrom, run_bind_of (put_between hdata (hkept.trans hnow.symm))]
    rfl
  | succ n ih =>
    have hregion (u : UInt16) :
        Bytes.window (pre ++ (decipherCode line u kept ++ post)) pre.length (4 * count) =
          decipherCode line u kept :=
      window_between rfl ((length_decipherCode line u kept).trans hkept)
    -- what an earlier try left is gone as soon as the code is put back
    rw [tryFrom, run_bind_of (put_between hdata (hkept.trans hnow.symm)),
      run_bind_of (codeUnder_between rfl hkept line _), get_bind_run, hregion]
    dsimp only
    rw [take_decipherCode, ← looksLikeCode_sample, findSeedFrom]
    by_cases htest : looksLikeCode (sample line kept (UInt16.ofNat (0xFFFF - n))) = true
    · rw [if_pos ⟨rfl, htest⟩, if_pos htest]
      rfl
    · rw [if_neg (fun h => htest h.2), if_neg htest,
        ih rfl ((length_decipherCode _ _ _).trans hkept)]

/-- **The search in place** gives the least seed that passes and leaves the code deciphered under
it, or gives none and leaves the code. -/
lemma searchInPlace_between (hdata : s.data = pre ++ (code ++ post))
    (hcode : code.length = 4 * count) (hcount : count ≠ 0) (line : UInt32) :
    (searchInPlace pre.length count line).run s = (findSeed line code, { s with
      data := pre ++ ((findSeed line code).elim code (decipherCode line · code) ++ post) }) := by
  rw [searchInPlace, if_neg hcount, get_bind_run, window_between hdata hcode]
  exact tryFrom_run hdata hcode hcode line 0x10000

lemma searchSeed_eq_searchInPlace (hdata : s.data = pre ++ (code ++ post))
    (hcode : code.length = 4 * count) (hcount : count ≠ 0) (line : UInt32) :
    (searchSeed pre.length count line).run s = (searchInPlace pre.length count line).run s := by
  rw [searchInPlace_between hdata hcode hcount]
  cases hfound : findSeed line code with
  | some found => exact searchSeed_between hdata hcode hcount hfound
  | none =>
    rw [searchSeed, get_bind_run, window_between hdata hcode]
    rw [if_neg hcount, hfound, Option.elim_none, ← hdata]
    rfl

end Tries

end Walk

/-- **What the search gives, and what it leaves in the buffer**, for any code anywhere in a buffer.
It gives a seed exactly if some seed passes the test. The seed is then the least one that passes,
and the code is left deciphered under it, with its first word as it was. Otherwise the code is left
as it was. In both cases all else stays. -/
theorem searchSeed_least_or_restored (s : Session) (pre code post : Bytes) (count : Nat)
    (line : UInt32) (hdata : s.data = pre ++ (code ++ post)) (hcode : code.length = 4 * count)
    (hcount : count ≠ 0) :
    ∃ result left, left.length = code.length ∧
      (Walk.searchInPlace pre.length count line).run s =
        (result, { s with data := pre ++ (left ++ post) }) ∧
      (Walk.searchSeed pre.length count line).run s =
        (result, { s with data := pre ++ (left ++ post) }) ∧
      (result.isSome ↔ ∃ seed, Passes line code seed) ∧
      (∀ found, result = some found → Passes line code found ∧
        (∀ u < found, ¬ Passes line code u) ∧
        left = decipherCode line found code ∧ left.take 4 = code.take 4) ∧
      (result = none → left = code) := by
  have hplace := Walk.searchInPlace_between hdata hcode hcount line
  have hsearch := Walk.searchSeed_eq_searchInPlace hdata hcode hcount line
  refine ⟨findSeed line code, (findSeed line code).elim code (decipherCode line · code), ?_, hplace,
    hsearch.trans hplace, ?_, fun found hfound => ?_, fun hnone => ?_⟩
  · cases findSeed line code with
    | none => rfl
    | some found => exact length_decipherCode _ _ _
  · rw [← Option.ne_none_iff_isSome, Ne, findSeed_eq_none_iff hcode, not_forall_not]
  · obtain ⟨hpass, hleast⟩ := (findSeed_eq_some_iff hcode).mp hfound
    rw [hfound]
    exact ⟨hpass, hleast, rfl, take_decipherCode line found code⟩
  · rw [hnone]
    rfl

/-- Four words enciphered under seed one, between two octets: the search passes over seed zero,
finds seed one and brings the words back. -/
theorem fourWords_searched :
    (encipherCode 0 1 fourWords).length = 4 * 4 ∧
      (Walk.searchInPlace 1 4 0).run { data := [7] ++ (encipherCode 0 1 fourWords ++ [9]) } =
        (some 1, { data := [7] ++ (ofWords fourWords ++ [9]) }) := by
  have hlen : (encipherCode 0 1 fourWords).length = 4 * 4 := length_encipherCode 0 1 fourWords
  have hplain : decipherCode 0 1 (encipherCode 0 1 fourWords) = ofWords fourWords :=
    (decipherCode_encipherCode_eq_iff 0 1 1 fourWords).mpr rfl
  have hone : Passes 0 (encipherCode 0 1 fourWords) 1 := by
    rw [← looksLikeCode_iff_passes hlen, hplain, words_ofWords]
    decide
  have hzero : ¬ Passes 0 (encipherCode 0 1 fourWords) 0 := by
    rw [encipherCode_eq_decipherCode, decipherCode_eq, Passes, decipherCode_eq]
    decide +kernel
  obtain ⟨result, left, -, hplace, -, hsome, hfound, -⟩ := searchSeed_least_or_restored
    { data := [7] ++ (encipherCode 0 1 fourWords ++ [9]) } [7] (encipherCode 0 1 fourWords) [9] 4 0
    rfl hlen (by decide)
  obtain ⟨found, rfl⟩ := Option.isSome_iff_exists.mp (hsome.mpr ⟨1, hone⟩)
  obtain ⟨hpass, hleast, rfl, -⟩ := hfound found rfl
  obtain rfl : found = 1 := by
    have hne : found ≠ 0 := fun h => hzero (h ▸ hpass)
    have hle : ¬ 1 < found := fun h => hleast 1 h hone
    grind
  rw [hplain] at hplace
  exact ⟨hlen, hplace⟩

end Salvage.Chunk
