import Salvage.Proofs.Chunk.Function

/-!
# Recovering code by the search for a seed

Code whose words all have operation codes in use is enciphered under a seed. The search then always
finds a seed, the least one under which the first words pass for code. This can be a smaller seed
than the right one, and the code comes back only if both have the same key stream. Of up to three
words, the first one alone is enough for the test, so the search stops at seed zero.
-/

namespace Salvage.Chunk

variable {line : UInt32} {seed : UInt16} {code : Bytes} {plain : List UInt32}

/-! ## The least seed -/

lemma decipherCode_take {n : Nat} (hn : 4 ≤ n) (line : UInt32) (u : UInt16) (code : Bytes) :
    decipherCode line u (code.take n) = (decipherCode line u code).take n := by
  rcases Nat.le_total code.length n with hle | hle
  · rw [List.take_of_length_le hle, List.take_of_length_le (by simpa using hle)]
  · have hfour : (code.take 4).length = 4 := List.length_take_of_le (by omega)
    have hkept : (code.take 4).take n = code.take 4 := List.take_of_length_le (by omega)
    rw [decipherCode, decipherCode, List.take_take, Nat.min_eq_left hn, List.drop_take,
      Rc4.apply_take, List.take_append, hfour, hkept]

lemma looksLikeCode_sample (line : UInt32) (code : Bytes) (u : UInt16) :
    looksLikeCode (sample line code u) = looksLikeCode (words (decipherCode line u code)) := by
  have hten : sample line code u = (words (decipherCode line u code)).take 10 := by
    rw [sample, decipherCode_take (by decide), ← words_take]
  rw [hten, looksLikeCode, looksLikeCode, List.take_take, Nat.min_self]

lemma findSeedFrom_least {n : Nat} (hn : n ≤ 0x10000) (hseed : 0x10000 - n ≤ seed.toNat)
    (hlooks : looksLikeCode (sample line code seed) = true) :
    ∃ found ≤ seed, findSeedFrom line code n = some found ∧
      looksLikeCode (sample line code found) = true ∧
      ∀ u < found, 0x10000 - n ≤ u.toNat → looksLikeCode (sample line code u) = false := by
  induction n with
  | zero =>
    have hlt := seed.toNat_lt
    omega
  | succ n ih =>
    have hfirst : (UInt16.ofNat (0xFFFF - n)).toNat = 0xFFFF - n := by
      rw [UInt16.toNat_ofNat']
      omega
    by_cases htest : looksLikeCode (sample line code (UInt16.ofNat (0xFFFF - n))) = true
    · refine ⟨UInt16.ofNat (0xFFFF - n), ?_, ?_, htest, ?_⟩
      · rw [UInt16.le_iff_toNat_le]
        omega
      · rw [findSeedFrom, if_pos htest]
      · intro u hu hlow
        rw [UInt16.lt_iff_toNat_lt] at hu
        omega
    · -- the first seed fails the test, so it is not the one that passes
      have hlater (v : UInt16) (hv : 0x10000 - (n + 1) ≤ v.toNat)
          (hne : v ≠ UInt16.ofNat (0xFFFF - n)) : 0x10000 - n ≤ v.toNat := by
        have : v.toNat ≠ 0xFFFF - n := fun h => hne (UInt16.toNat_inj.mp (h.trans hfirst.symm))
        omega
      have hne : seed ≠ UInt16.ofNat (0xFFFF - n) := fun h => htest (h ▸ hlooks)
      obtain ⟨found, hle, hfound, hpass, hleast⟩ := ih (by omega) (hlater seed hseed hne)
      refine ⟨found, hle, ?_, hpass, ?_⟩
      · rw [findSeedFrom, if_neg htest, hfound]
      · intro u hu hlow
        by_cases hu' : u = UInt16.ofNat (0xFFFF - n)
        · rw [hu']
          exact eq_false_of_ne_true htest
        · exact hleast u hu (hlater u hlow hu')

lemma findSeed_least (hlooks : looksLikeCode (words (decipherCode line seed code)) = true) :
    ∃ found ≤ seed, findSeed line code = some found ∧
      looksLikeCode (words (decipherCode line found code)) = true ∧
      ∀ u < found, looksLikeCode (words (decipherCode line u code)) = false := by
  rw [← looksLikeCode_sample] at hlooks
  obtain ⟨found, hle, hfound, hpass, hleast⟩ :=
    findSeedFrom_least (Nat.le_refl 0x10000) (Nat.zero_le _) hlooks
  refine ⟨found, hle, hfound, ?_, ?_⟩
  · rw [← looksLikeCode_sample, hpass]
  · intro u hu
    rw [← looksLikeCode_sample, hleast u hu (Nat.zero_le _)]

/-! ## Code under a seed and under another one -/

/-- Plain words under a seed: the first one stays, and all else is under the key stream. -/
def encipherCode (line : UInt32) (seed : UInt16) : List UInt32 → Bytes
  | [] => []
  | w :: ws =>
    ofWord w ++ Bytes.xor (ofWords ws) (Rc4.stream (4 * ws.length) (codeCipher line seed))

@[simp] lemma length_encipherCode (line : UInt32) (seed : UInt16) (plain : List UInt32) :
    (encipherCode line seed plain).length = 4 * plain.length := by
  cases plain with
  | nil => rfl
  | cons w ws =>
    simp only [encipherCode, ofWord, List.length_append, Bytes.length_ofLittleEndian,
      Bytes.length_xor, length_ofWords, Rc4.length_stream, List.length_cons]
    omega

lemma encipherCode_eq_decipherCode (line : UInt32) (seed : UInt16) (plain : List UInt32) :
    encipherCode line seed plain = decipherCode line seed (ofWords plain) := by
  cases plain with
  | nil => rfl
  | cons w ws =>
    have hlen : (ofWord w).length = 4 := Bytes.length_ofLittleEndian _ _
    rw [encipherCode, decipherCode, ofWords_cons, ← hlen, List.take_left, List.drop_left, hlen,
      Rc4.apply_eq_xor_stream, length_ofWords]

lemma decipherCode_encipherCode_cons (line : UInt32) (seed u : UInt16) (w : UInt32)
    (ws : List UInt32) :
    decipherCode line u (encipherCode line seed (w :: ws)) =
      ofWord w ++ Bytes.xor
        (Bytes.xor (ofWords ws) (Rc4.stream (4 * ws.length) (codeCipher line seed)))
        (Rc4.stream (4 * ws.length) (codeCipher line u)) := by
  have hlen : (ofWord w).length = 4 := Bytes.length_ofLittleEndian _ _
  rw [encipherCode, decipherCode, ← hlen, List.take_left, List.drop_left, hlen,
    Rc4.apply_eq_xor_stream, Bytes.length_xor, length_ofWords, Rc4.length_stream, Nat.min_self]

/-- **Code comes back** under exactly the seeds whose key stream is the one it was enciphered
with. -/
lemma decipherCode_encipherCode_eq_iff (line : UInt32) (seed u : UInt16) (plain : List UInt32) :
    decipherCode line u (encipherCode line seed plain) = ofWords plain ↔
      Rc4.stream (4 * (plain.length - 1)) (codeCipher line u) =
        Rc4.stream (4 * (plain.length - 1)) (codeCipher line seed) := by
  cases plain with
  | nil => simp [encipherCode, decipherCode, ofWords, Rc4.apply, Rc4.stream]
  | cons w ws =>
    rw [decipherCode_encipherCode_cons, ofWords_cons, List.append_right_inj, List.length_cons,
      Nat.add_sub_cancel]
    exact Bytes.xor_xor_eq_iff (by simp) (by simp)

lemma looksLikeCode_of_opcodes (h : ∀ w ∈ plain, plainOpcode w ≤ 82) :
    looksLikeCode plain = true := by
  have hall : (plain.take 10).countP (fun w => decide (plainOpcode w ≤ 82)) =
      (plain.take 10).length :=
    List.countP_eq_length.mpr fun w hw => decide_eq_true (h w (List.mem_of_mem_take hw))
  simp only [looksLikeCode, hall, decide_eq_true_eq]
  omega

lemma looksLikeCode_cons_of_length_le {w : UInt32} {ws : List UInt32} (hw : plainOpcode w ≤ 82)
    (hlen : (w :: ws).length ≤ 3) : looksLikeCode (w :: ws) = true := by
  have hcount : 0 < (w :: ws).countP fun v => decide (plainOpcode v ≤ 82) :=
    List.countP_pos_iff.mpr ⟨w, List.mem_cons_self, decide_eq_true hw⟩
  have htake : (w :: ws).take 10 = w :: ws := List.take_of_length_le (by omega)
  simp only [looksLikeCode, htake, decide_eq_true_eq]
  omega

lemma looksLikeCode_short {w : UInt32} {ws : List UInt32} (hw : plainOpcode w ≤ 82)
    (hlen : (w :: ws).length ≤ 3) (line : UInt32) (seed u : UInt16) :
    looksLikeCode (words (decipherCode line u (encipherCode line seed (w :: ws)))) = true := by
  have hlength : (words (decipherCode line u (encipherCode line seed (w :: ws)))).length ≤ 3 := by
    rw [length_words (n := (w :: ws).length) (by simp)]
    exact hlen
  rw [decipherCode_encipherCode_cons, words_ofWord_append] at hlength ⊢
  exact looksLikeCode_cons_of_length_le hw hlength

/-! ## The search in a buffer -/

/-- Code that stands anywhere in a buffer is deciphered under the seed that is found for it; all else
stays. -/
lemma Walk.searchSeed_between {s : Session} {pre post : Bytes} {count : Nat} {found : UInt16}
    (hdata : s.data = pre ++ (code ++ post)) (hlen : code.length = 4 * count) (hcount : count ≠ 0)
    (hfound : findSeed line code = some found) :
    (Walk.searchSeed pre.length count line).run s = (some found, { s with
      data := pre ++ (decipherCode line found code ++ post) }) := by
  have hwindow : Bytes.window s.data pre.length (4 * count) = code := by
    rw [hdata, ← hlen, Bytes.window_append]
  rw [searchSeed_found hcount (by rw [hwindow, hfound]), hwindow, hdata,
    Varint.overwrite_append _ _ (length_decipherCode _ _ _)]

/-- **What the search finds, and when it brings the code back**: for words whose operation codes are
all in use, enciphered under a seed anywhere in a buffer, the search gives the least seed under
which they look like code and deciphers them under it, and all else stays. The plain words come back
exactly if the key streams of this seed and of the right one agree over the words behind the first
one. For up to three words the seed that is found is zero, whatever the right one is. -/
theorem searchSeed_recovers_iff (plain : List UInt32) (line : UInt32) (seed : UInt16) (s : Session)
    (pre post : Bytes) (hplain : plain ≠ []) (hopcodes : ∀ w ∈ plain, plainOpcode w ≤ 82)
    (hdata : s.data = pre ++ (encipherCode line seed plain ++ post)) :
    ∃ found ≤ seed,
      (Walk.searchSeed pre.length plain.length line).run s = (some found, { s with
        data := pre ++ (decipherCode line found (encipherCode line seed plain) ++ post) }) ∧
      looksLikeCode (words (decipherCode line found (encipherCode line seed plain))) = true ∧
      (∀ u < found,
        looksLikeCode (words (decipherCode line u (encipherCode line seed plain))) = false) ∧
      (plain.length ≤ 3 → found = 0) ∧
      (decipherCode line found (encipherCode line seed plain) = ofWords plain ↔
        Rc4.stream (4 * (plain.length - 1)) (codeCipher line found) =
          Rc4.stream (4 * (plain.length - 1)) (codeCipher line seed)) := by
  have hright : decipherCode line seed (encipherCode line seed plain) = ofWords plain :=
    (decipherCode_encipherCode_eq_iff line seed seed plain).mpr rfl
  have hlooks : looksLikeCode (words (decipherCode line seed (encipherCode line seed plain))) =
      true := by
    rw [hright, words_ofWords, looksLikeCode_of_opcodes hopcodes]
  obtain ⟨found, hle, hfound, hpass, hleast⟩ := findSeed_least hlooks
  have hcount : plain.length ≠ 0 := fun h => hplain (List.eq_nil_of_length_eq_zero h)
  have hrun := Walk.searchSeed_between hdata (length_encipherCode _ _ _) hcount hfound
  refine ⟨found, hle, hrun, hpass, hleast, ?_,
    decipherCode_encipherCode_eq_iff line seed found plain⟩
  intro hshort
  cases plain with
  | nil => exact absurd rfl hplain
  | cons w ws =>
    have hzero := looksLikeCode_short (hopcodes w List.mem_cons_self) hshort line seed 0
    by_contra hne
    rw [hleast 0 (UInt16.pos_iff_ne_zero.mpr hne)] at hzero
    exact Bool.false_ne_true hzero

def fourWords : List UInt32 := [0x52, 0x47, 0x2C, 0x26]

lemma plainOpcode_fourWords : ∀ w ∈ fourWords, plainOpcode w ≤ 82 := by
  intro w hw
  simp only [fourWords, List.mem_cons, List.not_mem_nil, or_false] at hw
  rcases hw with rfl | rfl | rfl | rfl
  all_goals decide

/-- Four words that are enciphered under seed one come back: under seed zero, only the first of them
has an operation code in use. -/
theorem fourWords_recovered :
    fourWords ≠ [] ∧ (∀ w ∈ fourWords, plainOpcode w ≤ 82) ∧
      (Walk.searchSeed 0 4 0).run { data := encipherCode 0 1 fourWords } =
        (some 1, { data := ofWords fourWords }) := by
  have hplain : fourWords ≠ [] := by decide
  have hzero : looksLikeCode (words (decipherCode 0 0 (encipherCode 0 1 fourWords))) = false := by
    rw [encipherCode_eq_decipherCode, decipherCode_eq, decipherCode_eq]
    decide +kernel
  obtain ⟨found, hle, hrun, hpass, _, _, hiff⟩ := searchSeed_recovers_iff fourWords 0 1
    { data := encipherCode 0 1 fourWords } [] [] hplain plainOpcode_fourWords
    (List.append_nil _).symm
  have hone : found = 1 := by
    have hne : found ≠ 0 := by
      rintro rfl
      rw [hzero] at hpass
      exact Bool.false_ne_true hpass
    grind
  subst hone
  rw [hiff.mpr rfl, List.nil_append, List.append_nil] at hrun
  exact ⟨hplain, plainOpcode_fourWords, hrun⟩

/-- **Code that is misread**: the second of these words is enciphered under seed one, but the search
finds seed zero and leaves another word. -/
theorem short_code_is_misread :
    (∀ w ∈ ([0x52, 0x47] : List UInt32), plainOpcode w ≤ 82) ∧
      encipherCode 0 1 [0x52, 0x47] = [0x52, 0, 0, 0, 0xD4, 0x9F, 0x42, 0xB9] ∧
      (Walk.searchSeed 0 2 0).run { data := encipherCode 0 1 [0x52, 0x47] } =
        (some 0, { data := ofWords [0x52, 0x6BB7D3E6] }) ∧
      ofWords [0x52, 0x6BB7D3E6] ≠ ofWords [0x52, 0x47] := by
  have hcode : encipherCode 0 1 [0x52, 0x47] = [0x52, 0, 0, 0, 0xD4, 0x9F, 0x42, 0xB9] := by
    rw [encipherCode_eq_decipherCode, decipherCode_eq]
    decide +kernel
  have hzero : decipherCode 0 0 [0x52, 0, 0, 0, 0xD4, 0x9F, 0x42, 0xB9] =
      ofWords [0x52, 0x6BB7D3E6] := by
    rw [decipherCode_eq]
    decide +kernel
  have hlooks : looksLikeCode
      (words (decipherCode 0 0 [0x52, 0, 0, 0, 0xD4, 0x9F, 0x42, 0xB9])) = true := by
    rw [hzero]
    decide
  obtain ⟨found, hle, hfound, -, -⟩ := findSeed_least hlooks
  obtain rfl : found = 0 := UInt16.le_zero_iff.mp hle
  have hrun : (Walk.searchSeed ([] : Bytes).length 2 0).run
      { data := encipherCode 0 1 [0x52, 0x47] } = (some 0, { data := [] ++
        (decipherCode 0 0 [0x52, 0, 0, 0, 0xD4, 0x9F, 0x42, 0xB9] ++ []) }) :=
    Walk.searchSeed_between (hcode.trans (List.append_nil _).symm) rfl (by decide) hfound
  rw [hzero, List.nil_append, List.append_nil] at hrun
  have hopcodes : ∀ w ∈ ([0x52, 0x47] : List UInt32), plainOpcode w ≤ 82 :=
    fun w hw => plainOpcode_fourWords w (List.mem_of_mem_take (i := 2) hw)
  exact ⟨hopcodes, hcode, hrun, by decide⟩

end Salvage.Chunk
