import Mathlib.Data.List.Nodup
import Mathlib.Tactic.SplitIfs
import Salvage.Ghost.Asset
import Salvage.Proofs.Cipher.Modes
import Salvage.Proofs.Text.Utf8

/-!
# Ghost assets and their texts

The assets are exactly the octets that start with one of the headers, of which there is one for each
key of two octets. Behind the header stands the text under a stream that depends on the length of the
text only, so that a text and an asset determine each other once the key is known. Nothing is used of
the cipher but that it gives as many octets as it takes. What the cipher turns into the stream are
counters, of which no two are the same.
-/

namespace Salvage.Ghost

open HeaderKey

/-! ## The stream -/

/-- The counter of the block with the number `i`. -/
def counterAt (i : Nat) : Nat :=
  runDistance * (i / runLength + 1) + i % runLength

/-- **The counters in closed form.**

**Proof sketch.** By induction on their number. The invariant is that the value carried along is the
counter of the next block, unless a run starts there and the value is not used. -/
lemma countersFrom_eq (n i value : Nat) (hvalue : i % runLength ≠ 0 → value = counterAt i) :
    countersFrom n i value = (List.range n).map fun k => counterAt (i + k) := by
  induction n generalizing i value with
  | zero => rfl
  | succ n ih =>
    have hfirst : (if i % runLength = 0 then runDistance * (i / runLength + 1) else value) =
        counterAt i := by
      by_cases hstart : i % runLength = 0
      · rw [if_pos hstart, counterAt, hstart]
        rfl
      · rw [if_neg hstart, hvalue hstart]
    have hnext (h : (i + 1) % runLength ≠ 0) : counterAt i + 1 = counterAt (i + 1) := by
      simp only [counterAt, runLength, runDistance] at h ⊢
      omega
    have hshift : (fun k => counterAt (i + 1 + k)) = (fun k => counterAt (i + k)) ∘ Nat.succ := by
      funext k
      exact congrArg counterAt (Nat.succ_add_eq_add_succ i k)
    simp only [countersFrom, hfirst]
    rw [ih (i + 1) (counterAt i + 1) hnext, List.range_succ_eq_map, List.map_cons, List.map_map, hshift]
    rfl

lemma counters_eq (n : Nat) : counters n = (List.range (n / Aes.Block.length + 1)).map counterAt := by
  rw [counters, countersFrom_eq _ 0 0 fun h => absurd rfl h]
  simp only [Nat.zero_add]

lemma length_counterBlock (c : Nat) : (counterBlock c).length = Aes.Block.length := by
  rw [counterBlock, List.length_append, Bytes.length_ofLittleEndian, List.length_replicate]
  rfl

lemma length_counterStream (n : Nat) :
    (counterStream n).length = Aes.Block.length * (n / Aes.Block.length + 1) := by
  have hblocks (cs : List Nat) : (cs.flatMap counterBlock).length = Aes.Block.length * cs.length := by
    induction cs with
    | nil => rfl
    | cons c cs ih =>
      rw [List.flatMap_cons, List.length_append, length_counterBlock, ih, List.length_cons,
        Nat.mul_succ, Nat.add_comm]
  rw [counterStream, hblocks, counters_eq, List.length_map, List.length_range]

lemma chunks_counterStream (n : Nat) : Bytes.chunks Aes.Block.length (counterStream n) =
    (List.range (n / Aes.Block.length + 1)).map fun i => counterBlock (counterAt i) := by
  have hblocks (cs : List Nat) :
      Bytes.chunks Aes.Block.length (cs.flatMap counterBlock) = cs.map counterBlock := by
    induction cs with
    | nil => rfl
    | cons c cs ih =>
      rw [List.flatMap_cons, Bytes.chunks_append (by decide) (length_counterBlock c), ih, List.map_cons]
  rw [counterStream, hblocks, counters_eq, List.map_map]
  rfl

lemma counterAt_injective {i j : Nat} (h : counterAt i = counterAt j) : i = j := by
  simp only [counterAt, runLength, runDistance] at h
  omega

lemma counterAt_lt {n i : Nat} (hn : n < 2 ^ 64) (hi : i ≤ n / 16) : counterAt i < 2 ^ 64 := by
  simp only [counterAt, runLength, runDistance]
  omega

lemma counterBlock_injective {c d : Nat} (hc : c < 2 ^ 64) (hd : d < 2 ^ 64)
    (h : counterBlock c = counterBlock d) : c = d := by
  have hnumber : Bytes.ofLittleEndian 8 c = Bytes.ofLittleEndian 8 d := List.append_cancel_right h
  rw [← Bytes.littleEndian_ofLittleEndian (n := 8) hc, hnumber, Bytes.littleEndian_ofLittleEndian hd]

lemma length_key : key.length = 32 := by
  rw [key, Utf8.ofString_eq_flatMap]
  decide

lemma encrypt_counterStream (n : Nat) :
    Ecb.encrypt key (counterStream n) = .ok (keyStream n) ∧ n ≤ (keyStream n).length := by
  obtain ⟨k, hkey⟩ := Aes.Key.exists_ofBytes? (.inr (.inr length_key))
  have haligned : (counterStream n).length % Aes.Block.length = 0 := by
    rw [length_counterStream, Nat.mul_mod_right]
  obtain ⟨b, hb, hlength⟩ := Ecb.length_encrypt hkey haligned
  have hblock : Aes.Block.length = 16 := rfl
  have hstream : keyStream n = b := by
    rw [keyStream, hb]
    rfl
  rw [hstream, hlength, length_counterStream, hblock]
  exact ⟨hb, by omega⟩

lemma length_keyStream (n : Nat) : n ≤ (keyStream n).length :=
  (encrypt_counterStream n).2

@[simp] lemma length_mask (b : Bytes) : (mask b).length = b.length := by
  rw [mask, Bytes.length_xor]
  exact Nat.min_eq_left (length_keyStream b.length)

@[simp] lemma mask_mask (b : Bytes) : mask (mask b) = b := by
  have hstream : mask (mask b) = Bytes.xor (Bytes.xor b (keyStream b.length)) (keyStream b.length) := by
    rw [mask, length_mask, mask]
  rw [hstream, Bytes.xor_xor (length_keyStream b.length)]

/-! ## Headers -/

namespace HeaderKey

lemma exists_ofBytes? {b : Bytes} (hb : b.length = 2) :
    ∃ k, ofBytes? b = some k ∧ b = [k.first, k.second] := by
  obtain ⟨x, b, rfl⟩ := List.exists_cons_of_length_eq_add_one hb
  obtain ⟨y, b, rfl⟩ := List.exists_cons_of_length_eq_add_one (Nat.succ.inj hb)
  obtain rfl := List.eq_nil_of_length_eq_zero (Nat.succ.inj (Nat.succ.inj hb))
  exact ⟨⟨x, y⟩, rfl, rfl⟩

@[simp] lemma length_mix (k : HeaderKey) (b : Bytes) : (k.mix b).length = b.length := by
  induction b generalizing k with
  | nil => rfl
  | cons x b ih => rw [mix, List.length_cons, ih, List.length_cons]

@[simp] lemma mix_mix (k : HeaderKey) (b : Bytes) : k.mix (k.mix b) = b := by
  induction b generalizing k with
  | nil => rfl
  | cons x b ih => rw [mix, mix, ih, xor_cancel_right]

@[simp] lemma mixOne_mixOne (k : HeaderKey) (x : UInt8) : k.mixOne (k.mixOne x) = x := by
  rw [mixOne, mixOne, xor_cancel_right]

end HeaderKey

def Header.bytes (h : Header) : Bytes :=
  [h.key.first, h.key.second] ++ (h.key.mix h.signature ++ [h.key.mixOne h.generation])

def HeaderKey.expected (k : HeaderKey) : Header where
  key := k
  signature := Utf8.encode Ghost.signature
  generation := Ghost.generation

lemma HeaderKey.bytes_expected (k : HeaderKey) : k.expected.bytes = k.header :=
  (List.append_assoc _ _ _).symm

lemma length_signature : (Utf8.encode signature).length = 13 := by
  rw [Utf8.encode, Utf8.ofString_eq_flatMap]
  decide

lemma Header.length_bytes {h : Header} (hlength : h.signature.length = 13) :
    h.bytes.length = headerLength := by
  simp [bytes, hlength, headerLength]

lemma header?_bytes_append {h : Header} (hlength : h.signature.length = 13) (rest : Bytes) :
    header? (h.bytes ++ rest) = some h := by
  have hlong : ¬ (h.bytes ++ rest).length < headerLength := by
    rw [List.length_append, Header.length_bytes hlength]
    omega
  have hmix : (h.key.mix h.signature).length = 13 := by rw [length_mix, hlength]
  have hparts : h.bytes ++ rest = [h.key.first, h.key.second] ++
      (h.key.mix h.signature ++ (h.key.mixOne h.generation :: rest)) := by
    simp [Header.bytes]
  have hsignature : Bytes.window (h.bytes ++ rest) 2 (headerLength - 3) = h.key.mix h.signature := by
    have hwindow := Bytes.window_append [h.key.first, h.key.second] (h.key.mix h.signature)
      (h.key.mixOne h.generation :: rest)
    rwa [← hparts, hmix] at hwindow
  have hlast : (h.bytes ++ rest)[headerLength - 1]? = some (h.key.mixOne h.generation) := by
    rw [hparts]
    simp [headerLength, hmix]
  have hkey : HeaderKey.ofBytes? ((h.bytes ++ rest).take 2) = some h.key := by
    rw [hparts]
    rfl
  rw [header?, if_neg hlong, hkey, hlast, hsignature]
  simp only [Option.bind_eq_bind, Option.bind_some, mix_mix, mixOne_mixOne]
  rfl

lemma exists_header {b : Bytes} (hb : headerLength ≤ b.length) :
    ∃ (h : Header) (rest : Bytes), h.signature.length = 13 ∧ b = h.bytes ++ rest := by
  have hlong : 16 ≤ b.length := hb
  have htake : (b.take 2).length = 2 := by
    rw [List.length_take]
    omega
  obtain ⟨k, -, hkey⟩ := exists_ofBytes? htake
  refine ⟨⟨k, k.mix (Bytes.window b 2 13), k.mixOne b[15]⟩, b.drop 16, ?_, ?_⟩
  · rw [length_mix, Bytes.length_window (by omega)]
  · simp only [Header.bytes, mix_mix, mixOne_mixOne, List.append_assoc,
      List.singleton_append]
    rw [← hkey, Bytes.window, ← List.drop_eq_getElem_cons, ← List.drop_drop (i := 13),
      List.take_append_drop, List.take_append_drop]

/-- **Octets start with a header** exactly if the octets of its parts stand at their front. -/
lemma header?_eq_some_iff {b : Bytes} {h : Header} :
    header? b = some h ↔ h.signature.length = 13 ∧ ∃ rest, b = h.bytes ++ rest := by
  constructor
  · intro hb
    rcases Nat.lt_or_ge b.length headerLength with hshort | hlong
    · rw [header?, if_pos hshort] at hb
      cases hb
    · obtain ⟨found, rest, hlength, rfl⟩ := exists_header hlong
      rw [header?_bytes_append hlength, Option.some.injEq] at hb
      exact hb ▸ ⟨hlength, rest, rfl⟩
  · rintro ⟨hlength, rest, rfl⟩
    exact header?_bytes_append hlength rest

lemma header?_eq_none_iff {b : Bytes} : header? b = none ↔ b.length < headerLength := by
  constructor
  · intro hb
    rcases Nat.lt_or_ge b.length headerLength with hshort | hlong
    · exact hshort
    · obtain ⟨h, rest, hlength, rfl⟩ := exists_header hlong
      rw [header?_bytes_append hlength] at hb
      cases hb
  · intro hshort
    rw [header?, if_pos hshort]

/-! ## Assets -/

def Fault.Found (b : Bytes) : Fault → Prop
  | tooSmall => b.length < headerLength
  | text f => ∃ h, header? b = some h ∧ Utf8.decode h.signature = .error f
  | signature s => s ≠ Ghost.signature ∧ ∃ h, header? b = some h ∧ h.signature = Utf8.encode s
  | generation n => n ≠ Ghost.generation ∧
      ∃ h, header? b = some h ∧ h.signature = Utf8.encode Ghost.signature ∧ h.generation = n
  | headerKey => False

variable {b : Bytes} {h : Header}

lemma decrypt_of_signature (hb : header? b = some h) {s : String}
    (hs : h.signature = Utf8.encode s) :
    decrypt b = if s ≠ signature then .error (.signature s)
      else if h.generation ≠ generation then .error (.generation h.generation)
      else .ok (mask (b.drop headerLength)) := by
  simp only [decrypt, hb, Utf8.decode_eq_ok_iff.mpr hs, Except.mapError, bind, Except.bind]
  split_ifs <;> rfl

lemma decrypt_of_text (hb : header? b = some h) {f : Utf8.Fault}
    (hf : Utf8.decode h.signature = .error f) : decrypt b = .error (.text f) := by
  simp only [decrypt, hb, hf, Except.mapError, bind, Except.bind]

lemma decrypt_of_none (hb : header? b = none) : decrypt b = .error .tooSmall := by
  simp only [decrypt, hb]
  rfl

lemma header?_encrypt (k : HeaderKey) (text : Bytes) :
    header? (encrypt k text) = some k.expected := by
  rw [encrypt, ← bytes_expected]
  exact header?_bytes_append length_signature _

lemma drop_encrypt (k : HeaderKey) (text : Bytes) :
    (encrypt k text).drop headerLength = mask text := by
  rw [encrypt, ← bytes_expected]
  exact List.drop_left' (Header.length_bytes length_signature)

lemma decrypt_encrypt (k : HeaderKey) (text : Bytes) : decrypt (encrypt k text) = .ok text := by
  have hgeneration : k.expected.generation = generation := rfl
  rw [decrypt_of_signature (header?_encrypt k text) rfl, if_neg (not_not.mpr rfl),
    if_neg (not_not.mpr hgeneration), drop_encrypt, mask_mask]

lemma exists_encrypt_or_found (b : Bytes) :
    (∃ k text, b = encrypt k text) ∨ ∃ f, Fault.Found b f ∧ decrypt b = .error f := by
  cases hb : header? b with
  | none => exact .inr ⟨.tooSmall, header?_eq_none_iff.mp hb, decrypt_of_none hb⟩
  | some h =>
    cases hs : Utf8.decode h.signature with
    | error f => exact .inr ⟨.text f, ⟨h, hb, hs⟩, decrypt_of_text hb hs⟩
    | ok s =>
      have hs := Utf8.decode_eq_ok_iff.mp hs
      have hresult := decrypt_of_signature hb hs
      split_ifs at hresult with hsignature hgeneration
      · exact .inr ⟨.signature s, ⟨hsignature, h, hb, hs⟩, hresult⟩
      · exact .inr ⟨.generation h.generation,
          ⟨hgeneration, h, hb, not_not.mp hsignature ▸ hs, rfl⟩, hresult⟩
      · -- the header is the expected one, and the text is what the stream gives
        obtain ⟨-, rest, rfl⟩ := header?_eq_some_iff.mp hb
        have hexpected : h = h.key.expected := by
          rw [expected, ← not_not.mp hsignature, ← not_not.mp hgeneration, ← hs]
        refine .inl ⟨h.key, mask rest, ?_⟩
        rw [encrypt, mask_mask, ← bytes_expected, ← hexpected]

lemma decrypt_eq_ok_iff {b text : Bytes} : decrypt b = .ok text ↔ ∃ k, b = encrypt k text := by
  constructor
  · intro hb
    obtain ⟨k, found, rfl⟩ | ⟨f, -, hf⟩ := exists_encrypt_or_found b
    · rw [decrypt_encrypt, Except.ok.injEq] at hb
      exact ⟨k, hb ▸ rfl⟩
    · rw [hf] at hb
      cases hb
  · rintro ⟨k, rfl⟩
    exact decrypt_encrypt k text

/-- **The complaint** says what is wrong with the octets, and there is one whenever something is. -/
lemma decrypt_eq_error_iff {b : Bytes} {f : Fault} : decrypt b = .error f ↔ f.Found b := by
  constructor
  · intro hb
    obtain ⟨k, found, rfl⟩ | ⟨g, hg, hresult⟩ := exists_encrypt_or_found b
    · rw [decrypt_encrypt] at hb
      cases hb
    · rw [hresult, Except.error.injEq] at hb
      exact hb ▸ hg
  · intro hf
    cases f with
    | tooSmall => exact decrypt_of_none (header?_eq_none_iff.mpr hf)
    | text f =>
      obtain ⟨h, hb, hdecode⟩ := hf
      exact decrypt_of_text hb hdecode
    | signature s =>
      obtain ⟨hne, h, hb, hs⟩ := hf
      rw [decrypt_of_signature hb hs, if_pos hne]
    | generation n =>
      obtain ⟨hne, h, hb, hs, rfl⟩ := hf
      rw [decrypt_of_signature hb hs, if_neg (not_not.mpr rfl), if_pos hne]
    | headerKey => exact hf.elim

lemma isAsset_encrypt (k : HeaderKey) (text : Bytes) : isAsset (encrypt k text) = true := by
  have hdecode : Utf8.decode k.expected.signature = .ok signature := Utf8.decode_eq_ok_iff.mpr rfl
  simp only [isAsset, header?_encrypt, hdecode, Except.toOption, beq_self_eq_true]

lemma encryptUnder_take (k : HeaderKey) (text : Bytes) :
    encryptUnder text ((encrypt k text).take 2) = .ok (encrypt k text) :=
  rfl

/-- **Assets and texts determine each other**: whatever the text and the two octets of a key, the
asset is one, and it gives back the text. Octets from which a text comes back are one of its assets,
that with the key in front of them. All other octets are refused, and a complaint is made exactly if
what it says is wrong with the octets. -/
theorem asset_text_inverse :
    (∀ text key : Bytes, key.length = 2 →
      ∃ b, encryptUnder text key = .ok b ∧ decrypt b = .ok text ∧ isAsset b = true) ∧
    (∀ b text, decrypt b = .ok text → isAsset b = true ∧ encryptUnder text (b.take 2) = .ok b) ∧
    (∀ b, (∀ k text, b ≠ encrypt k text) → ∃ f, decrypt b = .error f) ∧
    ∀ b f, decrypt b = .error f ↔ f.Found b := by
  refine ⟨fun text key hkey => ?_, fun b text hb => ?_, fun b hb => ?_,
    fun b f => decrypt_eq_error_iff⟩
  · obtain ⟨k, hk, -⟩ := HeaderKey.exists_ofBytes? hkey
    refine ⟨encrypt k text, ?_, decrypt_encrypt k text, isAsset_encrypt k text⟩
    rw [encryptUnder, hk]
  · obtain ⟨k, rfl⟩ := decrypt_eq_ok_iff.mp hb
    exact ⟨isAsset_encrypt k text, encryptUnder_take k text⟩
  · obtain ⟨k, text, heq⟩ | ⟨f, -, hf⟩ := exists_encrypt_or_found b
    · exact absurd heq (hb k text)
    · exact ⟨f, hf⟩

/-- The empty text under the key of two zeros, and sixteen zeros, which are no asset. -/
theorem asset_text_inverse_zeros :
    ([0, 0] : Bytes).length = 2 ∧
    (∃ b, encryptUnder [] [0, 0] = .ok b ∧ decrypt b = .ok [] ∧ isAsset b = true) ∧
    (∀ k text, List.replicate 16 0 ≠ encrypt k text) ∧
    ∃ f, decrypt (List.replicate 16 0) = .error f := by
  have hzeros (k : HeaderKey) (text : Bytes) : List.replicate 16 0 ≠ encrypt k text := by
    intro heq
    have hasset := isAsset_encrypt k text
    rw [← heq] at hasset
    exact absurd hasset (by with_unfolding_all decide)
  exact ⟨rfl, asset_text_inverse.1 [] [0, 0] rfl, hzeros,
    asset_text_inverse.2.2.1 (List.replicate 16 0) hzeros⟩

/-! ## Counters -/

/-- **No counter is used twice**: the counters for a text of `n` octets are at least as many octets and
stand in blocks, of which each carries a counter of its own as a number of 64 bits. The counters go up
by one in a run of 64 blocks and start again a hundred further, so that different blocks have different
counters, and different octets as long as the length is a number of 64 bits. The text is encrypted, and
decrypted, under what the cipher makes of these blocks. -/
theorem counters_never_repeat (n : Nat) :
    n ≤ (counterStream n).length ∧
    Bytes.chunks 16 (counterStream n) = (List.range (n / 16 + 1)).map (fun i =>
      Bytes.ofLittleEndian 8 (100 * (i / 64 + 1) + i % 64) ++ List.replicate 8 0) ∧
    (∀ i j, 100 * (i / 64 + 1) + i % 64 = 100 * (j / 64 + 1) + j % 64 → i = j) ∧
    (n < 2 ^ 64 → (Bytes.chunks 16 (counterStream n)).Nodup ∧
      ∀ i ≤ n / 16, 100 * (i / 64 + 1) + i % 64 < 2 ^ 64) ∧
    ∃ stream, Ecb.encrypt key (counterStream n) = .ok stream ∧ n ≤ stream.length ∧
      (∀ k text, text.length = n → encrypt k text = k.header ++ Bytes.xor text stream) ∧
      ∀ b text, decrypt b = .ok text → text.length = n → text = Bytes.xor (b.drop 16) stream := by
  have hblocks := chunks_counterStream n
  refine ⟨?_, hblocks, fun i j => counterAt_injective, fun hn => ⟨?_, fun i => counterAt_lt hn⟩,
    keyStream n, (encrypt_counterStream n).1, length_keyStream n, ?_, ?_⟩
  · have hblock : Aes.Block.length = 16 := rfl
    rw [length_counterStream, hblock]
    omega
  · rw [show 16 = Aes.Block.length from rfl, hblocks]
    refine List.nodup_range.map_on fun i hi j hj h => counterAt_injective ?_
    rw [List.mem_range, Nat.lt_succ_iff] at hi hj
    exact counterBlock_injective (counterAt_lt hn hi) (counterAt_lt hn hj) h
  · rintro k text rfl
    rfl
  · rintro b text hb rfl
    obtain ⟨k, rfl⟩ := decrypt_eq_ok_iff.mp hb
    have hdrop : (encrypt k text).drop 16 = mask text := drop_encrypt k text
    rw [hdrop, ← length_mask text]
    exact (mask_mask text).symm

/-- The counters for 1024 octets: the last one starts a run. -/
theorem counters_never_repeat_second_run :
    1024 < 2 ^ 64 ∧ (Bytes.chunks 16 (counterStream 1024)).Nodup ∧
      (Bytes.chunks 16 (counterStream 1024))[63]? = some (163 :: List.replicate 15 0) ∧
      (Bytes.chunks 16 (counterStream 1024))[64]? = some (200 :: List.replicate 15 0) := by
  have h := counters_never_repeat 1024
  refine ⟨by decide, (h.2.2.2.1 (by decide)).1, ?_, ?_⟩
  · rw [h.2.1]
    rfl
  · rw [h.2.1]
    rfl

end Salvage.Ghost
