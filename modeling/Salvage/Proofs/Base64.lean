import Mathlib.Tactic.SplitIfs
import Salvage.Cipher.Mask
import Salvage.Proofs.Text.Utf8

/-!
# Base 64 and masked texts

Whatever is written in base 64 is read back. What is written are the texts in groups of four digits, of
which the last one is filled up with padding behind digits whose unused bits are zero, so that each of
these texts is written again for the octets that it gives. Masking is undone by masking, and the same
holds for masked texts.
-/

namespace Salvage

namespace Base64

/-- Octets in base 64, as a text. -/
def text (b : Bytes) : String :=
  String.ofList ((encode b).map fun x => Char.ofNat x.toNat)

/-- The octets that stand for octets in base 64 are visible and stand for themselves in a text. -/
def IsPlain (x : UInt8) : Prop :=
  0x20 ≤ x.toNat ∧ x.toNat < 128 ∧ x.toNat ≠ 0x22 ∧ x.toNat ≠ 0x5C

lemma isPlain_digit (n : Nat) : IsPlain (digit n) := by
  rw [IsPlain, digit]
  split_ifs <;> rw [UInt8.toNat_ofNat'] <;> omega

lemma value?_digit {n : Nat} (hn : n < 64) : digit n ≠ padding ∧ value? (digit n) = some n := by
  have hall : ∀ i : Fin 64, digit i ≠ padding ∧ value? (digit i) = some i.val := by decide
  exact hall ⟨n, hn⟩

section Digits

variable {v : Nat} (hv : v < 64) (left pads count : Nat) (padded : Bool) (r : Bytes)

include hv

lemma decodeFrom_digit (g : Group) :
    decodeFrom false g (digit v :: r) =
      (g.take v).1.elim (decodeFrom false (g.take v).2 r)
        fun y => (decodeFrom false (g.take v).2 r).map (y :: ·) := by
  obtain ⟨hne, hvalue⟩ := value?_digit hv
  have hloose : ¬ (false && g.padded) = true := by simp
  rw [decodeFrom, if_neg hne, hvalue]
  dsimp only
  rw [if_neg hloose]
  rcases g.take v with ⟨_ | y, g'⟩
  · rfl
  · dsimp only [Option.elim]
    cases decodeFrom false g' r <;> rfl

lemma decodeFrom_first :
    decodeFrom false ⟨0, left, pads, padded, count⟩ (digit v :: r) =
      decodeFrom false ⟨1, v, 0, padded, count⟩ r :=
  decodeFrom_digit hv r _

variable {x : UInt8}

lemma decodeFrom_second (hx : left * 4 + v / 16 = x.toNat) :
    decodeFrom false ⟨1, left, pads, padded, count⟩ (digit v :: r) =
      (decodeFrom false ⟨2, v % 16, 0, padded, count + 1⟩ r).map (x :: ·) := by
  rw [← UInt8.ofNat_toNat (x := x), ← hx]
  exact decodeFrom_digit hv r _

lemma decodeFrom_third (hx : left * 16 + v / 4 = x.toNat) :
    decodeFrom false ⟨2, left, pads, padded, count⟩ (digit v :: r) =
      (decodeFrom false ⟨3, v % 4, 0, padded, count + 1⟩ r).map (x :: ·) := by
  rw [← UInt8.ofNat_toNat (x := x), ← hx]
  exact decodeFrom_digit hv r _

lemma decodeFrom_fourth (hx : left * 64 + v = x.toNat) :
    decodeFrom false ⟨3, left, pads, padded, count⟩ (digit v :: r) =
      (decodeFrom false ⟨0, 0, 0, padded, count + 1⟩ r).map (x :: ·) := by
  rw [← UInt8.ofNat_toNat (x := x), ← hx]
  exact decodeFrom_digit hv r _

end Digits

/-! ## Reading and writing -/

/-- **Octets are read back** from their digits, whatever whole groups were read before. -/
lemma decodeFrom_encode (b : Bytes) (left pads count : Nat) (padded : Bool) :
    decodeFrom false ⟨0, left, pads, padded, count⟩ (encode b) = .ok b := by
  fun_induction encode b generalizing left pads count with
  | case1 => rfl
  | case2 a =>
    have ha := a.toNat_lt
    rw [decodeFrom_first (by omega), decodeFrom_second (x := a) (by omega) _ _ _ _ _ (by omega)]
    rfl
  | case3 a b =>
    have ha := a.toNat_lt
    have hb := b.toNat_lt
    rw [decodeFrom_first (by omega), decodeFrom_second (x := a) (by omega) _ _ _ _ _ (by omega),
      decodeFrom_third (x := b) (by omega) _ _ _ _ _ (by omega)]
    rfl
  | case4 a b c r ih =>
    have ha := a.toNat_lt
    have hb := b.toNat_lt
    have hc := c.toNat_lt
    rw [decodeFrom_first (by omega), decodeFrom_second (x := a) (by omega) _ _ _ _ _ (by omega),
      decodeFrom_third (x := b) (by omega) _ _ _ _ _ (by omega),
      decodeFrom_fourth (x := c) (by omega) _ _ _ _ _ (by omega), ih]
    rfl

lemma isPlain_encode (b : Bytes) : ∀ x ∈ encode b, IsPlain x := by
  have hpadding : IsPlain padding := by
    rw [IsPlain]
    decide
  fun_induction encode b with
  | case1 => simp
  | case2 a => simp [isPlain_digit, hpadding]
  | case3 a b => simp [isPlain_digit, hpadding]
  | case4 a b c r ih => simpa [isPlain_digit] using ih

lemma toNat_ofNat_octet (x : UInt8) : (Char.ofNat x.toNat).toNat = x.toNat := by
  have hx := x.toNat_lt
  have hvalid : x.toNat.isValidChar := .inl (by omega)
  delta Char.ofNat
  rw [dif_pos hvalid]
  rfl

lemma decodeText_text (b : Bytes) : decodeText (text b) = .ok b := by
  have hall : ((text b).toList.all fun c => c.toNat < 128) = true := by
    rw [text, String.toList_ofList, List.all_map, List.all_eq_true]
    intro x hx
    simpa [toNat_ofNat_octet] using (isPlain_encode b x hx).2.1
  have hback : (text b).toList.map (fun c => UInt8.ofNat c.toNat) = encode b := by
    simp [text, Function.comp_def, toNat_ofNat_octet]
  rw [decodeText, if_pos hall, hback, decode]
  exact decodeFrom_encode b 0 0 0 false

lemma ofString_text (b : Bytes) : Bytes.ofString (text b) = encode b := by
  have hone (x : UInt8) (hx : x ∈ encode b) : String.utf8EncodeChar (Char.ofNat x.toNat) = [x] := by
    have hascii := (isPlain_encode b x hx).2.1
    rw [Utf8.utf8EncodeChar_ofNat (.inl (by omega)), if_pos (by omega), UInt8.ofNat_toNat]
  rw [Utf8.ofString_eq_flatMap, text, String.toList_ofList, List.flatMap_map, List.flatMap_def,
    List.map_congr_left hone, ← List.flatMap_def, List.flatMap_singleton']

/-! ## Texts as they are written -/

/-- Groups of four digits, of which the last one may be filled up with padding. The bits of the digit in
front of the padding that belong to no octet are zero. -/
inductive IsCanonical : Bytes → Prop
  | nil : IsCanonical []
  | one {x y : UInt8} {u v : Nat} (hx : value? x = some u) (hy : value? y = some v) (hv : v % 16 = 0) :
    IsCanonical [x, y, padding, padding]
  | two {x y z : UInt8} {u v w : Nat} (hx : value? x = some u) (hy : value? y = some v)
      (hz : value? z = some w) (hw : w % 4 = 0) : IsCanonical [x, y, z, padding]
  | three {x y z t : UInt8} {u v w m : Nat} {r : Bytes} (hx : value? x = some u)
      (hy : value? y = some v) (hz : value? z = some w) (ht : value? t = some m)
      (hr : IsCanonical r) : IsCanonical (x :: y :: z :: t :: r)

lemma digit_of_value? {x : UInt8} {v : Nat} (h : value? x = some v) : v < 64 ∧ x = digit v := by
  have hx := x.toNat_lt
  rw [← UInt8.toNat_inj, digit, UInt8.toNat_ofNat']
  simp only [value?] at h
  split_ifs at h <;> obtain rfl := Option.some.inj h <;> refine ⟨by omega, ?_⟩ <;> split_ifs <;> omega

lemma isCanonical_encode (b : Bytes) : IsCanonical (encode b) := by
  have hdigit {n : Nat} (hn : n < 64) := (value?_digit hn).2
  fun_induction encode b with
  | case1 => exact .nil
  | case2 a =>
    have ha := a.toNat_lt
    exact .one (hdigit (by omega)) (hdigit (by omega)) (by omega)
  | case3 a b =>
    have ha := a.toNat_lt
    have hb := b.toNat_lt
    exact .two (hdigit (by omega)) (hdigit (by omega)) (hdigit (by omega)) (by omega)
  | case4 a b c r ih =>
    have ha := a.toNat_lt
    have hb := b.toNat_lt
    have hc := c.toNat_lt
    exact .three (hdigit (by omega)) (hdigit (by omega)) (hdigit (by omega)) (hdigit (by omega)) ih

/-- **Every text of this form is written** for some octets, those with the bits of its digits. -/
lemma IsCanonical.exists_encode {t : Bytes} (h : IsCanonical t) : ∃ b, t = encode b := by
  have hoctet {n : Nat} (hn : n < 256) : (UInt8.ofNat n).toNat = n := UInt8.toNat_ofNat_of_lt' hn
  induction h with
  | nil => exact ⟨[], rfl⟩
  | @one x y u v hx hy hv =>
    obtain ⟨hu, rfl⟩ := digit_of_value? hx
    obtain ⟨hv', rfl⟩ := digit_of_value? hy
    refine ⟨[.ofNat (u * 4 + v / 16)], ?_⟩
    rw [encode, hoctet (by omega)]
    congr 3 <;> omega
  | @two x y z u v w hx hy hz hw =>
    obtain ⟨hu, rfl⟩ := digit_of_value? hx
    obtain ⟨hv, rfl⟩ := digit_of_value? hy
    obtain ⟨hw', rfl⟩ := digit_of_value? hz
    refine ⟨[.ofNat (u * 4 + v / 16), .ofNat (v % 16 * 16 + w / 4)], ?_⟩
    rw [encode, hoctet (by omega), hoctet (by omega)]
    congr 4 <;> omega
  | @three x y z t u v w m r hx hy hz ht hr ih =>
    obtain ⟨hu, rfl⟩ := digit_of_value? hx
    obtain ⟨hv, rfl⟩ := digit_of_value? hy
    obtain ⟨hw, rfl⟩ := digit_of_value? hz
    obtain ⟨hm, rfl⟩ := digit_of_value? ht
    obtain ⟨b, rfl⟩ := ih
    refine ⟨.ofNat (u * 4 + v / 16) :: .ofNat (v % 16 * 16 + w / 4) :: .ofNat (w % 4 * 64 + m) :: b, ?_⟩
    rw [encode, hoctet (by omega), hoctet (by omega), hoctet (by omega)]
    congr 5 <;> omega

end Base64

/-! ## Masked texts -/

namespace Mask

@[simp] lemma apply_apply (b : Bytes) : apply (apply b) = b := by
  rw [apply, apply, List.mapIdx_mapIdx]
  apply List.ext_getElem?
  intro i
  simp [Function.comp_def]

lemma decode_text (b : Bytes) : decode (Base64.text b) = .ok (apply b) := by
  rw [decode, Base64.decodeText_text]
  rfl

/-- **Masked texts and octets determine each other**: any octets are read back from their masked text,
whether it is given as octets or as a text, and it has the form of what is written in base 64. Each text
of this form is the masked text of the octets that it gives. -/
theorem masked_texts_inverse :
    (∀ b, decodeOctets (encode b) = .ok b ∧ Base64.IsCanonical (encode b)) ∧
    (∀ (b : Bytes) (t : String), Bytes.ofString t = encode b → decode t = .ok b) ∧
    ∀ t : String, Base64.IsCanonical (Bytes.ofString t) →
      ∃ b, decode t = .ok b ∧ encode b = Bytes.ofString t := by
  refine ⟨fun b => ⟨?_, Base64.isCanonical_encode _⟩, fun b t ht => ?_, fun t ht => ?_⟩
  · rw [decodeOctets, encode, Base64.decode, Base64.decodeFrom_encode]
    exact congrArg Except.ok (apply_apply b)
  · rw [encode, ← Base64.ofString_text] at ht
    rw [Bytes.ofString_injective ht, decode_text, apply_apply]
  · obtain ⟨b, hb⟩ := ht.exists_encode
    refine ⟨apply b, ?_, ?_⟩
    · rw [← Base64.ofString_text] at hb
      rw [Bytes.ofString_injective hb, decode_text]
    · rw [encode, apply_apply, hb]

/-- A text with padding, and the masked text of two octets. -/
theorem masked_texts_inverse_padded :
    Base64.IsCanonical (Bytes.ofString "+/8=") ∧
    (∃ b, decode "+/8=" = .ok b ∧ encode b = Bytes.ofString "+/8=") ∧
    ∃ t, Bytes.ofString t = encode [0xFF, 0] ∧ decode t = .ok [0xFF, 0] := by
  have hcanonical : Base64.IsCanonical (Bytes.ofString "+/8=") := by
    rw [Utf8.ofString_eq_flatMap]
    exact .two (u := 62) (v := 63) (w := 60) rfl rfl rfl rfl
  have htext := Base64.ofString_text (apply [0xFF, 0])
  exact ⟨hcanonical, masked_texts_inverse.2.2 _ hcanonical, _, htext,
    masked_texts_inverse.2.1 _ _ htext⟩

end Mask

end Salvage
