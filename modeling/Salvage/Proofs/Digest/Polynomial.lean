import Mathlib.Data.Nat.ModEq
import Salvage.Digest.Polynomial
import Salvage.Proofs.Bytes

/-!
# Polynomial hashes: one function in three loops

Names are hashed by multiplying with 31, names in capitals by folding the case of each letter on the
way, and ranges of octets by a shift and a difference, with a sign at the end. Modulo `2 ^ 32` the three
are one function, and the hash of a text follows from those of its two parts.
-/

namespace Salvage.PolyHash

/-! ## One step -/

lemma toNat_step (h : UInt32) (code : Nat) : (step h code).toNat = (31 * h.toNat + code) % 2 ^ 32 := by
  have hbase : (31 : UInt32).toNat = 31 := rfl
  rw [step, UInt32.toNat_add, UInt32.toNat_mul, UInt32.toNat_ofNat', hbase]
  omega

lemma shiftStep_eq (h : UInt32) (x : UInt8) : shiftStep h x = step h x.toNat := by
  apply UInt32.toNat_inj.mp
  have hlt := h.toNat_lt
  have hshift : (h <<< 5).toNat = 32 * h.toNat % 2 ^ 32 := by
    rw [UInt32.toNat_shiftLeft, Nat.shiftLeft_eq]
    have hfive : (5 : UInt32).toNat % 32 = 5 := rfl
    rw [hfive]
    omega
  rw [toNat_step, shiftStep, UInt32.toNat_add, UInt32.toNat_sub, hshift, UInt8.toNat_toUInt32]
  omega

lemma upperCode_eq (c : Char) : upperCode c = c.toUpper.toNat := by
  have hlow : 'a'.val ≤ c.val ↔ 97 ≤ c.toNat := by
    rw [UInt32.le_iff_toNat_le]
    rfl
  have hhigh : c.val ≤ 'z'.val ↔ c.toNat ≤ 122 := by
    rw [UInt32.le_iff_toNat_le]
    rfl
  delta Char.toUpper
  rw [upperCode]
  by_cases h : 'a'.val ≤ c.val ∧ c.val ≤ 'z'.val
  · have hcode : 97 ≤ c.toNat ∧ c.toNat ≤ 122 := ⟨hlow.mp h.1, hhigh.mp h.2⟩
    have hval : (c.val + ('A'.val - 'a'.val)).toNat = c.toNat - 32 := by
      rw [UInt32.toNat_add]
      change (c.toNat + 4294967264) % 4294967296 = c.toNat - 32
      omega
    rw [if_pos hcode, dif_pos h]
    exact hval.symm
  · rw [dif_neg h, if_neg fun hcode => h ⟨hlow.mpr hcode.1, hhigh.mpr hcode.2⟩]

/-! ## Whole texts -/

/-- Codes behind a hash `h` make it the leading digit of a number to the base 31.

**Proof sketch.** By induction on the codes: with one more code in front, the hash before it and the
code are both multiplied once more for each code behind them. -/
lemma toNat_foldl_step (h : UInt32) (codes : List Nat) :
    (codes.foldl step h).toNat ≡ h.toNat * 31 ^ codes.length + (ofCodes codes).toNat [MOD 2 ^ 32] := by
  induction codes generalizing h with
  | nil => simp [ofCodes, Nat.ModEq]
  | cons c codes ih =>
    have hfirst (g : UInt32) : (step g c).toNat ≡ 31 * g.toNat + c [MOD 2 ^ 32] := by
      rw [toNat_step]
      exact Nat.mod_modEq _ _
    have hcode : (step 0 c).toNat ≡ c [MOD 2 ^ 32] := by simpa using hfirst 0
    have hrest : (ofCodes (c :: codes)).toNat ≡
        c * 31 ^ codes.length + (ofCodes codes).toNat [MOD 2 ^ 32] :=
      (ih (step 0 c)).trans ((hcode.mul_right _).add_right _)
    calc (codes.foldl step (step h c)).toNat
      _ ≡ (step h c).toNat * 31 ^ codes.length + (ofCodes codes).toNat [MOD 2 ^ 32] := ih _
      _ ≡ (31 * h.toNat + c) * 31 ^ codes.length + (ofCodes codes).toNat [MOD 2 ^ 32] :=
        ((hfirst h).mul_right _).add_right _
      _ = h.toNat * 31 ^ (codes.length + 1) +
          (c * 31 ^ codes.length + (ofCodes codes).toNat) := by
        rw [Nat.pow_succ, Nat.add_mul, Nat.add_assoc, Nat.mul_comm 31, Nat.mul_assoc,
          Nat.mul_comm 31]
      _ ≡ h.toNat * 31 ^ (codes.length + 1) + (ofCodes (c :: codes)).toNat [MOD 2 ^ 32] :=
        hrest.symm.add_left _

lemma toNat_ofString_append (x y : String) : (ofString (x ++ y)).toNat =
    ((ofString x).toNat * 31 ^ y.length + (ofString y).toNat) % 2 ^ 32 := by
  have hcodes : ofString (x ++ y) = (y.toList.map Char.toNat).foldl step (ofString x) := by
    rw [ofString, ofString, ofCodes, String.toList_append, List.map_append, List.foldl_append]
    rfl
  have happend := toNat_foldl_step (ofString x) (y.toList.map Char.toNat)
  rw [List.length_map, String.length_toList, ← hcodes] at happend
  rw [← Nat.mod_eq_of_lt (ofString (x ++ y)).toNat_lt]
  exact happend

lemma ofUpper_eq (s : String) : ofUpper s = ofString (s.map Char.toUpper) := by
  rw [ofUpper, ofString, String.toList_map, List.map_map]
  exact congrArg ofCodes (List.map_congr_left fun c _ => upperCode_eq c)

lemma ofUpper_eq_of_toUpper_eq {s t : String} (h : s.toUpper = t.toUpper) : ofUpper s = ofUpper t := by
  rw [ofUpper_eq, ofUpper_eq]
  exact congrArg ofString h

/-! ## Ranges of octets -/

lemma ofBytes_eq (b : Bytes) : ofBytes b = ofString (String.ofList (b.map Char.ofUInt8)) := by
  have hcodes : (b.map Char.ofUInt8).map Char.toNat = b.map UInt8.toNat := by
    rw [List.map_map]
    exact List.map_congr_left fun x _ => UInt8.toNat_toUInt32 x
  have hstep : shiftStep = fun h x => step h x.toNat := by
    funext h x
    exact shiftStep_eq h x
  rw [ofBytes, hstep, ofString, String.toList_ofList, hcodes, ofCodes, List.foldl_map]

lemma octetsFrom?_eq {b : Bytes} {start n : Nat} (h : start + n ≤ b.length) :
    octetsFrom? b start n = some (Bytes.window b start n) := by
  induction n generalizing start with
  | zero => simp [octetsFrom?, Bytes.window]
  | succ n ih =>
    have hstart : start < b.length := by omega
    have hfirst : b.at? start = some b[start] := by
      rw [Bytes.at?, if_pos (Int.natCast_nonneg _), Int.toNat_natCast, List.getElem?_eq_getElem hstart]
    have hbound : start + 1 + n ≤ b.length := by omega
    have hrest := ih hbound
    rw [Int.natCast_add, Int.natCast_one] at hrest
    rw [octetsFrom?, hfirst, hrest, Bytes.window, Bytes.window, List.drop_eq_getElem_cons hstart,
      List.take_succ_cons]

lemma ofRange?_eq {b : Bytes} {start n : Nat} (h : start + n ≤ b.length) :
    ofRange? b start n = some (signed (ofBytes (Bytes.window b start n))) := by
  have hstop : (min ((start : Int) + n) b.length - start).toNat = n := by omega
  simp only [ofRange?]
  rw [hstop, octetsFrom?_eq h, Option.map_some]

lemma ofRange?_append (pre b : Bytes) :
    ofRange? (pre ++ b) pre.length b.length = some (signed (ofBytes b)) := by
  rw [ofRange?_eq (by rw [List.length_append]), Bytes.window, List.drop_left, List.take_length]

lemma signed_eq (h : UInt32) : signed h = h.toInt32.toInt := by
  have hlt := h.toNat_lt
  change _ = h.toBitVec.toInt
  rw [BitVec.toInt_eq_toNat_cond, signed]
  change (if h.toNat < 0x80000000 then (h.toNat : Int) else h.toNat - 0x100000000) =
    if 2 * h.toNat < 2 ^ 32 then (h.toNat : Int) else h.toNat - (2 ^ 32 : Nat)
  split <;> split <;> omega

lemma toNat_signed_emod (h : UInt32) : (signed h % 0x100000000).toNat = h.toNat := by
  have hlt := h.toNat_lt
  rw [signed]
  split <;> omega

/-- **The three loops compute one function**: the hash that takes small letters for capitals is that of
the text in capitals, the hash of a range of octets is that of the characters with their codes, as a
signed number of 32 bits, and the hash of two texts one behind the other is that of the first one,
moved by as many digits as the second one has, and that of the second one. -/
theorem hashes_agree :
    (∀ s : String, ofUpper s = ofString (s.map Char.toUpper)) ∧
    (∀ (b : Bytes) (start n : Nat), start + n ≤ b.length → ofRange? b start n =
      some (ofString (String.ofList ((Bytes.window b start n).map Char.ofUInt8))).toInt32.toInt) ∧
    ∀ x y : String, (ofString (x ++ y)).toNat =
      ((ofString x).toNat * 31 ^ y.length + (ofString y).toNat) % 2 ^ 32 := by
  refine ⟨ofUpper_eq, fun b start n h => ?_, toNat_ofString_append⟩
  rw [ofRange?_eq h, signed_eq, ofBytes_eq]

/-- Six of nine octets, whose hash is a negative number. -/
theorem hashes_agree_six :
    2 + 6 ≤ (List.replicate 9 0x77 : Bytes).length ∧
      ofRange? (List.replicate 9 0x77) 2 6 = some (ofString "wwwwww").toInt32.toInt ∧
      (ofString "wwwwww").toInt32.toInt = -774536032 :=
  ⟨by decide, hashes_agree.2.1 (List.replicate 9 0x77) 2 6 (by decide), by decide⟩

end Salvage.PolyHash
