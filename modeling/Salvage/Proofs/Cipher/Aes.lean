import Salvage.Cipher.Aes
import Salvage.Proofs.Bytes

/-!
# AES: the inverse cipher

Every step of a round can be taken back, and taking the rounds back from the last one on gives the
block that was encrypted. Nothing has to be known of the round keys for this.
-/

namespace Salvage.Aes

/-! ## Octets -/

lemma toNat_getD (table : Array UInt8) (i : Nat) :
    (table.getD i 0).toNat = (Bytes.littleEndian table.toList >>> (8 * i)) % 256 := by
  rw [Bytes.littleEndian_shiftRight, Array.getD_eq_getD_getElem?, List.getD_eq_getElem?_getD,
    Array.getElem?_toList]

@[simp] lemma restore_substitute (x : UInt8) : restore (substitute x) = x := by
  -- on the numbers of the tables an entry is found by a shift, so that all octets can be tried
  have htables : ∀ i : Fin 256, (Bytes.littleEndian inverseSubstitutions.toList >>>
      (8 * ((Bytes.littleEndian substitutions.toList >>> (8 * i.val)) % 256))) % 256 = i := by
    decide +kernel
  apply UInt8.toNat_inj.mp
  rw [restore, substitute, toNat_getD, toNat_getD]
  exact htables x.toFin

lemma and_highest (x : UInt8) : x &&& 0x80 = 0 ∨ x &&& 0x80 = 0x80 := by
  have hbit : ∀ i : Fin 256, UInt8.ofFin i &&& 0x80 = 0 ∨ UInt8.ofFin i &&& 0x80 = 0x80 := by
    decide +kernel
  exact hbit x.toFin

lemma xor_and (x y m : UInt8) : (x ^^^ y) &&& m = (x &&& m) ^^^ (y &&& m) := by
  apply UInt8.toBitVec_inj.mp
  ext i hi
  simp [Bool.and_xor_distrib_right]

lemma xor_left_comm (x y z : UInt8) : x ^^^ (y ^^^ z) = y ^^^ (x ^^^ z) := by
  rw [← UInt8.xor_assoc, UInt8.xor_comm x y, UInt8.xor_assoc]

/-- **Doubling is linear**: where the highest bits of two octets cancel, so do the reductions. -/
lemma double_xor (x y : UInt8) : double (x ^^^ y) = double x ^^^ double y := by
  have hshift : (x ^^^ y) <<< 1 = x <<< 1 ^^^ y <<< 1 := UInt8.shiftLeft_xor
  rw [double, double, double, xor_and, hshift]
  rcases and_highest x with hx | hx <;> rcases and_highest y with hy | hy
  all_goals
    simp [hx, hy, UInt8.xor_assoc, UInt8.xor_comm, xor_left_comm]

/-! ## Columns -/

namespace Column

@[simp] lemma xor_xor_self (v w : Column) : (v.xor w).xor w = v := by
  simp only [xor, xor_cancel_right]

@[simp] lemma map_restore_substitute (w : Column) : (w.map substitute).map restore = w := by
  simp [map]

lemma mixed_xor (a b c d u v : UInt8) :
    mixed (a ^^^ u) (b ^^^ v) (c ^^^ u) (d ^^^ v) = mixed a b c d ^^^ (double (u ^^^ v) ^^^ u) := by
  simp only [mixed, double_xor]
  simp [UInt8.xor_assoc, UInt8.xor_comm, xor_left_comm]

lemma mixed_xor_opposite (a b c d : UInt8) :
    mixed a b c d ^^^ mixed c d a b = double (a ^^^ b ^^^ c ^^^ d) ^^^ (a ^^^ c) := by
  simp only [mixed, double_xor]
  simp [UInt8.xor_assoc, UInt8.xor_comm, xor_left_comm]

lemma mixed_mixed (a b c d : UInt8) :
    mixed (mixed a b c d) (mixed b c d a) (mixed c d a b) (mixed d a b c) =
      a ^^^ double (double (a ^^^ c)) := by
  simp only [mixed, double_xor]
  simp [UInt8.xor_assoc, UInt8.xor_comm, xor_left_comm]

/-- The first octet of a product with the fixed polynomial and then with the inverse one.

**Proof sketch.** The product taken twice is off by four times the sum of the first octet and the
one opposite to it. The correction brings this in once more, and beyond it eight times the sum of all
octets, which comes in twice. -/
lemma mixed_prepare_mixed (a b c d u v : UInt8)
    (hu : u = double (double (mixed a b c d ^^^ mixed c d a b)))
    (hv : v = double (double (mixed b c d a ^^^ mixed d a b c))) :
    mixed (mixed a b c d ^^^ u) (mixed b c d a ^^^ v) (mixed c d a b ^^^ u)
      (mixed d a b c ^^^ v) = a := by
  rw [mixed_xor_opposite] at hu hv
  rw [mixed_xor, mixed_mixed, hu, hv]
  simp only [double_xor]
  simp [UInt8.xor_assoc, UInt8.xor_comm, xor_left_comm]

/-- **The product with the inverse polynomial** takes the product with the fixed one back. -/
@[simp] lemma unmix_mix (w : Column) : w.mix.unmix = w := by
  obtain ⟨a, b, c, d⟩ := w
  simp only [unmix, prepare, mix, mk.injEq]
  refine ⟨mixed_prepare_mixed a b c d _ _ rfl rfl, mixed_prepare_mixed b c d a _ _ rfl ?_,
    mixed_prepare_mixed c d a b _ _ ?_ ?_, mixed_prepare_mixed d a b c _ _ ?_ rfl⟩
  all_goals rw [UInt8.xor_comm]

end Column

/-! ## Blocks -/

namespace Block

@[simp] lemma xor_xor_self (k l : Block) : (k.xor l).xor l = k := by
  simp [xor]

lemma map_map {f g : Column → Column} (h : ∀ w, g (f w) = w) (k : Block) : (k.map f).map g = k := by
  simp [map, h]

def scrambled (k : Block) : Block :=
  (k.map (·.map substitute)).shiftRows

@[simp] lemma unshiftRows_scrambled (k : Block) :
    k.scrambled.unshiftRows.map (·.map restore) = k := by
  rw [scrambled, unshiftRows_shiftRows, map_map Column.map_restore_substitute]

end Block

/-! ## Rounds -/

namespace Key

lemma encryptRounds_cons (key : Block) {r : List Block} (hr : r ≠ []) (k : Block) :
    encryptRounds (key :: r) k = encryptRounds r ((k.scrambled.map Column.mix).xor key) := by
  cases r with
  | nil => exact absurd rfl hr
  | cons next r => rfl

/-- **The rounds are taken back** one after the other: what remains are the rounds before them, and
the block as the first of them has scrambled it.

**Proof sketch.** Induction on the rounds before the last one. Each of them ends with a round key,
which is known when the round after it has been taken back. -/
lemma decryptRounds_encryptRounds (rounds : List Block) (last key : Block) (before : List Block)
    (k : Block) :
    decryptRounds (rounds.reverse ++ key :: before)
        ((encryptRounds (rounds ++ [last]) k).xor last) =
      decryptRounds (key :: before) k.scrambled := by
  induction rounds generalizing key before k with
  | nil => exact congrArg (decryptRounds (key :: before)) (Block.xor_xor_self k.scrambled last)
  | cons next rounds ih =>
    have hback : (((k.scrambled.map Column.mix).xor next).scrambled.unshiftRows.map
        (·.map restore)).xor next = k.scrambled.map Column.mix := by
      rw [Block.unshiftRows_scrambled, Block.xor_xor_self]
    rw [List.cons_append, encryptRounds_cons next (by simp), List.reverse_cons, List.append_assoc,
      List.singleton_append, ih next (key :: before), decryptRounds, hback,
      Block.map_map Column.unmix_mix]

/-- **The inverse cipher** gives the plain text of a block, whatever the round keys are. -/
lemma decrypt_encrypt (key : Key) (k : Block) : key.decrypt (key.encrypt k) = k := by
  obtain ⟨rounds⟩ := key
  cases rounds with
  | nil => rfl
  | cons first r =>
    rcases List.eq_nil_or_concat r with rfl | ⟨rounds, last, rfl⟩
    · exact Block.xor_xor_self k first
    · have hreverse : (first :: (rounds ++ [last])).reverse = last :: (rounds.reverse ++ [first]) := by
        simp
      simp only [decrypt, encrypt, List.concat_eq_append, hreverse]
      rw [decryptRounds_encryptRounds, decryptRounds, Block.unshiftRows_scrambled,
        Block.xor_xor_self]

end Key

end Salvage.Aes
