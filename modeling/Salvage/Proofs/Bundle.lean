import Salvage.Bundle.Key
import Salvage.Proofs.Cipher.Modes

/-!
# Keys of asset bundles

A key is grown piece by piece until it is long enough, and then cut. As a piece depends on the seed and
its number only, all keys of a password, a salt and a count are fronts of one longest key, which ends
where the number of a piece is no octet any more. The stream under the key depends on the length of the
data only, so that decrypting twice gives the data back.
-/

namespace Salvage.Bundle

/-! ## Pieces -/

/-- The digest of a seed with the first `n` pieces behind it. -/
def pieces (seed : Bytes) (n : Nat) : Bytes :=
  Sha1.digest seed ++ (List.range n).flatMap fun i => piece seed (i + 1)

variable (seed : Bytes)

lemma pieces_succ (n : Nat) : pieces seed (n + 1) = pieces seed n ++ piece seed (n + 1) := by
  rw [pieces, pieces, List.range_succ, List.flatMap_append, List.flatMap_singleton, List.append_assoc]

lemma length_pieces (n : Nat) : (pieces seed n).length = 20 * (n + 1) := by
  induction n with
  | zero => simp [pieces]
  | succ n ih =>
    rw [pieces_succ, List.length_append, ih, piece, Sha1.length_digest]
    rfl

lemma take_pieces_add {k m : Nat} (hk : k ≤ 20 * (m + 1)) (n : Nat) :
    (pieces seed (m + n)).take k = (pieces seed m).take k := by
  induction n with
  | zero => rfl
  | succ n ih =>
    have hlong : k ≤ (pieces seed (m + n)).length := by
      rw [length_pieces]
      omega
    rw [← Nat.add_assoc, pieces_succ, List.take_append_of_le_length hlong, ih]

/-- **The key that is grown** has the octets asked for in common with the longest one that `n` further
pieces give, and there is one unless these do not suffice.

**Proof sketch.** By induction on the pieces left. The invariant is that the key consists of the pieces
before the next number. When it is long enough, further pieces stand behind the cut. -/
lemma take_grow? (k n m : Nat) :
    (grow? seed k n (m + 1) (pieces seed m)).map (·.take k) =
      if k ≤ 20 * (m + n + 1) then some ((pieces seed (m + n)).take k) else none := by
  have hlong (m : Nat) : (k : Int) ≤ (pieces seed m).length ↔ k ≤ 20 * (m + 1) := by
    rw [length_pieces, Int.ofNat_le]
  induction n generalizing m with
  | zero =>
    simp only [grow?, hlong, Nat.add_zero]
    split <;> rfl
  | succ n ih =>
    simp only [grow?, hlong, ← pieces_succ]
    split
    · rename_i hk
      rw [if_pos (by omega), take_pieces_add seed hk, Option.map_some]
    · rw [ih, Nat.add_assoc m 1 n, Nat.add_comm 1 n]

/-! ## Keys -/

variable (password salt : Bytes) (count : Int)

lemma key?_eq (k : Nat) : key? password salt k count =
    if k ≤ 4160 then some ((pieces (Bundle.seed password salt count) pieceLimit).take k) else none := by
  have hgrown := take_grow? (Bundle.seed password salt count) k pieceLimit 0
  rw [Nat.zero_add] at hgrown
  simp only [key?, Bytes.slice, Bytes.cut_zero]
  exact hgrown

lemma length_take_pieces {k : Nat} (hk : k ≤ 4160) : ((pieces seed pieceLimit).take k).length = k := by
  rw [List.length_take, length_pieces]
  exact Nat.min_eq_left hk

lemma decrypt_eq {k : Nat} (hk : k = 16 ∨ k = 24 ∨ k = 32) :
    ∃ key, ∀ data, decrypt data password salt k count = .ok (Counter.apply key counter data) := by
  have hlimit : k ≤ 4160 := by omega
  have hlength := length_take_pieces (Bundle.seed password salt count) hlimit
  rw [← hlength] at hk
  obtain ⟨key, hkey⟩ := Aes.Key.exists_ofBytes? hk
  refine ⟨key, fun data => ?_⟩
  rw [decrypt, key?_eq, if_pos hlimit]
  simp only [Cipher.key, hkey]
  rfl

/-- **A shorter key is the front of a longer one**: up to a length of 4160 octets there is a key of just
this length, and the keys of all smaller lengths are its fronts; there are no longer keys. With a key of
a length that the cipher takes, data are decrypted to as many octets, and these to the data. -/
theorem keys_are_fronts_and_decrypt_undone :
    (∀ k₁ k₂ : Nat, k₁ ≤ k₂ → k₂ ≤ 4160 →
      ∃ key, key? password salt k₂ count = some key ∧ key.length = k₂ ∧
        key? password salt k₁ count = some (key.take k₁) ∧ (key.take k₁).length = k₁) ∧
    (∀ k : Nat, 4160 < k → key? password salt k count = none) ∧
    ∀ (data : Bytes) (k : Nat), k = 16 ∨ k = 24 ∨ k = 32 →
      ∃ b, decrypt data password salt k count = .ok b ∧ b.length = data.length ∧
        decrypt b password salt k count = .ok data := by
  refine ⟨fun k₁ k₂ hle hlimit => ?_, fun k hk => ?_, fun data k hk => ?_⟩
  · have hlimit₁ := Nat.le_trans hle hlimit
    have hfront (b : Bytes) : (b.take k₂).take k₁ = b.take k₁ := by
      rw [List.take_take, Nat.min_eq_left hle]
    refine ⟨_, (key?_eq ..).trans (if_pos hlimit), length_take_pieces _ hlimit, ?_, ?_⟩
    · rw [key?_eq, if_pos hlimit₁, hfront]
    · rw [hfront, length_take_pieces _ hlimit₁]
  · rw [key?_eq, if_neg (Nat.not_le_of_lt hk)]
  · obtain ⟨key, hdecrypt⟩ := decrypt_eq password salt count hk
    refine ⟨_, hdecrypt data, Counter.length_apply _ _ _, ?_⟩
    rw [hdecrypt, Counter.apply_apply]

/-- The longest key, and its front with which the cipher takes two blocks and an octet. -/
theorem keys_are_fronts_and_decrypt_undone_longest :
    24 ≤ 4160 ∧ (∃ key, key? [0x70] [0x73] 4160 2 = some key ∧ key.length = 4160 ∧
      key? [0x70] [0x73] 24 2 = some (key.take 24)) ∧
    key? [0x70] [0x73] 4161 2 = none ∧
    ∃ b, decrypt (List.replicate 33 7) [0x70] [0x73] 24 2 = .ok b ∧ b.length = 33 ∧
      decrypt b [0x70] [0x73] 24 2 = .ok (List.replicate 33 7) := by
  obtain ⟨hfront, hnone, hundone⟩ := keys_are_fronts_and_decrypt_undone [0x70] [0x73] 2
  obtain ⟨key, hkey, hlength, hshort, -⟩ := hfront 24 4160 (by decide) (by decide)
  exact ⟨by decide, ⟨key, hkey, hlength, hshort⟩, hnone 4161 (by decide),
    hundone (List.replicate 33 7) 24 (.inr (.inl rfl))⟩

end Salvage.Bundle
