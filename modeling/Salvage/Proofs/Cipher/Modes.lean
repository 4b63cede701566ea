import Salvage.Cipher.Padded
import Salvage.Proofs.Cipher.Aes

/-!
# Chained and padded blocks: decryption gives the text back
-/

namespace Salvage

/-! ## Blocks and octets -/

lemma Aes.Column.bytes_ofBytes {b : Bytes} (hb : 4 ≤ b.length) : (ofBytes b).bytes = b.take 4 := by
  match b, hb with
  | x :: y :: z :: w :: r, _ => rfl

lemma Aes.Block.bytes_ofBytes {b : Bytes} (hb : b.length = 16) : (ofBytes b).bytes = b := by
  have hfirst := Column.bytes_ofBytes (b := b) (by omega)
  have hsecond := Column.bytes_ofBytes (b := b.drop 4) (by rw [List.length_drop]; omega)
  have hthird := Column.bytes_ofBytes (b := b.drop 8) (by rw [List.length_drop]; omega)
  have hfourth := Column.bytes_ofBytes (b := b.drop 12) (by rw [List.length_drop]; omega)
  rw [bytes, ofBytes, hfirst, hsecond, hthird, hfourth, ← List.take_add, ← List.take_add,
    ← List.take_add]
  exact List.take_of_length_le (Nat.le_of_eq hb)

lemma Aes.Key.exists_ofBytes? {key : Bytes}
    (hkey : key.length = 16 ∨ key.length = 24 ∨ key.length = 32) : ∃ k, ofBytes? key = some k := by
  simp [ofBytes?, hkey]

namespace Cipher

@[simp] lemma blocks_bytes (ks : List Aes.Block) : blocks (bytes ks) = ks := by
  induction ks with
  | nil => rfl
  | cons k ks ih =>
    have hk : k.bytes.length = Aes.Block.length := Aes.Block.length_bytes k
    rw [blocks, bytes, List.flatMap_cons, Bytes.chunks_append (by decide) hk, List.map_cons,
      Aes.Block.ofBytes_bytes]
    exact congrArg (k :: ·) ih

lemma bytes_blocks {b : Bytes} (hb : b.length % Aes.Block.length = 0) : bytes (blocks b) = b := by
  induction b using Bytes.chunks_induction (n := Aes.Block.length) (by decide) with
  | nil => rfl
  | cons b hne ih =>
    have hpos := List.length_pos_iff.mpr hne
    rw [Aes.Block.length] at hb ih
    have htake : (b.take 16).length = 16 := by
      rw [List.length_take]
      omega
    have hdrop : (b.drop 16).length % 16 = 0 := by
      rw [List.length_drop]
      omega
    rw [blocks, Aes.Block.length, Bytes.chunks_of_ne_nil (by decide) hne, List.map_cons, bytes,
      List.flatMap_cons, Aes.Block.bytes_ofBytes htake]
    exact (congrArg _ (ih hdrop)).trans (List.take_append_drop _ _)

@[simp] lemma length_bytes (ks : List Aes.Block) :
    (bytes ks).length = Aes.Block.length * ks.length := by
  induction ks with
  | nil => rfl
  | cons k ks ih =>
    rw [bytes, List.flatMap_cons, List.length_append, Aes.Block.length_bytes, List.length_cons,
      Nat.mul_succ, Nat.add_comm]
    exact congrArg (· + 16) ih

end Cipher

/-! ## Chains -/

namespace Cbc

/-- A chain of blocks is decrypted block by block: each one is mixed with the cipher text before it,
which both sides know. -/
lemma decryptBlocks_encryptBlocks (key : Aes.Key) (last : Aes.Block) (ks : List Aes.Block) :
    decryptBlocks key last (encryptBlocks key last ks) = ks := by
  induction ks generalizing last with
  | nil => rfl
  | cons k ks ih =>
    rw [encryptBlocks, decryptBlocks, ih, Aes.Key.decrypt_encrypt, Aes.Block.xor_xor_self]

@[simp] lemma length_encryptBlocks (key : Aes.Key) (last : Aes.Block) (ks : List Aes.Block) :
    (encryptBlocks key last ks).length = ks.length := by
  induction ks generalizing last with
  | nil => rfl
  | cons k ks ih => simp [encryptBlocks, ih]

lemma start_eq {key vector : Bytes} {k : Aes.Key} (hkey : Aes.Key.ofBytes? key = some k)
    (hvector : vector.length = Aes.Block.length) : start key vector = .ok (k, .ofBytes vector) := by
  simp only [start, Cipher.key, hkey, bind, Except.bind, hvector, ↓reduceIte]
  rfl

lemma decrypt_encrypt {key vector text : Bytes} {k : Aes.Key}
    (hkey : Aes.Key.ofBytes? key = some k) (hvector : vector.length = Aes.Block.length)
    (htext : text.length % Aes.Block.length = 0) :
    ∃ b, encrypt key vector text = .ok b ∧ b.length = text.length ∧
      decrypt key vector b = .ok text := by
  refine ⟨Cipher.bytes (encryptBlocks k (.ofBytes vector) (Cipher.blocks text)), ?_, ?_, ?_⟩
  · simp only [encrypt, start_eq hkey hvector, bind, Except.bind, htext, ↓reduceIte]
    rfl
  · rw [Cipher.length_bytes, length_encryptBlocks, ← Cipher.length_bytes, Cipher.bytes_blocks htext]
  · simp only [decrypt, start_eq hkey hvector, bind, Except.bind, Cipher.length_bytes,
      Nat.mul_mod_right, ↓reduceIte, Cipher.blocks_bytes, decryptBlocks_encryptBlocks,
      Cipher.bytes_blocks htext]
    rfl

end Cbc

/-! ## Filling up -/

namespace Padding

lemma length_pad_mod (text : Bytes) : (pad text).length % blockLength = 0 := by
  simp only [pad, List.length_append, List.length_replicate, blockLength]
  omega

lemma length_lt_pad (text : Bytes) : text.length < (pad text).length := by
  simp only [pad, List.length_append, List.length_replicate, blockLength]
  omega

/-- **The filling is taken off.** The last octet tells how much of it there is, also when the text
ends in octets like those of the filling. -/
@[simp] lemma unpad_pad (text : Bytes) : unpad (pad text) = .ok text := by
  obtain ⟨n, hn⟩ : ∃ n, n = blockLength - text.length % blockLength := ⟨_, rfl⟩
  have hpad : pad text = text ++ List.replicate n (UInt8.ofNat n) := by rw [pad, hn]
  have hmod := length_pad_mod text
  rw [blockLength] at hn
  have hsome : (pad text).getLast? = some (UInt8.ofNat n) := by
    obtain ⟨m, rfl⟩ : ∃ m, n = m + 1 := ⟨n - 1, by omega⟩
    rw [hpad, List.replicate_succ', ← List.append_assoc, List.getLast?_concat]
  have hnumber : (UInt8.ofNat n).toNat = n :=
    UInt8.toNat_ofNat_of_lt' (show n < 256 by omega)
  have hkept : (pad text).length - n = text.length := by
    rw [hpad, List.length_append, List.length_replicate, Nat.add_sub_cancel]
  have hlimit : ¬ (n = 0 ∨ blockLength < n) := by
    rw [blockLength]
    omega
  simp only [unpad, hsome, hnumber, hkept, hmod, ne_eq, not_true_eq_false, ↓reduceIte, hlimit]
  simp [hpad]

end Padding

namespace Padded

lemma decrypt_encrypt {key vector : Bytes} {k : Aes.Key} (hkey : Aes.Key.ofBytes? key = some k)
    (hvector : vector.length = Aes.Block.length) (text : Bytes) :
    ∃ b, encrypt key vector text = .ok b ∧ text.length < b.length ∧
      decrypt key vector b = .ok text := by
  obtain ⟨b, hencrypt, hlength, hdecrypt⟩ :=
    Cbc.decrypt_encrypt hkey hvector (Padding.length_pad_mod text)
  refine ⟨b, ?_, ?_, ?_⟩
  · rw [encrypt, hencrypt]
    rfl
  · rw [hlength]
    exact Padding.length_lt_pad text
  · rw [decrypt, hdecrypt]
    change (Padding.unpad (Padding.pad text)).mapError Fault.padding = .ok text
    rw [Padding.unpad_pad]
    rfl

end Padded

/-! ## Blocks on their own -/

namespace Ecb

lemma length_encrypt {key text : Bytes} {k : Aes.Key} (hkey : Aes.Key.ofBytes? key = some k)
    (htext : text.length % Aes.Block.length = 0) :
    ∃ b, encrypt key text = .ok b ∧ b.length = text.length := by
  refine ⟨Cipher.bytes ((Cipher.blocks text).map k.encrypt), ?_, ?_⟩
  · simp only [encrypt, Cipher.key, hkey, bind, Except.bind, htext, ↓reduceIte]
    rfl
  · rw [Cipher.length_bytes, List.length_map, ← Cipher.length_bytes, Cipher.bytes_blocks htext]

end Ecb

/-! ## Counters -/

namespace Counter

variable (key : Aes.Key) (counter : Nat → Bytes)

lemma length_stream (n : Nat) : (stream key counter n).length = n := by
  have hblocks (m : Nat) : ((List.range m).flatMap fun i =>
      (key.encrypt (.ofBytes (counter i))).bytes).length = 16 * m := by
    induction m with
    | zero => rfl
    | succ m ih =>
      rw [List.range_succ, List.flatMap_append, List.length_append, ih, List.flatMap_singleton,
        Aes.Block.length_bytes, Nat.mul_succ]
  rw [stream, List.length_take, hblocks]
  omega

@[simp] lemma length_apply (text : Bytes) : (apply key counter text).length = text.length := by
  rw [apply, Bytes.length_xor, length_stream, Nat.min_self]

@[simp] lemma apply_apply (text : Bytes) : apply key counter (apply key counter text) = text := by
  rw [apply, length_apply, apply, Bytes.xor_xor (Nat.le_of_eq (length_stream _ _ _).symm)]

end Counter

end Salvage
