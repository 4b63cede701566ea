import Salvage.Compress.Gzip
import Salvage.Proofs.Bytes
import Salvage.Proofs.Run

/-!
# Stored streams are read back

A stream that holds its octets as they are is a row of blocks, each with its length in front. Reading
it goes bit by bit up to the lengths and octet by octet behind them.
-/

namespace Salvage

open Bytes (littleEndian ofLittleEndian littleEndian_ofLittleEndian length_ofLittleEndian chunks
  window)

namespace Inflate.Read

variable {rest : Bytes} {out : Array UInt8}

/-! ## Bits -/

lemma bits_succ {n high : Nat} {low : Bool} {r r' r'' : Reader} (hbit : bit.run r = .ok low r')
    (hbits : (bits n).run r' = .ok high r'') :
    (bits (n + 1)).run r = .ok (2 * high + if low then 1 else 0) r'' := by
  rw [bits, Run.bind_ok hbit, Run.bind_ok hbits]
  rfl

lemma bit_cons {used : Nat} (hused : used < 7) {b : UInt8} {v : Bool}
    (hv : ((b >>> UInt8.ofNat used) &&& 1 == 1) = v) :
    bit.run ⟨b :: rest, used, out⟩ = .ok v ⟨b :: rest, used + 1, out⟩ := by
  have hne : used ≠ 7 := by omega
  simp only [EStateM.run, bit, hv, hne, ↓reduceIte]

lemma bit_toNat {k : Nat} (hk : k < 8) (b : UInt8) :
    (if (b >>> UInt8.ofNat k) &&& 1 == 1 then 1 else 0) = (b.toNat >>> k) % 2 := by
  have hdigit : ((b >>> UInt8.ofNat k) &&& 1).toNat = (b.toNat >>> k) % 2 := by
    rw [UInt8.toNat_and, UInt8.toNat_shiftRight, UInt8.toNat_ofNat_of_lt' (show k < 256 by omega),
      Nat.mod_eq_of_lt hk]
    exact Nat.and_one_is_mod _
  have hone : (b >>> UInt8.ofNat k) &&& 1 = 1 ↔ (b.toNat >>> k) % 2 = 1 := by
    rw [← UInt8.toNat_inj, hdigit]
    rfl
  simp only [beq_iff_eq, hone]
  split <;> omega

/-- **The last bits of an octet**, and a number behind it.

**Proof sketch.** Induction on the number of bits that are left. Each bit is the lowest digit of the
number from there on. -/
lemma bits_octetFrom {n m : Nat} {r : Reader} (b : UInt8) (left : Nat) (hleft : left < 8)
    (h : (bits n).run ⟨rest, 0, out⟩ = .ok m r) :
    (bits (n + (left + 1))).run ⟨b :: rest, 7 - left, out⟩ =
      .ok ((b.toNat >>> (7 - left)) + 2 ^ (left + 1) * m) r := by
  induction left with
  | zero =>
    have hbit : bit.run ⟨b :: rest, 7, out⟩ =
        .ok ((b >>> UInt8.ofNat 7) &&& 1 == 1) ⟨rest, 0, out⟩ := rfl
    have hb := b.toNat_lt
    have hlast : b.toNat >>> 7 < 2 := by
      rw [Nat.shiftRight_eq_div_pow]
      omega
    rw [Nat.zero_add, Nat.sub_zero, bits_succ hbit h, bit_toNat (by decide), Nat.mod_eq_of_lt hlast,
      Nat.pow_one, Nat.add_comm]
  | succ left ih =>
    have hbit : bit.run ⟨b :: rest, 7 - (left + 1), out⟩ =
        .ok ((b >>> UInt8.ofNat (7 - (left + 1))) &&& 1 == 1) ⟨b :: rest, 7 - left, out⟩ := by
      rw [show 7 - left = 7 - (left + 1) + 1 by omega]
      exact bit_cons (by omega) rfl
    have hdigits : b.toNat >>> (7 - (left + 1)) =
        2 * (b.toNat >>> (7 - left)) + (b.toNat >>> (7 - (left + 1))) % 2 := by
      have hshift : b.toNat >>> (7 - left) = b.toNat >>> (7 - (left + 1)) / 2 := by
        rw [← Nat.shiftRight_succ]
        congr 1
        omega
      omega
    have hpow : 2 ^ (left + 1 + 1) * m = 2 * (2 ^ (left + 1) * m) := by
      rw [Nat.pow_succ, Nat.mul_comm _ 2, Nat.mul_assoc]
    rw [← Nat.add_assoc, bits_succ hbit (ih (by omega)), bit_toNat (by omega), hdigits, hpow]
    congr 1
    omega

lemma bits_octets (a : Bytes) :
    (bits (8 * a.length)).run ⟨a ++ rest, 0, out⟩ = .ok (littleEndian a) ⟨rest, 0, out⟩ := by
  induction a with
  | nil => rfl
  | cons b a ih =>
    rw [List.length_cons, Nat.mul_succ, List.cons_append, bits_octetFrom b 7 (by decide) ih]
    rfl

lemma octets_append (a : Bytes) :
    (octets a.length).run ⟨a ++ rest, 0, out⟩ = .ok () ⟨rest, 0, out ++ a⟩ := by
  induction a generalizing out with
  | nil =>
    have hout : out ++ ([] : Bytes) = out := by simp
    rw [hout]
    rfl
  | cons b a ih =>
    have hoctet : octet.run ⟨b :: (a ++ rest), 0, out⟩ = .ok b ⟨a ++ rest, 0, out⟩ := rfl
    have hwrite : (write b).run ⟨a ++ rest, 0, out⟩ = .ok () ⟨a ++ rest, 0, out.push b⟩ := rfl
    rw [List.length_cons, octets, List.cons_append, Run.bind_ok hoctet, Run.bind_ok hwrite, ih]
    simp

/-! ## Blocks -/

lemma storedBlock_append {a : Bytes} (ha : a.length ≤ 0xFFFF) (head : UInt8) (used : Nat)
    (hused : used ≠ 0) :
    storedBlock.run ⟨head :: (ofLittleEndian 2 a.length ++
        (ofLittleEndian 2 (0xFFFF - a.length) ++ (a ++ rest))), used, out⟩ =
      .ok () ⟨rest, 0, out ++ a⟩ := by
  have halign : align.run ⟨head :: (ofLittleEndian 2 a.length ++
      (ofLittleEndian 2 (0xFFFF - a.length) ++ (a ++ rest))), used, out⟩ =
        .ok () ⟨ofLittleEndian 2 a.length ++
          (ofLittleEndian 2 (0xFFFF - a.length) ++ (a ++ rest)), 0, out⟩ := by
    rw [align, Run.modify_run, if_neg hused]
    rfl
  have hlength (v : Nat) (hv : v ≤ 0xFFFF) (r : Bytes) :
      (bits 16).run ⟨ofLittleEndian 2 v ++ r, 0, out⟩ = .ok v ⟨r, 0, out⟩ := by
    have hread : (bits 16).run ⟨ofLittleEndian 2 v ++ r, 0, out⟩ =
        .ok (littleEndian (ofLittleEndian 2 v)) ⟨r, 0, out⟩ :=
      bits_octets (ofLittleEndian 2 v)
    rwa [littleEndian_ofLittleEndian (by omega)] at hread
  have hsum : ¬ (a.length + (0xFFFF - a.length) ≠ 0xFFFF) := by omega
  rw [storedBlock, Run.bind_ok halign, Run.bind_ok (hlength _ ha _),
    Run.bind_ok (hlength _ (Nat.sub_le _ _) _), if_neg hsum]
  exact octets_append a

lemma block_stored (items : Nat) (last : Bool) {a : Bytes} (ha : a.length ≤ 0xFFFF) :
    (block items).run ⟨Inflate.storedBlock last a ++ rest, 0, out⟩ = .ok last ⟨rest, 0, out ++ a⟩ := by
  obtain ⟨head, hhead⟩ : ∃ head : UInt8, head = if last then 1 else 0 := ⟨_, rfl⟩
  obtain ⟨body, hbody⟩ : ∃ body, body = ofLittleEndian 2 a.length ++
      (ofLittleEndian 2 (0xFFFF - a.length) ++ (a ++ rest)) := ⟨_, rfl⟩
  have hsplit : Inflate.storedBlock last a ++ rest = head :: body := by
    simp [Inflate.storedBlock, hhead, hbody]
  have hlast : ((head >>> UInt8.ofNat 0) &&& 1 == 1) = last := by
    rw [hhead]
    cases last <;> decide
  -- the other two bits of the head are the type of the block
  have htype (k : Nat) (hk : k = 1 ∨ k = 2) : ((head >>> UInt8.ofNat k) &&& 1 == 1) = false := by
    rw [hhead]
    rcases hk with rfl | rfl <;> cases last <;> decide
  have hbits : (bits 2).run ⟨head :: body, 1, out⟩ = .ok 0 ⟨head :: body, 3, out⟩ := by
    have hnone : (bits 0).run ⟨head :: body, 3, out⟩ = .ok 0 ⟨head :: body, 3, out⟩ := rfl
    exact bits_succ (bit_cons (by decide) (htype 1 (.inl rfl)))
      (bits_succ (bit_cons (by decide) (htype 2 (.inr rfl))) hnone)
  rw [hsplit, block, Run.bind_ok (bit_cons (by decide) hlast), Run.bind_ok hbits, hbody]
  exact Run.bind_ok (storedBlock_append ha head 3 (by decide))

/-- **A row of stored blocks**, in front of any octets: they are read up to the one that is marked as
the last. -/
lemma blocks_stored (items : Nat) {fuel : Nat} {pieces : List Bytes} (hfuel : pieces.length < fuel)
    (hpieces : ∀ p ∈ pieces, p.length ≤ 0xFFFF) :
    (blocks items fuel).run ⟨storedPieces pieces ++ rest, 0, out⟩ =
      .ok () ⟨rest, 0, out ++ pieces.flatten⟩ := by
  induction pieces using storedPieces.induct generalizing fuel out with
  | case1 =>
    obtain ⟨fuel, rfl⟩ : ∃ m, fuel = m + 1 := ⟨fuel - 1, by omega⟩
    rw [blocks, storedPieces, Run.bind_ok (block_stored items true (Nat.zero_le _))]
    rfl
  | case2 p =>
    obtain ⟨fuel, rfl⟩ : ∃ m, fuel = m + 1 := ⟨fuel - 1, by omega⟩
    rw [blocks, storedPieces, Run.bind_ok (block_stored items true (hpieces p List.mem_cons_self)),
      List.flatten_singleton]
    rfl
  | case3 p q r ih =>
    obtain ⟨fuel, rfl⟩ : ∃ m, fuel = m + 1 := ⟨fuel - 1, by omega⟩
    have hlater : ∀ p ∈ q :: r, p.length ≤ 0xFFFF := fun p hp =>
      hpieces p (List.mem_cons_of_mem _ hp)
    have hout : out ++ (p ++ (q :: r).flatten) = out ++ p ++ (q :: r).flatten := by
      apply Array.toList_inj.mp
      simp
    rw [blocks, storedPieces, List.append_assoc,
      Run.bind_ok (block_stored items false (hpieces p List.mem_cons_self)), List.flatten_cons, hout]
    exact ih (Nat.lt_of_succ_lt_succ hfuel) hlater

end Inflate.Read

/-! ## Streams -/

namespace Inflate

lemma length_flatten_le_storedPieces (pieces : List Bytes) :
    pieces.flatten.length < (storedPieces pieces).length := by
  induction pieces using storedPieces.induct with
  | case1 => simp [storedPieces, storedBlock]
  | case2 p => simp [storedPieces, storedBlock]; omega
  | case3 p q r ih =>
    simp only [storedPieces, storedBlock, List.flatten_cons, List.length_append, List.length_cons,
      length_ofLittleEndian] at ih ⊢
    omega

end Inflate

lemma inflate_storedBlocks (b rest : Bytes) :
    inflate (Inflate.storedBlocks b ++ rest) = ⟨b, rest, none⟩ := by
  have hpieces (p : Bytes) (hp : p ∈ chunks 0xFFFF b) :=
    Bytes.bounds_of_mem_chunks (by decide) hp
  have hcount : (chunks 0xFFFF b).length ≤ (chunks 0xFFFF b).flatten.length :=
    Bytes.length_le_length_flatten fun p hp => (hpieces p hp).1
  have hlength := Inflate.length_flatten_le_storedPieces (chunks 0xFFFF b)
  have hfuel : (chunks 0xFFFF b).length <
      8 * (Inflate.storedBlocks b ++ rest).length + 1 := by
    rw [List.length_append, Inflate.storedBlocks]
    omega
  have hread : (Inflate.Read.blocks (8 * (Inflate.storedBlocks b ++ rest).length + 1)
      (8 * (Inflate.storedBlocks b ++ rest).length + 1)).run ⟨Inflate.storedBlocks b ++ rest, 0, #[]⟩ =
        .ok () ⟨rest, 0, #[] ++ (chunks 0xFFFF b).flatten⟩ :=
    Inflate.Read.blocks_stored _ hfuel fun p hp => (hpieces p hp).2
  rw [Bytes.flatten_chunks (by decide)] at hread
  simp only [inflate, hread]
  simp

/-! ## Files -/

namespace Gzip

/-- What stands behind the stream of a member: the check sum and the length of its text. -/
def trailer (text : Bytes) : Bytes :=
  Bytes.ofLittleEndian 4 (Crc32.checksum text).toNat ++ Bytes.ofLittleEndian 4 text.length

lemma afterHeader_plain (r : Bytes) : afterHeader ([8, 0, 0, 0, 0, 0, 0, 0xFF] ++ r) = .ok r := by
  have hflag (n : UInt8) : flag 0 n = false := by simp [flag]
  simp only [afterHeader, bind, Except.bind, List.cons_append, List.getD_cons_zero,
    List.getD_cons_succ, ne_eq, not_true_eq_false, hflag, Bool.false_eq_true, ↓reduceIte]
  rfl

lemma member_stored (text : Bytes) :
    member ([8, 0, 0, 0, 0, 0, 0, 0xFF] ++ (Inflate.storedBlocks text ++ trailer text)) =
      .ok (text, []) := by
  have hsum : littleEndian ((trailer text).take 4) = (Crc32.checksum text).toNat := by
    rw [trailer, List.take_left' (length_ofLittleEndian 4 _),
      littleEndian_ofLittleEndian (Crc32.checksum text).toNat_lt]
  have hlength : littleEndian (window (trailer text) 4 4) =
      text.length % 0x100000000 := by
    rw [trailer, window, List.drop_left' (length_ofLittleEndian 4 _),
      List.take_of_length_le (Nat.le_of_eq (length_ofLittleEndian 4 _)),
      Bytes.littleEndian_ofLittleEndian_mod]
    rfl
  have height : (trailer text).length = 8 := by
    rw [trailer, List.length_append, length_ofLittleEndian, length_ofLittleEndian]
  have hrest : ((trailer text).drop 8).dropWhile (· == 0) = [] := by
    rw [List.drop_of_length_le (Nat.le_of_eq height)]
    rfl
  simp only [member, afterHeader_plain, bind, Except.bind, inflate_storedBlocks, hsum, hlength,
    height, hrest, Nat.lt_irrefl, ne_eq, not_true_eq_false, ↓reduceIte]
  rfl

lemma decompress_compress (text : Bytes) : decompress (compress text) = .ok text := by
  have hsplit : compress text = 0x1F :: 0x8B :: ([8, 0, 0, 0, 0, 0, 0, 0xFF] ++
      (Inflate.storedBlocks text ++ trailer text)) := by
    simp [compress, mark, trailer]
  have hnone (fuel : Nat) : members fuel [] = .ok [] := by cases fuel <;> rfl
  have hmark : ¬ List.take 2 (compress text) ≠ mark := by
    rw [hsplit]
    exact fun h => h rfl
  rw [hsplit] at hmark
  rw [decompress, hsplit, List.length_cons, members, if_neg hmark]
  · simp only [List.drop_succ_cons, List.drop_zero, member_stored, bind, Except.bind, hnone,
      List.append_nil]
    rfl
  · exact List.cons_ne_nil _ _

end Gzip

end Salvage
