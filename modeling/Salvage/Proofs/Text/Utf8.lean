import Salvage.Proofs.Bytes
import Salvage.Text.Utf8

/-!
# UTF-8: texts are read back
-/

namespace Salvage.Utf8

/-! ## Single characters -/

lemma lead?_eq (b : UInt8) : lead? b =
    if 0xC2 ≤ b.toNat ∧ b.toNat ≤ 0xDF then some ⟨1, 0x80, 0xBF⟩
    else if b.toNat = 0xE0 then some ⟨2, 0xA0, 0xBF⟩
    else if b.toNat = 0xED then some ⟨2, 0x80, 0x9F⟩
    else if 0xE1 ≤ b.toNat ∧ b.toNat ≤ 0xEF then some ⟨2, 0x80, 0xBF⟩
    else if b.toNat = 0xF0 then some ⟨3, 0x90, 0xBF⟩
    else if 0xF1 ≤ b.toNat ∧ b.toNat ≤ 0xF3 then some ⟨3, 0x80, 0xBF⟩
    else if b.toNat = 0xF4 then some ⟨3, 0x80, 0x8F⟩
    else none := by
  unfold lead?
  simp only [UInt8.le_iff_toNat_le, ← UInt8.toNat_inj]
  rfl

variable {v n code : Nat} {b low high x : UInt8} {seen rest : Bytes}

lemma continuation_cons (hlow : low.toNat ≤ v % 64 + 128) (hhigh : v % 64 + 128 ≤ high.toNat) :
    continuation (n + 1) code seen low high (UInt8.ofNat (v % 64 + 128) :: rest) =
      continuation n (64 * code + v % 64) (seen ++ [UInt8.ofNat (v % 64 + 128)]) 0x80 0xBF rest := by
  have hv := UInt8.toNat_ofNat_of_lt' (show v % 64 + 128 < 256 by omega)
  have hbits : (v % 64 + 128) % 64 = v % 64 := by omega
  simp only [continuation, UInt8.le_iff_toNat_le, hv, hlow, hhigh, and_self, ↓reduceIte, hbits]

lemma continuation_octet :
    continuation (n + 1) code seen 0x80 0xBF (UInt8.ofNat (v % 64 + 128) :: rest) =
      continuation n (64 * code + v % 64) (seen ++ [UInt8.ofNat (v % 64 + 128)]) 0x80 0xBF rest :=
  continuation_cons (Nat.le_add_left _ _) (by change _ ≤ 191; omega)

lemma piece_of_lead {l : Lead} (hb : 0x80 ≤ b.toNat) (hlead : lead? b = some l) (rest : Bytes) :
    piece b rest = continuation l.tail (leadBits b l.tail) [b] l.low l.high rest := by
  have hlarge : ¬ b < 0x80 := by
    rw [UInt8.lt_iff_toNat_lt]
    exact Nat.not_lt.mpr hb
  rw [piece, if_neg hlarge, hlead]

lemma piece_one (h : v ≤ 0x7F) (rest : Bytes) :
    piece (UInt8.ofNat v) rest = (.char (Char.ofNat v), rest) := by
  have hv := UInt8.toNat_ofNat_of_lt' (show v < 256 by omega)
  have hsmall : UInt8.ofNat v < 0x80 := by
    rw [UInt8.lt_iff_toNat_lt, hv]
    exact Nat.lt_of_le_of_lt h (by decide)
  rw [piece, if_pos hsmall, hv]

lemma piece_two (hlow : 0x80 ≤ v) (hhigh : v ≤ 0x7FF) (rest : Bytes) :
    piece (UInt8.ofNat (v / 64 % 32 + 192)) (UInt8.ofNat (v % 64 + 128) :: rest) =
      (.char (Char.ofNat v), rest) := by
  have h1 := UInt8.toNat_ofNat_of_lt' (show v / 64 % 32 + 192 < 256 by omega)
  have hlead : lead? (UInt8.ofNat (v / 64 % 32 + 192)) = some ⟨1, 0x80, 0xBF⟩ := by
    rw [lead?_eq, h1, if_pos (by omega)]
  rw [piece_of_lead (by omega) hlead, continuation_octet, continuation, leadBits, h1]
  congr 3
  omega

lemma piece_three (hlow : 0x800 ≤ v) (hhigh : v ≤ 0xFFFF)
    (hvalid : v < 0xD800 ∨ 0xDFFF < v) (rest : Bytes) :
    piece (UInt8.ofNat (v / 4096 % 16 + 224))
        (UInt8.ofNat (v / 64 % 64 + 128) :: UInt8.ofNat (v % 64 + 128) :: rest) =
      (.char (Char.ofNat v), rest) := by
  have h1 := UInt8.toNat_ofNat_of_lt' (show v / 4096 % 16 + 224 < 256 by omega)
  obtain ⟨low, high, hlead, hl, hh⟩ : ∃ low high,
      lead? (UInt8.ofNat (v / 4096 % 16 + 224)) = some ⟨2, low, high⟩ ∧
        low.toNat ≤ v / 64 % 64 + 128 ∧ v / 64 % 64 + 128 ≤ high.toNat := by
    rw [lead?_eq, h1, if_neg (by omega)]
    by_cases hfirst : v / 4096 = 0
    · exact ⟨0xA0, 0xBF, if_pos (by omega), by change 160 ≤ _; omega, by change _ ≤ 191; omega⟩
    · rw [if_neg (by omega)]
      by_cases hsurrogate : v / 4096 = 13
      · exact ⟨0x80, 0x9F, if_pos (by omega), by change 128 ≤ _; omega,
          by change _ ≤ 159; omega⟩
      · rw [if_neg (by omega)]
        exact ⟨0x80, 0xBF, if_pos (by omega), by change 128 ≤ _; omega,
          by change _ ≤ 191; omega⟩
  rw [piece_of_lead (by omega) hlead, continuation_cons hl hh, continuation_octet, continuation,
    leadBits, h1]
  congr 3
  omega

lemma piece_four (hlow : 0x10000 ≤ v) (hhigh : v < 0x110000) (rest : Bytes) :
    piece (UInt8.ofNat (v / 262144 % 8 + 240))
        (UInt8.ofNat (v / 4096 % 64 + 128) :: UInt8.ofNat (v / 64 % 64 + 128) ::
          UInt8.ofNat (v % 64 + 128) :: rest) =
      (.char (Char.ofNat v), rest) := by
  have h1 := UInt8.toNat_ofNat_of_lt' (show v / 262144 % 8 + 240 < 256 by omega)
  have hbits (b : UInt8) : leadBits b 3 = b.toNat % 8 := rfl
  obtain ⟨low, high, hlead, hl, hh⟩ : ∃ low high,
      lead? (UInt8.ofNat (v / 262144 % 8 + 240)) = some ⟨3, low, high⟩ ∧
        low.toNat ≤ v / 4096 % 64 + 128 ∧ v / 4096 % 64 + 128 ≤ high.toNat := by
    rw [lead?_eq, h1, if_neg (by omega), if_neg (by omega), if_neg (by omega), if_neg (by omega)]
    by_cases hfirst : v / 262144 = 0
    · exact ⟨0x90, 0xBF, if_pos (by omega), by change 144 ≤ _; omega, by change _ ≤ 191; omega⟩
    · rw [if_neg (by omega)]
      by_cases hlast : v / 262144 = 4
      · rw [if_neg (by omega)]
        exact ⟨0x80, 0x8F, if_pos (by omega), by change 128 ≤ _; omega,
          by change _ ≤ 143; omega⟩
      · exact ⟨0x80, 0xBF, if_pos (by omega), by change 128 ≤ _; omega,
          by change _ ≤ 191; omega⟩
  rw [piece_of_lead (by omega) hlead, continuation_cons hl hh, continuation_octet,
    continuation_octet, continuation, hbits, h1]
  congr 3
  omega

/-- **The octets of a character**, in front of any others, are cut off as this character.

**Proof sketch.** By the number of octets. The lead octet tells how many follow, and the ranges for
the first of these leave out exactly the codes that shorter forms have, the surrogates, and what
lies beyond the last character. -/
lemma pieces_utf8EncodeChar (c : Char) (rest : Bytes) :
    pieces (String.utf8EncodeChar c ++ rest) = .char c :: pieces rest := by
  have hvalid : c.val.toNat < 0xD800 ∨ 0xDFFF < c.val.toNat ∧ c.val.toNat < 0x110000 := c.valid
  have hc : Char.ofNat c.val.toNat = c := Char.ofNat_toNat c
  simp only [String.utf8EncodeChar]
  split
  · rw [List.singleton_append, pieces, piece_one (by omega), hc]
  · split
    · rw [List.cons_append, List.singleton_append, pieces, piece_two (by omega) (by omega), hc]
    · split
      · rw [List.cons_append, List.cons_append, List.singleton_append, pieces,
          piece_three (by omega) (by omega) (by omega), hc]
      · rw [List.cons_append, List.cons_append, List.cons_append, List.singleton_append, pieces,
          piece_four (by omega) (by omega), hc]

/-! ## Texts -/

lemma ofString_eq_flatMap (s : String) :
    Bytes.ofString s = s.toList.flatMap String.utf8EncodeChar := by
  rw [Bytes.ofString_eq, ← String.utf8Encode_toList, List.utf8Encode, List.data_toByteArray]

lemma pieces_ofString (s : String) : pieces (Bytes.ofString s) = s.toList.map .char := by
  rw [ofString_eq_flatMap]
  induction s.toList with
  | nil => rw [List.flatMap_nil, pieces, List.map_nil]
  | cons c cs ih => rw [List.flatMap_cons, pieces_utf8EncodeChar, ih, List.map_cons]

lemma decodeSkipping_ofString (s : String) : decodeSkipping (Bytes.ofString s) = s := by
  rw [decodeSkipping, pieces_ofString, List.filterMap_map]
  change String.ofList (s.toList.filterMap some) = s
  rw [List.filterMap_some, String.ofList_toList]

/-! ## Other octets -/

lemma lead?_bounds {l : Lead} (h : lead? b = some l) :
    (l.tail = 1 ∧ 0xC2 ≤ b.toNat ∧ b.toNat ≤ 0xDF ∧ 0x80 ≤ l.low.toNat ∧ l.high.toNat ≤ 0xBF) ∨
    (l.tail = 2 ∧ 0xE0 ≤ b.toNat ∧ b.toNat ≤ 0xEF ∧ 0x80 ≤ l.low.toNat ∧ l.high.toNat ≤ 0xBF ∧
      (b.toNat = 0xE0 → 0xA0 ≤ l.low.toNat) ∧ (b.toNat = 0xED → l.high.toNat ≤ 0x9F)) ∨
    (l.tail = 3 ∧ 0xF0 ≤ b.toNat ∧ b.toNat ≤ 0xF4 ∧ 0x80 ≤ l.low.toNat ∧ l.high.toNat ≤ 0xBF ∧
      (b.toNat = 0xF0 → 0x90 ≤ l.low.toNat) ∧ (b.toNat = 0xF4 → l.high.toNat ≤ 0x8F)) := by
  rw [lead?_eq] at h
  -- one case for each range of lead octets, and one without a lead
  repeat' split at h
  all_goals cases h
  all_goals simp_all
  all_goals omega

lemma continuation_eq_char {r : Bytes}
    {c : Char} (h : continuation (n + 1) code seen low high rest = (.char c, r)) :
    ∃ b rest', rest = b :: rest' ∧ low.toNat ≤ b.toNat ∧ b.toNat ≤ high.toNat ∧
      continuation n (64 * code + b.toNat % 64) (seen ++ [b]) 0x80 0xBF rest' = (.char c, r) := by
  cases rest with
  | nil => simp [continuation] at h
  | cons b rest =>
    rw [continuation] at h
    split at h
    · rename_i hrange
      exact ⟨b, rest, rfl, UInt8.le_iff_toNat_le.mp hrange.1, UInt8.le_iff_toNat_le.mp hrange.2, h⟩
    · simp at h

lemma utf8EncodeChar_ofNat (hv : v < 0xD800 ∨ 0xDFFF < v ∧ v < 0x110000) :
    String.utf8EncodeChar (Char.ofNat v) =
      if v ≤ 0x7F then [UInt8.ofNat v]
      else if v ≤ 0x7FF then [UInt8.ofNat (v / 64 % 32 + 192), UInt8.ofNat (v % 64 + 128)]
      else if v ≤ 0xFFFF then
        [UInt8.ofNat (v / 4096 % 16 + 224), UInt8.ofNat (v / 64 % 64 + 128),
          UInt8.ofNat (v % 64 + 128)]
      else
        [UInt8.ofNat (v / 262144 % 8 + 240), UInt8.ofNat (v / 4096 % 64 + 128),
          UInt8.ofNat (v / 64 % 64 + 128), UInt8.ofNat (v % 64 + 128)] := by
  have hchar : Char.ofNat v = Char.ofNatAux v hv := dif_pos hv
  have hnumber : (Char.ofNat v).val.toNat = v := by
    rw [hchar]
    rfl
  rw [String.utf8EncodeChar, hnumber]

lemma eq_ofNat (h : b.toNat = v) : b = UInt8.ofNat v := by
  rw [← h, UInt8.ofNat_toNat]

/-- **A character is cut off from its own octets only.**

**Proof sketch.** By the number of octets that the lead octet announces. The ranges for the first
continuation octet leave no number that a shorter form has, so that each octet can be computed back
from the number of the character. -/
lemma cons_eq_of_piece {r : Bytes} {c : Char} (h : piece b rest = (.char c, r)) :
    b :: rest = String.utf8EncodeChar c ++ r := by
  rw [piece] at h
  split at h
  · rename_i hsmall
    rw [UInt8.lt_iff_toNat_lt] at hsmall
    change b.toNat < 128 at hsmall
    cases h
    rw [utf8EncodeChar_ofNat (.inl (by omega)), if_pos (by omega), UInt8.ofNat_toNat]
    rfl
  · cases hlead : lead? b with
    | none => simp [hlead] at h
    | some l =>
      simp only [hlead] at h
      obtain ⟨htail, hb⟩ | ⟨htail, hb⟩ | ⟨htail, hb⟩ := lead?_bounds hlead
      · rw [htail] at h
        obtain ⟨x, rest, rfl, hx, hx', h⟩ := continuation_eq_char h
        simp only [continuation, leadBits, Prod.mk.injEq, Piece.char.injEq] at h
        obtain ⟨rfl, rfl⟩ := h
        rw [utf8EncodeChar_ofNat (.inl (by omega)), if_neg (by omega), if_pos (by omega),
          ← eq_ofNat (b := b) (by omega), ← eq_ofNat (b := x) (by omega)]
        rfl
      · rw [htail] at h
        obtain ⟨x, rest, rfl, hx, hx', h⟩ := continuation_eq_char h
        obtain ⟨y, rest, rfl, hy, hy', h⟩ := continuation_eq_char h
        change 128 ≤ y.toNat at hy
        change y.toNat ≤ 191 at hy'
        simp only [continuation, leadBits, Prod.mk.injEq, Piece.char.injEq] at h
        obtain ⟨rfl, rfl⟩ := h
        rw [utf8EncodeChar_ofNat (by omega), if_neg (by omega), if_neg (by omega),
          if_pos (by omega), ← eq_ofNat (b := b) (by omega), ← eq_ofNat (b := x) (by omega),
          ← eq_ofNat (b := y) (by omega)]
        rfl
      · rw [htail] at h
        obtain ⟨x, rest, rfl, hx, hx', h⟩ := continuation_eq_char h
        obtain ⟨y, rest, rfl, hy, hy', h⟩ := continuation_eq_char h
        obtain ⟨z, rest, rfl, hz, hz', h⟩ := continuation_eq_char h
        change 128 ≤ y.toNat at hy
        change y.toNat ≤ 191 at hy'
        change 128 ≤ z.toNat at hz
        change z.toNat ≤ 191 at hz'
        simp only [continuation, leadBits, Prod.mk.injEq, Piece.char.injEq] at h
        obtain ⟨rfl, rfl⟩ := h
        rw [utf8EncodeChar_ofNat (by omega), if_neg (by omega), if_neg (by omega),
          if_neg (by omega), ← eq_ofNat (b := b) (by omega), ← eq_ofNat (b := x) (by omega),
          ← eq_ofNat (b := y) (by omega), ← eq_ofNat (b := z) (by omega)]
        rfl

lemma eq_flatMap_of_pieces {b : Bytes} {cs : List Char} (h : pieces b = cs.map .char) :
    b = cs.flatMap String.utf8EncodeChar := by
  induction cs generalizing b with
  | nil =>
    cases b with
    | nil => rfl
    | cons x b => simp [pieces] at h
  | cons c cs ih =>
    cases b with
    | nil => simp [pieces] at h
    | cons x b =>
      rw [pieces, List.map_cons, List.cons.injEq] at h
      have hpiece : piece x b = (.char c, (piece x b).2) := Prod.ext h.1 rfl
      rw [cons_eq_of_piece hpiece, ih h.2, List.flatMap_cons]

lemma strict_map_char (n : Nat) (cs : List Char) : strict n (cs.map .char) = .ok cs := by
  induction cs generalizing n with
  | nil => rfl
  | cons c cs ih =>
    rw [List.map_cons, strict, ih]
    rfl

lemma eq_map_of_strict {ps : List Piece} {cs : List Char} (h : strict n ps = .ok cs) :
    ps = cs.map .char := by
  induction ps generalizing n cs with
  | nil =>
    cases h
    rfl
  | cons p ps ih =>
    cases p with
    | bad octets cause => cases h
    | char c =>
      rw [strict] at h
      cases hstrict : strict (n + width c) ps with
      | error f =>
        rw [hstrict] at h
        cases h
      | ok ds =>
        rw [hstrict] at h
        cases h
        rw [List.map_cons, ← ih hstrict]

lemma decode_eq_ok_iff {b : Bytes} {s : String} : decode b = .ok s ↔ b = encode s := by
  constructor
  · intro h
    rw [decode] at h
    cases hstrict : strict 0 (pieces b) with
    | error f =>
      rw [hstrict] at h
      cases h
    | ok cs =>
      rw [hstrict] at h
      cases h
      rw [encode, ofString_eq_flatMap, String.toList_ofList]
      exact eq_flatMap_of_pieces (eq_map_of_strict hstrict)
  · rintro rfl
    rw [decode, encode, pieces_ofString, strict_map_char]
    exact congrArg Except.ok (String.ofList_toList)

/-! ## Replacement characters -/

def Piece.shown : Piece → Char
  | char c => c
  | bad _ _ => Char.ofNat 0xFFFD

lemma toList_decodeReplacing (b : Bytes) :
    (decodeReplacing b).toList = (pieces b).map Piece.shown := by
  rw [decodeReplacing, String.toList_ofList]
  rfl

lemma continuation_append (hx : x < 0x80) (r : Bytes) (hlow : 0x80 ≤ low) (rest : Bytes) :
    ∃ p, continuation n code seen low high (rest ++ x :: r) =
        (p, (continuation n code seen low high rest).2 ++ x :: r) ∧
      p.shown = (continuation n code seen low high rest).1.shown := by
  induction n generalizing code seen low high rest with
  | zero => exact ⟨_, rfl, rfl⟩
  | succ n ih =>
    cases rest with
    | nil =>
      have hout : ¬ (low ≤ x ∧ x ≤ high) := fun h =>
        UInt8.not_lt.mpr (UInt8.le_trans hlow h.1) hx
      rw [List.nil_append, continuation, continuation, if_neg hout]
      exact ⟨_, rfl, rfl⟩
    | cons b rest =>
      rw [List.cons_append, continuation, continuation]
      split
      · exact ih (by decide) rest
      · exact ⟨_, rfl, rfl⟩

lemma piece_append (hx : x < 0x80) (b : UInt8) (rest r : Bytes) :
    ∃ p, piece b (rest ++ x :: r) = (p, (piece b rest).2 ++ x :: r) ∧
      p.shown = (piece b rest).1.shown := by
  rw [piece, piece]
  split
  · exact ⟨_, rfl, rfl⟩
  · cases hlead : lead? b with
    | none => exact ⟨_, rfl, rfl⟩
    | some l =>
      have hlow : 0x80 ≤ l.low := by
        rw [UInt8.le_iff_toNat_le]
        rcases lead?_bounds hlead with h | h | h
        · exact h.2.2.2.1
        · exact h.2.2.2.1
        · exact h.2.2.2.1
      exact continuation_append hx r hlow rest

/-- **A character of one octet** stands for itself wherever it is. -/
lemma decodeReplacing_append (hx : x < 0x80) (a r : Bytes) :
    (decodeReplacing (a ++ x :: r)).toList =
      (decodeReplacing a).toList ++ Char.ofNat x.toNat :: (decodeReplacing r).toList := by
  simp only [toList_decodeReplacing]
  fun_induction pieces a with
  | case1 =>
    rw [List.nil_append, pieces, piece, if_pos hx]
    rfl
  | case2 b rest ih =>
    obtain ⟨p, hp, hshown⟩ := piece_append hx b rest r
    rw [List.cons_append, pieces, hp, List.map_cons, ih, hshown]
    rfl

end Salvage.Utf8
