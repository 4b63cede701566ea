import Mathlib.Tactic.Ring
import Salvage.Proofs.Text.Utf8
import Salvage.Table.Cursor

/-!
# Reading what stands at the cursor

A read of a value is specified by the octets of the value: wherever they stand at the cursor,
whatever stands before and behind, the read gives the value and goes exactly behind them. Such
specifications compose like the octets do.
-/

namespace Salvage.Table

/-! ## Cursors -/

structure Cursor.Between (c : Cursor) (pre rest : Bytes) : Prop where
  source_eq : c.source = some (pre ++ rest)
  limit_eq : c.limit = (pre ++ rest).length
  pos_eq : c.pos = pre.length

namespace Cursor

variable {c : Cursor} {pre a rest : Bytes}

lemma between_at (pre rest : Bytes) :
    Between { ofBytes (pre ++ rest) with pos := pre.length } pre rest := by
  constructor
  · rfl
  · simp [ofBytes, load]
  · rfl

lemma between_ofBytes (b : Bytes) : (ofBytes b).Between [] b :=
  between_at [] b

@[simp] lemma advance_zero (c : Cursor) : c.advance 0 = c := by
  simp [advance]

@[simp] lemma view_advance (c : Cursor) (n : Nat) : (c.advance n).view = c.view :=
  rfl

@[simp] lemma advance_advance (c : Cursor) (m n : Nat) :
    (c.advance m).advance n = c.advance (m + n) := by
  simp [advance, Int.add_assoc]

namespace Between

lemma advance (h : c.Between pre (a ++ rest)) : (c.advance a.length).Between (pre ++ a) rest := by
  refine ⟨?_, ?_, ?_⟩
  · rw [List.append_assoc]
    exact h.source_eq
  · rw [List.append_assoc]
    exact h.limit_eq
  · simp [Cursor.advance, h.pos_eq]

lemma limit_eq_add (h : c.Between pre rest) : c.limit = c.pos + rest.length := by
  rw [h.limit_eq, h.pos_eq, List.length_append]
  omega

lemma atEnd_eq (h : c.Between pre rest) : c.atEnd = rest.isEmpty := by
  have := h.limit_eq_add
  cases rest with
  | nil => simp [atEnd, this]
  | cons b rest =>
    simp only [List.length_cons] at this
    simp [atEnd]
    omega

lemma here_eq {b : UInt8} (h : c.Between pre (b :: rest)) : c.here = .ok b := by
  simp [here, h.source_eq, h.pos_eq, Bytes.at?]

end Between

/-- How the cursor reads texts: where they stand, or by their positions among the texts of a pool.
-/
def Serves (c : Cursor) : Option (List String) → Prop
  | none => c.pooled = false
  | some texts => c.pooled = true ∧ ∃ v, c.view = some v ∧
      ∀ (i : Nat) (s : String), texts[i]? = some s →
        i < 2 ^ 31 ∧ v.pool.text? v.data v.start i = .found s

lemma Serves.advance {texts : Option (List String)} (h : c.Serves texts) (n : Nat) :
    (c.advance n).Serves texts := by
  cases texts <;> exact h

end Cursor

/-! ## Reads -/

namespace Read

variable {α β : Type} {texts : Option (List String)} {a b : Bytes}

/-- Wherever the read finds the octets `a` at the cursor, it gives `v` and goes behind them. -/
def Takes (texts : Option (List String)) (r : Read α) (a : Bytes) (v : α) : Prop :=
  ∀ ⦃c : Cursor⦄ ⦃pre rest : Bytes⦄, c.Between pre (a ++ rest) → c.Serves texts →
    r c = .ok v (c.advance a.length)

lemma bind_of_ok {r : Read α} {f : α → Read β} {c c' : Cursor} {v : α} (h : r c = .ok v c') :
    (r >>= f) c = f v c' := by
  change EStateM.bind r f c = _
  rw [EStateM.bind, h]

namespace Takes

variable {r : Read α} {f : α → Read β} {v : α} {w : β}

lemma pure (v : α) : Takes texts (Pure.pure v) [] v := by
  intro c pre rest _ _
  change EStateM.Result.ok v c = _
  simp

lemma bind (h : Takes texts r a v) (h' : Takes texts (f v) b w) :
    Takes texts (r >>= f) (a ++ b) w := by
  intro c pre rest hc hs
  rw [List.append_assoc] at hc
  rw [bind_of_ok (h hc hs), h' hc.advance (hs.advance _), Cursor.advance_advance,
    List.length_append]

lemma bind_pure (h : Takes texts r a v) (g : α → β) :
    Takes texts (r >>= fun x => Pure.pure (g x)) a (g v) := by
  have := h.bind (f := fun x => Pure.pure (g x)) (pure (g v))
  rwa [List.append_nil] at this

lemma bind_getD {r : Read (Option α)} {o : Option α} (h : Takes texts r a o)
    {f : Option α → Read β} {g : α → β} {d : β} (hsome : ∀ x, f (some x) = Pure.pure (g x))
    (hnone : f none = Pure.pure d) : Takes texts (r >>= f) a ((o.map g).getD d) := by
  have hf : f = fun o => Pure.pure ((o.map g).getD d) := by
    funext o
    cases o with
    | none => exact hnone
    | some x => exact hsome x
  rw [hf]
  exact h.bind_pure _

end Takes

end Read

/-! ## Numbers -/

/-- The number in a group of octets: seven bits in each, least significant first. -/
def groupNumber : Bytes → Nat
  | [] => 0
  | b :: g => b.toNat % 128 + 128 * groupNumber g

/-- The octets are exactly those of one number in front of `rest`: the high bit is set in all but
the last one, or in all of them and nothing is behind them. -/
def IsGroup (rest : Bytes) : Bytes → Prop
  | [] => False
  | b :: g => if b < 0x80 then g = [] else (g = [] ∧ rest = []) ∨ IsGroup rest g

/-- The octets of a number: seven bits in each, least significant first, the high bit set in all but
the last. -/
def encodeNumber (n : Nat) : Bytes :=
  if n < 128 then [UInt8.ofNat n] else UInt8.ofNat (n % 128 + 128) :: encodeNumber (n / 128)

def encodeInt (i : Int32) : Bytes :=
  encodeNumber i.toBitVec.toNat

variable {c : Cursor} {pre rest g : Bytes} {value shift : Nat}

lemma IsGroup.ne_nil (h : IsGroup rest g) : g ≠ [] := by
  rintro rfl
  exact h

lemma encodeNumber_isGroup (n : Nat) (rest : Bytes) :
    IsGroup rest (encodeNumber n) ∧ groupNumber (encodeNumber n) = n := by
  induction n using encodeNumber.induct with
  | case1 n hn =>
    have hb : (UInt8.ofNat n).toNat = n := UInt8.toNat_ofNat_of_lt' (show n < 256 by omega)
    have hlast : UInt8.ofNat n < 0x80 := by
      rw [UInt8.lt_iff_toNat_lt, hb]
      exact hn
    rw [encodeNumber, if_pos hn, IsGroup, if_pos hlast, groupNumber, groupNumber, hb]
    exact ⟨rfl, by omega⟩
  | case2 n hn ih =>
    have hb : (UInt8.ofNat (n % 128 + 128)).toNat = n % 128 + 128 :=
      UInt8.toNat_ofNat_of_lt' (show n % 128 + 128 < 256 by omega)
    have hmore : ¬ UInt8.ofNat (n % 128 + 128) < 0x80 := by
      rw [UInt8.lt_iff_toNat_lt, hb]
      exact Nat.not_lt.mpr (Nat.le_add_left _ _)
    rw [encodeNumber, if_neg hn, IsGroup, if_neg hmore, groupNumber, hb, ih.2]
    exact ⟨.inr ih.1, by omega⟩

lemma encodeNumber_ne_nil (n : Nat) : encodeNumber n ≠ [] :=
  (encodeNumber_isGroup n []).1.ne_nil

lemma or_shiftLeft (h : value < 2 ^ shift) (x : Nat) :
    value ||| x <<< shift = value + x * 2 ^ shift := by
  rw [Nat.or_comm, ← Nat.shiftLeft_add_eq_or_of_lt h, Nat.shiftLeft_eq, Nat.add_comm]

lemma variantFrom_cons {b : UInt8} (hc : c.Between pre (b :: rest)) (hvalue : value < 2 ^ shift) :
    c.variantFrom value shift =
      if b < 0x80 then .ok (value + b.toNat % 128 * 2 ^ shift) (c.advance 1)
      else (c.advance 1).variantFrom (value + b.toNat % 128 * 2 ^ shift) (shift + 7) := by
  have hpos : c.pos < c.limit := by
    rw [hc.limit_eq_add, List.length_cons]
    omega
  rw [Cursor.variantFrom, dif_pos hpos, hc.here_eq]
  dsimp only
  rw [or_shiftLeft hvalue]

lemma variantFrom_nil (hc : c.Between pre []) (value shift : Nat) :
    c.variantFrom value shift = .ok value c := by
  have hpos : ¬ c.pos < c.limit := by
    rw [hc.limit_eq_add, List.length_nil]
    omega
  rw [Cursor.variantFrom, dif_neg hpos]

/-- **The octets of a number are collected**, behind the bits collected before them.

**Proof sketch.** Along the octets: one with its high bit set adds its seven bits at the shift, and
those behind it are collected seven bits higher. -/
lemma variantFrom_group (hg : IsGroup rest g)
    (hvalue : value < 2 ^ shift) (hc : c.Between pre (g ++ rest)) :
    c.variantFrom value shift =
      .ok (value + groupNumber g * 2 ^ shift) (c.advance g.length) := by
  induction g generalizing value shift c pre with
  | nil => exact hg.elim
  | cons b g ih =>
    have hc' : (c.advance 1).Between (pre ++ [b]) (g ++ rest) :=
      Cursor.Between.advance (a := [b]) hc
    have hvalue' : value + b.toNat % 128 * 2 ^ shift < 2 ^ (shift + 7) := by
      have hbits : (b.toNat % 128 + 1) * 2 ^ shift ≤ 128 * 2 ^ shift :=
        Nat.mul_le_mul_right _ (by omega)
      rw [Nat.add_mul] at hbits
      rw [Nat.pow_add]
      omega
    have hsum : value + b.toNat % 128 * 2 ^ shift + groupNumber g * 2 ^ (shift + 7) =
        value + groupNumber (b :: g) * 2 ^ shift := by
      rw [groupNumber, Nat.pow_add]
      ring
    rw [variantFrom_cons hc hvalue, List.length_cons]
    rw [IsGroup] at hg
    split_ifs at hg ⊢ with hb
    · rw [hg, groupNumber, groupNumber]
      rfl
    · obtain ⟨hnil, hrest⟩ | hgroup := hg
      · rw [hnil, hrest] at hc'
        rw [variantFrom_nil hc', hnil, groupNumber, groupNumber]
        rfl
      · rw [ih hgroup hvalue' hc', hsum, Cursor.advance_advance, Nat.add_comm 1]

def numberRead (n : Nat) : Option Nat :=
  if n = 0 then none else some n

lemma Read.variant_group (hg : IsGroup rest g) (hc : c.Between pre (g ++ rest)) :
    Read.variant c = .ok (numberRead (groupNumber g)) (c.advance g.length) := by
  have hend : c.atEnd = false := by
    rw [hc.atEnd_eq, List.isEmpty_eq_false_iff]
    exact List.append_ne_nil_of_left_ne_nil hg.ne_nil _
  rw [variant, hend, variantFrom_group hg (show 0 < 2 ^ 0 by decide) hc]
  simp [numberRead]

lemma Read.variant_nil (hc : c.Between pre []) : Read.variant c = .ok none c := by
  rw [variant, hc.atEnd_eq]
  rfl

/-! ## Signed numbers -/

lemma Read.signed_of_lt {n : Nat} (h : n < 2 ^ 31) : signed n = n := by
  rw [signed, if_neg (by rw [maxInt32]; omega)]

lemma Read.signed_toBitVec (i : Int32) : signed i.toBitVec.toNat = i.toInt := by
  have hlt := i.toBitVec.isLt
  rw [Int32.toInt, BitVec.toInt_eq_toNat_cond, signed, maxInt32]
  split_ifs <;> omega

lemma toBitVec_toNat_eq_zero_iff (i : Int32) : i.toBitVec.toNat = 0 ↔ i = 0 := by
  rw [← Int32.toBitVec_inj, ← BitVec.toNat_inj]
  rfl

namespace Read

variable {texts : Option (List String)}

/-! ## Reading octets and numbers -/

lemma get_bind {α : Type} (f : Cursor → Read α) (c : Cursor) : (get >>= f) c = f c c :=
  rfl

lemma octet_cons {c : Cursor} {pre rest : Bytes} {b : UInt8} (hc : c.Between pre (b :: rest)) :
    octet c = .ok (some b) (c.advance 1) := by
  have hend : c.atEnd = false := by rw [hc.atEnd_eq]; rfl
  rw [octet, get_bind, hend, hc.here_eq]
  rfl

lemma octet_takes (b : UInt8) : Takes texts octet [b] (some b) := by
  intro c pre rest hc _
  exact octet_cons hc

variable {n : Nat}

lemma word_takes (h : n < 2 ^ 32) : Takes texts word (Bytes.ofLittleEndian 4 n) (some n) := by
  intro c pre rest hc _
  have hlimit := hc.limit_eq_add
  have hpos := hc.pos_eq
  rw [List.length_append, Bytes.length_ofLittleEndian] at hlimit
  have hfour : ¬ c.limit < c.pos + 4 := by omega
  have hwindow : Bytes.window (pre ++ (Bytes.ofLittleEndian 4 n ++ rest)) pre.length 4 =
      Bytes.ofLittleEndian 4 n := by
    have := Bytes.window_append pre (Bytes.ofLittleEndian 4 n) rest
    rwa [Bytes.length_ofLittleEndian] at this
  have hvalue : Bytes.littleEndian (Bytes.ofLittleEndian 4 n) = n :=
    Bytes.littleEndian_ofLittleEndian h
  have hinside : ¬ ((c.pos < 0 ∧ 0 < c.pos + 4) ∨ c.pos < 0 ∨
      ((pre ++ (Bytes.ofLittleEndian 4 n ++ rest)).length : Int) < c.pos + 4) := by
    rw [← hc.limit_eq]
    omega
  have hfront : ¬ c.pos < 0 := by omega
  rw [word, get_bind, if_neg hfour, hc.source_eq]
  dsimp only
  rw [if_neg hfront, if_neg hinside, hpos, Int.toNat_natCast, hwindow, hvalue]
  rfl

lemma variant_takes (n : Nat) : Takes texts variant (encodeNumber n) (numberRead n) := by
  intro c pre rest hc _
  obtain ⟨hgroup, hnumber⟩ := encodeNumber_isGroup n rest
  rw [variant_group hgroup hc, hnumber]

lemma int_takes (n : Nat) : Takes texts int (encodeNumber n) ((numberRead n).map signed) :=
  (variant_takes n).bind_pure (Option.map signed)

lemma int_takes_of_lt (hpos : 0 < n) (h : n < 2 ^ 31) :
    Takes texts int (encodeNumber n) (some (n : Int)) := by
  have hn : Takes texts int (encodeNumber n) ((numberRead n).map signed) := int_takes n
  rwa [numberRead, if_neg (Nat.pos_iff_ne_zero.mp hpos), Option.map_some, signed_of_lt h] at hn

lemma intOrZero_takes (n : Nat) : Takes texts intOrZero (encodeNumber n) (signed n) := by
  have hzero : ((numberRead n).map signed).getD 0 = signed n := by
    rw [numberRead]
    split_ifs with hn
    · rw [hn]
      rfl
    · rfl
  rw [← hzero]
  exact (int_takes n).bind_pure (·.getD 0)

lemma intOrZero_takes_of_lt (h : n < 2 ^ 31) : Takes texts intOrZero (encodeNumber n) n := by
  have hn : Takes texts intOrZero _ _ := intOrZero_takes n
  rwa [signed_of_lt h] at hn

end Read

/-! ## Texts -/

def encodeText : Option (List String) → String → Bytes
  | none, s => Bytes.ofString s ++ [0]
  | some texts, s => encodeNumber (texts.idxOf s)

lemma encodeText_ne_nil (texts : Option (List String)) (s : String) : encodeText texts s ≠ [] := by
  cases texts with
  | none => exact List.append_ne_nil_of_right_ne_nil _ (List.cons_ne_nil _ _)
  | some texts => exact encodeNumber_ne_nil _

def TextFits : Option (List String) → String → Prop
  | none, s => 0 ∉ Bytes.ofString s
  | some texts, s => s ∈ texts

instance (texts : Option (List String)) (s : String) : Decidable (TextFits texts s) :=
  match texts with
  | none => inferInstanceAs (Decidable (0 ∉ Bytes.ofString s))
  | some texts => inferInstanceAs (Decidable (s ∈ texts))

def textRead : Option (List String) → String → Option String
  | none, s => if s = "" then none else some s
  | some _, s => some s

lemma textRead_injective (texts : Option (List String)) : Function.Injective (textRead texts) := by
  intro s t h
  cases texts with
  | none =>
    simp only [textRead] at h
    split_ifs at h with hs ht ht
    · exact hs.trans ht.symm
    · exact Option.some.inj h
  | some texts => exact Option.some.inj h

namespace Read

variable {s : String}

lemma findFrom?_zero {c : Cursor} {pre rest : Bytes} (hc : c.Between pre rest) :
    Bytes.findFrom? [0] (pre ++ rest) (Bytes.cutPoint (pre ++ rest).length c.pos) =
      (Bytes.find? [0] rest).map (· + pre.length) := by
  have hpre : pre.length ≤ (pre ++ rest).length := by simp
  rw [hc.pos_eq, Bytes.cutPoint_natCast, Nat.min_eq_left hpre, Bytes.findFrom?, if_pos hpre,
    List.drop_left]

lemma string_of_zero {c : Cursor} {pre a rest : Bytes} (ha : 0 ∉ a)
    (hc : c.Between pre (a ++ 0 :: rest)) (hpooled : c.pooled = false) :
    string c = .ok (if a = [] then none else some (Utf8.decodeSkipping a))
      (c.advance (a.length + 1)) := by
  have hend : c.atEnd = false := by simp [hc.atEnd_eq]
  have hempty : ((a.length + pre.length : Nat) : Int) = c.pos ↔ a = [] := by
    rw [hc.pos_eq, ← List.length_eq_zero_iff]
    omega
  rw [string, get_bind, hpooled, if_neg Bool.false_ne_true, get_bind, hend, if_neg Bool.false_ne_true,
    hc.source_eq]
  dsimp only
  rw [findFrom?_zero hc, Bytes.find?_zero ha, Option.map_some]
  dsimp only
  by_cases hnil : a = []
  · rw [if_pos (hempty.mpr hnil), if_pos hnil, hnil]
    rfl
  · have hmoved : { c with pos := ((a.length + pre.length : Nat) : Int) + 1 } =
        c.advance (a.length + 1) := by
      simp [Cursor.advance, hc.pos_eq, Int.add_comm, Int.add_assoc]
    have hslice := Bytes.slice_append pre a (0 :: rest)
    rw [List.length_append, Nat.add_comm, ← hc.pos_eq] at hslice
    rw [if_neg (mt hempty.mp hnil), if_neg hnil, ← hc.source_eq, hmoved, hslice]
    rfl

lemma string_takes_inline (hs : 0 ∉ Bytes.ofString s) :
    Takes none string (Bytes.ofString s ++ [0]) (textRead none s) := by
  intro c pre rest hc hserves
  rw [List.append_assoc, List.singleton_append] at hc
  simp [string_of_zero hs hc hserves, textRead, Bytes.ofString_eq_nil_iff, Utf8.decodeSkipping_ofString]

lemma string_takes_pooled {texts : List String} (hs : s ∈ texts) :
    Takes (some texts) string (encodeNumber (texts.idxOf s)) (some s) := by
  intro c pre rest hc hserves
  obtain ⟨hpooled, v, hview, hfound⟩ := id hserves
  have hindex : texts[texts.idxOf s]? = some s := by
    rw [List.getElem?_eq_getElem (List.idxOf_lt_length_of_mem hs), List.getElem_idxOf]
  obtain ⟨hlt, htext⟩ := hfound _ s hindex
  have hnumber : intOrZero c = .ok (signed (texts.idxOf s)) _ :=
    intOrZero_takes (texts.idxOf s) hc hserves
  rw [string, get_bind, if_pos hpooled, bind_of_ok hnumber, get_bind, Cursor.view_advance, hview,
    signed_of_lt hlt]
  dsimp only
  rw [htext]
  rfl

lemma string_takes {texts : Option (List String)} (hs : TextFits texts s) :
    Takes texts string (encodeText texts s) (textRead texts s) := by
  cases texts with
  | none => exact string_takes_inline hs
  | some texts => exact string_takes_pooled hs

end Read

namespace Read

variable {texts : Option (List String)}

/-! ## Single cells and keys -/

lemma mark_takes (b : Bool) :
    Takes texts mark [if b then 1 else 0] (if b then .yes else .absent) := by
  have hoctet (x : UInt8) : Takes texts octet [x] (some x) := octet_takes x
  cases b with
  | false => exact (hoctet 0).bind (Takes.pure Value.absent)
  | true => exact (hoctet 1).bind (Takes.pure Value.yes)

lemma textCell_takes {s : String} (hs : TextFits texts s) :
    Takes texts textCell (encodeText texts s) (((textRead texts s).map Value.text).getD .absent) :=
  (string_takes hs).bind_getD (fun _ => rfl) rfl

lemma textKey_takes {s : String} (hs : TextFits texts s) :
    Takes texts textKey (encodeText texts s) (((textRead texts s).map Key.text).getD .absent) :=
  (string_takes hs).bind_getD (fun _ => rfl) rfl

lemma intCell_takes (i : Int32) :
    Takes texts intCell (encodeInt i) (if i = 0 then .absent else .int i.toInt) := by
  have h : Takes texts intCell (encodeInt i) _ :=
    (int_takes i.toBitVec.toNat).bind_getD (fun _ => rfl) rfl
  simp only [numberRead, toBitVec_toNat_eq_zero_iff] at h
  split_ifs at h ⊢
  · exact h
  · rwa [Option.map_some, signed_toBitVec] at h

lemma intOrZero_takes_int (i : Int32) : Takes texts intOrZero (encodeInt i) i.toInt := by
  have h : Takes texts intOrZero _ _ := intOrZero_takes i.toBitVec.toNat
  rwa [signed_toBitVec] at h

end Read

end Salvage.Table
