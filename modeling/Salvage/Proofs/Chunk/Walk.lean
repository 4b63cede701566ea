import Mathlib.Algebra.Group.Nat.Defs
import Salvage.Chunk.Decrypt
import Salvage.Chunk.Prototype
import Salvage.Proofs.Chunk.Varint

/-!
# Walks over encoded sections

A walk through a buffer is specified by what it does to the octets at its position: it goes behind
them and leaves other octets in their place, whatever stands before and behind. Such specifications
compose like the encoded forms do, so that each section of a function is treated on its own.
-/

namespace Salvage.Chunk

/-! ## Lengths that deciphering keeps -/

@[simp] lemma length_apply (r : Rc4) (b : Bytes) : (r.apply b).length = b.length := by
  induction b generalizing r with
  | nil => rfl
  | cons x b ih => simp [Rc4.apply, ih]

@[simp] lemma length_decipherText (t : Bytes) : (decipherText t).length = t.length := by
  unfold decipherText
  split <;> simp

lemma textLength_ofNat {n : Nat} (h : n + 1 < 2 ^ 32) :
    Walk.textLength (UInt32.ofNat (n + 1)) = n := by
  rw [Walk.textLength, UInt32.toNat_ofNat']
  omega

/-! ## Lengths of encoded forms -/

lemma length_encodeText_pos (t : Option Bytes) : 0 < (encodeText t).length := by
  cases t with
  | none => exact Varint.length_encode_pos 0
  | some t =>
    have := Varint.length_encode_pos (t.length + 1)
    simp only [encodeText, List.length_append]
    omega

lemma length_encode_constant_pos (c : Constant) : 0 < c.encode.length := by
  cases c <;> simp [Constant.encode]

lemma length_encode_local_pos (v : LocalVariable) : 0 < v.encode.length := by
  have := length_encodeText_pos v.name
  simp only [LocalVariable.encode, List.length_append]
  omega

lemma encodeList_map {α β : Type} (f : β → Bytes) (d : α → β) (xs : List α) :
    encodeList f (xs.map d) = encodeList (fun x => f (d x)) xs := by
  simp [encodeList, List.flatMap_map]

/-- If 32 bits hold the length of an encoded list, they hold the number of its items and the length
of each of them. -/
lemma encodeList_bounds {α : Type} {f : α → Bytes} {xs : List α} (hf : ∀ x, 0 < (f x).length)
    (hxs : (encodeList f xs).length < 2 ^ 32) :
    (UInt32.ofNat xs.length).toNat = xs.length ∧ ∀ x ∈ xs, (f x).length < 2 ^ 32 := by
  have hsum : (xs.flatMap f).length < 2 ^ 32 := by
    simp only [encodeList, List.length_append] at hxs
    omega
  have hcount : ∀ ys : List α, ys.length ≤ (ys.flatMap f).length := by
    intro ys
    induction ys with
    | nil => simp
    | cons y ys ih =>
      have := hf y
      simp only [List.flatMap_cons, List.length_append, List.length_cons]
      omega
  refine ⟨?_, fun x hx => ?_⟩
  · have := hcount xs
    rw [UInt32.toNat_ofNat']
    omega
  · obtain ⟨ys, zs, rfl⟩ := List.append_of_mem hx
    simp only [List.flatMap_append, List.flatMap_cons, List.length_append] at hsum
    omega

/-! ## Positions -/

structure Session.Between (s : Session) (pre rest : Bytes) : Prop where
  data_eq : s.data = pre ++ rest
  offset_eq : s.offset = pre.length

namespace Walk

variable {β : Type} {s : Session}

lemma run_bind_of {α : Type} {w : Walk α} {f : α → Walk β} {s' : Session} {r : α}
    (h : w.run s = (r, s')) : (w >>= f).run s = (f r).run s' := by
  rw [StateT.run_bind, h]
  rfl

lemma get_bind_run (f : Session → Walk β) (s : Session) :
    (get >>= f : Walk β).run s = (f s).run s :=
  rfl

/-- Wherever the step `w` finds the octets `a` at its position, it gives `r`, leaves as many octets
`b` in their place and goes behind them. -/
structure Turns {α : Type} (w : Walk α) (a b : Bytes) (r : α) : Prop where
  length_eq : b.length = a.length
  run_eq : ∀ ⦃s : Session⦄ ⦃pre rest : Bytes⦄, s.Between pre (a ++ rest) →
    ∃ s', w.run s = (r, s') ∧ s'.Between (pre ++ b) rest

namespace Turns

variable {α β : Type} {w : Walk α} {f : α → Walk β} {a b a' b' : Bytes} {r : α} {r' : β}

lemma pure : Turns (Pure.pure r : Walk α) [] [] r := by
  refine ⟨rfl, fun s pre rest h => ?_⟩
  exact ⟨s, rfl, by simpa using h⟩

lemma bind (h : Turns w a b r) (h' : Turns (f r) a' b' r') :
    Turns (w >>= f) (a ++ a') (b ++ b') r' := by
  refine ⟨by simp [h.length_eq, h'.length_eq], fun s pre rest hs => ?_⟩
  rw [List.append_assoc] at hs
  obtain ⟨s₁, hrun, h₁⟩ := h.run_eq hs
  obtain ⟨s₂, hrun', h₂⟩ := h'.run_eq h₁
  exact ⟨s₂, (run_bind_of hrun).trans hrun', by rwa [← List.append_assoc]⟩

lemma bind_last (h : Turns w a b r) (h' : Turns (f r) [] [] r') : Turns (w >>= f) a b r' := by
  simpa using h.bind h'

lemma hasRoom_bind {n : Nat} {f : Bool → Walk β} (hn : n ≤ a.length)
    (h : Turns (f true) a b r') : Turns (hasRoom n >>= f) a b r' := by
  refine ⟨h.length_eq, fun s pre rest hs => ?_⟩
  obtain ⟨s', hrun, hs'⟩ := h.run_eq hs
  have hle : s.offset + n ≤ s.data.length := by
    rw [hs.data_eq, hs.offset_eq]
    simp only [List.length_append]
    omega
  have hroom : (hasRoom n).run s = (decide (s.offset + n ≤ s.data.length), s) := rfl
  rw [decide_eq_true hle] at hroom
  exact ⟨s', (run_bind_of hroom).trans hrun, hs'⟩

lemma get_bind {f : Session → Walk β} (h : ∀ s, Turns (f s) a b r') : Turns (get >>= f) a b r' :=
  ⟨(h {}).length_eq, fun s _ _ hs => (h s).run_eq hs⟩

end Turns

/-! ## Single steps -/

lemma printBytes_turns (shown : Bytes) : Turns (printBytes shown) [] [] () := by
  refine ⟨rfl, fun s pre rest hs => ?_⟩
  exact ⟨_, rfl, by simpa using hs.data_eq, by simpa using hs.offset_eq⟩

lemma number_of_read {v : UInt32} {n : Nat} (h : Varint.read (s.data.drop s.offset) = ⟨v, some n⟩) :
    number.run s = (some v, { s with offset := s.offset + n }) := by
  rw [number, get_bind_run]
  simp only [h]
  rfl

lemma number_of_size_none (h : (Varint.read (s.data.drop s.offset)).size = none) :
    number.run s = (none, s) := by
  rw [number, get_bind_run]
  simp only [h]
  rfl

lemma number_of_encode {n : Nat} {rest : Bytes}
    (h : s.data.drop s.offset = Varint.encode n ++ rest) :
    number.run s =
      (some (UInt32.ofNat n), { s with offset := s.offset + (Varint.encode n).length }) :=
  number_of_read (by rw [h, Varint.read_encode])

/-- **A number is read where it was written**: with room for it, it is written whole, and reading it
from the same position gives it back and goes to the same end. So does reading the encoded form of a
number in front of any octets. Writing changes nothing outside the octets that it reports, whether
there is room or not. Where no octet from the position on has its high bit set, nothing is read and
the position stays. -/
theorem number_reads_written (v : UInt32) (s : Session) :
    (s.offset + (Varint.encode v.toNat).length ≤ s.data.length →
      ∃ data stop, Varint.write s.data s.offset v = ⟨data, stop, true⟩ ∧
        number.run { s with data } = (some v, { s with data, offset := stop })) ∧
    (∀ rest, s.data.drop s.offset = Varint.encode v.toNat ++ rest → number.run s =
      (some v, { s with offset := s.offset + (Varint.encode v.toNat).length })) ∧
    (∀ data stop complete, Varint.write s.data s.offset v = ⟨data, stop, complete⟩ →
      data.length = s.data.length ∧ s.offset ≤ stop ∧
        ∀ i, i < s.offset ∨ stop ≤ i → data[i]? = s.data[i]?) ∧
    ((∀ x ∈ s.data.drop s.offset, x < 0x80) → number.run s = (none, s)) := by
  refine ⟨fun hroom => ?_, fun rest hrest => ?_, fun data stop complete hwrite => ?_, fun hopen => ?_⟩
  · refine ⟨_, _, Varint.write_eq hroom, ?_⟩
    rw [number_of_encode (Varint.drop_overwrite hroom), UInt32.ofNat_toNat]
  · rw [number_of_encode hrest, UInt32.ofNat_toNat]
  · obtain ⟨rfl, rfl, -⟩ := Varint.Writing.mk.inj hwrite
    refine ⟨Varint.length_overwrite _ _ _, Nat.le_add_right _ _, fun i hi => ?_⟩
    exact Varint.getElem?_write s.data s.offset v hi
  · exact number_of_size_none (Varint.size_readFrom_of_open 0 0 hopen)

/-- The greatest number at the end of a buffer of seven octets, and octets without a number. -/
theorem number_reads_written_greatest :
    (2 + (Varint.encode (0xFFFFFFFF : UInt32).toNat).length ≤ (List.replicate 7 0x11 : Bytes).length ∧
      Varint.write (List.replicate 7 0x11) 2 0xFFFFFFFF =
        ⟨[0x11, 0x11, 0x0F, 0x7F, 0x7F, 0x7F, 0xFF], 7, true⟩ ∧
      number.run { data := [0x11, 0x11, 0x0F, 0x7F, 0x7F, 0x7F, 0xFF], offset := 2 } =
        (some 0xFFFFFFFF, { data := [0x11, 0x11, 0x0F, 0x7F, 0x7F, 0x7F, 0xFF], offset := 7 })) ∧
    (∀ x ∈ (List.replicate 7 0x11 : Bytes).drop 2, x < 0x80) ∧
    number.run { data := List.replicate 7 0x11, offset := 2 } =
      (none, { data := List.replicate 7 0x11, offset := 2 }) := by
  have hwrite : Varint.write (List.replicate 7 0x11) 2 0xFFFFFFFF =
      ⟨[0x11, 0x11, 0x0F, 0x7F, 0x7F, 0x7F, 0xFF], 7, true⟩ := by
    with_unfolding_all decide
  have hroom : 2 + (Varint.encode (0xFFFFFFFF : UInt32).toNat).length ≤
      (List.replicate 7 0x11 : Bytes).length := by
    with_unfolding_all decide
  have hopen : ∀ x ∈ (List.replicate 7 0x11 : Bytes).drop 2, x < 0x80 := by simp
  have h := number_reads_written 0xFFFFFFFF { data := List.replicate 7 0x11, offset := 2 }
  obtain ⟨data, stop, hsame, hread⟩ := h.1 hroom
  obtain ⟨rfl, rfl, -⟩ := Varint.Writing.mk.inj (hwrite.symm.trans hsame)
  exact ⟨⟨hroom, hwrite, hread⟩, hopen, h.2.2.2 hopen⟩

lemma number_turns_of {a : Bytes} {v : UInt32}
    (h : ∀ rest, Varint.read (a ++ rest) = ⟨v, some a.length⟩) : Turns number a a (some v) := by
  refine ⟨rfl, fun s pre rest hs => ?_⟩
  have hread : Varint.read (s.data.drop s.offset) = ⟨v, some a.length⟩ := by
    rw [hs.data_eq, hs.offset_eq, List.drop_left, h]
  exact ⟨_, number_of_read hread, by simp [hs.data_eq], by simp [hs.offset_eq]⟩

lemma number_turns (n : Nat) :
    Turns number (Varint.encode n) (Varint.encode n) (some (UInt32.ofNat n)) :=
  number_turns_of fun rest => Varint.read_encode n rest

lemma skip_turns (a : Bytes) : Turns (skip a.length) a a () := by
  refine ⟨rfl, fun s pre rest hs => ?_⟩
  exact ⟨_, rfl, by simp [hs.data_eq], by simp [hs.offset_eq]⟩

lemma Turns.skip_octet_bind {x : UInt8} {a b : Bytes} {r : β} {f : Unit → Walk β}
    (h : Turns (f ()) a b r) : Turns (skip 1 >>= f) (x :: a) (x :: b) r :=
  (skip_turns [x]).bind h

lemma text_turns (t : Bytes) : Turns (text true t.length) t (decipherText t) () := by
  refine ⟨length_decipherText t, fun s pre rest hs => ?_⟩
  have hwindow : Bytes.window s.data s.offset t.length = t := by
    rw [hs.data_eq, hs.offset_eq, Bytes.window, List.drop_left, List.take_left]
  have hdata : Varint.overwrite s.data s.offset (decipherText t) =
      pre ++ (decipherText t ++ rest) := by
    rw [hs.data_eq, hs.offset_eq, Varint.overwrite_append _ _ (length_decipherText t)]
  have hrun : (text true t.length).run s =
      ((), { s with
        data := Varint.overwrite s.data s.offset
          (decipherText (Bytes.window s.data s.offset t.length))
        offset := s.offset + t.length }) := rfl
  rw [hwindow, hdata] at hrun
  exact ⟨_, hrun, by simp, by simp [hs.offset_eq]⟩

lemma length_of_text {t : Bytes} (ht : (encodeText (some t)).length < 2 ^ 32) :
    t.length + 1 < 2 ^ 32 ∧ UInt32.ofNat (t.length + 1) ≠ 0 := by
  have hlen : t.length + 1 < 2 ^ 32 := by
    have hpos := Varint.length_encode_pos (t.length + 1)
    simp only [encodeText, List.length_append] at ht
    omega
  refine ⟨hlen, fun h => ?_⟩
  have := congrArg UInt32.toNat h
  rw [UInt32.toNat_ofNat', UInt32.toNat_zero] at this
  omega

lemma name_turns (t : Option Bytes) (ht : (encodeText t).length < 2 ^ 32) :
    Turns (name true) (encodeText t) (encodeText (t.map decipherText)) true := by
  cases t with
  | none => exact (number_turns 0).bind_last Turns.pure
  | some t =>
    obtain ⟨hlen, hne⟩ := length_of_text ht
    simp only [encodeText, Option.map_some, length_decipherText]
    refine (number_turns _).bind ?_
    simp only [hne, ↓reduceIte, textLength_ofNat hlen]
    exact Turns.hasRoom_bind (Nat.le_refl _) ((text_turns t).bind_last Turns.pure)

lemma source_turns_of (depth : Int) {a t : Bytes} {v : UInt32}
    (ha : ∀ rest, Varint.read (a ++ rest) = ⟨v, some a.length⟩) (ht : t.length = textLength v) :
    Turns (source true depth) (a ++ t) (a ++ decipherText t) true := by
  refine (number_turns_of ha).bind ?_
  by_cases hzero : v = 0
  · obtain rfl : t = [] := by
      apply List.eq_nil_of_length_eq_zero
      rw [ht, hzero]
      rfl
    simp only [hzero, ↓reduceIte]
    exact Turns.pure
  · simp only [hzero, ↓reduceIte, ← ht]
    refine Turns.hasRoom_bind (Nat.le_refl _) (Turns.get_bind fun s => ?_)
    refine (text_turns t).bind_last (Turns.get_bind fun s' => ?_)
    exact (printBytes_turns _).bind_last Turns.pure

lemma source_turns (depth : Int) (t : Option Bytes) (ht : (encodeText t).length < 2 ^ 32) :
    Turns (source true depth) (encodeText t) (encodeText (t.map decipherText)) true := by
  cases t with
  | none => exact (number_turns 0).bind_last Turns.pure
  | some t =>
    simp only [encodeText, Option.map_some, length_decipherText]
    exact source_turns_of depth (Varint.read_encode _) (textLength_ofNat (length_of_text ht).1).symm

/-! ## Constants -/

lemma Turns.octet_bind {x : UInt8} {a b : Bytes} {r : β} {stop : Walk β}
    {f : UInt8 → Walk β} (h : Turns (f x) (x :: a) b r) :
    Turns (do
      let s ← get
      match s.data[s.offset]? with
      | none => stop
      | some tag => f tag) (x :: a) b r := by
  refine ⟨h.length_eq, fun s pre rest hs => ?_⟩
  obtain ⟨s', hrun, hs'⟩ := h.run_eq hs
  refine ⟨s', ?_, hs'⟩
  have hx : s.data[s.offset]? = some x := by
    rw [hs.data_eq, hs.offset_eq]
    simp
  simp only [StateT.run_bind, StateT.run_get, pure_bind, hx]
  exact hrun

end Walk

def Constant.decipher : Constant → Constant
  | .text s => .text (decipherText s)
  | c => c

namespace Walk

lemma constantsFrom_plain (depth : Int) {n i : Nat} {tag : UInt8} (body : Bytes) {a b : Bytes}
    (htag : constantSize? tag = some body.length)
    (h : Turns (constantsFrom true depth n (i + 1)) a b ()) :
    Turns (constantsFrom true depth (n + 1) i) (tag :: body ++ a) (tag :: body ++ b) () := by
  refine Turns.octet_bind ?_
  refine Turns.skip_octet_bind ?_
  simp only [htag]
  refine Turns.hasRoom_bind (by simp) ?_
  exact (skip_turns body).bind h

lemma constantsFrom_text (depth : Int) {n i : Nat} {tag : UInt8} {t a b : Bytes}
    (hplain : constantSize? tag = none) (htag : isTextTag tag = true)
    (ht : t.length + 1 < 2 ^ 32)
    (h : Turns (constantsFrom true depth n (i + 1)) a b ()) :
    Turns (constantsFrom true depth (n + 1) i) (tag :: encodeText (some t) ++ a)
      (tag :: encodeText (some (decipherText t)) ++ b) () := by
  simp only [encodeText, length_decipherText, List.cons_append, List.append_assoc]
  refine Turns.octet_bind ?_
  refine Turns.skip_octet_bind ?_
  simp only [hplain, htag, ↓reduceIte]
  refine (number_turns _).bind ?_
  simp only [textLength_ofNat ht]
  refine Turns.hasRoom_bind (by simp) ?_
  exact (text_turns t).bind h

lemma constantsFrom_turns (depth : Int) (cs : List Constant)
    (hcs : ∀ c ∈ cs, c.encode.length < 2 ^ 32) (i : Nat) :
    Turns (constantsFrom true depth cs.length i) (cs.flatMap Constant.encode)
      ((cs.map Constant.decipher).flatMap Constant.encode) () := by
  induction cs generalizing i with
  | nil => exact Turns.pure
  | cons c cs ih =>
    have hrest := ih (fun c hc => hcs c (List.mem_cons_of_mem _ hc)) (i + 1)
    simp only [List.flatMap_cons, List.map_cons, List.length_cons]
    cases c with
    | nil => exact constantsFrom_plain depth [] rfl hrest
    | no => exact constantsFrom_plain depth [] rfl hrest
    | yes => exact constantsFrom_plain depth [] rfl hrest
    | float bits => exact constantsFrom_plain depth _ (by simp; rfl) hrest
    | integer bits => exact constantsFrom_plain depth _ (by simp; rfl) hrest
    | text t =>
      have ht : t.length + 1 < 2 ^ 32 := by
        have := hcs (.text t) (by simp)
        simp only [Constant.encode, encodeText, List.length_cons, List.length_append] at this
        omega
      simp only [Constant.decipher, Constant.encode, length_decipherText]
      split
      · exact constantsFrom_text depth rfl rfl ht hrest
      · exact constantsFrom_text depth rfl rfl ht hrest

/-- **The constants of a function**: texts are deciphered and everything else stays. -/
lemma constants_turns (depth : Int) (cs : List Constant)
    (hcs : (encodeList Constant.encode cs).length < 2 ^ 32) :
    Turns (constants true depth) (encodeList Constant.encode cs)
      (encodeList Constant.encode (cs.map Constant.decipher)) () := by
  obtain ⟨hcount, hone⟩ := encodeList_bounds length_encode_constant_pos hcs
  simp only [encodeList, List.length_map]
  refine (number_turns _).bind ?_
  simp only [hcount]
  exact constantsFrom_turns depth cs hone 0

/-! ## Captured variables -/

lemma recordsFrom_turns (us : List Upvalue) :
    Turns (recordsFrom us.length) (us.flatMap Upvalue.encode) (us.flatMap Upvalue.encode) () := by
  induction us with
  | nil => exact Turns.pure
  | cons u us ih =>
    refine Turns.hasRoom_bind (by simp [Upvalue.encode]) ?_
    exact (skip_turns u.encode).bind ih

lemma upvalues_turns (us : List Upvalue) (hus : (encodeList Upvalue.encode us).length < 2 ^ 32) :
    Turns upvalues (encodeList Upvalue.encode us) (encodeList Upvalue.encode us) () := by
  obtain ⟨hcount, -⟩ := encodeList_bounds (fun u => by simp [Upvalue.encode]) hus
  refine (number_turns _).bind ?_
  simp only [hcount]
  exact recordsFrom_turns us

/-! ## Debug information -/

lemma repeatWhile_turns {α : Type} {step : Walk Bool} {f g : α → Bytes} (xs : List α)
    (h : ∀ x ∈ xs, Turns step (f x) (g x) true) :
    Turns (repeatWhile step xs.length) (xs.flatMap f) (xs.flatMap g) true := by
  induction xs with
  | nil => exact Turns.pure
  | cons x xs ih =>
    refine (h x (by simp)).bind ?_
    exact ih fun y hy => h y (List.mem_cons_of_mem _ hy)

lemma counted_turns {α : Type} {step : Walk Bool} {f g : α → Bytes} (xs : List α)
    (hf : ∀ x, 0 < (f x).length) (hxs : (encodeList f xs).length < 2 ^ 32)
    (h : ∀ x ∈ xs, (f x).length < 2 ^ 32 → Turns step (f x) (g x) true) :
    Turns (counted step) (encodeList f xs) (encodeList g xs) true := by
  obtain ⟨hcount, hone⟩ := encodeList_bounds hf hxs
  refine (number_turns _).bind ?_
  simp only [hcount]
  exact repeatWhile_turns xs fun x hx => h x hx (hone x hx)

lemma pair_turns (m n : Nat) :
    Turns pair (Varint.encode m ++ Varint.encode n) (Varint.encode m ++ Varint.encode n) true :=
  (number_turns m).bind ((number_turns n).bind_last Turns.pure)

lemma lineInfo_turns (depth : Int) (lines : Bytes)
    (hlines : (encodeList (fun b => [b]) lines).length < 2 ^ 32) :
    Turns (lineInfo depth) (encodeList (fun b => [b]) lines) (encodeList (fun b => [b]) lines)
      true := by
  obtain ⟨hcount, -⟩ := encodeList_bounds (fun b => by simp) hlines
  have hflat : lines.flatMap (fun b => [b]) = lines := by simp
  simp only [encodeList, hflat]
  refine (number_turns _).bind ?_
  simp only [hcount]
  refine Turns.hasRoom_bind (Nat.le_refl _) ?_
  exact (skip_turns lines).bind_last Turns.pure

end Walk

def LocalVariable.decipher (v : LocalVariable) : LocalVariable :=
  { v with name := v.name.map decipherText }

def DebugInfo.decipher (d : DebugInfo) : DebugInfo :=
  { d with
    locals := d.locals.map LocalVariable.decipher
    upvalueNames := d.upvalueNames.map fun t => t.map decipherText }

namespace Walk

lemma localVariable_turns (v : LocalVariable) (hv : v.encode.length < 2 ^ 32) :
    Turns (localVariable true) v.encode v.decipher.encode true := by
  have hname : (encodeText v.name).length < 2 ^ 32 := by
    simp only [LocalVariable.encode, List.length_append] at hv
    omega
  simp only [LocalVariable.encode, LocalVariable.decipher, List.append_assoc]
  refine (name_turns v.name hname).bind ?_
  exact pair_turns v.first v.last

/-- **The debug information of a function**: names are deciphered and everything else stays. -/
lemma debugInfo_turns (depth : Int) (d : DebugInfo) (hd : d.encode.length < 2 ^ 32) :
    Turns (debugInfo true depth) d.encode d.decipher.encode () := by
  simp only [DebugInfo.encode, List.length_append] at hd
  simp only [DebugInfo.encode, DebugInfo.decipher, List.append_assoc]
  refine (lineInfo_turns depth d.lines (by omega)).bind ?_
  refine (counted_turns d.absoluteLines (fun x => ?_) (by omega) fun x _ _ => ?_).bind ?_
  · have := Varint.length_encode_pos x.1
    simp only [List.length_append]
    omega
  · exact pair_turns x.1 x.2
  rw [encodeList_map, encodeList_map]
  refine (counted_turns d.locals length_encode_local_pos (by omega) fun v _ hv => ?_).bind ?_
  · exact localVariable_turns v hv
  · refine (counted_turns d.upvalueNames length_encodeText_pos (by omega)
      fun t _ ht => ?_).bind_last Turns.pure
    exact name_turns t ht

/-! ## Functions step by step -/

section Steps

variable {depth : Int} {line : UInt32} {s s' : Session}

lemma code_run {offset count : Nat} {constants : Int} (hcount : count ≠ 0)
    (hdecipher : (decipherWith offset count line depth).run s = (true, s')) :
    (code offset count line constants depth).run s = (repairAt offset count constants).run s' := by
  rw [code, if_neg hcount, run_bind_of hdecipher, if_pos rfl]

/-- A code section that is not empty: its code is deciphered and repaired, the stack size is fitted,
and the position moves behind it. -/
lemma codeSection_run {position : Nat} {n : UInt32} {s₁ s₂ s₃ : Session}
    (hnumber : number.run s = (some n, s₁)) (hn : n.toNat ≠ 0)
    (hcode : (code s₁.offset n.toNat line
      (signed (Varint.read (s₁.data.drop (s₁.offset + 4 * n.toNat))).value) depth).run s₁ =
      ((), s₂))
    (hstack : (fitStack position s₁.offset n.toNat).run s₂ = ((), s₃)) :
    (codeSection true depth line position).run s =
      (true, { s₃ with offset := s₃.offset + 4 * n.toNat }) := by
  have hflag : (true && n.toNat != 0) = true := by simpa using hn
  rw [codeSection, run_bind_of hnumber]
  rw [run_bind_of (rfl : (get : Walk Session).run s₁ = (s₁, s₁)), if_pos hflag, run_bind_of hcode,
    run_bind_of hstack]
  rfl

lemma functionWith_run {child : Walk Unit} {last : UInt32} {s₁ s₂ s₃ s₄ : Session}
    (hsource : (source true depth).run s = (true, s₁)) (hline : number.run s₁ = (some line, s₂))
    (hlast : number.run s₂ = (some last, s₃)) (hroom : s₃.offset + 3 ≤ s₃.data.length)
    (hcode : (codeSection true depth line (s₃.offset + 2)).run
      { s₃ with offset := s₃.offset + 3 } = (true, s₄)) :
    (functionWith true depth child).run s = (sections true depth child).run s₄ := by
  have hroom' : (hasRoom 3).run s₃ = (true, s₃) := by
    rw [← decide_eq_true hroom]
    rfl
  rw [functionWith, run_bind_of hsource, if_pos rfl, run_bind_of hline]
  rw [run_bind_of hlast]
  rw [run_bind_of hroom', if_pos rfl, run_bind_of (rfl : (get : Walk Session).run s₃ = (s₃, s₃)),
    run_bind_of (rfl : (skip 3).run s₃ = ((), { s₃ with offset := s₃.offset + 3 })),
    run_bind_of hcode, if_pos rfl]

end Steps

/-! ## Code under a seed

A seed is searched for only while none is known. -/

section Code

variable {offset count : Nat} {line : UInt32} {depth : Int} {s s' : Session} {seed : UInt16}

lemma decipherWith_known (hs : s.seed = some seed) :
    (decipherWith offset count line depth).run s = (true, { s with
      data := Varint.overwrite s.data offset
        (decipherCode line seed (Bytes.window s.data offset (4 * count))) }) := by
  cases s
  cases hs
  rfl

lemma code_seed (hs : s.seed = some seed) (constants : Int) :
    ((code offset count line constants depth).run s).2.seed = some seed := by
  unfold code
  split
  · exact hs
  · rw [run_bind_of (decipherWith_known hs)]
    exact hs

lemma searchSeed_found (hcount : count ≠ 0)
    (hfound : findSeed line (Bytes.window s.data offset (4 * count)) = some seed) :
    (searchSeed offset count line).run s = (some seed, { s with
      data := Varint.overwrite s.data offset
        (decipherCode line seed (Bytes.window s.data offset (4 * count))) }) := by
  rw [searchSeed, get_bind_run]
  rw [if_neg hcount, hfound]
  rfl

lemma decipherWith_found (hs : s.seed = none) (hcount : count ≠ 0) (hmark : seed ≠ 0xFFFF)
    (hfound : findSeed line (Bytes.window s.data offset (4 * count)) = some seed) :
    (decipherWith offset count line depth).run s = (true, { s with
      data := Varint.overwrite s.data offset
        (decipherCode line seed (Bytes.window s.data offset (4 * count)))
      seed := some seed }) := by
  have hsearch := searchSeed_found hcount hfound
  have hlearn (s : Session) : (learn seed).run s = ((), { s with seed := some seed }) := by
    change ((), { s with seed := if seed = 0xFFFF then none else some seed }) = _
    rw [if_neg hmark]
  cases s
  cases hs
  rw [decipherWith, get_bind_run]
  rw [run_bind_of hsearch]
  rw [run_bind_of (hlearn _)]
  rfl

end Code

end Walk

end Salvage.Chunk
