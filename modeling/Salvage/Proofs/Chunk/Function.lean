import Mathlib.Data.List.Forall2
import Salvage.Proofs.Bytes
import Salvage.Proofs.Chunk.Repair
import Salvage.Proofs.Chunk.Walk
import Salvage.Proofs.Cipher.Rc4

/-!
# Deciphering a tree of functions

A walk over the encoded form of a function, with everything nested in it, ends exactly behind it and
leaves the encoded form of a function that differs from the first only in its texts, which are
deciphered, in its code words and in its stack size. Everything before and behind stays.
-/

namespace Salvage.Chunk

open Prototype

/-! ## Words -/

@[simp] lemma length_ofWords (ws : List UInt32) : (ofWords ws).length = 4 * ws.length := by
  induction ws with
  | nil => rfl
  | cons w ws ih =>
    simp only [ofWords, List.flatMap_cons, List.length_append, List.length_cons] at ih ⊢
    rw [ih, ofWord, Bytes.length_ofLittleEndian]
    omega

lemma ofWords_words {n : Nat} {b : Bytes} (hb : b.length = 4 * n) : ofWords (words b) = b := by
  induction n generalizing b with
  | zero =>
    have hnil : b = [] := List.eq_nil_of_length_eq_zero (by omega)
    simp [hnil, words, ofWords]
  | succ n ih =>
    obtain ⟨x, y, z, w, rest, rfl⟩ : ∃ x y z w rest, b = x :: y :: z :: w :: rest := by
      match b, hb with
      | x :: y :: z :: w :: rest, _ => exact ⟨x, y, z, w, rest, rfl⟩
    have hrest : rest.length = 4 * n := by
      simp only [List.length_cons] at hb
      omega
    have hlt : Bytes.littleEndian [x, y, z, w] < 2 ^ 32 :=
      lt_of_lt_of_eq (Bytes.littleEndian_lt _) (by simp)
    have hword : ofWord (UInt32.ofNat (Bytes.littleEndian [x, y, z, w])) = [x, y, z, w] := by
      rw [ofWord, UInt32.toNat_ofNat', Nat.mod_eq_of_lt hlt]
      exact Bytes.ofLittleEndian_littleEndian [x, y, z, w]
    have htail : (words rest).flatMap ofWord = rest := ih hrest
    rw [words, ofWords, List.flatMap_cons, hword, htail]
    rfl

lemma length_words {n : Nat} {b : Bytes} (hb : b.length = 4 * n) : (words b).length = n := by
  have := length_ofWords (words b)
  rw [ofWords_words hb] at this
  omega

lemma encodeList_ofWord (ws : List UInt32) :
    encodeList ofWord ws = Varint.encode ws.length ++ ofWords ws :=
  rfl

lemma ofWords_cons (w : UInt32) (ws : List UInt32) : ofWords (w :: ws) = ofWord w ++ ofWords ws :=
  List.flatMap_cons

lemma words_ofWord_append (w : UInt32) (b : Bytes) : words (ofWord w ++ b) = w :: words b := by
  have hword : Bytes.littleEndian (ofWord w) = w.toNat :=
    Bytes.littleEndian_ofLittleEndian (lt_of_lt_of_eq w.toNat_lt (by decide))
  have hw : UInt32.ofNat (Bytes.littleEndian (ofWord w)) = w := by
    rw [hword, UInt32.ofNat_toNat]
  exact congrArg (· :: words b) hw

@[simp] lemma words_ofWords (ws : List UInt32) : words (ofWords ws) = ws := by
  induction ws with
  | nil => rfl
  | cons w ws ih => rw [ofWords_cons, words_ofWord_append, ih]

lemma words_take (n : Nat) (b : Bytes) : words (b.take (4 * n)) = (words b).take n := by
  induction n generalizing b with
  | zero => rfl
  | succ n ih =>
    rcases b with _ | ⟨x, _ | ⟨y, _ | ⟨z, _ | ⟨w, rest⟩⟩⟩⟩
    · rfl
    · rfl
    · rfl
    · rfl
    · exact congrArg (_ :: ·) (ih rest)

@[simp] lemma length_decipherCode (line : UInt32) (seed : UInt16) (code : Bytes) :
    (decipherCode line seed code).length = code.length := by
  simp only [decipherCode, List.length_append, List.length_take, length_apply, List.length_drop]
  omega

lemma decipherCode_eq (line : UInt32) (seed : UInt16) (code : Bytes) :
    decipherCode line seed code = code.take 4 ++ Bytes.xor (code.drop 4)
      ((Rc4.mixPacked
        (fun i => (keyOf (innerSeed line seed).toUInt8 (innerSeed line seed >>> 8).toUInt8 i).toNat)
        (code.drop 4).length 256 0 Rc4.packedIdentity).map UInt8.ofNat) := by
  rw [decipherCode, codeCipher, Rc4.apply_schedule]

/-! ## Steps inside a region -/

/-- From `s` to `t` at most the `n` octets from `start` on change, and the position stays. -/
structure Session.Framed (start n : Nat) (s t : Session) : Prop where
  length_eq : t.data.length = s.data.length
  getElem?_eq : ∀ i, i < start ∨ start + n ≤ i → t.data[i]? = s.data[i]?
  offset_eq : t.offset = s.offset

namespace Session.Framed

variable {start n : Nat} {s t u : Session}

lemma trans (h : s.Framed start n t) (h' : t.Framed start n u) : s.Framed start n u :=
  ⟨h'.length_eq.trans h.length_eq, fun i hi => (h'.getElem?_eq i hi).trans (h.getElem?_eq i hi),
    h'.offset_eq.trans h.offset_eq⟩

lemma take_eq (h : s.Framed start n t) {base : Nat} (hbase : base ≤ start) :
    t.data.take base = s.data.take base := by
  apply List.ext_getElem?
  intro i
  rw [List.getElem?_take, List.getElem?_take]
  split
  · exact h.getElem?_eq i (.inl (by omega))
  · rfl

lemma exists_data {pre a rest : Bytes} (h : s.Framed start n t) (hs : s.data = pre ++ (a ++ rest))
    (hpre : pre.length = start) (ha : a.length = n) :
    ∃ a', a'.length = n ∧ t.data = pre ++ (a' ++ rest) := by
  subst hpre ha
  have hlen : pre.length + a.length ≤ t.data.length := by
    rw [h.length_eq, hs]
    simp only [List.length_append]
    omega
  have hfront : t.data.take pre.length = pre := by
    rw [h.take_eq (Nat.le_refl _), hs, List.take_left]
  have hrest : t.data.drop (pre.length + a.length) = rest := by
    have hdrop : t.data.drop (pre.length + a.length) = s.data.drop (pre.length + a.length) := by
      apply List.ext_getElem?
      intro i
      rw [List.getElem?_drop, List.getElem?_drop]
      exact h.getElem?_eq _ (.inr (Nat.le_add_right _ _))
    rw [hdrop, hs, ← List.drop_drop, List.drop_left, List.drop_left]
  refine ⟨Bytes.window t.data pre.length a.length, Bytes.length_window hlen, ?_⟩
  have hsplit := List.take_append_drop a.length (t.data.drop pre.length)
  rw [List.drop_drop, hrest] at hsplit
  rw [Bytes.window, hsplit]
  nth_rewrite 1 [← hfront]
  exact (List.take_append_drop _ _).symm

end Session.Framed

namespace Walk

/-- The step changes at most the `n` octets from `start` on, and stays at its position. -/
def Confined {α : Type} (start n : Nat) (w : Walk α) : Prop :=
  ∀ s : Session, s.Framed start n (w.run s).2

namespace Confined

variable {α β : Type} {start n : Nat} {w w' : Walk α} {f : α → Walk β}

lemma pure (r : α) : Confined start n (Pure.pure r : Walk α) :=
  fun _ => ⟨rfl, fun _ _ => rfl, rfl⟩

lemma bind (h : Confined start n w) (hf : ∀ r, Confined start n (f r)) :
    Confined start n (w >>= f) :=
  fun s => (h s).trans (hf _ _)

lemma get_bind {f : Session → Walk β} (h : ∀ s, Confined start n (f s)) :
    Confined start n (get >>= f) :=
  fun s => h s s

lemma ite {c : Prop} [Decidable c] (h : Confined start n w) (h' : Confined start n w') :
    Confined start n (if c then w else w') := by
  split
  · exact h
  · exact h'

lemma modify {g : Session → Session} (hdata : ∀ s, (g s).data = s.data)
    (hoffset : ∀ s, (g s).offset = s.offset) : Confined start n (modify g : Walk Unit) :=
  fun s => ⟨congrArg List.length (hdata s), fun i _ => congrArg (·[i]?) (hdata s), hoffset s⟩

lemma put {b : Bytes} (hb : b.length ≤ n) : Confined start n (put start b) := by
  refine fun s => ⟨Varint.length_overwrite s.data start b, fun i hi => ?_, rfl⟩
  exact (Varint.getElem?_overwrite s.data b start i).trans (if_neg (by omega))

end Confined

lemma length_decipherCode_window (line : UInt32) (seed : UInt16) (data : Bytes) (start n : Nat) :
    (decipherCode line seed (Bytes.window data start n)).length ≤ n :=
  Nat.le_trans (Nat.le_of_eq (length_decipherCode _ _ _)) (List.length_take_le _ _)

lemma decipherWith_confined (offset count : Nat) (line : UInt32) (depth : Int) :
    Confined offset (4 * count) (decipherWith offset count line depth) := by
  refine .get_bind fun s => ?_
  cases s.seed with
  | some seed =>
    exact .bind (.get_bind fun _ => .put (length_decipherCode_window _ _ _ _ _)) fun _ => .pure true
  | none =>
    have hsearch : Confined offset (4 * count) (searchSeed offset count line) := by
      refine .get_bind fun s => .ite (.pure none) ?_
      cases findSeed line (Bytes.window s.data offset (4 * count)) with
      | none => exact .pure none
      | some seed => exact .bind (.put (length_decipherCode_window _ _ _ _ _)) fun _ => .pure _
    refine .bind hsearch fun found => ?_
    cases found with
    | some seed => exact .bind (.modify (fun _ => rfl) fun _ => rfl) fun _ => .pure true
    | none => exact .bind (.modify (fun _ => rfl) fun _ => rfl) fun _ => .pure false

lemma repairAt_confined (offset count : Nat) (constants : Int) :
    Confined offset (4 * count) (repairAt offset count constants) := by
  refine .get_bind fun s => .put ?_
  rw [length_ofWords, repair, length_repairFrom, Bytes.window, words_take]
  exact Nat.mul_le_mul_left 4 (List.length_take_le _ _)

lemma code_confined (offset count : Nat) (line : UInt32) (constants depth : Int) :
    Confined offset (4 * count) (code offset count line constants depth) :=
  .ite (.pure ()) (.bind (decipherWith_confined offset count line depth) fun _ =>
    .ite (repairAt_confined offset count constants) (.pure ()))

lemma fitStack_confined (position offset count : Nat) :
    Confined position 1 (fitStack position offset count) :=
  .get_bind fun _ => .put (Nat.le_refl 1)

/-! ## The code of a function -/

variable {pre rest : Bytes}

lemma window_between {data a : Bytes} {n : Nat} (hdata : data = pre ++ (a ++ rest))
    (hlen : a.length = n) : Bytes.window data pre.length n = a := by
  rw [hdata, ← hlen, Bytes.window_append]

lemma put_between {s : Session} {a b : Bytes} (hdata : s.data = pre ++ (a ++ rest))
    (hlen : b.length = a.length) :
    (put pre.length b).run s = ((), { s with data := pre ++ (b ++ rest) }) := by
  rw [← Varint.overwrite_append pre rest hlen, ← hdata]
  rfl

lemma fitStack_between {s : Session} {mid body : Bytes} {size : UInt8} {offset count : Nat}
    (hdata : s.data = pre ++ ([size] ++ (mid ++ (body ++ rest))))
    (hoffset : offset = (pre ++ [size] ++ mid).length) (hbody : body.length = 4 * count) :
    (fitStack pre.length offset count).run s = ((), { s with
      data := pre ++ ([stackSize (highestRegister (words body)) size] ++ (mid ++ (body ++ rest))) })
    := by
  have hwindow : Bytes.window s.data offset (4 * count) = body := by
    rw [hoffset]
    exact window_between (by simpa only [List.append_assoc] using hdata) hbody
  have hsize : s.data.getD pre.length 0 = size := by
    rw [hdata]
    simp
  rw [fitStack, get_bind_run, hwindow, hsize]
  exact put_between hdata rfl

/-- **The code section of a function**, behind its stack size: the octets of the number of words
stay, the code keeps its length, and of all that stands before it only the stack size changes. It is
the one that fits the new code.

**Proof sketch.** Deciphering and repairing stay inside the code (`code_confined`). What is left
there fills the same number of words, and the stack size is fitted to them (`fitStack_between`). -/
lemma codeSection_between (depth : Int) (line : UInt32) {count : Bytes} {n : UInt32}
    {code : List UInt32} {size : UInt8} {s : Session}
    (hcount : ∀ rest, Varint.read (count ++ rest) = ⟨n, some count.length⟩)
    (hcode : code.length = n.toNat)
    (hs : s.Between (pre ++ [size]) (count ++ (ofWords code ++ rest))) :
    ∃ size' code' s', (codeSection true depth line pre.length).run s = (true, s') ∧
      code'.length = code.length ∧
      (code ≠ [] → size' = stackSize (highestRegister code') size) ∧
      s'.Between (pre ++ [size'] ++ (count ++ ofWords code')) rest := by
  obtain ⟨s₁, hnumber, hs₁⟩ := (number_turns_of hcount).run_eq hs
  by_cases hempty : code = []
  · subst hempty
    have hzero : n = 0 := UInt32.toNat_inj.mp hcode.symm
    subst hzero
    refine ⟨size, [], s₁, ?_, rfl, absurd rfl, ?_⟩
    · rw [codeSection, run_bind_of hnumber]
      rfl
    · simpa [ofWords] using hs₁
  · have hpos : n.toNat ≠ 0 := by
      rw [← hcode]
      simpa using hempty
    have hframed := code_confined s₁.offset n.toNat line
      (signed (Varint.read (s₁.data.drop (s₁.offset + 4 * n.toNat))).value) depth s₁
    obtain ⟨body, hbody, hdata⟩ := hframed.exists_data hs₁.data_eq hs₁.offset_eq.symm
      ((length_ofWords code).trans (by rw [hcode]))
    have hdata' := hdata.trans (by simp only [List.append_assoc] :
      _ = pre ++ ([size] ++ (count ++ (body ++ rest))))
    have hstack := fitStack_between hdata' hs₁.offset_eq hbody
    have hwords : ofWords (words body) = body := ofWords_words hbody
    refine ⟨_, words body, _, codeSection_run hnumber hpos rfl hstack, ?_, fun _ => rfl, ?_, ?_⟩
    · rw [length_words hbody, hcode]
    · simp [hwords]
    · have hoffset := hframed.offset_eq.trans hs₁.offset_eq
      simp only [hoffset, hwords, hbody, List.length_append, List.length_singleton]
      omega

/-- **A function up to its code**, given what becomes of the name of its source and of its lines.

**Proof sketch.** Each step ends exactly where the next section starts. The stack size is the third
octet behind the two lines, which is the position that the code section is given. -/
lemma functionWith_between {depth : Int} (child : Walk Unit) {name name' line last count : Bytes}
    {l e n : UInt32} {p v size : UInt8} {code : List UInt32} {s : Session}
    (hname : Turns (source true depth) name name' true)
    (hline : Turns number line line (some l)) (hlast : Turns number last last (some e))
    (hcount : ∀ rest, Varint.read (count ++ rest) = ⟨n, some count.length⟩)
    (hcode : code.length = n.toNat)
    (hs : s.Between pre (name ++ (line ++ (last ++ ([p, v] ++ ([size] ++
      (count ++ (ofWords code ++ rest)))))))) :
    ∃ size' code' s', (functionWith true depth child).run s = (sections true depth child).run s' ∧
      code'.length = code.length ∧
      (code ≠ [] → size' = stackSize (highestRegister code') size) ∧
      s'.Between (pre ++ name' ++ line ++ last ++ [p, v] ++ [size'] ++ (count ++ ofWords code'))
        rest := by
  obtain ⟨s₁, hrun₁, hs₁⟩ := hname.run_eq hs
  obtain ⟨s₂, hrun₂, hs₂⟩ := hline.run_eq hs₁
  obtain ⟨s₃, hrun₃, hs₃⟩ := hlast.run_eq hs₂
  have hroom : s₃.offset + 3 ≤ s₃.data.length := by
    rw [hs₃.data_eq, hs₃.offset_eq]
    simp only [List.length_append, List.length_cons]
    omega
  -- behind the three octets the stack size is the last one, right before the code section
  have hs₄ : Session.Between { s₃ with offset := s₃.offset + 3 }
      (pre ++ name' ++ line ++ last ++ [p, v] ++ [size]) (count ++ (ofWords code ++ rest)) :=
    ⟨by simp [hs₃.data_eq], by simp [hs₃.offset_eq]; omega⟩
  have hposition : s₃.offset + 2 = (pre ++ name' ++ line ++ last ++ [p, v]).length := by
    simp only [hs₃.offset_eq, List.length_append, List.length_cons, List.length_nil]
  obtain ⟨size', code', s₅, hrun₅, hlen, hsize, hs₅⟩ := codeSection_between depth l hcount hcode hs₄
  rw [← hposition] at hrun₅
  exact ⟨size', code', s₅, functionWith_run hrun₁ hrun₂ hrun₃ hroom hrun₅, hlen, hsize, hs₅⟩

end Walk

/-! ## Trees of functions -/

/-- The tree has at most `levels` levels of functions, none of which has more nested functions, or a
longer one, than is believed. -/
def Prototype.Within : Nat → Prototype → Prop
  | 0, _ => False
  | levels + 1, p =>
    p.children.length ≤ Walk.maxChildren ∧
      ∀ c ∈ p.children, c.encode.length ≤ Walk.maxChildLength ∧ c.Within levels

/-- The second function is the first one deciphered: all texts are deciphered, there are as many
code words, and nothing else but the stack size may differ. -/
inductive Deciphered : Prototype → Prototype → Prop
  | intro (p : Prototype) (stackSize : UInt8) (code : List UInt32) (children : List Prototype)
      (hcode : code.length = p.code.length)
      (hchildren : List.Forall₂ Deciphered p.children children) :
      Deciphered p
        { p with
          source := p.source.map decipherText
          stackSize := stackSize
          code := code
          constants := p.constants.map Constant.decipher
          children := children
          debug := p.debug.decipher }

lemma encodeAll_eq_flatMap (ps : List Prototype) :
    encodeAll ps = ps.flatMap encode := by
  induction ps with
  | nil => rfl
  | cons p ps ih => rw [encodeAll, ih, List.flatMap_cons]

lemma encode_eq (p : Prototype) :
    p.encode = encodeText p.source ++ (Varint.encode p.firstLine ++ (Varint.encode p.lastLine ++
      ([p.parameters, p.variadic] ++ ([p.stackSize] ++ (encodeList ofWord p.code ++
      (encodeList Constant.encode p.constants ++ (encodeList Upvalue.encode p.upvalues ++
      (encodeList encode p.children ++ p.debug.encode)))))))) := by
  cases p
  simp [encode, encodeFront, encodeList, encodeAll_eq_flatMap]

lemma length_encode_pos (p : Prototype) : 0 < p.encode.length := by
  have := length_encodeText_pos p.source
  rw [encode_eq, List.length_append]
  omega

lemma length_flatMap_encode {ps qs : List Prototype}
    (h : List.Forall₂ (fun p q => q.encode.length = p.encode.length) ps qs) :
    (qs.flatMap encode).length = (ps.flatMap encode).length := by
  induction h with
  | nil => rfl
  | cons h _ ih => simp only [List.flatMap_cons, List.length_append, h, ih]

namespace Walk

/-- Wherever the step `w` finds the function `p` at its position, it goes behind it and leaves a
deciphered form of it there, which takes as many octets. -/
def Deciphers (w : Walk Unit) (p : Prototype) : Prop :=
  ∀ ⦃s : Session⦄ ⦃pre rest : Bytes⦄, s.Between pre (p.encode ++ rest) →
    ∃ q s', w.run s = ((), s') ∧ Deciphered p q ∧ q.encode.length = p.encode.length ∧
      s'.Between (pre ++ q.encode) rest

variable {child : Walk Unit} {depth : Int} {s : Session} {pre rest : Bytes}

/-- Nested functions one after the other: each moves the position by the octets it takes, which is
neither nothing nor too much. -/
lemma childrenFrom_between (depth : Int) (ps : List Prototype)
    (hchild : ∀ c ∈ ps, Deciphers child c) (hlen : ∀ c ∈ ps, c.encode.length ≤ maxChildLength)
    (i : Nat) (hs : s.Between pre (ps.flatMap encode ++ rest)) :
    ∃ qs s', (childrenFrom child depth ps.length i).run s = ((), s') ∧
      List.Forall₂ Deciphered ps qs ∧
      List.Forall₂ (fun p q => q.encode.length = p.encode.length) ps qs ∧
      s'.Between (pre ++ qs.flatMap encode) rest := by
  induction ps generalizing i s pre with
  | nil => exact ⟨[], s, rfl, .nil, .nil, by simpa using hs⟩
  | cons p ps ih =>
    rw [List.flatMap_cons, List.append_assoc] at hs
    obtain ⟨q, s₁, hrun, hq, hql, hs₁⟩ := hchild p (by simp) hs
    obtain ⟨qs, s₂, hrun', hqs, hqsl, hs₂⟩ := ih (fun c hc => hchild c (List.mem_cons_of_mem _ hc))
      (fun c hc => hlen c (List.mem_cons_of_mem _ hc)) (i + 1) hs₁
    have hconsumed : s₁.offset - s.offset = p.encode.length := by
      rw [hs₁.offset_eq, hs.offset_eq, List.length_append, hql]
      omega
    have hpos : p.encode.length ≠ 0 := Nat.pos_iff_ne_zero.mp (length_encode_pos p)
    have hsmall : ¬ maxChildLength < p.encode.length := by
      have := hlen p (by simp)
      omega
    refine ⟨q :: qs, s₂, ?_, .cons hq hqs, .cons hql hqsl, ?_⟩
    · rw [List.length_cons, childrenFrom,
        run_bind_of (rfl : (get : Walk Session).run s = (s, s)), run_bind_of hrun,
        run_bind_of (rfl : (get : Walk Session).run s₁ = (s₁, s₁))]
      simp only [hconsumed, hpos, hsmall, ↓reduceIte]
      exact hrun'
    · simpa only [List.flatMap_cons, List.append_assoc] using hs₂

lemma childrenWith_between (hdepth : depth ≤ maxDepth)
    (ps : List Prototype) (hchild : ∀ c ∈ ps, Deciphers child c)
    (hcount : ps.length ≤ maxChildren) (hlen : ∀ c ∈ ps, c.encode.length ≤ maxChildLength)
    (hs : s.Between pre (encodeList encode ps ++ rest)) :
    ∃ qs s', (childrenWith child depth).run s = ((), s') ∧ List.Forall₂ Deciphered ps qs ∧
      (encodeList encode qs).length = (encodeList encode ps).length ∧
      s'.Between (pre ++ encodeList encode qs) rest := by
  rw [encodeList, List.append_assoc] at hs
  obtain ⟨s₁, hnumber, hs₁⟩ := (number_turns ps.length).run_eq hs
  obtain ⟨qs, s₂, hrun, hqs, hqsl, hs₂⟩ := childrenFrom_between depth ps hchild hlen 0 hs₁
  have hn : (UInt32.ofNat ps.length).toNat = ps.length := by
    rw [UInt32.toNat_ofNat']
    simp only [maxChildren] at hcount
    omega
  have hql : qs.length = ps.length := hqs.length_eq.symm
  refine ⟨qs, s₂, ?_, hqs, ?_, ?_⟩
  · rw [childrenWith, if_neg (by omega),
      run_bind_of (rfl : (get : Walk Session).run s = (s, s)), run_bind_of hnumber]
    simp only [hn, Nat.not_lt.mpr hcount, ↓reduceIte]
    exact hrun
  · rw [encodeList, encodeList, List.length_append, List.length_append, hql,
      length_flatMap_encode hqsl]
  · simpa only [encodeList, hql, List.append_assoc] using hs₂

lemma sections_between (hdepth : depth ≤ maxDepth)
    (p : Prototype) (hsize : p.encode.length < 2 ^ 32)
    (hchild : ∀ c ∈ p.children, Deciphers child c) (hcount : p.children.length ≤ maxChildren)
    (hlen : ∀ c ∈ p.children, c.encode.length ≤ maxChildLength)
    (hs : s.Between pre (encodeList Constant.encode p.constants ++
      (encodeList Upvalue.encode p.upvalues ++ (encodeList encode p.children ++
        (p.debug.encode ++ rest))))) :
    ∃ qs s', (sections true depth child).run s = ((), s') ∧
      List.Forall₂ Deciphered p.children qs ∧
      (encodeList encode qs).length = (encodeList encode p.children).length ∧
      s'.Between (pre ++ (encodeList Constant.encode (p.constants.map Constant.decipher) ++
        (encodeList Upvalue.encode p.upvalues ++ (encodeList encode qs ++
          p.debug.decipher.encode)))) rest := by
  have hparts := hsize
  rw [encode_eq] at hparts
  simp only [List.length_append] at hparts
  obtain ⟨s₁, hrun₁, hs₁⟩ := (constants_turns depth p.constants (by omega)).run_eq hs
  obtain ⟨s₂, hrun₂, hs₂⟩ := (upvalues_turns p.upvalues (by omega)).run_eq hs₁
  obtain ⟨qs, s₃, hrun₃, hqs, hqsl, hs₃⟩ :=
    childrenWith_between hdepth p.children hchild hcount hlen hs₂
  obtain ⟨s₄, hrun₄, hs₄⟩ := (debugInfo_turns depth p.debug (by omega)).run_eq hs₃
  refine ⟨qs, s₄, ?_, hqs, hqsl, by simpa only [List.append_assoc] using hs₄⟩
  rw [sections, run_bind_of hrun₁, run_bind_of hrun₂, run_bind_of hrun₃]
  exact hrun₄

/-- **A function** whose nested functions are deciphered is deciphered.

**Proof sketch.** The sections stand one behind the other (`encode_eq`), and each step ends exactly
where the next section starts. The stack size is the third octet behind the two lines, which is the
position that the code section is given. -/
lemma functionWith_deciphers (hdepth : depth ≤ maxDepth)
    (p : Prototype) (hsize : p.encode.length < 2 ^ 32)
    (hchild : ∀ c ∈ p.children, Deciphers child c) (hcount : p.children.length ≤ maxChildren)
    (hlen : ∀ c ∈ p.children, c.encode.length ≤ maxChildLength) :
    Deciphers (functionWith true depth child) p := by
  intro s pre rest hs
  have hparts := hsize
  rw [encode_eq] at hs hparts
  rw [encodeList_ofWord] at hs
  simp only [List.length_append, List.append_assoc] at hs hparts
  have hsource := source_turns depth p.source (by omega)
  have hwords := (encodeList_bounds (fun w => by simp [ofWord]) (by omega :
    (encodeList ofWord p.code).length < 2 ^ 32)).1
  obtain ⟨size, code, s₅, hrun₅, hcode, -, hs₅⟩ :=
    functionWith_between child hsource (number_turns p.firstLine) (number_turns p.lastLine)
      (Varint.read_encode p.code.length) hwords.symm hs
  rw [← hcode] at hs₅
  obtain ⟨qs, s₆, hrun₆, hqs, hqsl, hs₆⟩ :=
    sections_between hdepth p hsize hchild hcount hlen hs₅
  refine ⟨_, s₆, hrun₅.trans hrun₆, .intro p size code qs hcode hqs, ?_, ?_⟩
  · have hconstants := (constants_turns depth p.constants (by omega)).length_eq
    have hdebug := (debugInfo_turns depth p.debug (by omega)).length_eq
    have hwords : (encodeList ofWord code).length = (encodeList ofWord p.code).length := by
      simp only [encodeList_ofWord, List.length_append, length_ofWords, hcode]
    rw [encode_eq, encode_eq p]
    simp only [List.length_append, hsource.length_eq, hconstants, hdebug, hwords, hqsl]
    rfl
  · rw [encode_eq, encodeList_ofWord]
    simpa only [List.append_assoc] using hs₆

/-- **A tree of functions** that is followed down to its last level is deciphered.

**Proof sketch.** Induction on the number of levels: a function at a depth where nested functions
are followed is deciphered if its nested functions are (`functionWith_deciphers`), and these have
one level less. -/
lemma functionUpTo_deciphers {n : Nat} {levels : Nat} {p : Prototype}
    (hp : p.Within n) (hlevels : n ≤ levels) (hdepth : depth + n ≤ maxDepth + 1)
    (hsize : p.encode.length < 2 ^ 32) : Deciphers (functionUpTo true levels depth) p := by
  induction n generalizing levels depth p with
  | zero => exact hp.elim
  | succ n ih =>
    obtain ⟨hcount, hchildren⟩ := hp
    obtain ⟨levels, rfl⟩ : ∃ l, levels = l + 1 := ⟨levels - 1, by omega⟩
    refine functionWith_deciphers (by omega) p hsize (fun c hc => ?_) hcount
      fun c hc => (hchildren c hc).1
    have hlen := (hchildren c hc).1
    simp only [maxChildLength] at hlen
    exact ih (hchildren c hc).2 (by omega) (by omega) (by omega)

end Walk

/-! ## The whole walk -/

/-- **Deciphering a tree of functions in place.** Let the octets of a tree stand anywhere in a
buffer of less than `2 ^ 31` octets, with at most as many levels as are followed from the depth on
(51 from depth zero). The walk that starts at its first octet ends behind its last one. It leaves
the octets of a tree in which every text is deciphered, and which differs otherwise at most in code
words and stack sizes. Everything before and behind the tree stays. -/
theorem function_deciphers_tree (p : Prototype) (depth : Int) (s : Session) (pre post : Bytes)
    (hp : p.Within (Walk.levelsFrom depth)) (hdata : s.data = pre ++ p.encode ++ post)
    (hoffset : s.offset = pre.length) (hsize : s.data.length < 2 ^ 31) :
    ∃ q, Deciphered p q ∧
      ((Walk.function true depth).run s).2.data = pre ++ q.encode ++ post ∧
      ((Walk.function true depth).run s).2.offset = pre.length + p.encode.length ∧
      q.encode.length = p.encode.length := by
  have hs : s.Between pre (p.encode ++ post) := ⟨by rw [hdata, List.append_assoc], hoffset⟩
  have hlen : p.encode.length < 2 ^ 32 := by
    rw [hdata, List.length_append, List.length_append] at hsize
    omega
  have hlevels : depth + Walk.levelsFrom depth ≤ Walk.maxDepth + 1 := by
    rcases Nat.eq_zero_or_pos (Walk.levelsFrom depth) with h | h
    · rw [h] at hp
      exact hp.elim
    · simp only [Walk.levelsFrom] at h ⊢
      omega
  obtain ⟨q, s', hrun, hq, hql, hs'⟩ :=
    Walk.functionUpTo_deciphers hp (Nat.le_refl _) hlevels hlen hs
  rw [Walk.function, hrun]
  exact ⟨q, hq, by rw [hs'.data_eq], by rw [hs'.offset_eq, List.length_append, hql], hql⟩

def innerFunction : Prototype :=
  { source := none, firstLine := 3, lastLine := 5, parameters := 1, variadic := 0, stackSize := 2,
    code := [0x47], constants := [.text [9, 8, 7]], upvalues := [], children := [], debug := {} }

def outerFunction : Prototype :=
  { source := some [1, 2, 3], firstLine := 0, lastLine := 9, parameters := 0, variadic := 1,
    stackSize := 2, code := [0x52, 0x47], constants := [.text [4, 5], .integer 7],
    upvalues := [⟨1, 0, 0⟩], children := [innerFunction],
    debug := { locals := [⟨some [6], 0, 2⟩], upvalueNames := [some [7, 8]] } }

lemma length_encode_innerFunction : innerFunction.encode.length = 23 := by
  rw [encode_eq]
  simp [innerFunction, encodeText, encodeList, Constant.encode, DebugInfo.encode,
    Varint.encode_of_lt, ofWord, shortLimit]

lemma length_encode_outerFunction : outerFunction.encode.length = 71 := by
  rw [encode_eq]
  simp [outerFunction, length_encode_innerFunction, encodeText, encodeList,
    Constant.encode, Upvalue.encode, LocalVariable.encode, DebugInfo.encode, Varint.encode_of_lt,
    ofWord, shortLimit]

lemma outerFunction_within (levels : Nat) : outerFunction.Within (levels + 2) := by
  refine ⟨by decide, fun c hc => ?_⟩
  obtain rfl : c = innerFunction := by simpa [outerFunction] using hc
  refine ⟨?_, by decide, fun c hc => ?_⟩
  · rw [length_encode_innerFunction]
    decide
  · cases hc

/-- A walk that stands in front of the outer function in a larger buffer, and knows a seed. -/
def outerSession : Session :=
  { data := [0xFF, 0xFF] ++ outerFunction.encode ++ [0xFF], offset := 2, seed := some 7 }

/-- The tree of two functions is deciphered in place. -/
theorem outerFunction_deciphered :
    outerFunction.Within (Walk.levelsFrom 0) ∧
      ∃ q, Deciphered outerFunction q ∧
        ((Walk.function true 0).run outerSession).2.data = [0xFF, 0xFF] ++ q.encode ++ [0xFF] ∧
        ((Walk.function true 0).run outerSession).2.offset = 2 + outerFunction.encode.length ∧
        q.encode.length = outerFunction.encode.length := by
  refine ⟨outerFunction_within _, function_deciphers_tree outerFunction 0 outerSession _ _
    (outerFunction_within _) rfl rfl ?_⟩
  simp [outerSession, length_encode_outerFunction]

/-! ## Texts without a key -/

def keylessFunction : Prototype :=
  { source := some (List.replicate 254 0), firstLine := 0, lastLine := 0, parameters := 0,
    variadic := 0, stackSize := 2, code := [], constants := [], upvalues := [], children := [],
    debug := {} }

lemma encode_keylessFunction :
    keylessFunction.encode = [0x01, 0xFF] ++ List.replicate 254 0 ++
      [128, 128, 0, 0, 2, 128, 128, 128, 128, 128, 128, 128, 128] := by
  have h255 : Varint.encode 255 = [0x01, 0xFF] := by
    rw [Varint.encode, Varint.groupsOnto_of_ne_zero (by decide), Varint.groupsOnto,
      dif_pos (by decide)]
    rfl
  have htext : encodeText (some (List.replicate 254 0)) = [0x01, 0xFF] ++ List.replicate 254 0 := by
    rw [encodeText, List.length_replicate, h255]
  rw [encode_eq]
  simp only [keylessFunction, htext]
  simp [-List.reduceReplicate, encodeList, DebugInfo.encode, Varint.encode_of_lt]

/-- **A text without a key stays**, though the key stream for its length would change it: no key is
made for a length that is a multiple of 254. -/
theorem keyless_text_stays :
    ((Walk.function true 0).run { data := keylessFunction.encode }).2.data =
        keylessFunction.encode ∧
      (textCipher 254).apply (List.replicate 254 0) ≠ List.replicate 254 0 := by
  constructor
  · rw [encode_keylessFunction]
    decide +kernel
  · rw [textCipher, Rc4.apply_schedule]
    decide +kernel

end Salvage.Chunk
