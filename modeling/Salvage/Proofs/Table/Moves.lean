import Mathlib.Tactic.IntervalCases
import Salvage.Proofs.Table.Numbers

/-!
# Reads that move the cursor

Every cell moves the cursor forward only, over octets that are there, also when it ends in a fault; and
every cell but a text moves it over at least one octet, if there are any. A text that stands in the
content moves it behind the next zero; without a zero the cursor stays, and the text is absent. Where
texts stand in the content, the only fault is a fixed-point number that is too great.
-/

namespace Salvage.Table

lemma Cursor.Between.advance_take {c : Cursor} {pre rest : Bytes} (h : c.Between pre rest) {n : Nat}
    (hn : n ≤ rest.length) : (c.advance n).Between (pre ++ rest.take n) (rest.drop n) := by
  rw [← List.take_append_drop n rest] at h
  have := h.advance
  rwa [List.length_take_of_le hn] at this

/-! ## Reads that move the cursor -/

namespace Read

variable {α β : Type} {E : ReadFault → Prop} {least : Nat}

/-- The read moves the cursor forward only, over octets before it. A value moves it over at least
`least` of them, if there are as many, and `E` holds of a fault, if texts stand in the content. -/
def Advances (E : ReadFault → Prop) (least : Nat) (r : Read α) : Prop :=
  ∀ ⦃c : Cursor⦄ ⦃pre rest : Bytes⦄, c.Between pre rest → ∃ n ≤ rest.length,
    (min least rest.length ≤ n ∧ ∃ v, r c = .ok v (c.advance n)) ∨
      ∃ e, (c.pooled = false → E e) ∧ r c = .error e (c.advance n)

variable {c : Cursor} {pre rest : Bytes} {r : Read α} {one : Read Value} {e : ReadFault}

lemma bind_of_error {f : α → Read β} {c' : Cursor}
    (h : r c = .error e c') : (r >>= f) c = .error e c' := by
  change EStateM.bind r f c = _
  rw [EStateM.bind, h]

lemma advances_of_ok (h : ∀ ⦃c : Cursor⦄ ⦃pre rest : Bytes⦄, c.Between pre rest →
    ∃ v, ∃ n ≤ rest.length, min least rest.length ≤ n ∧ r c = .ok v (c.advance n)) :
    Advances E least r := by
  intro c pre rest hc
  obtain ⟨v, n, hn, hleast, hr⟩ := h hc
  exact ⟨n, hn, .inl ⟨hleast, v, hr⟩⟩

lemma advances_pure (v : α) : Advances E 0 (pure v) :=
  advances_of_ok fun c _ _ _ =>
    ⟨v, 0, Nat.zero_le _, by omega, by rw [Cursor.advance_zero]; rfl⟩

lemma advances_throw (h : E e) : Advances E 0 (throw e : Read α) := by
  intro c pre rest _
  exact ⟨0, Nat.zero_le _, .inr ⟨e, fun _ => h, by rw [Cursor.advance_zero]; rfl⟩⟩

lemma Advances.weaken (h : Advances E least r) : Advances E 0 r := by
  intro c pre rest hc
  obtain ⟨n, hn, hend⟩ := h hc
  exact ⟨n, hn, hend.imp_left fun hok => ⟨by omega, hok.2⟩⟩

lemma Advances.exists_end (h : Advances E least r)
    (hc : c.Between pre rest) : ∃ n ≤ rest.length,
      (min least rest.length ≤ n ∧ ∃ v, r c = .ok v (c.advance n)) ∨
        ∃ e, r c = .error e (c.advance n) := by
  obtain ⟨n, hn, hok | ⟨e, -, he⟩⟩ := h hc
  · exact ⟨n, hn, .inl hok⟩
  · exact ⟨n, hn, .inr ⟨e, he⟩⟩

lemma Advances.bind {f : α → Read β} (h : Advances E least r)
    (h' : ∀ v, Advances E 0 (f v)) : Advances E least (r >>= f) := by
  intro c pre rest hc
  obtain ⟨m, hm, ⟨hleast, v, hv⟩ | ⟨e, he, hv⟩⟩ := h hc
  · obtain ⟨n, hn, hend⟩ := h' v (hc.advance_take hm)
    rw [List.length_drop] at hn
    rw [Cursor.advance_advance] at hend
    refine ⟨m + n, by omega, ?_⟩
    rw [bind_of_ok hv]
    exact hend.imp_left fun hok => ⟨by omega, hok.2⟩
  · exact ⟨m, hm, .inr ⟨e, he, bind_of_error hv⟩⟩

lemma Advances.bind_pure (h : Advances E least r) (g : α → β) :
    Advances E least (r >>= fun v => pure (g v)) :=
  h.bind fun _ => advances_pure _

/-! ## Octets and numbers -/

lemma octet_advances : Advances E 1 octet := by
  refine advances_of_ok fun c pre rest hc => ?_
  cases rest with
  | nil =>
    have hend : c.atEnd = true := hc.atEnd_eq
    refine ⟨none, 0, Nat.le_refl _, by simp, ?_⟩
    rw [octet, get_bind, if_pos hend, Cursor.advance_zero]
    rfl
  | cons b rest => exact ⟨some b, 1, by simp, by simp, octet_cons hc⟩

lemma variant_advances : Advances E 1 variant := by
  refine advances_of_ok fun c pre rest hc => ?_
  obtain ⟨v, n, hn, hpos, hr⟩ := exists_variant hc
  refine ⟨v, n, hn, ?_, hr⟩
  rcases eq_or_ne rest [] with rfl | hne
  · simp
  · have := hpos hne
    omega

lemma int_advances : Advances E 1 int :=
  variant_advances.bind_pure _

lemma intOrZero_advances : Advances E 1 intOrZero :=
  int_advances.bind_pure _

lemma mark_advances : Advances E 1 mark := by
  refine octet_advances.bind fun o => ?_
  split <;> exact advances_pure _

lemma intCell_advances : Advances E 1 intCell := by
  refine int_advances.bind fun o => ?_
  cases o <;> exact advances_pure _

lemma float_advances : Advances E 1 float := by
  refine int_advances.bind fun o => ?_
  cases o <;> exact advances_pure _

lemma fixedPoint_fault {value exponent : Int}
    (h : fixedPoint value exponent = .error e) : e = .tooGreat := by
  unfold fixedPoint at h
  split at h
  · split at h
    · cases h
    · exact (Except.error.inj h).symm
  · cases h

lemma fix_advances (hE : E .tooGreat) : Advances E 1 fix := by
  rw [fix, digits_eq]
  refine variant_advances.bind fun o => ?_
  cases o with
  | none => exact advances_pure _
  | some v =>
    refine octet_advances.weaken.bind fun b => ?_
    cases b with
    | none => exact advances_pure _
    | some b =>
      dsimp only
      split
      · exact advances_pure _
      · rename_i hfault
        exact advances_throw (fixedPoint_fault hfault ▸ hE)

/-! ## Texts -/

lemma advances_get_bind {f : Cursor → Read α} (h : ∀ c, Advances E least (f c)) :
    Advances E least (get >>= f) := by
  intro c pre rest hc
  exact h c hc

lemma string_of_pooled (hc : c.Between pre rest)
    (hpooled : c.pooled = true) : ∃ n ≤ rest.length,
      (min 1 rest.length ≤ n ∧ ∃ v, string c = .ok v (c.advance n)) ∨
        ∃ e, string c = .error e (c.advance n) := by
  rw [string, get_bind, if_pos hpooled]
  refine Advances.exists_end (E := fun _ => True) ?_ hc
  refine intOrZero_advances.bind fun index => advances_get_bind fun c => ?_
  split
  · exact advances_pure _
  · split
    · exact advances_pure _
    · exact advances_throw trivial
    · exact advances_pure _

/-- **A text that stands in the content** is passed over together with the zero behind it; where
there is no zero the cursor stays, and the text is absent. -/
lemma string_plain (hc : c.Between pre rest) (hpooled : c.pooled = false) :
    (0 ∉ rest ∧ string c = .ok none c) ∨
      ∃ a b v, rest = a ++ 0 :: b ∧ string c = .ok v (c.advance (a.length + 1)) := by
  by_cases hzero : (0 : UInt8) ∈ rest
  · obtain ⟨a, b, rfl, ha⟩ := List.eq_append_cons_of_mem hzero
    exact .inr ⟨a, b, _, rfl, string_of_zero ha hc hpooled⟩
  · refine .inl ⟨hzero, ?_⟩
    rw [string, get_bind, hpooled, if_neg Bool.false_ne_true, get_bind, hc.source_eq]
    dsimp only
    rw [findFrom?_zero hc, Bytes.find?_zero_eq_none hzero]
    cases c.atEnd <;> rfl

lemma textCell_plain (hc : c.Between pre rest) (hpooled : c.pooled = false) :
    (0 ∉ rest ∧ textCell c = .ok .absent c) ∨
      ∃ a b v, rest = a ++ 0 :: b ∧ textCell c = .ok v (c.advance (a.length + 1)) := by
  obtain ⟨hzero, hr⟩ | ⟨a, b, v, hsplit, hr⟩ := string_plain hc hpooled
  · exact .inl ⟨hzero, bind_of_ok hr⟩
  · refine .inr ⟨a, b, ?_⟩
    rw [textCell, bind_of_ok hr]
    cases v with
    | none => exact ⟨_, hsplit, rfl⟩
    | some s => exact ⟨_, hsplit, rfl⟩

lemma string_advances : Advances E 0 string := by
  intro c pre rest hc
  cases hpooled : c.pooled with
  | true =>
    obtain ⟨n, hn, ⟨-, hok⟩ | ⟨e, he⟩⟩ := string_of_pooled hc hpooled
    · exact ⟨n, hn, .inl ⟨by omega, hok⟩⟩
    · exact ⟨n, hn, .inr ⟨e, by simp, he⟩⟩
  | false =>
    obtain ⟨-, hstay⟩ | ⟨a, b, w, rfl, hmove⟩ := string_plain hc hpooled
    · exact ⟨0, Nat.zero_le _, .inl ⟨by omega, none, by rwa [Cursor.advance_zero]⟩⟩
    · exact ⟨a.length + 1, by simp, .inl ⟨by omega, w, hmove⟩⟩

lemma textCell_advances : Advances E 0 textCell := by
  refine string_advances.bind fun o => ?_
  cases o <;> exact advances_pure _

lemma textKey_advances : Advances E 0 textKey := by
  refine string_advances.bind fun o => ?_
  cases o <;> exact advances_pure _

/-! ## Cells -/

lemma many_advances (h : Advances E 0 one) (n : Nat) (acc : List Value) :
    Advances E 0 (many one n acc) := by
  induction n generalizing acc with
  | zero => exact advances_pure _
  | succ n ih => exact h.bind fun v => ih _

lemma listOf_advances (h : Advances E 0 one) : Advances E 1 (listOf one) := by
  refine intOrZero_advances.bind fun n => ?_
  split
  · exact advances_pure _
  · exact many_advances h _ _

lemma manyEntries_advances {key : Read Key} (hkey : Advances E 0 key)
    (hone : Advances E 0 one) (n : Nat) (acc : List (Key × Value)) :
    Advances E 0 (manyEntries key one n acc) := by
  induction n generalizing acc with
  | zero => exact advances_pure _
  | succ n ih => exact hkey.bind fun k => hone.bind fun v => ih _

lemma mapOf_advances {key : Read Key} (hkey : Advances E 0 key)
    (hone : Advances E 0 one) : Advances E 1 (mapOf key one) := by
  refine intOrZero_advances.bind fun n => ?_
  split
  · exact advances_pure _
  · exact manyEntries_advances hkey hone _ _

lemma vectorOf_advances (hE : E .tooGreat) (missing : Value → Value) (names : List String)
    (acc : List (Key × Value)) : Advances E 0 (vectorOf missing names acc) := by
  induction names generalizing acc with
  | nil => exact advances_pure _
  | cons name names ih => exact (fix_advances hE).weaken.bind fun v => ih _

lemma vectorOf_cons_advances (hE : E .tooGreat) (missing : Value → Value) (name : String)
    (names : List String) : Advances E 1 (vectorOf missing (name :: names) []) :=
  (fix_advances hE).bind fun _ => vectorOf_advances hE missing names _

def fixedKinds : List Kind :=
  [.fix, .listFix, .fix2, .fix3, .fixQuaternion, .listFix2, .listFix3, .listFixQuaternion]

lemma cellOf_advances (k : Kind) :
    Advances (fun e => e = .tooGreat ∧ k ∈ fixedKinds) (if k = .string then 0 else 1)
      (cellOf k) := by
  cases k with
  | bool => exact mark_advances
  | string => exact textCell_advances
  | fix => exact fix_advances ⟨rfl, by decide⟩
  | listString => exact listOf_advances textCell_advances
  | listBool => exact listOf_advances mark_advances.weaken
  | listInt => exact listOf_advances (intOrZero_advances.bind_pure _).weaken
  | listFloat => exact listOf_advances (float_advances.bind_pure _).weaken
  | listFix => exact listOf_advances (fix_advances ⟨rfl, by decide⟩).weaken
  | mapStringString => exact mapOf_advances textKey_advances textCell_advances
  | mapIntInt =>
    exact mapOf_advances (intOrZero_advances.bind_pure _).weaken (intOrZero_advances.bind_pure _).weaken
  | mapIntString => exact mapOf_advances (intOrZero_advances.bind_pure _).weaken textCell_advances
  | mapStringInt => exact mapOf_advances textKey_advances intCell_advances.weaken
  | mapIntFloat => exact mapOf_advances (intOrZero_advances.bind_pure _).weaken float_advances.weaken
  | int => exact intCell_advances
  | float => exact float_advances
  | fix2 => exact vectorOf_cons_advances ⟨rfl, by decide⟩ _ _ _
  | fix3 => exact vectorOf_cons_advances ⟨rfl, by decide⟩ _ _ _
  | fixQuaternion => exact vectorOf_cons_advances ⟨rfl, by decide⟩ _ _ _
  | listFix2 => exact listOf_advances (vectorOf_cons_advances ⟨rfl, by decide⟩ _ _ _).weaken
  | listFix3 => exact listOf_advances (vectorOf_cons_advances ⟨rfl, by decide⟩ _ _ _).weaken
  | listFixQuaternion =>
    exact listOf_advances (vectorOf_cons_advances ⟨rfl, by decide⟩ _ _ _).weaken

/-- **A cell is passed over**, unless it is a text that stands in the content and no zero is behind
it. -/
lemma cell_moves {code : Option Int} {c' : Cursor} {v : Value}
    (hc : c.Between pre rest) (hr : cell code c = .ok v c') :
    ∃ n ≤ rest.length, c' = c.advance n ∧
      (rest ≠ [] → 0 < n ∨
        code.bind Kind.ofCode? = some .string ∧ c.pooled = false ∧ 0 ∉ rest) := by
  rw [cell] at hr
  cases hkind : code.bind Kind.ofCode? with
  | none =>
    rw [hkind] at hr
    cases hr
  | some k =>
    rw [hkind] at hr
    -- only a text may stay where it is, and only one that stands in the content
    by_cases hk : k = .string ∧ c.pooled = false
    · obtain ⟨rfl, hpooled⟩ := hk
      obtain ⟨hzero, hstay⟩ | ⟨a, b, w, rfl, hmove⟩ := textCell_plain hc hpooled
      · obtain ⟨-, rfl⟩ := EStateM.Result.ok.inj (hstay.symm.trans hr)
        exact ⟨0, Nat.zero_le _, (Cursor.advance_zero c).symm, fun _ => .inr ⟨rfl, hpooled, hzero⟩⟩
      · obtain ⟨-, rfl⟩ := EStateM.Result.ok.inj (hmove.symm.trans hr)
        exact ⟨a.length + 1, by simp, rfl, fun _ => .inl (Nat.succ_pos _)⟩
    · have hend : ∃ n ≤ rest.length, (min 1 rest.length ≤ n ∧ ∃ v, cellOf k c = .ok v (c.advance n)) ∨
          ∃ e, cellOf k c = .error e (c.advance n) := by
        by_cases hstring : k = .string
        · subst hstring
          have hpooled : c.pooled = true := by simpa using hk
          obtain ⟨n, hn, ⟨hleast, o, ho⟩ | ⟨e, he⟩⟩ := string_of_pooled hc hpooled
          · refine ⟨n, hn, .inl ⟨hleast, ?_⟩⟩
            rw [cellOf, textCell, bind_of_ok ho]
            cases o <;> exact ⟨_, rfl⟩
          · exact ⟨n, hn, .inr ⟨e, bind_of_error he⟩⟩
        · have hend := (cellOf_advances k).exists_end hc
          rwa [if_neg hstring] at hend
      obtain ⟨n, hn, ⟨hleast, w, hw⟩ | ⟨e, he⟩⟩ := hend
      · obtain ⟨-, rfl⟩ := EStateM.Result.ok.inj (hw.symm.trans hr)
        refine ⟨n, hn, rfl, fun hne => .inl ?_⟩
        have := List.length_pos_iff.mpr hne
        omega
      · cases he.symm.trans hr

/-! ## Cells one after the other -/

def after : EStateM.Result ReadFault Cursor α → Cursor
  | .ok _ c => c
  | .error _ c => c

/-- How the reads of cells of some codes end, one after the other: each goes on from where the one
before it has left the cursor, also after a fault. -/
def cellsFrom : Cursor → List Int → List (EStateM.Result ReadFault Cursor Value)
  | _, [] => []
  | c, code :: codes => cell (some code) c :: cellsFrom (after (cell (some code) c)) codes

lemma exists_kind {code : Int} (h : 1 ≤ code ∧ code ≤ 21) :
    ∃ k, Kind.ofCode? code = some k ∧ code = k.code := by
  obtain ⟨hlow, hhigh⟩ := h
  interval_cases code <;> exact ⟨_, rfl, rfl⟩

/-- **One cell**: it moves the cursor forward within the octets, and its only fault is a fixed-point
number that is too great. -/
lemma cell_advances {code : Int} (hcode : 1 ≤ code ∧ code ≤ 21)
    (hc : c.Between pre rest) (hpooled : c.pooled = false) :
    (∃ n ≤ rest.length, after (cell (some code) c) = c.advance n) ∧
      ∀ e c', cell (some code) c = .error e c' →
        e = .tooGreat ∧ ∃ k ∈ fixedKinds, code = k.code := by
  obtain ⟨k, hkind, hk⟩ := exists_kind hcode
  have hcell : cell (some code) c = cellOf k c := by
    rw [cell, Option.bind_some, hkind]
  rw [hcell]
  obtain ⟨n, hn, ⟨-, v, hv⟩ | ⟨e, he, hv⟩⟩ := cellOf_advances k hc
  · rw [hv]
    exact ⟨⟨n, hn, rfl⟩, fun e c' h => nomatch h⟩
  · rw [hv]
    refine ⟨⟨n, hn, rfl⟩, fun e' c' h => ?_⟩
    obtain ⟨rfl, -⟩ := EStateM.Result.error.inj h
    exact ⟨(he hpooled).1, k, (he hpooled).2, hk⟩

lemma cellsFrom_advance {codes : List Int} (hcodes : ∀ code ∈ codes, 1 ≤ code ∧ code ≤ 21)
    (hc : c.Between pre rest) (hpooled : c.pooled = false) :
    (c.pos :: (cellsFrom c codes).map fun r => (after r).pos).Pairwise (· ≤ ·) ∧
      (∀ r ∈ cellsFrom c codes, (after r).pos ≤ c.limit) ∧
      ∀ x ∈ codes.zip (cellsFrom c codes), ∀ e c', x.2 = .error e c' →
        e = .tooGreat ∧ ∃ k ∈ fixedKinds, x.1 = k.code := by
  induction codes generalizing c pre rest with
  | nil => simp [cellsFrom]
  | cons code codes ih =>
    rw [List.forall_mem_cons] at hcodes
    obtain ⟨⟨n, hn, hafter⟩, hfault⟩ := cell_advances hcodes.1 hc hpooled
    obtain ⟨hsorted, hlimit, hfaults⟩ := ih hcodes.2 (hc.advance_take hn) hpooled
    have hmoved : (c.advance n).pos = c.pos + n := rfl
    have hpos : c.pos ≤ (c.advance n).pos := by omega
    have hend : (c.advance n).pos ≤ c.limit := by
      rw [hc.limit_eq_add]
      omega
    rw [cellsFrom, hafter, List.map_cons, hafter]
    refine ⟨List.pairwise_cons.mpr ⟨fun q hq => ?_, hsorted⟩, ?_, ?_⟩
    · rcases List.mem_cons.mp hq with rfl | hq
      · exact hpos
      · exact Int.le_trans hpos ((List.pairwise_cons.mp hsorted).1 q hq)
    · rw [List.forall_mem_cons, hafter]
      exact ⟨hend, hlimit⟩
    · rw [List.zip_cons_cons, List.forall_mem_cons]
      exact ⟨hfault, hfaults⟩

/-- **Where cells leave the cursor.** Whatever the octets are, cells of any kinds that are read one
after the other, on from wherever the cell before has left the cursor, also if it ended in a fault,
never move the cursor back and never behind the octets; and the only fault of any of them is that a
fixed-point number is too great, in a cell of a kind that holds such numbers. -/
theorem cells_stay_inside (data : Bytes) (codes : List Int)
    (hcodes : ∀ code ∈ codes, 1 ≤ code ∧ code ≤ 21) :
    let results := cellsFrom (Cursor.ofBytes data) codes
    results.length = codes.length ∧
    (0 :: results.map fun r => (after r).pos).Pairwise (· ≤ ·) ∧
    (∀ r ∈ results, (after r).pos ≤ data.length) ∧
    ∀ x ∈ codes.zip results, ∀ e c, x.2 = .error e c →
      e = .tooGreat ∧ ∃ k ∈ fixedKinds, x.1 = k.code := by
  intro results
  have hlength : ∀ (codes : List Int) (c : Cursor), (cellsFrom c codes).length = codes.length := by
    intro codes
    induction codes with
    | nil => exact fun _ => rfl
    | cons code codes ih => exact fun c => congrArg (· + 1) (ih _)
  have hc := Cursor.between_ofBytes data
  obtain ⟨hsorted, hlimit, hfaults⟩ := cellsFrom_advance hcodes hc rfl
  rw [hc.limit_eq, List.nil_append] at hlimit
  exact ⟨hlength _ _, hsorted, hlimit, hfaults⟩

def greatDigits : Bytes :=
  List.replicate 147 0xFF ++ [0x7F]

lemma isGroup_greatDigits (rest : Bytes) : IsGroup rest greatDigits := by
  have h (n : Nat) : IsGroup rest (List.replicate n 0xFF ++ [0x7F]) := by
    induction n with
    | zero => rfl
    | succ n ih => exact .inr ih
  exact h 147

lemma fix_greatDigits (hc : c.Between pre (greatDigits ++ 1 :: rest)) :
    fix c = .error .tooGreat ((c.advance greatDigits.length).advance 1) := by
  have hgreat : groupNumber greatDigits ≠ 0 ∧
      (Binary64.ofIntRatio? (groupNumber greatDigits) 10).isNone = true := by
    decide +kernel
  have hfixed : fixedPoint (groupNumber greatDigits) (UInt8.toNat 1 % 128) = .error .tooGreat := by
    have hten : Nat.pow 10 (UInt8.toNat 1 % 128 : Int).toNat = 10 := rfl
    rw [fixedPoint, if_pos (by decide), hten, Option.isNone_iff_eq_none.mp hgreat.2]
  rw [fix, digits_eq, bind_of_ok (variant_group (isGroup_greatDigits _) hc), numberRead,
    if_neg hgreat.1]
  dsimp only
  rw [bind_of_ok (octet_cons hc.advance)]
  dsimp only
  rw [if_pos (by decide), hfixed]
  rfl

/-- A number that is too great is passed over, and the mark behind it is read. -/
theorem cells_stay_inside_too_great :
    let results := cellsFrom (Cursor.ofBytes (greatDigits ++ [1, 1])) [3, 1]
    (∃ c c', results = [.error .tooGreat c, .ok .yes c']) ∧
      (0 :: results.map fun r => (after r).pos).Pairwise (· ≤ ·) ∧
      ∀ r ∈ results, (after r).pos ≤ (greatDigits ++ [1, 1]).length := by
  obtain ⟨-, hsorted, hinside, -⟩ := cells_stay_inside (greatDigits ++ [1, 1]) [3, 1] (by decide)
  refine ⟨?_, hsorted, hinside⟩
  have hc := Cursor.between_ofBytes (greatDigits ++ [1, 1])
  have hfirst : cell (some 3) (Cursor.ofBytes (greatDigits ++ [1, 1])) = _ := fix_greatDigits hc
  have hsecond : cell (some 1) (after (EStateM.Result.error (α := Value) ReadFault.tooGreat
      (((Cursor.ofBytes (greatDigits ++ [1, 1])).advance greatDigits.length).advance 1))) =
      .ok .yes _ :=
    bind_of_ok (octet_cons (hc.advance.advance (a := [1])))
  rw [cellsFrom, hfirst, cellsFrom, hsecond]
  exact ⟨_, _, rfl⟩

end Read

end Salvage.Table
