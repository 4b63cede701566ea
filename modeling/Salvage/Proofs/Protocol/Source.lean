import Mathlib.Data.List.DropRight
import Salvage.Proofs.Job
import Salvage.Proofs.Number.Decimal
import Salvage.Proofs.Text.Utf8
import Salvage.Protocol.Merge

/-!
# Definitions that are written and read

Definitions are written one after the other, with white space between their parts: a name, an equals
sign and a block in braces, which holds the number of a message and the fields. Blocks are looked for
at every name and fields at every brace, and no name or description can be taken for one, since it
holds no brace. So the definitions that are read are those that were written, in their order, unless a
number has more digits than are taken.
-/

namespace Salvage

/-! ## Characters -/

namespace Text

lemma Ranges.mem_imp {code : Nat} {rs : Ranges} (h : rs.mem code = true) :
    code ∈ rs.flatMap fun r => List.range' r.1 (r.2 + 1 - r.1) := by
  induction rs with
  | nil => exact nomatch h
  | cons r rs ih =>
    obtain ⟨low, high⟩ := r
    rw [mem] at h
    rw [List.flatMap_cons, List.mem_append]
    split_ifs at h with hlow hhigh
    · exact .inl (List.mem_range'_1.mpr ⟨by omega, by simp; omega⟩)
    · exact .inr (ih h)

/-- **White space** is neither in words nor among digits, and is no visible character of ASCII. -/
lemma of_isBlank {c : Char} (h : isBlank c = true) :
    isWord c = false ∧ isDecimal c = false ∧ ∀ d : Char, 32 < d.toNat → d.toNat < 127 → c ≠ d := by
  have hcodes : ∀ n ∈ blankRanges.flatMap fun r => List.range' r.1 (r.2 + 1 - r.1),
      (n ≠ 95 ∧ alphanumericRanges.mem n = false) ∧ decimalRanges.mem n = false ∧ (n ≤ 32 ∨ 127 ≤ n) := by
    decide +kernel
  obtain ⟨⟨hline, hword⟩, hdecimal, hcode⟩ := hcodes _ (Ranges.mem_imp h)
  refine ⟨?_, hdecimal, fun d hlow hhigh hd => by subst hd; omega⟩
  rw [isWord, isAlphanumeric, hword, Bool.or_false, beq_eq_false_iff_ne]
  rintro rfl
  exact hline rfl

lemma isBlank_of_isLineEnd {c : Char} (h : isLineEnd c = true) : isBlank c = true := by
  have hcodes : ∀ n ∈ [0xA, 0xB, 0xC, 0xD, 0x1C, 0x1D, 0x1E, 0x85, 0x2028, 0x2029],
      blankRanges.mem n = true := by
    decide
  exact hcodes _ (List.contains_iff_mem.mp h)

end Text

namespace Protocol

/-! ## What is written -/

lemma forall_mem_of_all {p : Char → Prop} [DecidablePred p] {cs : List Char}
    (h : cs.all (fun c => decide (p c)) = true) : ∀ c ∈ cs, p c :=
  fun c hc => of_decide_eq_true (List.all_eq_true.mp h c hc)

abbrev Gap := { cs : List Char // ∀ c ∈ cs, Text.isBlank c = true ∧ c ≠ '\r' }

def IsPlain (c : Char) : Prop :=
  c ≠ '"' ∧ c ≠ '{' ∧ c ≠ '}' ∧ c ≠ '\r'

instance (c : Char) : Decidable (IsPlain c) :=
  inferInstanceAs (Decidable (_ ∧ _ ∧ _ ∧ _))

/-- A field with the white space between its parts, its type in quotes or not, and perhaps a comma
behind it. -/
structure FieldText where
  field : Field
  quotes : Bool
  comma : Bool
  gaps : Fin 9 → Gap
  name_ne : field.name ≠ ""
  name_plain : ∀ c ∈ field.name.toList, IsPlain c
  type_ne : field.type ≠ ""
  type_word : ∀ c ∈ field.type.toList, Text.isWord c = true
  description_plain : ∀ c ∈ field.description.toList, IsPlain c

namespace FieldText

variable (f : FieldText)

def typeChars : List Char :=
  if f.quotes then '"' :: f.field.type.toList ++ ['"'] else f.field.type.toList

def lastChars : List Char :=
  if f.field.repeated then
    f.gaps 5 ++ ',' :: (f.gaps 6 ++ '"' :: ("repeated".toList ++ '"' :: (f.gaps 7).val))
  else f.gaps 5

/-- What stands between the braces. -/
def inner : List Char :=
  f.gaps 0 ++ '"' :: (f.field.name.toList ++ '"' :: (f.gaps 1 ++ ',' :: (f.gaps 2 ++ (f.typeChars ++
    (f.gaps 3 ++ ',' :: (f.gaps 4 ++ '"' :: (f.field.description.toList ++ '"' :: f.lastChars)))))))

def behind : List Char :=
  (if f.comma then [','] else []) ++ f.gaps 8

def chars : List Char :=
  '{' :: (f.inner ++ '}' :: f.behind)

end FieldText

/-! ## Parts of a field -/

variable {a r : List Char} {c d : Char}

lemma skipBlanks_gap (g : Gap) (hc : Text.isBlank c = false) :
    skipBlanks (g ++ c :: r) = c :: r := by
  rw [skipBlanks, List.dropWhile_append_of_pos fun c hc => (g.2 c hc).1,
    List.dropWhile_cons_of_neg (by simp [hc])]

lemma after?_gap (g : Gap) (hd : Text.isBlank d = false) :
    after? c (g ++ d :: r) = if d = c then some r else none := by
  rw [after?, skipBlanks_gap g hd]

lemma quoted?_append (h : ∀ c ∈ a, IsPlain c) : quoted? ('"' :: (a ++ '"' :: r)) = some (a, r) := by
  have hne : ∀ c ∈ a, (c != '"') = true := fun c hc => bne_iff_ne.mpr (h c hc).1
  rw [quoted?, List.dropWhile_append_of_pos hne, List.takeWhile_append_of_pos hne]
  simp

lemma word?_gap {quotes : Bool} (g g' : Gap) (hne : a ≠ []) (ha : ∀ c ∈ a, Text.isWord c = true)
    (hd : Text.isWord d = false ∧ d ≠ '"') :
    word? (skipBlanks (g ++ ((if quotes then '"' :: a ++ ['"'] else a) ++ (g' ++ d :: r)))) =
      some (a, g' ++ d :: r) := by
  have hquote : Text.isWord '"' = false ∧ Text.isBlank '"' = false := by decide
  have hnext : ∃ e r', g'.val ++ d :: r = e :: r' ∧ Text.isWord e = false ∧ e ≠ '"' := by
    cases hg : g'.val with
    | nil => exact ⟨d, r, rfl, hd⟩
    | cons e r' =>
      have he := Text.of_isBlank (g'.2 e (by simp [hg])).1
      exact ⟨e, r' ++ d :: r, rfl, he.1, he.2.2 _ (by decide) (by decide)⟩
  obtain ⟨e, r', hr, he, hne'⟩ := hnext
  obtain ⟨x, xs, rfl⟩ := List.exists_cons_of_ne_nil hne
  have hx := ha x List.mem_cons_self
  have hblank : Text.isBlank x = false := by
    by_contra hx'
    rw [(Text.of_isBlank (Bool.not_eq_false _ ▸ hx')).1] at hx
    cases hx
  have hxq : x ≠ '"' := by
    rintro rfl
    exact nomatch hx.symm.trans hquote.1
  have hdrop (y : Char) (l : List Char) (hy : y ≠ '"') : dropQuote (y :: l) = y :: l := by
    unfold dropQuote
    split
    · simp_all
    · rfl
  rw [hr]
  cases quotes with
  | true =>
    have hassoc : g.val ++ ((if true then '"' :: (x :: xs) ++ ['"'] else x :: xs) ++ e :: r') =
        g ++ '"' :: (x :: xs ++ '"' :: e :: r') := by simp
    rw [hassoc, skipBlanks_gap g hquote.2, word?, dropQuote, List.takeWhile_append_of_pos ha,
      List.dropWhile_append_of_pos ha]
    simp [hquote.1, dropQuote]
  | false =>
    have hassoc : g.val ++ ((if false then '"' :: (x :: xs) ++ ['"'] else x :: xs) ++ e :: r') =
        g ++ x :: (xs ++ e :: r') := by simp
    rw [hassoc, skipBlanks_gap g hblank, word?, hdrop x _ hxq, ← List.cons_append,
      List.takeWhile_append_of_pos ha, List.dropWhile_append_of_pos ha]
    simp [he, hdrop e r' hne']

lemma field?_chars (f : FieldText) (r : List Char) :
    field? ('{' :: (f.inner ++ '}' :: r)) = some (f.field, r) := by
  have hmarks : (Text.isBlank '"' = false ∧ Text.isBlank ',' = false ∧ Text.isBlank '}' = false) ∧
      Text.isWord ',' = false ∧ Text.isWord '}' = false ∧
      "repeated".toList.all Text.isWord = true := by
    decide
  obtain ⟨⟨hquote, hcomma, hbrace⟩, hcomma', hbrace', hrepeated⟩ := hmarks
  rw [List.all_eq_true] at hrepeated
  have htype : f.field.type.toList ≠ [] := by simpa using f.type_ne
  -- what is left behind the description, behind the second comma and behind the name
  let behind := f.lastChars ++ '}' :: r
  let second := f.gaps 4 ++ '"' :: (f.field.description.toList ++ '"' :: behind)
  let first := f.gaps 2 ++ (f.typeChars ++ (f.gaps 3 ++ ',' :: second))
  have hname : quoted? (skipBlanks (f.inner ++ '}' :: r)) =
      some (f.field.name.toList, f.gaps 1 ++ ',' :: first) := by
    have hinner : f.inner ++ '}' :: r =
        f.gaps 0 ++ '"' :: (f.field.name.toList ++ '"' :: (f.gaps 1 ++ ',' :: first)) := by
      simp [FieldText.inner, first, second, behind]
    rw [hinner, skipBlanks_gap _ hquote, quoted?_append f.name_plain]
  have hword : word? (skipBlanks first) = some (f.field.type.toList, f.gaps 3 ++ ',' :: second) :=
    word?_gap _ _ htype f.type_word ⟨hcomma', by decide⟩
  have hdescription : quoted? (skipBlanks second) = some (f.field.description.toList, behind) := by
    rw [skipBlanks_gap _ hquote, quoted?_append f.description_plain]
  have hlast : lastWord? behind =
      if f.field.repeated then some ("repeated".toList, f.gaps 7 ++ '}' :: r) else none := by
    cases hcase : f.field.repeated with
    | false =>
      simp only [behind, FieldText.lastChars, hcase, lastWord?]
      simp [after?_gap _ hbrace]
    | true =>
      have hbehind : behind = f.gaps 5 ++ ',' :: (f.gaps 6 ++
          ((if true then '"' :: "repeated".toList ++ ['"'] else "repeated".toList) ++
            (f.gaps 7 ++ '}' :: r))) := by
        simp [behind, FieldText.lastChars, hcase]
      rw [hbehind, lastWord?, after?_gap _ hcomma, if_pos rfl, Option.bind_some,
        word?_gap _ _ (by decide) hrepeated ⟨hbrace', by decide⟩]
      rfl
  have hempty : f.field.name.toList.isEmpty = false := by simpa using f.name_ne
  simp only [field?, Option.bind_eq_bind, Option.bind_some, hname, hempty, after?_gap _ hcomma, hword,
    hdescription, hlast, if_true, Bool.false_eq_true, if_false]
  have hfield (b : Bool) (hb : f.field.repeated = b) : ({ f.field with repeated := b } : Field) = f.field := by
    rw [← hb]
  cases hcase : f.field.repeated with
  | false =>
    simp only [behind, FieldText.lastChars, hcase, Bool.false_eq_true, if_false, after?_gap _ hbrace,
      if_true, String.ofList_toList]
    exact congrArg (fun x => some (x, r)) (hfield false hcase)
  | true =>
    simp only [if_true, after?_gap _ hbrace, String.ofList_toList]
    exact congrArg (fun x => some (x, r)) (hfield true hcase)

/-! ## Fields -/

def IsTame (c : Char) : Prop :=
  c ≠ '{' ∧ c ≠ '}' ∧ c ≠ '\r'

instance (c : Char) : Decidable (IsTame c) :=
  inferInstanceAs (Decidable (_ ∧ _ ∧ _))

lemma Gap.isTame (g : Gap) : ∀ c ∈ g.val, IsTame c := fun c hc => by
  have hvisible := (Text.of_isBlank (g.2 c hc).1).2.2
  exact ⟨hvisible _ (by decide) (by decide), hvisible _ (by decide) (by decide), (g.2 c hc).2⟩

lemma isTame_of_isPlain (h : ∀ c ∈ a, IsPlain c) : ∀ c ∈ a, IsTame c :=
  fun c hc => (h c hc).2

lemma isTame_of_isWord (h : ∀ c ∈ a, Text.isWord c = true) : ∀ c ∈ a, IsTame c := by
  have hmarks : Text.isWord '{' = false ∧ Text.isWord '}' = false ∧ Text.isWord '\r' = false := by
    decide
  intro c hc
  have hword := h c hc
  refine ⟨?_, ?_, ?_⟩ <;> rintro rfl <;> simp [hmarks] at hword

lemma FieldText.inner_tame (f : FieldText) : ∀ c ∈ f.inner, IsTame c := by
  have htype : ∀ c ∈ f.typeChars, IsTame c := by
    have hword := isTame_of_isWord f.type_word
    unfold typeChars
    split
    · exact List.forall_mem_append.mpr ⟨List.forall_mem_cons.mpr ⟨by decide, hword⟩,
        forall_mem_of_all (by decide)⟩
    · exact hword
  have hlast : ∀ c ∈ f.lastChars, IsTame c := by
    unfold lastChars
    split
    · simp only [List.forall_mem_append, List.forall_mem_cons]
      exact ⟨(f.gaps 5).isTame, by decide, (f.gaps 6).isTame, by decide,
        forall_mem_of_all (by decide), by decide, (f.gaps 7).isTame⟩
    · exact (f.gaps 5).isTame
  simp only [inner, List.forall_mem_append, List.forall_mem_cons]
  exact ⟨(f.gaps 0).isTame, by decide, isTame_of_isPlain f.name_plain, by decide, (f.gaps 1).isTame,
    by decide, (f.gaps 2).isTame, htype, (f.gaps 3).isTame, by decide, (f.gaps 4).isTame, by decide,
    isTame_of_isPlain f.description_plain, by decide, hlast⟩

lemma FieldText.behind_tame (f : FieldText) : ∀ c ∈ f.behind, IsTame c := by
  refine List.forall_mem_append.mpr ⟨?_, (f.gaps 8).isTame⟩
  split <;> exact forall_mem_of_all (by decide)

lemma FieldText.chars_append (f : FieldText) (r : List Char) :
    f.chars ++ r = '{' :: (f.inner ++ '}' :: (f.behind ++ r)) := by
  simp [chars]

def FieldsAre (cs : List Char) (fs : List Field) : Prop :=
  ∀ fuel, cs.length ≤ fuel → fieldsFrom fuel cs = fs

lemma FieldsAre.skip {fs : List Field} (ha : ∀ c ∈ a, c ≠ '{') (h : FieldsAre r fs) :
    FieldsAre (a ++ r) fs := by
  induction a with
  | nil => exact h
  | cons c a ih =>
    have hnone : field? (c :: (a ++ r)) = none := by
      unfold field?
      split
      · rename_i heq
        exact absurd (List.cons.inj heq).1 (ha c List.mem_cons_self)
      · rfl
    intro fuel hfuel
    cases fuel with
    | zero => simp at hfuel
    | succ fuel =>
      rw [List.cons_append, fieldsFrom, hnone]
      exact ih (fun x hx => ha x (List.mem_cons_of_mem _ hx)) fuel (by simpa using hfuel)

lemma fieldsAre_chars (fs : List FieldText) :
    FieldsAre (fs.flatMap FieldText.chars) (fs.map FieldText.field) := by
  induction fs with
  | nil => exact fun fuel _ => by cases fuel <;> rfl
  | cons f fs ih =>
    intro fuel hfuel
    rw [List.flatMap_cons, f.chars_append] at hfuel ⊢
    cases fuel with
    | zero => simp at hfuel
    | succ fuel =>
      simp only [List.length_cons, List.length_append] at hfuel
      rw [fieldsFrom, field?_chars, List.map_cons]
      exact congrArg (f.field :: ·) (ih.skip (fun c hc => (f.behind_tame c hc).1) fuel
        (by rw [List.length_append]; omega))

/-! ## Blocks -/

/-- A definition with the white space between its parts, and perhaps a comma behind its number. -/
structure DefinitionText where
  name : String
  number : Option Nat
  comma : Bool
  gaps : Fin 5 → Gap
  fields : List FieldText
  name_ne : name ≠ ""
  name_chars : ∀ c ∈ name.toList, isNameChar c = true

namespace DefinitionText

variable (d : DefinitionText)

def numberChars : List Char :=
  match d.number with
  | none => []
  | some n => (Decimal.nat n).toList ++ ((if d.comma then [','] else []) ++ d.gaps 4)

/-- What stands between the braces. -/
def body : List Char :=
  d.gaps 3 ++ (d.numberChars ++ d.fields.flatMap FieldText.chars)

def chars : List Char :=
  d.gaps 0 ++ (d.name.toList ++ (d.gaps 1 ++ '=' :: (d.gaps 2 ++ '{' :: (d.body ++ ['}']))))

def key : Key :=
  d.number.elim (.name d.name) .number

def definition : Definition :=
  ⟨d.name, d.fields.map FieldText.field⟩

end DefinitionText

def script (ds : List DefinitionText) (last : Gap) : List Char :=
  ds.flatMap DefinitionText.chars ++ last

def BlocksAre (cs : List Char) (bs : List (String × String)) : Prop :=
  ∀ fuel, cs.length ≤ fuel → blocksFrom fuel cs = bs

variable {bs : List (String × String)} {x : Char}

lemma isNameChar_of_isBlank (h : Text.isBlank c = true) : isNameChar c = false := by
  by_contra hname
  have hcode : 32 < c.toNat ∧ c.toNat < 127 := by
    rw [isNameChar] at hname
    delta Char.isAlphanum Char.isAlpha Char.isUpper Char.isLower Char.isDigit at hname
    simp only [Bool.not_eq_false, Bool.or_eq_true, Bool.and_eq_true, decide_eq_true_eq, beq_iff_eq,
      ge_iff_le, UInt32.le_iff_toNat_le] at hname
    rcases hname with ((h | h) | h) | rfl
    · exact ⟨Nat.lt_of_lt_of_le (by decide) h.1, Nat.lt_of_le_of_lt h.2 (by decide)⟩
    · exact ⟨Nat.lt_of_lt_of_le (by decide) h.1, Nat.lt_of_le_of_lt h.2 (by decide)⟩
    · exact ⟨Nat.lt_of_lt_of_le (by decide) h.1, Nat.lt_of_le_of_lt h.2 (by decide)⟩
    · decide
  exact (Text.of_isBlank h).2.2 c hcode.1 hcode.2 rfl

lemma BlocksAre.skip (ha : ∀ c ∈ a, isNameChar c = false) (h : BlocksAre r bs) : BlocksAre (a ++ r) bs := by
  induction a with
  | nil => exact h
  | cons c a ih =>
    intro fuel hfuel
    cases fuel with
    | zero => simp at hfuel
    | succ fuel =>
      rw [List.cons_append, blocksFrom, ha c List.mem_cons_self]
      exact ih (fun x hx => ha x (List.mem_cons_of_mem _ hx)) fuel (by simpa using hfuel)

lemma dropWhile_append_cons {p : Char → Bool} (hx : p x = false) :
    (a ++ x :: r).dropWhile p = a.dropWhile p ++ x :: r := by
  induction a with
  | nil => simp [hx]
  | cons c a ih =>
    cases hc : p c <;> simp [hc, ih]

lemma takeWhile_append_cons {p : Char → Bool} (hx : p x = false) :
    (a ++ x :: r).takeWhile p = a.takeWhile p := by
  induction a with
  | nil => simp [hx]
  | cons c a ih =>
    cases hc : p c <;> simp [hc, ih]

lemma after?_append {s : List Char} (hx : Text.isBlank x = false) (hne : x ≠ c)
    (h : after? c (a ++ x :: r) = some s) : ∃ a', a' ⊆ a ∧ c ∈ a ∧ s = a' ++ x :: r := by
  have hsubset : a.dropWhile Text.isBlank ⊆ a := (List.dropWhile_sublist _).subset
  rw [after?, skipBlanks, dropWhile_append_cons hx] at h
  cases hdrop : a.dropWhile Text.isBlank with
  | nil => simp [hdrop, hne] at h
  | cons y a' =>
    rw [hdrop] at hsubset
    simp only [hdrop, List.cons_append, Option.ite_none_right_eq_some, Option.some.injEq] at h
    exact ⟨a', fun c hc => hsubset (List.mem_cons_of_mem _ hc), h.1 ▸ hsubset List.mem_cons_self, h.2.symm⟩

structure IsMark (x : Char) : Prop where
  blank : Text.isBlank x = false
  name : isNameChar x = false
  equals : x ≠ '='

/-- **No block is opened** before a mark, if no equals sign or no brace comes before it. -/
lemma BlocksAre.quiet (hx : IsMark x) (ha : '=' ∉ a ∨ '{' ∉ a ∧ x ≠ '{') (h : BlocksAre (x :: r) bs) :
    BlocksAre (a ++ x :: r) bs := by
  induction hn : a.length using Nat.strong_induction_on generalizing a with
  | _ n ih =>
    cases a with
    | nil => exact h
    | cons c a =>
      have htail {b : List Char} (hb : b ⊆ c :: a) : '=' ∉ b ∨ '{' ∉ b ∧ x ≠ '{' :=
        ha.imp (fun h hc => h (hb hc)) fun h => ⟨fun hc => h.1 (hb hc), h.2⟩
      intro fuel hfuel
      cases fuel with
      | zero => simp at hfuel
      | succ fuel =>
        rw [List.cons_append, blocksFrom]
        cases hc : isNameChar c with
        | false =>
          exact ih a.length (by simp [← hn]) (htail (List.subset_cons_self _ _)) rfl fuel
            (by simpa using hfuel)
        | true =>
          let b := (c :: a).dropWhile isNameChar
          have hb : b ⊆ c :: a := (List.dropWhile_sublist _).subset
          have hlength : b.length ≤ a.length := by
            simp only [b, List.dropWhile_cons_of_pos hc]
            exact (List.dropWhile_sublist _).length_le
          have hrest : (c :: (a ++ x :: r)).dropWhile isNameChar = b ++ x :: r :=
            dropWhile_append_cons (a := c :: a) hx.name
          have hnone : opened? (b ++ x :: r) = none := by
            by_contra hsome
            obtain ⟨inner, hinner⟩ := Option.ne_none_iff_exists'.mp hsome
            obtain ⟨s, hs, hbrace⟩ := Option.bind_eq_some_iff.mp hinner
            obtain ⟨b', hb', hequals, rfl⟩ := after?_append hx.blank hx.equals hs
            obtain hno | ⟨hno, hne⟩ := htail hb
            · exact hno hequals
            · obtain ⟨-, -, hmem, -⟩ := after?_append hx.blank hne hbrace
              exact hno (hb' hmem)
          simp only [Bool.not_true, Bool.false_eq_true, if_false, hrest, hnone]
          rw [List.length_cons] at hn
          refine ih b.length (by omega) (htail hb) rfl fuel ?_
          simp only [List.length_append, List.length_cons] at hfuel ⊢
          omega

lemma BlocksAre.head {name body : List Char} (g g' : Gap) (hne : name ≠ [])
    (hname : ∀ c ∈ name, isNameChar c = true) (hbody : content r = body) (h : BlocksAre r bs) :
    BlocksAre (name ++ (g ++ '=' :: (g' ++ '{' :: r))) ((String.ofList name, String.ofList body) :: bs) := by
  have hmarks : Text.isBlank '=' = false ∧ Text.isBlank '{' = false ∧ isNameChar '=' = false := by decide
  obtain ⟨c, cs, rfl⟩ := List.exists_cons_of_ne_nil hne
  have hrest : ∃ y l, g.val ++ '=' :: (g' ++ '{' :: r) = y :: l ∧ isNameChar y = false := by
    cases hg : g.val with
    | nil => exact ⟨_, _, rfl, hmarks.2.2⟩
    | cons y l => exact ⟨_, _, rfl, isNameChar_of_isBlank (g.2 y (by simp [hg])).1⟩
  have hopened : opened? (g ++ '=' :: (g' ++ '{' :: r)) = some r := by
    rw [opened?, after?_gap g hmarks.1, if_pos rfl, Option.bind_some, after?_gap g' hmarks.2.1, if_pos rfl]
  obtain ⟨y, l, hl, hy⟩ := hrest
  intro fuel hfuel
  cases fuel with
  | zero => simp at hfuel
  | succ fuel =>
    have htake : (c :: (cs ++ y :: l)).takeWhile isNameChar = c :: cs := by
      rw [← List.cons_append, List.takeWhile_append_of_pos hname]
      simp [hy]
    have hdrop : (c :: (cs ++ y :: l)).dropWhile isNameChar = y :: l := by
      rw [← List.cons_append, List.dropWhile_append_of_pos hname]
      simp [hy]
    simp only [List.length_append, List.length_cons] at hfuel
    have hinner := h fuel (by omega)
    rw [hl] at hopened ⊢
    rw [List.cons_append, blocksFrom, htake, hdrop, hname c List.mem_cons_self]
    simp [hopened, hbody, hinner]

/-! ## Definitions -/

lemma untilClosed_append (ha : ∀ c ∈ a, IsTame c) (depth : Nat) :
    untilClosed depth (a ++ r) = (a ++ (untilClosed depth r).1, (untilClosed depth r).2) := by
  induction a with
  | nil => rfl
  | cons c a ih =>
    obtain ⟨hopen, hclose, -⟩ := ha c List.mem_cons_self
    have ih := ih fun x hx => ha x (List.mem_cons_of_mem _ hx)
    rw [List.cons_append, untilClosed]
    · rw [ih]
      rfl
    · exact hopen
    · exact fun _ => hclose
    · exact fun _ _ => hclose

lemma untilClosed_fields (fs : List FieldText) :
    untilClosed 0 (fs.flatMap FieldText.chars ++ '}' :: r) = (fs.flatMap FieldText.chars, true) := by
  induction fs with
  | nil => rfl
  | cons f fs ih =>
    rw [List.flatMap_cons, List.append_assoc, f.chars_append, untilClosed, untilClosed_append f.inner_tame,
      untilClosed, untilClosed_append f.behind_tame, ih, f.chars_append]

namespace DefinitionText

variable (d : DefinitionText)

lemma numberChars_tame : ∀ c ∈ d.gaps 3 ++ d.numberChars, IsTame c ∧ c ≠ '=' := by
  have hgap (g : Gap) : ∀ c ∈ g.val, IsTame c ∧ c ≠ '=' := fun c hc =>
    ⟨g.isTame c hc, (Text.of_isBlank (g.2 c hc).1).2.2 _ (by decide) (by decide)⟩
  refine List.forall_mem_append.mpr ⟨hgap _, ?_⟩
  unfold numberChars
  split
  · simp
  · refine List.forall_mem_append.mpr ⟨fun c hc => ?_, List.forall_mem_append.mpr ⟨?_, hgap _⟩⟩
    · have hdigit := Decimal.isDigit_of_mem_nat hc
      refine ⟨⟨?_, ?_, ?_⟩, ?_⟩ <;> rintro rfl <;> exact absurd hdigit (by decide)
    · split <;> exact forall_mem_of_all (by decide)

lemma content_body : content (d.body ++ '}' :: r) = d.body := by
  rw [content, body, ← List.append_assoc, List.append_assoc,
    untilClosed_append fun c hc => (d.numberChars_tame c hc).1, untilClosed_fields]
  rfl

lemma blocksAre_chars (h : BlocksAre r bs) :
    BlocksAre (d.chars ++ r) ((d.name, String.ofList d.body) :: bs) := by
  have hmarks : IsMark '{' ∧ IsMark '}' := ⟨⟨by decide, by decide, by decide⟩, by decide, by decide, by decide⟩
  have hgap (g : Gap) : ∀ c ∈ g.val, isNameChar c = false := fun c hc =>
    isNameChar_of_isBlank (g.2 c hc).1
  have hfields (fs : List FieldText) : BlocksAre (fs.flatMap FieldText.chars ++ '}' :: r) bs := by
    induction fs with
    | nil => exact .skip (a := ['}']) (forall_mem_of_all (by decide)) h
    | cons f fs ih =>
      have hbehind : ∀ c ∈ '}' :: f.behind, isNameChar c = false := by
        refine List.forall_mem_cons.mpr ⟨by decide, List.forall_mem_append.mpr ⟨?_, hgap _⟩⟩
        split <;> exact forall_mem_of_all (by decide)
      rw [List.flatMap_cons, List.append_assoc, f.chars_append]
      refine .skip (a := ['{']) (forall_mem_of_all (by decide))
        (.quiet hmarks.2 (.inr ⟨fun hmem => ?_, by decide⟩) ?_)
      · exact (f.inner_tame _ hmem).1 rfl
      · exact .skip (a := '}' :: f.behind) hbehind ih
  -- the number stands before the brace of the first field, or the one that closes the block
  have hbody : BlocksAre (d.body ++ '}' :: r) bs := by
    have hno : '=' ∉ d.gaps 3 ++ d.numberChars := fun hmem => (d.numberChars_tame _ hmem).2 rfl
    have hhead : ∃ x s, d.fields.flatMap FieldText.chars ++ '}' :: r = x :: s ∧ IsMark x := by
      cases d.fields with
      | nil => exact ⟨_, _, rfl, hmarks.2⟩
      | cons f fs => exact ⟨_, _, rfl, hmarks.1⟩
    obtain ⟨x, s, hs, hx⟩ := hhead
    have hfields := hfields d.fields
    have hsplit : d.body ++ '}' :: r = (d.gaps 3 ++ d.numberChars) ++ x :: s := by simp [body, ← hs]
    rw [hs] at hfields
    rw [hsplit]
    exact .quiet hx (.inl hno) hfields
  have hblock := (hbody.head (d.gaps 1) (d.gaps 2) (by simpa using d.name_ne) d.name_chars
    d.content_body).skip (hgap (d.gaps 0))
  simpa [chars] using hblock

end DefinitionText

/-! ## Numbers -/

section

open Text

lemma takeWhile_rdropWhile {p q : Char → Bool} (h : ∀ c, p c = true → q c = false) (cs : List Char) :
    (cs.rdropWhile p).takeWhile q = cs.takeWhile q := by
  induction cs using List.reverseRecOn with
  | nil => rfl
  | append_singleton cs c ih =>
    by_cases hc : p c
    · rw [List.rdropWhile_concat_pos _ _ _ hc, ih, takeWhile_append_cons (h c hc)]
    · rw [List.rdropWhile_concat_neg _ _ _ hc]

lemma takeWhile_firstLine (cs : List Char) :
    (cs.takeWhile fun c => !isLineEnd c).takeWhile isDecimal = cs.takeWhile isDecimal := by
  induction cs with
  | nil => rfl
  | cons c cs ih =>
    cases hc : isLineEnd c with
    | false => cases hd : isDecimal c <;> simp [hc, hd, ih]
    | true => simp [hc, (of_isBlank (isBlank_of_isLineEnd hc)).2.1]

variable {line : List Char}

lemma linesOnto_cons (hc : c ≠ '\r') (r : List Char) : linesOnto line (c :: r) =
    if isLineEnd c then line.reverse :: linesOnto [] r else linesOnto (c :: line) r := by
  rw [linesOnto]
  exact fun _ h => absurd h hc

lemma linesOnto_eq (hline : line ≠ []) (hr : '\r' ∉ r) :
    ∃ ls, linesOnto line r = (line.reverse ++ r.takeWhile fun c => !isLineEnd c) :: ls := by
  induction r generalizing line with
  | nil => exact ⟨[], by simp [linesOnto, hline]⟩
  | cons c r ih =>
    obtain ⟨hc, hr⟩ := not_or.mp (mt List.mem_cons.mpr hr)
    rw [linesOnto_cons (Ne.symm hc)]
    cases hend : isLineEnd c with
    | true => exact ⟨_, by simp [hend]; rfl⟩
    | false =>
      obtain ⟨ls, hls⟩ := ih (List.cons_ne_nil c line) hr
      exact ⟨ls, by simp [hend, hls]⟩

def visibleLines (line cs : List Char) : List String :=
  ((linesOnto line cs).map String.ofList).filter fun l => !(strip l).isEmpty

lemma strip_append (ha : ∀ c ∈ a, isBlank c = true) (hc : isBlank c = false) :
    strip (String.ofList (a ++ c :: r)) = String.ofList ((c :: r).rdropWhile isBlank) := by
  rw [strip, String.toList_ofList, stripWhere, List.dropWhile_append_of_pos ha,
    List.dropWhile_cons_of_neg (by simp [hc])]
  rfl

lemma strip_of_isBlank (ha : ∀ c ∈ a, isBlank c = true) : (strip (String.ofList a)).isEmpty = true := by
  simp [strip, stripWhere, List.dropWhile_eq_nil_iff.mpr ha]

lemma visibleLines_gap (g : Gap) (hline : ∀ c ∈ line, isBlank c = true) :
    ∃ line', (∀ c ∈ line', isBlank c = true) ∧ visibleLines line (g ++ r) = visibleLines line' r := by
  obtain ⟨g, hg⟩ := g
  induction g generalizing line with
  | nil => exact ⟨line, hline, rfl⟩
  | cons c g ih =>
    obtain ⟨⟨hblank, hc⟩, hg⟩ := List.forall_mem_cons.mp hg
    rw [visibleLines, List.cons_append, linesOnto_cons hc]
    cases isLineEnd c with
    | true =>
      have hempty := strip_of_isBlank (a := line.reverse) (by simpa using hline)
      obtain ⟨line', hline', heq⟩ := ih (List.forall_mem_nil _) hg
      refine ⟨line', hline', ?_⟩
      rw [← heq]
      simp [visibleLines, hempty]
    | false => exact ih (List.forall_mem_cons.mpr ⟨hblank, hline⟩) hg

lemma leadingDigits_append (g : Gap) (hr : '\r' ∉ r)
    (hhead : ∀ c s, r = c :: s → isBlank c = false ∧ c ≠ ',') :
    leadingDigits (String.ofList (g ++ r)) = r.takeWhile isDecimal := by
  obtain ⟨line, hline, hlines⟩ := visibleLines_gap (r := r) g (List.forall_mem_nil _)
  rw [visibleLines] at hlines
  rw [leadingDigits, lines, String.toList_ofList, hlines]
  cases r with
  | nil =>
    have hempty := strip_of_isBlank (a := line.reverse) (by simpa using hline)
    cases line with
    | nil => rfl
    | cons c line =>
      have hnone : visibleLines (c :: line) [] = [] := List.filter_cons_of_neg (by rw [hempty]; decide)
      rw [hnone]
      rfl
  | cons c r =>
    obtain ⟨hblank, hcomma⟩ := hhead c r rfl
    obtain ⟨hc, hr⟩ := not_or.mp (mt List.mem_cons.mpr hr)
    have hend : isLineEnd c = false := by
      by_contra hend
      rw [isBlank_of_isLineEnd (Bool.not_eq_false _ ▸ hend)] at hblank
      cases hblank
    obtain ⟨ls, hls⟩ := linesOnto_eq (List.cons_ne_nil c line) hr
    -- the line without white space at its end starts with the same character
    let rest := (c :: r.takeWhile fun c => !isLineEnd c).rdropWhile isBlank
    have hstrip : strip (String.ofList ((c :: line).reverse ++ r.takeWhile fun c => !isLineEnd c)) =
        String.ofList rest := by
      rw [List.reverse_cons, List.append_assoc]
      exact strip_append (by simpa using hline) hblank
    have hrest : ∃ s, rest = c :: s := by
      have hne : rest ≠ [] := by simp [rest, List.rdropWhile_eq_nil_iff, hblank]
      obtain ⟨x, s, hs⟩ := List.exists_cons_of_ne_nil hne
      have hprefix : rest <+: _ := List.rdropWhile_prefix isBlank _
      rw [hs, List.cons_prefix_cons] at hprefix
      exact ⟨s, hprefix.1 ▸ hs⟩
    obtain ⟨s, hs⟩ := hrest
    have hvisible : ∃ ls, visibleLines line (c :: r) =
        String.ofList ((c :: line).reverse ++ r.takeWhile fun c => !isLineEnd c) :: ls := by
      rw [visibleLines, linesOnto_cons (Ne.symm hc), hend, if_neg Bool.false_ne_true, hls, List.map_cons,
        List.filter_cons_of_pos (by rw [hstrip, hs]; simp)]
      exact ⟨_, rfl⟩
    obtain ⟨ls', hvisible⟩ := hvisible
    have hcommas : stripWhere (· == ',') rest = rest.rdropWhile (· == ',') := by
      rw [stripWhere, hs, List.dropWhile_cons_of_neg (by simpa using hcomma)]
      rfl
    have hfirst : ((c :: r).takeWhile fun c => !isLineEnd c) = c :: r.takeWhile fun c => !isLineEnd c :=
      List.takeWhile_cons_of_pos (by simp [hend])
    rw [hvisible]
    calc (stripChar ',' (strip _)).toList.takeWhile isDecimal
        = (rest.rdropWhile (· == ',')).takeWhile isDecimal := by
          rw [hstrip, stripChar, String.toList_ofList, String.toList_ofList, hcommas]
      _ = rest.takeWhile isDecimal :=
          takeWhile_rdropWhile (fun d hd => by rw [beq_iff_eq.mp hd]; decide) _
      _ = ((c :: r).takeWhile fun c => !isLineEnd c).takeWhile isDecimal := by
          rw [hfirst]
          exact takeWhile_rdropWhile (fun d hd => (of_isBlank hd).2.1) _
      _ = (c :: r).takeWhile isDecimal := takeWhile_firstLine _

lemma of_isDigit (h : c.isDigit = true) :
    isBlank c = false ∧ isDecimal c = true ∧ decimalValue? c = some (c.toNat - 48) := by
  have hcodes : ∀ n ∈ List.range' 48 10, blankRanges.mem n = false ∧ decimalRanges.mem n = true ∧
      decimalRanges.offset? n = some (n - 48) := by
    decide
  refine hcodes _ (List.mem_range'_1.mpr ?_)
  simp only [Char.isDigit, Bool.and_eq_true, decide_eq_true_eq, ge_iff_le, UInt32.le_iff_toNat_le] at h
  exact ⟨h.1, Nat.lt_succ_of_le h.2⟩

lemma digits?_of_isDigit {cs : List Char} (hcs : ∀ c ∈ cs, c.isDigit = true) {after : Bool}
    (hafter : after = true ∨ cs ≠ []) :
    Whole.digits? after cs = some (cs.map fun c => c.toNat - 48) := by
  induction cs generalizing after with
  | nil => simp_all [Whole.digits?]
  | cons c cs ih =>
    obtain ⟨hc, hcs⟩ := List.forall_mem_cons.mp hcs
    have hline : c ≠ '_' := by
      rintro rfl
      exact absurd hc (by decide)
    rw [Whole.digits?, (of_isDigit hc).2.2]
    · simp [ih hcs (.inl rfl)]
    · exact hline

lemma nat_ne_nil (n : Nat) : (Decimal.nat n).toList ≠ [] := by
  intro h
  have hvalue := Decimal.ofDigits_nat n
  rw [h] at hvalue
  obtain rfl : 0 = n := hvalue
  exact absurd h (by decide)

/-- **The number that digits spell** is read, unless they are too many. -/
lemma ofChars?_nat (n : Nat) : Whole.ofChars? (Decimal.nat n).toList =
    if Whole.digitLimit < (Decimal.nat n).length then none else some n := by
  have hvalue : Whole.ofDigitValues ((Decimal.nat n).toList.map fun c => c.toNat - 48) = n := by
    conv_rhs => rw [← Decimal.ofDigits_nat n, Nat.ofDigits_eq_foldr, List.map_reverse, List.foldr_reverse]
    rw [Whole.ofDigitValues]
    congr 1
    funext m k
    simp [Nat.add_comm]
  have hlength : (Decimal.nat n).length = (Decimal.nat n).toList.length := rfl
  rw [Whole.ofChars?, digits?_of_isDigit (fun c => Decimal.isDigit_of_mem_nat) (.inr (nat_ne_nil n))]
  simp [hvalue, hlength]

end

namespace DefinitionText

variable (d : DefinitionText)

lemma return_notMem_fields (fs : List FieldText) : '\r' ∉ fs.flatMap FieldText.chars := by
  intro hmem
  obtain ⟨f, -, hf⟩ := List.mem_flatMap.mp hmem
  rw [FieldText.chars, List.mem_cons, List.mem_append, List.mem_cons] at hf
  obtain hf | hf | hf | hf := hf
  · exact absurd hf (by decide)
  · exact (f.inner_tame _ hf).2.2 rfl
  · exact absurd hf (by decide)
  · exact (f.behind_tame _ hf).2.2 rfl

lemma return_notMem_body : '\r' ∉ d.body := by
  rw [body, ← List.append_assoc, List.mem_append, not_or]
  exact ⟨fun hmem => (d.numberChars_tame _ hmem).1.2.2 rfl, return_notMem_fields _⟩

lemma leadingDigits_body :
    leadingDigits (String.ofList d.body) = d.number.elim [] fun n => (Decimal.nat n).toList := by
  have hmarks : Text.isDecimal '{' = false ∧ Text.isDecimal ',' = false ∧ Text.isBlank '{' = false := by
    decide
  have hreturn := d.return_notMem_body
  rw [body, List.mem_append, not_or] at hreturn
  rw [body]
  have hfields : d.fields.flatMap FieldText.chars = [] ∨
      ∃ s, d.fields.flatMap FieldText.chars = '{' :: s := by
    cases d.fields with
    | nil => exact .inl rfl
    | cons f fs => exact .inr ⟨_, rfl⟩
  have hnone : (d.fields.flatMap FieldText.chars).takeWhile Text.isDecimal = [] := by
    obtain h | ⟨s, h⟩ := hfields <;> simp [h, hmarks]
  unfold numberChars at hreturn ⊢
  cases hn : d.number with
  | none =>
    rw [hn] at hreturn
    refine (leadingDigits_append _ hreturn.2 fun c s hcs => ?_).trans hnone
    obtain h | ⟨s', h⟩ := hfields
    · exact nomatch h.symm.trans hcs
    · obtain ⟨rfl, -⟩ := List.cons.inj (h.symm.trans hcs)
      exact ⟨hmarks.2.2, by decide⟩
  | some n =>
    rw [hn] at hreturn
    have hdigits : ∀ c ∈ (Decimal.nat n).toList, c.isDigit = true := fun c => Decimal.isDigit_of_mem_nat
    refine (leadingDigits_append _ hreturn.2 fun c s hcs => ?_).trans ?_
    · have hc : c ∈ (Decimal.nat n).toList := by
        obtain ⟨x, xs, hx⟩ := List.exists_cons_of_ne_nil (nat_ne_nil n)
        simp only [hx, List.cons_append, List.cons.injEq] at hcs
        simp [hx, hcs.1]
      refine ⟨(of_isDigit (hdigits c hc)).1, ?_⟩
      rintro rfl
      exact absurd (hdigits _ hc) (by decide)
    · rw [List.append_assoc, List.takeWhile_append_of_pos fun c hc => (of_isDigit (hdigits c hc)).2.1]
      refine (congrArg _ ?_).trans (List.append_nil _)
      cases d.comma with
      | true => simp [hmarks]
      | false =>
        cases hg : (d.gaps 4).val with
        | nil => simpa [hg] using hnone
        | cons c g =>
          have hblank := (d.gaps 4).2 c (by simp [hg])
          simp [(Text.of_isBlank hblank.1).2.1]

def IsShort : Prop :=
  ∀ n ∈ d.number, (Decimal.nat n).length ≤ Whole.digitLimit

/-- **The key of a definition** is read, unless its number is too long. -/
lemma keyOf_body : (d.IsShort → keyOf d.name (String.ofList d.body) = .ok d.key) ∧
    (¬ d.IsShort → ∃ e, keyOf d.name (String.ofList d.body) = .error e) := by
  rw [keyOf, d.leadingDigits_body, key, IsShort]
  cases d.number with
  | none => simp
  | some n =>
    have hnumber := ofChars?_nat n
    obtain ⟨c, cs, hcs⟩ := List.exists_cons_of_ne_nil (nat_ne_nil n)
    simp only [Option.elim_some, hcs, Option.mem_some_iff, forall_eq'] at hnumber ⊢
    rw [hnumber]
    by_cases hlong : Whole.digitLimit < (Decimal.nat n).length
    · rw [if_pos hlong]
      exact ⟨fun h => absurd hlong (Nat.not_lt.mpr h), fun _ => ⟨_, rfl⟩⟩
    · rw [if_neg hlong]
      exact ⟨fun _ => rfl, fun h => absurd (Nat.not_lt.mp hlong) h⟩

end DefinitionText

/-! ## Scripts -/

variable {ds : List DefinitionText}

lemma insert_eq_append {k : Key} {e : Definition} {es : Definitions} (h : k ∉ es.map (·.1)) :
    Definitions.insert k e es = es ++ [(k, e)] := by
  induction es with
  | nil => rfl
  | cons x es ih =>
    obtain ⟨k', e'⟩ := x
    simp only [List.map_cons, List.mem_cons, not_or] at h
    rw [Definitions.insert, if_neg (Ne.symm h.1), ih h.2, List.cons_append]

def blocksOf (ds : List DefinitionText) : List (String × String) :=
  ds.map fun d => (d.name, String.ofList d.body)

def definitionsIn (ds : List DefinitionText) : Definitions :=
  ds.map fun d => (d.key, d.definition)

lemma blocks_script (ds : List DefinitionText) (last : Gap) :
    blocks (String.ofList (script ds last)) = blocksOf ds := by
  have hblocks : BlocksAre (script ds last) (blocksOf ds) := by
    induction ds with
    | nil =>
      have hend : BlocksAre [] [] := fun fuel _ => by cases fuel <;> rfl
      have hlast := hend.skip fun c hc => isNameChar_of_isBlank (last.2 c hc).1
      rwa [List.append_nil] at hlast
    | cons d ds ih =>
      rw [script, List.flatMap_cons, List.append_assoc]
      exact d.blocksAre_chars ih
  rw [blocks, String.toList_ofList]
  exact hblocks _ (Nat.le_refl _)

/-- **Blocks are made into definitions** in their order, unless a number is too long. -/
lemma definitionsFrom_blocksOf (ds : List DefinitionText) (es : Definitions)
    (hkeys : (es.map (·.1) ++ ds.map (·.key)).Nodup) :
    ((∀ d ∈ ds, d.IsShort) → definitionsFrom es (blocksOf ds) = .ok (es ++ definitionsIn ds)) ∧
      (¬ (∀ d ∈ ds, d.IsShort) → ∃ e, definitionsFrom es (blocksOf ds) = .error e) := by
  induction ds generalizing es with
  | nil => simp [blocksOf, definitionsIn, definitionsFrom]
  | cons d ds ih =>
    obtain ⟨hshort, hlong⟩ := d.keyOf_body
    have hnew : d.key ∉ es.map (·.1) := by
      rw [List.nodup_append] at hkeys
      exact fun hmem => hkeys.2.2 _ hmem _ (by simp) rfl
    have hbody : d.body = (d.gaps 3 ++ d.numberChars) ++ d.fields.flatMap FieldText.chars := by
      simp [DefinitionText.body]
    have hfields := (fieldsAre_chars d.fields).skip fun c hc => (d.numberChars_tame c hc).1.1
    rw [← hbody] at hfields
    have hstep : d.IsShort → definitionsFrom es (blocksOf (d :: ds)) =
        definitionsFrom (es ++ [(d.key, d.definition)]) (blocksOf ds) := fun h => by
      rw [blocksOf, List.map_cons, definitionsFrom, hshort h, ← blocksOf, fieldsOf, String.toList_ofList,
        hfields _ (Nat.le_refl _)]
      exact congrArg (definitionsFrom · _) (insert_eq_append hnew)
    obtain ⟨hok, herror⟩ := ih (es ++ [(d.key, d.definition)]) (by simpa using hkeys)
    rw [List.forall_mem_cons]
    constructor
    · rintro ⟨hd, hds⟩
      rw [hstep hd, hok hds, List.append_assoc]
      rfl
    · intro hnot
      by_cases hd : d.IsShort
      · rw [hstep hd]
        exact herror fun hds => hnot ⟨hd, hds⟩
      · obtain ⟨e, he⟩ := hlong hd
        exact ⟨e, by rw [blocksOf, List.map_cons, definitionsFrom, he]; rfl⟩

lemma return_notMem_script (ds : List DefinitionText) (last : Gap) : '\r' ∉ script ds last := by
  have hgap (g : Gap) : '\r' ∉ g.val := fun hmem => (g.2 _ hmem).2 rfl
  have hname (d : DefinitionText) : '\r' ∉ d.name.toList := fun hmem =>
    absurd (d.name_chars _ hmem) (by decide)
  rw [script, List.mem_append, List.mem_flatMap]
  rintro (⟨d, -, hd⟩ | hlast)
  · have hbody := d.return_notMem_body
    simp [DefinitionText.chars, hgap, hname, hbody] at hd
  · exact hgap last hlast

lemma unifyLineEnds_eq_self (h : '\r' ∉ r) : Job.unifyLineEnds r = r := by
  induction r with
  | nil => rfl
  | cons c r ih =>
    obtain ⟨hc, hr⟩ := not_or.mp (mt List.mem_cons.mpr h)
    rw [Job.unifyLineEnds, ih hr]
    · exact fun _ h _ => hc h.symm
    · exact fun h => hc h.symm

lemma readScript_run {w : Workspace} {path : String} (last : Gap)
    (hread : w.tree.read path = .ok (Utf8.encode (String.ofList (script ds last)))) :
    (readScript path).run w = (Job.ofExcept .noNumber (definitionsFrom [] (blocksOf ds))).run w := by
  have hfile : (Job.readFile path).run w = .ok _ w := Job.look_ok hread
  have hends : Job.unifyLineEnds (String.ofList (script ds last)).toList = script ds last := by
    rw [String.toList_ofList, unifyLineEnds_eq_self (return_notMem_script ds last)]
  have htext : (Job.readText path).run w = .ok (String.ofList (script ds last)) w := by
    rw [Job.readText, Run.bind_ok hfile, Utf8.decode_eq_ok_iff.mpr rfl]
    exact congrArg (fun cs => EStateM.Result.ok (String.ofList cs) w) hends
  rw [readScript, Run.bind_ok htext, definitionsOf, blocks_script]

def plainField : FieldText where
  field := ⟨"id = ", "int", "1 = on", true⟩
  quotes := false
  comma := true
  gaps := fun _ => ⟨['\n'], forall_mem_of_all (by decide)⟩
  name_ne := by decide
  name_plain := forall_mem_of_all (by decide)
  type_ne := by decide
  type_word := forall_mem_of_all (by decide)
  description_plain := forall_mem_of_all (by decide)

def plainDefinition (number : Option Nat) : DefinitionText where
  name := "pt_a"
  number := number
  comma := true
  gaps := fun _ => ⟨['\n'], forall_mem_of_all (by decide)⟩
  fields := [plainField]
  name_ne := by decide
  name_chars := forall_mem_of_all (by decide)

def scriptWorkspace (ds : List DefinitionText) : Workspace where
  tree := { entries := [⟨["tmp", "work", "a.lua"],
    .file (Utf8.encode (String.ofList (script ds ⟨[], by simp⟩))), 0⟩] }

end Protocol

end Salvage
