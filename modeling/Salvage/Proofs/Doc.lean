import Mathlib.Data.List.Forall2
import Salvage.Doc.Parser
import Salvage.Text.Blank
import Salvage.Text.Replace

/-!
# Documents and their spellings

An object may be spelled in many ways: with white space between its signs, and with every character
of a text as itself, as a letter behind a backslash or as its code. The reader gives the same object for
each of them.
-/

namespace Salvage.Doc

/-! ## Fields -/

@[simp]
lemma lookup_insert_self (name : String) (value : Doc) (fields : List (String × Doc)) :
    lookup name (insert name value fields) = some value := by
  induction fields with
  | nil => simp [insert, lookup]
  | cons f r ih =>
    obtain ⟨k, v⟩ := f
    by_cases hk : k = name
    · simp [insert, lookup, hk]
    · simp [insert, lookup, hk, ih]

variable {name : String}

lemma lookup_insert_of_ne {other : String} (h : name ≠ other) (value : Doc)
    (fields : List (String × Doc)) :
    lookup other (insert name value fields) = lookup other fields := by
  induction fields with
  | nil => simp [insert, lookup, h]
  | cons f r ih =>
    obtain ⟨k, v⟩ := f
    by_cases hk : k = name
    · subst hk
      simp [insert, lookup, h]
    · by_cases ho : k = other
      · subst ho
        simp [insert, lookup, hk]
      · simp [insert, lookup, hk, ho, ih]

/-- The fields with texts put in, one after the other. -/
def insertTexts : List (String × Doc) → List (String × String) → List (String × Doc) :=
  List.foldl fun acc f => insert f.1 (.str f.2) acc

lemma lookup_insertTexts_of_not_mem {fs : List (String × String)}
    (h : name ∉ fs.map Prod.fst) (acc : List (String × Doc)) :
    lookup name (insertTexts acc fs) = lookup name acc := by
  induction fs generalizing acc with
  | nil => rfl
  | cons f fs ih =>
    rw [List.map_cons, List.mem_cons, not_or] at h
    exact (ih h.2 _).trans (lookup_insert_of_ne (Ne.symm h.1) _ acc)

lemma lookup_insertTexts {fs : List (String × String)} (hfs : (fs.map Prod.fst).Nodup)
    {s : String} (h : (name, s) ∈ fs) (acc : List (String × Doc)) :
    lookup name (insertTexts acc fs) = some (.str s) := by
  induction fs generalizing acc with
  | nil => cases h
  | cons f fs ih =>
    obtain ⟨hf, hfs⟩ := List.nodup_cons.mp hfs
    rcases List.mem_cons.mp h with rfl | h
    · exact (lookup_insertTexts_of_not_mem hf _).trans (lookup_insert_self name _ acc)
    · exact ih hfs h _

/-! ## Spellings of documents -/

/-- The characters that stand for one in a text of a document; a code has four digits. -/
inductive Spells : Char → List Char → Prop
  | itself {c : Char} (hcode : 0x20 ≤ c.toNat) (hquote : c ≠ '"') (hslash : c ≠ '\\') : Spells c [c]
  | letter {c e : Char} (h : Parse.simpleEscape? e = some c) : Spells c ['\\', e]
  | code {c w x y z : Char} (h : Parse.hex4? w x y z = some c.toNat) :
      Spells c ['\\', 'u', w, x, y, z]

/-- What may stand between the signs of a document. -/
abbrev Gap := { cs : List Char // ∀ c ∈ cs, Parse.isGap c = true }

/-- The characters are a text in quotation marks. -/
def SpellsText (s : String) (cs : List Char) : Prop :=
  ∃ css, List.Forall₂ Spells s.toList css ∧ cs = '"' :: (css.flatten ++ ['"'])

/-- The characters are a field that holds a text. -/
def SpellsField (f : String × String) (cs : List Char) : Prop :=
  ∃ (n v : List Char) (a b c : Gap), SpellsText f.1 n ∧ SpellsText f.2 v ∧
    cs = n ++ (a.1 ++ ':' :: (b.1 ++ (v ++ c.1)))

/-- The characters are fields that hold texts, up to the end of the object. -/
inductive SpellsFields : List (String × String) → List Char → Prop
  | last {f : String × String} {cs : List Char} (h : SpellsField f cs) :
      SpellsFields [f] (cs ++ ['\x7d'])
  | more {f : String × String} {fs : List (String × String)} {cs ds : List Char}
      (h : SpellsField f cs) (g : Gap) (hfs : SpellsFields fs ds) :
      SpellsFields (f :: fs) (cs ++ ',' :: (g.1 ++ ds))

/-- The text is an object of such fields. -/
def SpellsObject (fields : List (String × String)) (s : String) : Prop :=
  ∃ (a b c : Gap) (cs : List Char), SpellsFields fields cs ∧
    s.toList = a.1 ++ '\x7b' :: (b.1 ++ (cs ++ c.1))

variable {f : String × String} {fs : List (String × String)} {s : String} {cs : List Char}
  {css : List (List Char)}

namespace Parse

lemma skip_gap (g : Gap) {x : Char} (hx : isGap x = false) (r : List Char) :
    skip (g.1 ++ x :: r) = x :: r := by
  rw [skip, List.dropWhile_append_of_pos g.2, List.dropWhile_cons_of_neg (by simp [hx])]

lemma unicodeEscape_code {c w x y z : Char} (h : hex4? w x y z = some c.toNat) {r : List Char}
    (hr : r ≠ []) : unicodeEscape (w :: x :: y :: z :: r) = .ok (c, r) := by
  have hvalid : c.toNat < 0xD800 ∨ 0xDFFF < c.toNat ∧ c.toNat < 0x110000 := c.valid
  have hhalf : isHighHalf c.toNat = false := by
    simp [isHighHalf]
    omega
  have hchar : charOf c.toNat = c := by
    have hnot : ¬ (0xD800 ≤ c.toNat && c.toNat < 0xE000) = true := by
      simp
      omega
    rw [charOf, if_neg hnot, Char.ofNat_toNat]
  rw [unicodeEscape, if_neg (by simpa using hr), h]
  dsimp only
  rw [hhalf, hchar]

lemma quoted_spells {c : Char} {s : List Char} (h : Spells c s) (start fuel : Nat)
    (acc : List Char) {r : List Char} (hr : r ≠ []) :
    quoted start (fuel + 1) acc (s ++ r) = quoted start fuel (c :: acc) r := by
  cases h with
  | itself hcode hquote hslash =>
    rw [List.singleton_append, quoted, if_neg (by omega)]
    all_goals simp_all
  | @letter e h =>
    have hu : e ≠ 'u' := by
      rintro rfl
      cases h
    rw [List.cons_append, List.singleton_append, quoted, h]
    exact hu
  | code h =>
    simp only [List.cons_append, List.nil_append]
    rw [quoted, unicodeEscape_code h hr]

lemma quoted_flatten (h : List.Forall₂ Spells cs css) (start : Nat) {fuel : Nat}
    (hfuel : cs.length < fuel) (acc r : List Char) :
    quoted start fuel acc (css.flatten ++ '"' :: r) = .ok (acc.reverse ++ cs, r) := by
  induction h generalizing fuel acc with
  | nil =>
    obtain ⟨fuel, rfl⟩ := Nat.exists_eq_add_one_of_ne_zero (Nat.ne_zero_of_lt hfuel)
    rw [List.flatten_nil, List.nil_append, quoted, List.append_nil]
  | @cons c s cs css hs h ih =>
    obtain ⟨fuel, rfl⟩ := Nat.exists_eq_add_one_of_ne_zero (Nat.ne_zero_of_lt hfuel)
    rw [List.flatten_cons, List.append_assoc, quoted_spells hs start fuel acc (by simp),
      ih (Nat.lt_of_succ_lt_succ hfuel), List.reverse_cons, List.append_assoc,
      List.singleton_append]

lemma length_le_flatten (h : List.Forall₂ Spells cs css) : cs.length ≤ css.flatten.length := by
  induction h with
  | nil => exact Nat.le_refl _
  | cons hs _ ih =>
    rw [List.flatten_cons, List.length_append, List.length_cons]
    cases hs <;> simp only [List.length_cons, List.length_nil] <;> omega

/-- **A text is read** from any of its spellings. -/
lemma text_flatten (h : List.Forall₂ Spells s.toList css) (r : List Char) :
    text (css.flatten ++ '"' :: r) = .ok (s, r) := by
  have hfuel : s.toList.length < (css.flatten ++ '"' :: r).length + 1 := by
    have := length_le_flatten h
    rw [List.length_append]
    omega
  rw [text, quoted_flatten h _ hfuel]
  simp [Except.map]

lemma value_spelled (h : SpellsText s cs) (fuel : Nat) (r : List Char) :
    value (fuel + 1) (cs ++ r) = .ok (.str s, r) := by
  obtain ⟨css, hcss, rfl⟩ := h
  rw [List.cons_append, List.append_assoc, List.singleton_append, value, text_flatten hcss]
  rfl

lemma skip_text (g : Gap) (h : SpellsText s cs) (r : List Char) :
    skip (g.1 ++ (cs ++ r)) = cs ++ r := by
  obtain ⟨css, -, rfl⟩ := h
  exact skip_gap g (by decide) _

lemma fields_quote (h : SpellsFields fs cs) : ∃ r, cs = '"' :: r := by
  cases h with
  | last h | more h =>
    obtain ⟨_, _, _, _, _, ⟨_, _, rfl⟩, _, rfl⟩ := h
    exact ⟨_, rfl⟩

lemma skip_fields (g : Gap) (h : SpellsFields fs cs) (r : List Char) :
    skip (g.1 ++ (cs ++ r)) = cs ++ r := by
  obtain ⟨t, rfl⟩ := fields_quote h
  exact skip_gap g (by decide) _

/-- One field is read, and the sign behind it says how to go on. -/
lemma members_field (h : SpellsField f cs) (fuel : Nat) (acc : List (String × Doc)) (r : List Char) :
    members (fuel + 2) acc (cs ++ '\x7d' :: r) = .ok (.obj (insert f.1 (.str f.2) acc), r) ∧
      members (fuel + 2) acc (cs ++ ',' :: r) =
        members (fuel + 1) (insert f.1 (.str f.2) acc) (skip r) := by
  obtain ⟨n, v, a, b, c, ⟨css, hcss, rfl⟩, hvalue, rfl⟩ := h
  have hsigns : isGap ':' = false ∧ isGap '\x7d' = false ∧ isGap ',' = false := by decide
  simp only [List.cons_append, List.append_assoc, List.nil_append]
  rw [members, members]
  simp only [text_flatten hcss, skip_gap a hsigns.1, skip_text b hvalue, value_spelled hvalue,
    skip_gap c hsigns.2.1, skip_gap c hsigns.2.2, and_self]

/-- **Fields are read** one after the other. -/
lemma members_fields (h : SpellsFields fs cs) {fuel : Nat} (hfuel : fs.length < fuel)
    (acc : List (String × Doc)) (r : List Char) :
    members fuel acc (cs ++ r) = .ok (.obj (insertTexts acc fs), r) := by
  induction h generalizing fuel acc with
  | last h =>
    obtain ⟨fuel, rfl⟩ := Nat.exists_eq_add_of_le' hfuel
    rw [List.append_assoc, List.singleton_append]
    exact (members_field h fuel acc r).1
  | @more _ fs _ _ h g hfs ih =>
    obtain ⟨fuel, rfl⟩ : ∃ n, fuel = n + 2 := ⟨fuel - 2, by simp at hfuel; omega⟩
    have hrest : fs.length < fuel + 1 := Nat.lt_of_succ_lt_succ hfuel
    rw [List.append_assoc, List.cons_append, List.append_assoc, (members_field h fuel acc _).2,
      skip_fields g hfs, ih hrest]
    rfl

lemma value_object (g : Gap) (h : SpellsFields fs cs) (fuel : Nat) (r : List Char) :
    value (fuel + 1) ('\x7b' :: (g.1 ++ (cs ++ r))) = members fuel [] (cs ++ r) := by
  rw [value]
  simp only [skip_fields g h]
  obtain ⟨t, rfl⟩ := fields_quote h
  rfl

lemma length_le_fields (h : SpellsFields fs cs) : fs.length ≤ cs.length := by
  induction h with
  | last _ => simp
  | more _ _ _ ih =>
    simp only [List.length_append, List.length_cons]
    omega

end Parse

/-- **An object is read** from any of its spellings. -/
lemma parse_spelled (h : SpellsObject fs s) : parse s = .ok (.obj (insertTexts [] fs)) := by
  obtain ⟨a, b, c, cs, hcs, hs⟩ := h
  have hmark : s.toList.head? ≠ some (Char.ofNat 0xFEFF) := by
    rw [hs]
    obtain ⟨_ | ⟨x, g⟩, hg⟩ := a
    · simp only [List.nil_append, List.head?_cons]
      decide
    · rintro ⟨⟩
      exact absurd (hg _ List.mem_cons_self) (by decide)
  have hlength : fs.length < 2 * s.toList.length + 1 := by
    have hfields := Parse.length_le_fields hcs
    simp only [hs, List.length_append, List.length_cons]
    omega
  have hend : Parse.skip c.1 = [] := by
    rw [Parse.skip, ← List.append_nil c.1, List.dropWhile_append_of_pos c.2, List.dropWhile_nil]
  rw [parse, parseChars, if_neg hmark]
  rw [hs] at hlength ⊢
  rw [Parse.skip_gap a (by decide), Parse.value_object b hcs, Parse.members_fields hcs hlength]
  simp only [hend]

lemma isBlank_of_isGap {c : Char} (h : Parse.isGap c = true) : Text.isBlank c = true := by
  simp only [Parse.isGap, Bool.or_eq_true, beq_iff_eq, or_assoc] at h
  rcases h with rfl | rfl | rfl | rfl <;> rfl

lemma startsWith_spelled (h : SpellsObject fs s) :
    Text.startsWith (Text.strip s) "\x7b" = true := by
  obtain ⟨a, b, c, cs, -, hs⟩ := h
  have hblank : ∀ x ∈ a.1, Text.isBlank x = true := fun x hx => isBlank_of_isGap (a.2 x hx)
  rw [Text.startsWith, Text.strip, String.toList_ofList, hs, Text.stripWhere,
    List.dropWhile_append_of_pos hblank, List.dropWhile_cons_of_neg (by decide), List.reverse_cons,
    List.dropWhile_append, String.toList_ofList]
  split_ifs
  · decide
  · simp

/-! ## Texts that need no escapes -/

/-- Every character of the text stands for itself. -/
def IsPlain (s : String) : Prop :=
  ∀ c ∈ s.toList, 0x20 ≤ c.toNat ∧ c ≠ '"' ∧ c ≠ '\\'

instance (s : String) : Decidable (IsPlain s) := List.decidableBAll _ s.toList

lemma IsPlain.exists_spellsText (h : IsPlain s) : ∃ cs, SpellsText s cs := by
  refine ⟨_, s.toList.map ([·]), ?_, rfl⟩
  rw [List.forall₂_map_right_iff, List.forall₂_same]
  intro c hc
  obtain ⟨hcode, hquote, hslash⟩ := h c hc
  exact .itself hcode hquote hslash

lemma exists_spellsField {value : String} (hname : IsPlain name) (hvalue : IsPlain value) :
    ∃ cs, SpellsField (name, value) cs := by
  obtain ⟨n, hn⟩ := hname.exists_spellsText
  obtain ⟨v, hv⟩ := hvalue.exists_spellsText
  let none : Gap := ⟨[], nofun⟩
  exact ⟨_, n, v, none, none, none, hn, hv, rfl⟩

lemma exists_spellsObject {f g : String × String} {cs ds : List Char} (hf : SpellsField f cs)
    (hg : SpellsField g ds) : ∃ s, SpellsObject [f, g] s := by
  let none : Gap := ⟨[], nofun⟩
  exact ⟨_, none, none, none, _, .more hf none (.last hg), String.toList_ofList⟩

end Salvage.Doc
