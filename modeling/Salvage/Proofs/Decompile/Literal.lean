import Mathlib.Data.List.Forall2
import Salvage.Decompile.Literal
import Salvage.Proofs.Text.Utf8

/-!
# Literals of decompiled scripts

A decompiled script spells the octets of its literals one by one, each as its own character, as a letter
behind a backslash or as a number. Reading a literal gives the text of its octets. In a script the
literals are found by their quotation marks alone, so an escaped one ends a literal too early.
-/

namespace Salvage.Literal

/-! ## Octets one by one -/

/-- The letters behind a backslash, with the octets that they stand for. -/
def letters : List (Char × UInt8) :=
  [('n', 10), ('r', 13), ('t', 9), ('"', 34), ('\\', 92)]

/-- The characters that stand for an octet in a literal: its own one, a letter behind a backslash, or
three digits behind a backslash. -/
inductive Spells : UInt8 → List Char → Prop
  | plain {c : Char} (hcode : c.toNat < 128) (hquote : c ≠ '"') (hslash : c ≠ '\\') :
      Spells (UInt8.ofNat c.toNat) [c]
  | letter {c : Char} {x : UInt8} (h : (c, x) ∈ letters) : Spells x ['\\', c]
  | number (i j k : Fin 10) :
      Spells (UInt8.ofNat (100 * i + 10 * j + k))
        ['\\', Nat.digitChar i, Nat.digitChar j, Nat.digitChar k]

lemma digitChar_digit (i : Fin 10) :
    Text.isDigit (Nat.digitChar i) = true ∧ Text.decimalValue? (Nat.digitChar i) = some i.val := by
  revert i
  decide

variable {css : List (List Char)} {x : UInt8}

lemma escaped_letter {c : Char} (h : (c, x) ∈ letters) :
    Text.isDigit c = false ∧ escaped c = .ok x := by
  simp only [letters, List.mem_cons, Prod.mk.injEq, List.not_mem_nil, or_false] at h
  obtain ⟨rfl, rfl⟩ | ⟨rfl, rfl⟩ | ⟨rfl, rfl⟩ | ⟨rfl, rfl⟩ | ⟨rfl, rfl⟩ := h
  all_goals exact ⟨by decide, rfl⟩

lemma numbered_digits (i j k : Fin 10) :
    numbered [Nat.digitChar i, Nat.digitChar j, Nat.digitChar k] =
      .ok (UInt8.ofNat (100 * i + 10 * j + k)) := by
  have hvalue : 10 * (10 * (10 * 0 + i.val) + j.val) + k.val = 100 * i + 10 * j + k := by omega
  simp only [numbered, numberOnto, (digitChar_digit _).2, hvalue]
  rfl

/-- **One octet is read** from the characters that stand for it, whatever stands behind them. -/
lemma octets_append {cs : List Char} (h : Spells x cs) (r : List Char) :
    octets (cs ++ r) = (octets r).map (x :: ·) := by
  cases h with
  | @plain c hcode hquote hslash =>
    have hoctet : octet c = .ok (UInt8.ofNat c.toNat) := if_pos (by omega)
    cases r with
    | nil =>
      rw [List.append_nil, octets, octets, hoctet]
      rfl
    | cons d r =>
      rw [List.singleton_append, octets, if_neg hslash, hoctet]
      cases octets (d :: r) <;> rfl
  | @letter c x h =>
    obtain ⟨hdigit, hescaped⟩ := escaped_letter h
    rw [List.cons_append, List.singleton_append, octets, if_pos rfl, hdigit,
      if_neg Bool.false_ne_true, hescaped]
    cases octets r <;> rfl
  | number i j k =>
    have hdigits : digitsOf (Nat.digitChar i :: Nat.digitChar j :: Nat.digitChar k :: r) =
        [Nat.digitChar i, Nat.digitChar j, Nat.digitChar k] := by
      simp [digitsOf, numberLength, (digitChar_digit _).1]
    simp only [List.cons_append, List.nil_append]
    rw [octets, if_pos rfl, (digitChar_digit i).1, if_pos rfl, hdigits]
    dsimp only
    rw [numbered_digits]
    change (do return UInt8.ofNat (100 * i + 10 * j + k) :: (← octets r)) = _
    cases octets r <;> rfl

lemma octets_flatten_append {b : Bytes} (h : List.Forall₂ Spells b css)
    (r : List Char) : octets (css.flatten ++ r) = (octets r).map (b ++ ·) := by
  induction h with
  | nil => cases h : octets r <;> simp [h, Except.map]
  | cons hx _ ih =>
    rw [List.flatten_cons, List.append_assoc, octets_append hx, ih]
    cases octets r <;> rfl

lemma decode_flatten {b : Bytes} (h : List.Forall₂ Spells b css) :
    decode css.flatten = .ok (Utf8.decodeReplacing b) := by
  have hoctets := octets_flatten_append h []
  rw [List.append_nil, octets] at hoctets
  rw [decode, hoctets]
  simp [Except.map, bind, Except.bind, pure, Except.pure]

/-- **Every byte string is read from its spellings**: whichever characters stand for each of the
octets, the literal is the text of the octets, with replacement characters where they are none. -/
theorem spelled_octets_decoded {b : Bytes} {css : List (List Char)}
    (h : List.Forall₂ Spells b css) : decode css.flatten = .ok (Utf8.decodeReplacing b) :=
  decode_flatten h

/-- A character of three octets by their numbers, with a digit behind it, a line feed and an octet
that is no text. -/
theorem spelled_octets_decoded_push :
    List.Forall₂ Spells [230, 142, 168, 49, 10, 255]
      ["\\230".toList, "\\142".toList, "\\168".toList, ['1'], ['\\', 'n'], "\\255".toList] ∧
    decode "\\230\\142\\1681\\n\\255".toList = .ok "推1\n\uFFFD" := by
  have hspells : List.Forall₂ Spells [230, 142, 168, 49, 10, 255]
      ["\\230".toList, "\\142".toList, "\\168".toList, ['1'], ['\\', 'n'], "\\255".toList] :=
    .cons (.number 2 3 0) (.cons (.number 1 4 2) (.cons (.number 1 6 8)
      (.cons (.plain (c := '1') (by decide) (by decide) (by decide)) (.cons (.letter (by decide))
        (.cons (.number 2 5 5) .nil)))))
  refine ⟨hspells, (spelled_octets_decoded hspells).trans (congrArg Except.ok ?_)⟩
  with_unfolding_all decide

/-! ## Scripts -/

/-- A literal, by the characters that stand for each of its octets, and the code behind it. -/
structure Quotation where
  signs : List (List Char)
  code : List Char

def Quotation.inside (q : Quotation) : List Char := q.signs.flatten

/-- The literal is spelled octet by octet, and no quotation mark stands in the code. -/
structure Quotation.Proper (q : Quotation) : Prop where
  spelled : ∀ s ∈ q.signs, ∃ x, Spells x s
  code_plain : '"' ∉ q.code

/-- The script that begins with code and goes on with literals. -/
def script (front : List Char) (qs : List Quotation) : List Char :=
  front ++ qs.flatMap fun q => '"' :: q.inside ++ '"' :: q.code

/-- The script with the text of each literal between its quotation marks. -/
def decodedScript (front : List Char) : List Quotation → Except Fault (List Char)
  | [] => .ok front
  | q :: qs => do
    let text ← decode q.inside
    return front ++ '"' :: text.toList ++ '"' :: (← decodedScript q.code qs)

lemma decodeFrom_append {front : List Char} (h : '"' ∉ front) (r : List Char) :
    decodeFrom none (front ++ r) = (decodeFrom none r).map (front ++ ·) := by
  induction front with
  | nil => cases hr : decodeFrom none r <;> simp [hr, Except.map]
  | cons c cs ih =>
    have h := List.ne_and_not_mem_of_not_mem_cons h
    rw [List.cons_append, decodeFrom, if_neg h.1.symm, ih h.2]
    cases decodeFrom none r <;> rfl

/-- A literal ends at the next quotation mark. -/
lemma decodeFrom_quote {inside : List Char} (h : '"' ∉ inside) (r : List Char) :
    decodeFrom none ('"' :: (inside ++ '"' :: r)) = (do
      let text ← decode inside
      return '"' :: text.toList ++ '"' :: (← decodeFrom none r)) := by
  have hinside (cs acc : List Char) (hcs : '"' ∉ cs) :
      decodeFrom (some acc) (cs ++ '"' :: r) = decodeFrom (some (cs.reverse ++ acc)) ('"' :: r) := by
    induction cs generalizing acc with
    | nil => rfl
    | cons c cs ih =>
      have hcs := List.ne_and_not_mem_of_not_mem_cons hcs
      rw [List.cons_append, decodeFrom, if_neg hcs.1.symm, ih _ hcs.2, List.reverse_cons,
        List.append_assoc, List.singleton_append]
  rw [decodeFrom, if_pos rfl, hinside inside [] h, decodeFrom, if_pos rfl, List.append_nil,
    List.reverse_reverse]

lemma exists_forall₂ (h : ∀ s ∈ css, ∃ x, Spells x s) : ∃ b, List.Forall₂ Spells b css := by
  induction css with
  | nil => exact ⟨[], .nil⟩
  | cons s r ih =>
    obtain ⟨⟨x, hx⟩, hr⟩ := List.forall_mem_cons.mp h
    obtain ⟨b, hb⟩ := ih hr
    exact ⟨x :: b, .cons hx hb⟩

lemma exists_decodedScript (front : List Char) {qs : List Quotation} (h : ∀ q ∈ qs, q.Proper) :
    ∃ t, decodedScript front qs = .ok t := by
  induction qs generalizing front with
  | nil => exact ⟨front, rfl⟩
  | cons q r ih =>
    obtain ⟨hq, hr⟩ := List.forall_mem_cons.mp h
    obtain ⟨b, hb⟩ := exists_forall₂ hq.spelled
    obtain ⟨t, ht⟩ := ih q.code hr
    rw [decodedScript, Quotation.inside, decode_flatten hb, ht]
    exact ⟨_, rfl⟩

/-- The only spelling with a quotation mark is the one behind a backslash. -/
lemma eq_of_mem_spells {s : List Char} (h : Spells x s) (hquote : '"' ∈ s) : s = ['\\', '"'] := by
  cases h with
  | plain hcode hne hslash => exact absurd (List.mem_singleton.mp hquote).symm hne
  | @letter c x h =>
    obtain rfl : '"' = c := by simpa using hquote
    rfl
  | number i j k =>
    revert i j k
    decide

lemma not_mem_flatten (h : ∀ s ∈ css, ∃ x, Spells x s)
    (hquote : ['\\', '"'] ∉ css) : '"' ∉ css.flatten := by
  intro hmem
  obtain ⟨s, hs, hmem⟩ := List.mem_flatten.mp hmem
  obtain ⟨x, hx⟩ := h s hs
  exact hquote (eq_of_mem_spells hx hmem ▸ hs)

/-- **An escaped quotation mark ends the literal**: the backslash before it is a part of the text. -/
lemma decodeFrom_escaped_ne {q : Quotation} (hq : q.Proper) (hmem : ['\\', '"'] ∈ q.signs)
    {text : String} (htext : decode q.inside = .ok text) (r t : List Char) :
    decodeFrom none ('"' :: (q.inside ++ '"' :: r)) ≠ .ok ('"' :: text.toList ++ '"' :: t) := by
  obtain ⟨u, v, hsigns, hu⟩ := List.eq_append_cons_of_mem hmem
  have hspelled := hq.spelled
  rw [hsigns, List.forall_mem_append, List.forall_mem_cons] at hspelled
  obtain ⟨a, ha⟩ := exists_forall₂ hspelled.1
  obtain ⟨b, hb⟩ := exists_forall₂ hspelled.2.2
  have hplain : '"' ∉ u.flatten ++ ['\\'] := by
    simpa using not_mem_flatten hspelled.1 hu
  have hinside : q.inside ++ '"' :: r =
      (u.flatten ++ ['\\']) ++ '"' :: (v.flatten ++ '"' :: r) := by
    simp [Quotation.inside, hsigns]
  have hfirst : decode (u.flatten ++ ['\\']) = .ok (Utf8.decodeReplacing (a ++ [92])) := by
    have hslash : octets ['\\'] = .ok [92] := by
      rw [octets]
      rfl
    rw [decode, octets_flatten_append ha, hslash]
    rfl
  have hwhole : text = Utf8.decodeReplacing (a ++ 34 :: b) := by
    have hall : List.Forall₂ Spells (a ++ 34 :: b) q.signs := by
      rw [hsigns]
      exact List.rel_append ha (.cons (.letter (by decide)) hb)
    exact Except.ok.inj (htext.symm.trans (decode_flatten hall))
  rw [hinside, decodeFrom_quote hplain, hfirst, hwhole]
  intro h
  cases hrest : decodeFrom none (v.flatten ++ '"' :: r) with
  | error f =>
    rw [hrest] at h
    cases h
  | ok s =>
    rw [hrest] at h
    have hsame : '"' :: (Utf8.decodeReplacing (a ++ [92])).toList ++ '"' :: s =
        '"' :: (Utf8.decodeReplacing (a ++ 34 :: b)).toList ++ '"' :: t := Except.ok.inj h
    rw [Utf8.decodeReplacing_append (by decide), Utf8.decodeReplacing_append (by decide)] at hsame
    simp only [List.cons_append, List.append_assoc, List.cons.injEq, true_and,
      List.append_cancel_left_eq] at hsame
    exact absurd hsame.1 (by decide)

lemma decodeFrom_script_iff {front t : List Char} {qs : List Quotation} (hfront : '"' ∉ front)
    (hqs : ∀ q ∈ qs, q.Proper) (ht : decodedScript front qs = .ok t) :
    decodeFrom none (script front qs) = .ok t ↔ ∀ q ∈ qs, ['\\', '"'] ∉ q.signs := by
  induction qs generalizing front t with
  | nil =>
    cases ht
    have h := decodeFrom_append hfront []
    rw [List.append_nil] at h
    simp [script, h, decodeFrom, Except.map, pure, Except.pure]
  | cons q r ih =>
    obtain ⟨hq, hr⟩ := List.forall_mem_cons.mp hqs
    obtain ⟨b, hb⟩ := exists_forall₂ hq.spelled
    obtain ⟨rest, hrest⟩ := exists_decodedScript q.code hr
    have htext : decode q.inside = .ok (Utf8.decodeReplacing b) := decode_flatten hb
    rw [decodedScript, htext, hrest] at ht
    obtain rfl := Except.ok.inj ht
    have hscript : script front (q :: r) =
        front ++ '"' :: (q.inside ++ '"' :: script q.code r) := by
      simp [script]
    rw [hscript, decodeFrom_append hfront, List.forall_mem_cons, ← ih hq.code_plain hr hrest]
    by_cases hquote : ['\\', '"'] ∈ q.signs
    · have hne := decodeFrom_escaped_ne hq hquote htext (script q.code r) rest
      refine ⟨fun h => absurd ?_ hne, fun h => absurd hquote h.1⟩
      cases hrun : decodeFrom none ('"' :: (q.inside ++ '"' :: script q.code r)) with
      | error f =>
        rw [hrun] at h
        cases h
      | ok s =>
        rw [hrun] at h
        have hsame := Except.ok.inj h
        simp only [List.append_assoc, List.append_cancel_left_eq] at hsame
        rw [hsame]
    · have hplain : '"' ∉ q.inside := not_mem_flatten hq.spelled hquote
      rw [decodeFrom_quote hplain, htext]
      refine Iff.trans ?_ (and_iff_right hquote).symm
      cases decodeFrom none (script q.code r) with
      | error f => simp [Except.map, bind, Except.bind]
      | ok s => simp [Except.map, bind, Except.bind, pure, Except.pure]

/-- **Scripts without escaped quotation marks are decoded.** Code without quotation marks, and between
it literals that are spelled octet by octet: each literal has a text, and the script with these texts
in the places of the literals is what comes out, if and only if no literal has an escaped quotation
mark. -/
theorem literals_decoded_iff (front : List Char) (qs : List Quotation) (hfront : '"' ∉ front)
    (hqs : ∀ q ∈ qs, q.Proper) :
    ∃ t, decodedScript front qs = .ok t ∧
      (decodeAll (String.ofList (script front qs)) = .ok (String.ofList t) ↔
        ∀ q ∈ qs, ['\\', '"'] ∉ q.signs) := by
  obtain ⟨t, ht⟩ := exists_decodedScript front hqs
  refine ⟨t, ht, ?_⟩
  rw [← decodeFrom_script_iff hfront hqs ht, decodeAll, String.toList_ofList]
  cases decodeFrom none (script front qs) with
  | error f => simp [bind, Except.bind]
  | ok s => simp [bind, Except.bind, pure, Except.pure, String.ofList_inj]

/-- A literal of a character in three octets, code, and a literal of an escaped backslash. -/
def plainScript : List Quotation :=
  [⟨["\\230".toList, "\\142".toList, "\\168".toList], " .. ".toList⟩, ⟨[['\\', '\\']], []⟩]

/-- Both literals are decoded. -/
theorem literals_decoded_iff_plain :
    '"' ∉ "x = ".toList ∧ (∀ q ∈ plainScript, q.Proper) ∧
      decodeAll "x = \"\\230\\142\\168\" .. \"\\\\\"" = .ok "x = \"推\" .. \"\\\"" := by
  have hfront : '"' ∉ "x = ".toList := by decide
  have hqs : ∀ q ∈ plainScript, q.Proper := by
    refine List.forall_mem_cons.mpr ⟨⟨?_, by decide⟩, List.forall_mem_singleton.mpr ⟨?_, by decide⟩⟩
    · intro s hs
      simp only [List.mem_cons, List.not_mem_nil, or_false] at hs
      obtain rfl | rfl | rfl := hs
      · exact ⟨_, .number 2 3 0⟩
      · exact ⟨_, .number 1 4 2⟩
      · exact ⟨_, .number 1 6 8⟩
    · exact List.forall_mem_singleton.mpr ⟨92, .letter (by decide)⟩
  obtain ⟨t, ht, hiff⟩ := literals_decoded_iff "x = ".toList plainScript hfront hqs
  have hvalue : decodedScript "x = ".toList plainScript = .ok "x = \"推\" .. \"\\\"".toList := by
    with_unfolding_all decide
  obtain rfl := Except.ok.inj (ht.symm.trans hvalue)
  exact ⟨hfront, hqs, hiff.mpr (by decide)⟩

/-- A literal of two letters with an escaped quotation mark between them. -/
def escapedQuote : Quotation := ⟨[['a'], ['\\', '"'], ['b']], []⟩

/-- The literal ends at the escaped quotation mark, and nothing is decoded. -/
theorem escaped_quote_not_decoded :
    escapedQuote.Proper ∧
      decodedScript "x = ".toList [escapedQuote] = .ok "x = \"a\"b\"".toList ∧
      decodeAll (String.ofList (script "x = ".toList [escapedQuote])) = .ok "x = \"a\\\"b\"" ∧
      "x = \"a\\\"b\"" ≠ "x = \"a\"b\"" := by
  refine ⟨⟨?_, by decide⟩, by with_unfolding_all decide⟩
  intro s hs
  simp only [escapedQuote, List.mem_cons, List.not_mem_nil, or_false] at hs
  obtain rfl | rfl | rfl := hs
  · exact ⟨_, .plain (by decide) (by decide) (by decide)⟩
  · exact ⟨34, .letter (by decide)⟩
  · exact ⟨_, .plain (by decide) (by decide) (by decide)⟩

end Salvage.Literal
