import Mathlib.Data.List.TakeWhile
import Salvage.Proofs.Workspace.Tree
import Salvage.Text.Replace

/-!
# Places of paths

A path that was read from a text is written to a text that is read as the same path, and the place
of a text is that of the path it is read as. So the places of two paths are compared by their names:
a path with another extension has another place, and a path without double dots has a place that none
of its directories has.
-/

namespace Salvage

open PathText

open Salvage.Tree (namesFrom namesOf pathPlace)

/-! ## Pieces of texts -/

lemma Text.mem_replaceFrom {p q s : List Char} {skip : Nat} {c : Char}
    (h : c ∈ replaceFrom p q skip s) : c ∈ s ∨ c ∈ q := by
  induction s generalizing skip with
  | nil =>
    rw [replaceFrom] at h
    exact .inl h
  | cons x r ih =>
    cases skip with
    | succ skip =>
      rw [replaceFrom] at h
      exact (ih h).imp_left (List.mem_cons_of_mem x)
    | zero =>
      rw [replaceFrom] at h
      split at h
      · rcases List.mem_append.mp h with h | h
        · exact .inr h
        · exact (ih h).imp_left (List.mem_cons_of_mem x)
      · rcases List.mem_cons.mp h with rfl | h
        · exact .inl List.mem_cons_self
        · exact (ih h).imp_left (List.mem_cons_of_mem x)

namespace PathText

lemma splitChars_eq (c : Char) (cs : List Char) : splitChars c cs = cs.splitOn c := by
  induction cs with
  | nil => rfl
  | cons x r ih =>
    have hne : r.splitOn c ≠ [] := List.splitOn_ne_nil c r
    rw [splitChars, List.splitOn_cons_eq_if_modifyHead, ih]
    by_cases hx : x = c
    · rw [if_pos hx, if_pos (beq_iff_eq.mpr hx)]
    · rw [if_neg hx, if_neg (fun h => hx (beq_iff_eq.mp h))]
      cases h : r.splitOn c with
      | nil => exact absurd h hne
      | cons p ps => rfl

lemma pieces_slash (s : String) : pieces ("/" ++ s) = "" :: pieces s := by
  have hslash : "/".toList = ['/'] := rfl
  rw [pieces, String.toList_append, hslash, splitChars_eq, List.singleton_append,
    ← List.nil_append ('/' :: s.toList), List.splitOn_append_cons_self, List.splitOn_nil, pieces,
    splitChars_eq]
  rfl

lemma pieces_append_slash (a b : String) : pieces (a ++ "/" ++ b) = pieces a ++ pieces b := by
  have hslash : "/".toList = ['/'] := rfl
  rw [pieces, String.toList_append, String.toList_append, hslash, splitChars_eq, List.append_assoc,
    List.singleton_append, List.splitOn_append_cons_self, List.map_append, pieces, pieces,
    splitChars_eq, splitChars_eq]

lemma isAbsolute_append {a : String} (ha : a ≠ "") (b : String) :
    isAbsolute (a ++ b) = isAbsolute a := by
  obtain ⟨c, cs, hcs⟩ := List.exists_cons_of_ne_nil (mt String.toList_eq_nil_iff.mp ha)
  rw [isAbsolute, isAbsolute, String.toList_append, hcs]
  rfl

lemma pieces_ofPieces {ps : List String} (hps : ∀ p ∈ ps, '/' ∉ p.toList) (hne : ps ≠ []) :
    pieces (ofPieces ps) = ps := by
  have hslash : "/".toList = ['/'] := rfl
  have hchars : ∀ cs ∈ ps.map String.toList, '/' ∉ cs := by
    intro cs hcs
    obtain ⟨p, hp, rfl⟩ := List.mem_map.mp hcs
    exact hps p hp
  rw [pieces, ofPieces, String.toList_intercalate, splitChars_eq, hslash,
    List.splitOn_intercalate '/' hchars (by simpa using hne), List.map_map]
  simp [Function.comp_def]

lemma notMem_of_mem_splitChars {c : Char} {cs q : List Char} (h : q ∈ splitChars c cs) : c ∉ q := by
  induction cs generalizing q with
  | nil =>
    obtain rfl := List.mem_singleton.mp h
    exact List.not_mem_nil
  | cons x r ih =>
    rw [splitChars] at h
    by_cases hx : x = c
    · rw [if_pos hx, List.mem_cons] at h
      rcases h with rfl | h
      · exact List.not_mem_nil
      · exact ih h
    · rw [if_neg hx] at h
      cases hr : splitChars c r with
      | nil =>
        rw [hr, List.mem_singleton] at h
        rw [h, List.mem_singleton]
        exact Ne.symm hx
      | cons p ps =>
        rw [hr] at h ih
        rcases List.mem_cons.mp h with rfl | h
        · rw [List.mem_cons, not_or]
          exact ⟨Ne.symm hx, ih List.mem_cons_self⟩
        · exact ih (List.mem_cons_of_mem _ h)

variable {s : String}

lemma pieces_of_slash_notMem (hs : '/' ∉ s.toList) : pieces s = [s] := by
  have hone : ofPieces [s] = s := by simp [ofPieces]
  have hpieces : pieces (ofPieces [s]) = [s] := pieces_ofPieces (by simpa using hs) (by simp)
  rwa [hone] at hpieces

lemma infix_of_mem_splitChars {c : Char} {cs q : List Char} (h : q ∈ splitChars c cs) : q <:+: cs := by
  have hmem : ∀ ps : List (List Char), ∀ q ∈ ps, q ∈ ps.intersperse [c] := by
    intro ps
    induction ps with
    | nil => simp
    | cons a ps ih =>
      cases ps with
      | nil => simp
      | cons b ps => simp_all
  rw [splitChars_eq] at h
  have hcs : [c].intercalate (cs.splitOn c) = cs := List.intercalate_splitOn c
  rw [← hcs]
  exact List.infix_of_mem_flatten (hmem _ q h)

lemma slash_notMem_of_mem_pieces {p : String} (h : p ∈ pieces s) : '/' ∉ p.toList := by
  obtain ⟨cs, hcs, rfl⟩ := List.mem_map.mp h
  rw [String.toList_ofList]
  exact notMem_of_mem_splitChars hcs

lemma anchor_append {a : String} (ha : a = "" ∨ a = "/" ∨ a = "//")
    (hs : s.toList.head? ≠ some '/') : anchor (a ++ s) = a := by
  have hslash : "/".toList = ['/'] := rfl
  have hslashes : "//".toList = ['/', '/'] := rfl
  unfold anchor
  rw [String.toList_append]
  rcases ha with rfl | rfl | rfl <;> cases h : s.toList with
  | nil => rfl
  | cons c r => grind

lemma head?_ofPieces {ps : List String} (hps : ∀ p ∈ ps, p ≠ "" ∧ '/' ∉ p.toList) :
    (ofPieces ps).toList.head? ≠ some '/' := by
  intro hhead
  cases ps with
  | nil => cases hhead
  | cons p ps =>
    obtain ⟨hp, hslash⟩ := hps p List.mem_cons_self
    obtain ⟨c, cs, hcs⟩ := List.exists_cons_of_ne_nil (mt String.toList_eq_nil_iff.mp hp)
    have hc : (ofPieces (p :: ps)).toList.head? = some c := by
      cases ps with
      | nil => simp [ofPieces, hcs]
      | cons q ps => simp [ofPieces, String.intercalate_cons_cons, hcs]
    rw [hc, Option.some.injEq] at hhead
    rw [hcs, hhead] at hslash
    exact hslash List.mem_cons_self

lemma anchor_cases (s : String) : anchor s = "" ∨ anchor s = "/" ∨ anchor s = "//" := by
  unfold anchor
  split <;> simp

lemma isAbsolute_iff (s : String) : isAbsolute s = true ↔ anchor s ≠ "" := by
  unfold isAbsolute anchor
  cases s.toList with
  | nil => simp
  | cons c r => grind

end PathText

namespace Path

/-! ## Proper paths -/

structure Proper (p : Path) : Prop where
  anchor_cases : p.anchor = "" ∨ p.anchor = "/" ∨ p.anchor = "//"
  names : ∀ n ∈ p.parts, n ≠ "" ∧ n ≠ "." ∧ '/' ∉ n.toList

variable {p q : Path}

lemma proper_ofString (s : String) : (ofString s).Proper where
  anchor_cases := anchor_cases s
  names n hn := by
    obtain ⟨hmem, hne⟩ := List.mem_filter.mp hn
    have hne : n ≠ "" ∧ n ≠ "." := of_decide_eq_true hne
    exact ⟨hne.1, hne.2, slash_notMem_of_mem_pieces hmem⟩

lemma Proper.append (hp : p.Proper) (hq : q.Proper) : (p.append q).Proper := by
  unfold Path.append
  split
  · exact ⟨hp.anchor_cases, fun n hn =>
      (List.mem_append.mp hn).elim (hp.names n) (hq.names n)⟩
  · exact hq

lemma Proper.take (hp : p.Proper) (n : Nat) : ({ p with parts := p.parts.take n } : Path).Proper :=
  ⟨hp.anchor_cases, fun m hm => hp.names m (List.mem_of_mem_take hm)⟩

lemma Proper.parent (hp : p.Proper) : p.parent.Proper :=
  ⟨hp.anchor_cases, fun m hm => hp.names m (List.dropLast_subset _ hm)⟩

lemma ofString_text (hp : p.Proper) : ofString p.text = p := by
  have hhead : (ofPieces p.parts).toList.head? ≠ some '/' :=
    head?_ofPieces fun n hn => ⟨(hp.names n hn).1, (hp.names n hn).2.2⟩
  have hkeep : p.parts.filter (fun n => n ≠ "" ∧ n ≠ ".") = p.parts := by
    rw [List.filter_eq_self]
    exact fun n hn => decide_eq_true ⟨(hp.names n hn).1, (hp.names n hn).2.1⟩
  have hpieces : (pieces (ofPieces p.parts)).filter (fun n => n ≠ "" ∧ n ≠ ".") =
      p.parts := by
    by_cases hparts : p.parts = []
    · rw [hparts]
      rfl
    · rw [pieces_ofPieces (fun n hn => (hp.names n hn).2.2) hparts, hkeep]
  by_cases hempty : p.anchor = "" ∧ p.parts = []
  · obtain ⟨hanchor, hparts⟩ := hempty
    cases p
    subst hanchor hparts
    rfl
  · have htext : p.text = p.anchor ++ ofPieces p.parts := by
      rw [text, if_neg]
      simpa using hempty
    have hanchor : PathText.anchor p.text = p.anchor := by
      rw [htext, anchor_append hp.anchor_cases hhead]
    have hnames : (pieces p.text).filter (fun n => n ≠ "" ∧ n ≠ ".") = p.parts := by
      rw [htext]
      rcases hp.anchor_cases with h | h | h
      · rw [h, String.empty_append, hpieces]
      · rw [h, pieces_slash, List.filter_cons_of_neg (by decide), hpieces]
      · have hslashes : "//" = "/" ++ "/" := rfl
        rw [h, hslashes, String.append_assoc, pieces_slash, pieces_slash,
          List.filter_cons_of_neg (by decide), List.filter_cons_of_neg (by decide), hpieces]
    rw [ofString, hanchor, hnames]

/-! ## Places -/

def place (p : Path) (home : Place) : Place :=
  Tree.namesFrom (if p.anchor = "" then home else []) p.parts

lemma namesFrom_filter (here : Place) (names : List String) :
    namesFrom here (names.filter fun n => n ≠ "" ∧ n ≠ ".") = namesFrom here names := by
  induction names generalizing here with
  | nil => rfl
  | cons n r ih =>
    rw [namesFrom]
    by_cases hn : n = "" ∨ n = "."
    · rw [List.filter_cons_of_neg (by grind), if_pos hn, ih]
    · rw [List.filter_cons_of_pos (by grind), namesFrom, if_neg hn, if_neg hn, ih, ih]

lemma namesFrom_append (here : Place) (a b : List String) :
    namesFrom here (a ++ b) = namesFrom (namesFrom here a) b := by
  induction a generalizing here with
  | nil => rfl
  | cons n r ih =>
    rw [List.cons_append, namesFrom, namesFrom]
    split_ifs <;> exact ih _

lemma filter_namesOf (s : String) :
    (namesOf s).filter (fun n => n ≠ "" ∧ n ≠ ".") = (ofString s).parts := by
  have hempty : ((pieces s).reverse.takeWhile (·.isEmpty)).filter
      (fun n => n ≠ "" ∧ n ≠ ".") = [] := by
    rw [List.filter_eq_nil_iff]
    intro n hn
    have hn := String.isEmpty_iff.mp (List.mem_takeWhile_imp hn)
    simp [hn]
  rw [ofString, namesOf, List.filter_reverse, List.reverse_eq_iff, ← List.filter_reverse,
    ← List.takeWhile_append_dropWhile (p := (·.isEmpty)) (l := (pieces s).reverse),
    List.filter_append, hempty, List.nil_append, List.takeWhile_append_dropWhile]

lemma pathPlace_parts (home : Place) (s : String) :
    pathPlace home s =
      namesFrom (if isAbsolute s then [] else home) (ofString s).parts := by
  rw [pathPlace, ← namesFrom_filter _ (namesOf s), filter_namesOf]

lemma pathPlace_eq (home : Place) (s : String) : pathPlace home s = (ofString s).place home := by
  rw [pathPlace_parts, place, ofString]
  congr 1
  simp only [isAbsolute_iff, ne_eq, ite_not]

lemma parts_append_slash (a b : String) :
    (ofString (a ++ "/" ++ b)).parts = (ofString a).parts ++ (ofString b).parts := by
  show (pieces (a ++ "/" ++ b)).filter _ = _
  rw [pieces_append_slash, List.filter_append]
  rfl

variable {b : String}

lemma parts_join (a : String) (hb : isAbsolute b = false) :
    (ofString (join a b)).parts = (ofString a).parts ++ (ofString b).parts := by
  rw [join, if_neg (by simp [hb])]
  by_cases ha : a = ""
  · subst ha
    rw [if_pos (by simp), String.empty_append]
    rfl
  by_cases hlast : a.toList.getLast? = some '/'
  · obtain ⟨cs, hcs⟩ := List.getLast?_eq_some_iff.mp hlast
    have hfront : a = String.ofList cs ++ "/" := by
      rw [← String.ofList_toList (s := a), hcs, String.ofList_append]
    have hempty := parts_append_slash (String.ofList cs) ""
    rw [← hfront, String.append_empty] at hempty
    have hnil : (ofString "").parts = [] := rfl
    rw [if_pos (by simp [hlast]), hempty, hnil, List.append_nil, ← parts_append_slash, ← hfront]
  · rw [if_neg (by simp [ha, hlast]), parts_append_slash]

lemma isAbsolute_join (a : String) (hb : isAbsolute b = false) :
    isAbsolute (join a b) = isAbsolute a := by
  rw [join, if_neg (by simp [hb])]
  by_cases ha : a = ""
  · subst ha
    rw [if_pos (by simp), String.empty_append, hb]
    rfl
  split
  · exact isAbsolute_append ha b
  · rw [String.append_assoc, isAbsolute_append ha]

lemma pathPlace_join (home : Place) (a : String) (hb : isAbsolute b = false) :
    pathPlace home (join a b) =
      namesFrom (pathPlace home a) (pieces b) := by
  rw [pathPlace_parts, isAbsolute_join a hb, parts_join a hb, namesFrom_append, ← pathPlace_parts,
    ofString, namesFrom_filter]

lemma pathPlace_text (hp : p.Proper) (home : Place) : pathPlace home p.text = p.place home := by
  rw [pathPlace_eq, ofString_text hp]

lemma node?_of_parts_eq_nil (hp : p.Proper) (hparts : p.parts = []) (t : Tree) :
    t.node? (pathPlace t.home p.text) = some .directory := by
  rw [pathPlace_text hp, place, hparts, namesFrom, Tree.node?, if_pos]
  split_ifs
  · exact List.isPrefixOf_iff_prefix.mpr (List.prefix_refl _)
  · exact List.isPrefixOf_iff_prefix.mpr List.nil_prefix

lemma namesFrom_eq_append {names : List String} (hnames : ∀ n ∈ names, n ≠ "" ∧ n ≠ "." ∧ n ≠ "..")
    (here : Place) : namesFrom here names = here ++ names := by
  induction names generalizing here with
  | nil => exact (List.append_nil here).symm
  | cons n r ih =>
    obtain ⟨hempty, hdot, hdots⟩ := hnames n List.mem_cons_self
    rw [namesFrom, if_neg (not_or.mpr ⟨hempty, hdot⟩), if_neg hdots,
      ih fun m hm => hnames m (List.mem_cons_of_mem _ hm), List.append_assoc, List.singleton_append]

lemma prefix_namesFrom {names : List String} (h : ".." ∉ names) (here : Place) :
    here <+: namesFrom here names := by
  rw [← namesFrom_filter, namesFrom_eq_append]
  · exact List.prefix_append ..
  · intro n hn
    obtain ⟨hmem, hne⟩ := List.mem_filter.mp hn
    have hne : n ≠ "" ∧ n ≠ "." := of_decide_eq_true hne
    exact ⟨hne.1, hne.2, fun hdots => h (hdots ▸ hmem)⟩

lemma pathPlace_join_name (home : Place) (a : String) {name : String} (hslash : '/' ∉ name.toList)
    (hdots : name ≠ "" ∧ name ≠ "." ∧ name ≠ "..") :
    pathPlace home (join a name) = pathPlace home a ++ [name] := by
  have hrelative : isAbsolute name = false := by
    rw [isAbsolute, beq_eq_false_iff_ne]
    exact fun hhead => hslash (List.mem_of_mem_head? hhead)
  rw [pathPlace_join home a hrelative, pieces_of_slash_notMem hslash,
    namesFrom_eq_append (by simpa using hdots)]

lemma place_take_ne (hp : p.Proper) (hdots : ".." ∉ p.parts) {n : Nat} (hn : n < p.parts.length)
    (home : Place) : ({ p with parts := p.parts.take n } : Path).place home ≠ p.place home := by
  have hnames : ∀ m ∈ p.parts, m ≠ "" ∧ m ≠ "." ∧ m ≠ ".." := fun m hm =>
    ⟨(hp.names m hm).1, (hp.names m hm).2.1, fun h => hdots (h ▸ hm)⟩
  rw [place, place, namesFrom_eq_append fun m hm => hnames m (List.mem_of_mem_take hm),
    namesFrom_eq_append hnames]
  intro heq
  have hlength := congrArg List.length (List.append_cancel_left heq)
  rw [List.length_take] at hlength
  omega

/-! ## Extensions -/

lemma stem_append_extension (p : Path) : p.stem ++ p.extension = p.name := by
  unfold stem extension
  split
  · exact String.append_empty
  · rw [← String.ofList_append, List.take_append_drop, String.ofList_toList]

lemma mem_name_of_mem_stem {c : Char} (h : c ∈ p.stem.toList) : c ∈ p.name.toList := by
  rw [← stem_append_extension, String.toList_append]
  exact List.mem_append_left _ h

lemma withExtension?_eq_some {extension : String} (h : p.withExtension? extension = some q) :
    p.parts = p.parts.dropLast ++ [p.name] ∧
      q = { p with parts := p.parts.dropLast ++ [p.stem ++ extension] } := by
  unfold withExtension? at h
  split at h
  · cases h
  · rename_i hname
    refine ⟨?_, (Option.some.inj h).symm⟩
    cases hlast : p.parts.getLast? with
    | none =>
      rw [name, hlast] at hname
      exact absurd rfl hname
    | some n =>
      obtain ⟨front, hfront⟩ := List.getLast?_eq_some_iff.mp hlast
      rw [name, hlast, hfront, List.dropLast_concat]
      rfl

lemma append_ne_dots (s : String) {ext : String} (hext : 2 < ext.length) :
    s ++ ext ≠ "" ∧ s ++ ext ≠ "." ∧ s ++ ext ≠ ".." := by
  have hlength : 2 < (s ++ ext).length := by
    rw [String.length_append]
    omega
  refine ⟨?_, ?_, ?_⟩ <;>
  · intro h
    rw [h] at hlength
    exact absurd hlength (by decide)

lemma parent_withName (p : Path) (n : String) : (p.withName n).parent = p.parent := by
  rw [withName, parent, List.dropLast_concat, parent]

lemma name_withName (p : Path) (n : String) : (p.withName n).name = n := by
  rw [withName, name, List.getLast?_concat]
  rfl

lemma Proper.withName (hp : p.parent.Proper) {n : String} (hn : n ≠ "" ∧ n ≠ "." ∧ '/' ∉ n.toList) :
    (p.withName n).Proper :=
  ⟨hp.anchor_cases, fun m hm => (List.mem_append.mp hm).elim (hp.names m) fun hm =>
    List.mem_singleton.mp hm ▸ hn⟩

lemma Proper.slash_notMem_name (hp : p.Proper) : '/' ∉ p.name.toList := by
  rw [name]
  cases hlast : p.parts.getLast? with
  | none => exact List.not_mem_nil
  | some n => exact (hp.names n (List.mem_of_getLast? hlast)).2.2

lemma Proper.withExtension {ext : String} (hp : p.parent.Proper) (hname : '/' ∉ p.name.toList)
    (hext : 2 < ext.length) (hslash : '/' ∉ ext.toList) : (p.withName (p.stem ++ ext)).Proper := by
  obtain ⟨hempty, hdot, -⟩ := append_ne_dots p.stem hext
  refine .withName hp ⟨hempty, hdot, ?_⟩
  rw [String.toList_append, List.mem_append, not_or]
  exact ⟨fun hmem => hname (mem_name_of_mem_stem hmem), hslash⟩

lemma place_withExtension_ne (h : p.withExtension? ".part" = some q) (hext : p.extension ≠ ".part")
    (home : Place) : q.place home ≠ p.place home := by
  obtain ⟨hparts, rfl⟩ := withExtension?_eq_some h
  obtain ⟨hempty, hdot, hdots⟩ := append_ne_dots p.stem (by decide : 2 < ".part".length)
  have hplace : p.place home = namesFrom (namesFrom (if p.anchor = "" then home else [])
      p.parts.dropLast) [p.name] := by
    rw [← namesFrom_append, ← hparts, place]
  rw [hplace, place, namesFrom_append]
  generalize namesFrom _ p.parts.dropLast = here
  rw [namesFrom, if_neg (not_or.mpr ⟨hempty, hdot⟩), if_neg hdots, namesFrom,
    namesFrom, namesFrom]
  intro heq
  have hlength := congrArg List.length heq
  split_ifs at heq hlength with hstay hup
  · simp at hlength
  · rw [List.length_append, List.length_singleton, namesFrom, List.length_dropLast] at hlength
    omega
  · -- both places end in a name, so that the names are the same
    have hname := List.singleton_inj.mp (List.append_cancel_left heq)
    rw [← stem_append_extension, String.append_right_inj] at hname
    exact hext hname.symm

end Path

end Salvage
