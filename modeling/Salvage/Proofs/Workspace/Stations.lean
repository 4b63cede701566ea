import Mathlib.Data.List.Infix
import Salvage.Proofs.Workspace.Files

/-!
# Directories on the way

A path leads through stations: the places of the directories before its last name, and its own. A text
leads through the stations of the path that it is read as; empty names and dots stay in the text, but
they lead nowhere. The directories of a path can be made exactly if every name can be used and no file
stands at a station; then all stations are directories, and nothing else has changed.
-/

namespace Salvage

open PathText Salvage.Path

/-! ## Texts cut at their last slash -/

namespace PathText

lemma mem_ofPieces {c : Char} (hc : c ≠ '/') (ps : List String) :
    c ∈ (ofPieces ps).toList ↔ ∃ p ∈ ps, c ∈ p.toList := by
  have hslash : "/".toList = ['/'] := rfl
  induction ps with
  | nil => simp [ofPieces]
  | cons p ps ih =>
    cases ps with
    | nil => simp [ofPieces]
    | cons q ps =>
      have htail : c ∈ ("/".intercalate (q :: ps)).toList ↔ ∃ p ∈ q :: ps, c ∈ p.toList := ih
      rw [ofPieces, String.intercalate_cons_cons, String.toList_append, String.toList_append, hslash,
        List.mem_append, List.mem_append, htail]
      simp [hc]

lemma getLast?_pieces_of_slash {s : String} (hs : Tree.endsInSlash s = true) :
    (pieces s).getLast? = some "" := by
  obtain ⟨cs, hcs⟩ := List.getLast?_eq_some_iff.mp (beq_iff_eq.mp hs)
  have hfront : s = String.ofList cs ++ "/" ++ "" := by
    rw [String.append_empty, ← String.ofList_toList (s := s), hcs, String.ofList_append]
  have hempty : pieces "" = [""] := rfl
  rw [hfront, pieces_append_slash, hempty, List.getLast?_concat]

def slashes (k : Nat) : String :=
  String.ofList (List.replicate k '/')

lemma split_slashes (k : Nat) : split (slashes (k + 1)) = (slashes (k + 1), "") := by
  simp [split, slashes]

lemma exists_replicate_dropWhile (c : Char) (cs : List Char) :
    ∃ k, cs = List.replicate k c ++ cs.dropWhile (· == c) := by
  refine ⟨(cs.takeWhile (· == c)).length, ?_⟩
  have hc : cs.takeWhile (· == c) = List.replicate (cs.takeWhile (· == c)).length c := by
    refine List.eq_replicate_iff.mpr ⟨rfl, fun x hx => ?_⟩
    simpa using List.mem_takeWhile_imp hx
  rw [← hc, List.takeWhile_append_dropWhile]

/-- **A text is cut at its last slash**: no slash stands behind it, and those right before it are left
out of the front, unless the front is made of slashes. -/
lemma split_cases (s : String) : '/' ∉ (split s).2.toList ∧
    ((split s).1 = "" ∧ s = (split s).2 ∨
      (split s).1 ≠ "" ∧ ((∃ j, (split s).1 = slashes (j + 1)) ∨
          (split s).1.toList.getLast? ≠ some '/') ∧
        ∃ front k, s = front ++ "/" ++ (split s).2 ∧ (split s).1 ++ slashes k = front ++ "/") := by
  obtain ⟨rs, rfl⟩ : ∃ rs, s = String.ofList rs.reverse := ⟨s.toList.reverse, by simp⟩
  have hrs := List.takeWhile_append_dropWhile (p := (· != '/')) (l := rs)
  have hslash : '/' ∉ (rs.takeWhile (· != '/')).reverse := fun hmem => by
    simpa using List.mem_takeWhile_imp (List.mem_reverse.mp hmem)
  have hhead := List.head?_dropWhile_not (· != '/') rs
  simp only [split, String.toList_ofList, List.reverse_reverse, List.length_reverse]
  -- `a` is what stands behind the last slash, and `b` what stands before it, both in reverse
  generalize rs.takeWhile (· != '/') = a, rs.dropWhile (· != '/') = b at hrs hslash hhead
  subst hrs
  have htake : (a ++ b).reverse.take ((a ++ b).length - a.length) = b.reverse := by simp
  rw [htake, List.reverse_reverse]
  refine ⟨hslash, ?_⟩
  cases b with
  | nil => simp
  | cons c d =>
    obtain rfl : c = '/' := by simpa using hhead
    obtain ⟨k, hk⟩ := exists_replicate_dropWhile '/' ('/' :: d)
    have hlast := List.head?_dropWhile_not (· == '/') ('/' :: d)
    generalize ('/' :: d).dropWhile (· == '/') = e at hk hlast
    have hslashes : "/" = String.ofList ['/'] := rfl
    have hfront : String.ofList d.reverse ++ "/" = String.ofList ('/' :: d).reverse := by
      rw [hslashes, ← String.ofList_append, List.reverse_cons]
    have hall : String.ofList (a ++ '/' :: d).reverse =
        String.ofList d.reverse ++ "/" ++ String.ofList a.reverse := by
      rw [hfront, ← String.ofList_append, List.reverse_append]
    cases e with
    | nil =>
      rw [List.append_nil] at hk
      have hlength : d.length + 1 = k := by simpa using congrArg List.length hk
      refine .inr ⟨by simp, .inl ⟨d.length, ?_⟩, String.ofList d.reverse, 0, hall, ?_⟩
      · rw [hlength, hk, List.reverse_replicate]
        rfl
      · rw [hfront]
        exact String.append_empty
    | cons c e =>
      have hne : (c :: e).reverse.isEmpty = false := by simp
      rw [hne, if_neg Bool.false_ne_true]
      refine .inr ⟨by simp, .inr (by simpa using hlast), String.ofList d.reverse, k, hall, ?_⟩
      rw [hfront, hk, slashes, List.reverse_append, List.reverse_replicate, String.ofList_append]

lemma pieces_split (s : String) : ∃ front, pieces s = front ++ [(split s).2] := by
  obtain ⟨hslash, ⟨-, hs⟩ | ⟨-, -, front, -, hs, -⟩⟩ := split_cases s
  · exact ⟨[], (congrArg pieces hs).trans (pieces_of_slash_notMem hslash)⟩
  · refine ⟨pieces front, (congrArg pieces hs).trans ?_⟩
    rw [pieces_append_slash, pieces_of_slash_notMem hslash]

end PathText

namespace Path

variable {p : Path}

lemma parts_eq (hparts : p.parts ≠ []) : p.parts = p.parent.parts ++ [p.name] := by
  rw [name, List.getLast?_eq_getLast_of_ne_nil hparts, parent]
  exact (List.dropLast_append_getLast hparts).symm

lemma pieces_text (hp : p.Proper) (hparts : p.parts ≠ []) :
    ∃ k, pieces p.text = List.replicate k "" ++ p.parts := by
  have hpieces : pieces (ofPieces p.parts) = p.parts :=
    pieces_ofPieces (fun n hn => (hp.names n hn).2.2) hparts
  have htext : p.text = p.anchor ++ ofPieces p.parts := by
    rw [text, if_neg (by simp [hparts])]
  rw [htext]
  rcases hp.anchor_cases with h | h | h
  · exact ⟨0, by rw [h, String.empty_append, hpieces]; rfl⟩
  · exact ⟨1, by rw [h, pieces_slash, hpieces]; rfl⟩
  · have hslashes : "//" = "/" ++ "/" := rfl
    refine ⟨2, ?_⟩
    rw [h, hslashes, String.append_assoc, pieces_slash, pieces_slash, hpieces]
    rfl

lemma split_text (hp : p.Proper) (hparts : p.parts ≠ []) : (split p.text).2 = p.name := by
  obtain ⟨k, hk⟩ := pieces_text hp hparts
  obtain ⟨front, hfront⟩ := pieces_split p.text
  rw [parts_eq hparts, ← List.append_assoc, hfront] at hk
  exact List.singleton_inj.mp (List.append_inj_right' hk rfl)

lemma text_ne_empty (hp : p.Proper) : p.text ≠ "" := by
  intro htext
  have hp := ofString_text hp
  rw [htext] at hp
  rw [← hp] at htext
  exact absurd htext (by decide)

lemma endsInSlash_text (hp : p.Proper) (hparts : p.parts ≠ []) :
    Tree.endsInSlash p.text = false := by
  obtain ⟨front, hfront⟩ := pieces_split p.text
  refine Bool.eq_false_iff.mpr fun hslash => ?_
  have hlast := getLast?_pieces_of_slash hslash
  rw [hfront, List.getLast?_concat, split_text hp hparts] at hlast
  exact (hp.names _ (parts_eq hparts ▸ List.mem_append_right _ List.mem_cons_self)).1
    (Option.some.inj hlast)

def start (p : Path) (home : Place) : Place :=
  if p.anchor = "" then home else []

lemma node?_start (p : Path) (t : Tree) : t.node? (p.start t.home) = some .directory := by
  rw [start, Tree.node?, if_pos]
  split_ifs
  · exact List.isPrefixOf_iff_prefix.mpr (List.prefix_refl _)
  · exact List.isPrefixOf_iff_prefix.mpr List.nil_prefix

def stations (p : Path) (home : Place) : List Place :=
  p.parts.inits.map (Tree.namesFrom (p.start home))

variable {q : Place}

lemma mem_stations {home : Place} :
    q ∈ p.stations home ↔ ∃ names, names <+: p.parts ∧ Tree.namesFrom (p.start home) names = q := by
  simp [stations]

lemma node?_of_mem_stations (hparts : p.parts = []) {t : Tree}
    (hq : q ∈ p.stations t.home) : t.node? q = some .directory := by
  obtain ⟨front, hfront, rfl⟩ := mem_stations.mp hq
  rw [hparts, List.prefix_nil] at hfront
  rw [hfront]
  exact node?_start p t

lemma prefix_dropLast_iff {names front : List String} (hnames : names ≠ []) :
    front <+: names.dropLast ↔ front <+: names ∧ front ≠ names := by
  constructor
  · intro h
    refine ⟨h.trans (List.dropLast_prefix _), ?_⟩
    rintro rfl
    exact hnames (List.eq_nil_iff_length_eq_zero.mpr (by
      have := h.length_le
      rw [List.length_dropLast] at this
      omega))
  · rintro ⟨h, hne⟩
    rw [← List.dropLast_append_getLast hnames] at h
    exact (List.prefix_concat_iff.mp h).resolve_left fun heq =>
      hne (heq.trans (List.dropLast_append_getLast hnames))

lemma mem_stations_iff_parent (hparts : p.parts ≠ []) {home : Place} :
    q ∈ p.stations home ↔ q ∈ p.parent.stations home ∨ q = p.place home := by
  have hlast : p.parts.dropLast ++ [p.parts.getLast hparts] = p.parts :=
    List.dropLast_append_getLast hparts
  constructor
  · intro h
    obtain ⟨names, hnames, rfl⟩ := mem_stations.mp h
    rw [← hlast] at hnames
    rcases List.prefix_concat_iff.mp hnames with rfl | hnames
    · rw [hlast]
      exact .inr rfl
    · exact .inl (mem_stations.mpr ⟨names, hnames, rfl⟩)
  · rintro (h | rfl)
    · obtain ⟨names, hnames, rfl⟩ := mem_stations.mp h
      exact mem_stations.mpr ⟨names, hnames.trans (List.dropLast_prefix _), rfl⟩
    · exact mem_stations.mpr ⟨p.parts, List.prefix_refl _, rfl⟩

lemma start_ofString (s : String) (home : Place) :
    (ofString s).start home = if isAbsolute s then [] else home := by
  rw [start, ofString]
  simp only [isAbsolute_iff, ne_eq, ite_not]

lemma mem_of_mem_parts {s n : String} (hn : n ∈ (ofString s).parts) {c : Char} (hc : c ∈ n.toList) :
    c ∈ s.toList := by
  obtain ⟨cs, hcs, rfl⟩ := List.mem_map.mp (List.mem_filter.mp hn).1
  rw [String.toList_ofList] at hc
  exact (infix_of_mem_splitChars hcs).subset hc

end Path

namespace Tree

variable {t u : Tree} {p : Path} {path : String}

/-! ## Names on the way -/

/-- Whether a name can be used in a path: it has no character zero, and is not too long for a
directory to hold. -/
def isUsable (name : String) : Bool :=
  !name.toList.contains (Char.ofNat 0) && (name == ".." || !isTooLong name)

lemma isUsable_iff {name : String} : isUsable name ↔
    name.toList.contains (Char.ofNat 0) = false ∧ (name = ".." ∨ isTooLong name = false) := by
  simp [isUsable]

variable {names : List String} {q : Place}

/-- **Names lead to their place** exactly if none is too long and all places before it are
directories. -/
lemma walkNames_eq_ok_iff (here : Place) :
    t.walkNames here names = .ok (namesFrom here names) ↔
      (∀ n ∈ names, n = ".." ∨ isTooLong n = false) ∧
        ∀ front, front <+: names → front ≠ names →
          t.node? (namesFrom here front) = some .directory := by
  induction names generalizing here with
  | nil =>
    refine ⟨fun _ => ⟨by simp, fun front hfront hne => absurd (List.prefix_nil.mp hfront) hne⟩,
      fun _ => rfl⟩
  | cons name r ih =>
    -- the first names of the list are none, or the first name with some of the others
    have hfronts : ∀ there, (∀ front, namesFrom here (name :: front) = namesFrom there front) →
        ((∀ front, front <+: name :: r → front ≠ name :: r →
            t.node? (namesFrom here front) = some .directory) ↔
          t.node? here = some .directory ∧ ∀ front, front <+: r → front ≠ r →
            t.node? (namesFrom there front) = some .directory) := by
      intro there hthere
      constructor
      · refine fun h => ⟨h [] List.nil_prefix (by simp), fun front hfront hne => ?_⟩
        rw [← hthere]
        exact h (name :: front) (List.cons_prefix_cons.mpr ⟨rfl, hfront⟩) (by simpa using hne)
      · rintro ⟨hhere, h⟩ front hfront hne
        cases front with
        | nil => exact hhere
        | cons n front =>
          obtain ⟨rfl, htail⟩ := List.cons_prefix_cons.mp hfront
          rw [hthere]
          exact h front htail (by simpa using hne)
    rw [walkNames_cons_eq_ok_iff]
    by_cases hstay : name = "" ∨ name = "."
    · have hthere : ∀ front, namesFrom here (name :: front) = namesFrom here front := by
        intro front
        rw [namesFrom, if_pos hstay]
      have hshort : isTooLong name = false := by rcases hstay with rfl | rfl <;> decide
      rw [hfronts _ hthere, hthere, ih, List.forall_mem_cons]
      tauto
    by_cases hup : name = ".."
    · have hthere : ∀ front, namesFrom here (name :: front) = namesFrom here.dropLast front := by
        intro front
        rw [namesFrom, if_neg hstay, if_pos hup]
      rw [hfronts _ hthere, hthere, ih, List.forall_mem_cons]
      tauto
    · have hthere : ∀ front, namesFrom here (name :: front) = namesFrom (here ++ [name]) front := by
        intro front
        rw [namesFrom, if_neg hstay, if_neg hup]
      rw [hfronts _ hthere, hthere, ih, List.forall_mem_cons]
      tauto

/-- Names of which none is too long, along places where no file stands, lead to their place unless
a directory is missing. -/
lemma walkNames_missing (here : Place) (hlong : ∀ n ∈ names, n = ".." ∨ isTooLong n = false)
    (hfile : ∀ front, front <+: names → ∀ data, t.node? (namesFrom here front) ≠ some (.file data)) :
    t.walkNames here names = .ok (namesFrom here names) ∨
      t.walkNames here names = .error .missing := by
  induction names generalizing here with
  | nil => exact .inl rfl
  | cons name r ih =>
    have hlongr : ∀ n ∈ r, n = ".." ∨ isTooLong n = false := fun n hn =>
      hlong n (List.mem_cons_of_mem _ hn)
    have hfront : ∀ front, front <+: r → ∀ data,
        t.node? (namesFrom here (name :: front)) ≠ some (.file data) := fun front h =>
      hfile (name :: front) (List.cons_prefix_cons.mpr ⟨rfl, h⟩)
    rw [walkNames]
    cases hnode : t.node? here with
    | none => exact .inr rfl
    | some n =>
      cases n with
      | file data => exact absurd hnode (hfile [] List.nil_prefix data)
      | directory =>
        simp only [namesFrom] at hfront ⊢
        by_cases hstay : name = "" ∨ name = "."
        · simp only [hstay, if_true] at hfront ⊢
          exact ih _ hlongr hfront
        by_cases hup : name = ".."
        · simp only [hup, if_true] at hfront ⊢
          exact ih _ hlongr hfront
        · simp only [hstay, hup, if_false, (hlong name List.mem_cons_self).resolve_left hup,
            Bool.false_eq_true] at hfront ⊢
          exact ih _ hlongr hfront

/-! ## Places of texts -/

lemma namesOf_of_isUsable (h : ∀ n ∈ (ofString path).parts, isUsable n) :
    Char.ofNat 0 ∉ path.toList ∧ ∀ n ∈ namesOf path, n = ".." ∨ isTooLong n = false := by
  constructor
  · intro hzero
    have hpath : ofPieces (pieces path) = path := by
      have hslash : "/".toList = ['/'] := rfl
      rw [← String.toList_inj, ofPieces, String.toList_intercalate, hslash, pieces,
        List.map_map, splitChars_eq]
      simp [Function.comp_def, List.intercalate_splitOn]
    rw [← hpath, mem_ofPieces (by decide)] at hzero
    obtain ⟨n, hn, hzero⟩ := hzero
    by_cases hskip : n = "" ∨ n = "."
    · rcases hskip with rfl | rfl <;> exact absurd hzero (by decide)
    · have hn := (isUsable_iff.mp (h n (List.mem_filter.mpr ⟨hn, by grind⟩))).1
      rw [List.contains_iff_mem.mpr hzero] at hn
      cases hn
  · intro n hn
    by_cases hskip : n = "" ∨ n = "."
    · rcases hskip with rfl | rfl <;> decide
    · refine (isUsable_iff.mp (h n ?_)).2
      rw [← filter_namesOf]
      exact List.mem_filter.mpr ⟨hn, by grind⟩

lemma namesFrom_mem_stations {front : List String} (hfront : front <+: namesOf path) (home : Place) :
    namesFrom (if isAbsolute path then [] else home) front ∈
      (ofString path).stations home := by
  refine mem_stations.mpr ⟨front.filter fun n => n ≠ "" ∧ n ≠ ".", ?_, ?_⟩
  · rw [← filter_namesOf]
    exact hfront.filter _
  · rw [namesFrom_filter, start_ofString]

lemma place_of_stations (hempty : path ≠ "") (hnames : ∀ n ∈ (ofString path).parts, isUsable n)
    (hdirs : ∀ q ∈ (ofString path).stations t.home, t.node? q = some .directory) :
    t.place path = .ok ((ofString path).place t.home) := by
  obtain ⟨hzero, hlong⟩ := namesOf_of_isUsable hnames
  rw [← pathPlace_eq]
  refine place_eq_ok_iff.mpr ⟨by simpa using hempty, by simpa using hzero, ?_, fun ⟨data, hdata⟩ => ?_⟩
  · exact (walkNames_eq_ok_iff _).mpr
      ⟨hlong, fun front hfront _ => hdirs _ (namesFrom_mem_stations hfront _)⟩
  · rw [pathPlace, hdirs _ (namesFrom_mem_stations (List.prefix_refl _) _)] at hdata
    cases hdata

lemma place_of_front (hname : (PathText.split path).2 ≠ "" ∧ (PathText.split path).2 ≠ ".")
    (hnames : ∀ n ∈ (ofString path).parts, isUsable n)
    (hdirs : ∀ q ∈ (ofString path).parent.stations t.home, t.node? q = some .directory) :
    endsInSlash path = false ∧ t.place path = .ok ((ofString path).place t.home) := by
  obtain ⟨hzero, hlong⟩ := namesOf_of_isUsable hnames
  obtain ⟨front, hfront⟩ := pieces_split path
  have hslash : endsInSlash path = false := by
    refine Bool.eq_false_iff.mpr fun hslash => hname.1 ?_
    have hlast := getLast?_pieces_of_slash hslash
    rw [hfront, List.getLast?_concat] at hlast
    exact Option.some.inj hlast
  have hempty : path ≠ "" := by
    rintro rfl
    exact hname.1 rfl
  have hnamesOf : namesOf path = front ++ [(PathText.split path).2] := by
    rw [namesOf, hfront, List.reverse_concat, List.dropWhile_cons_of_neg (by simp [hname.1]),
      List.reverse_cons, List.reverse_reverse]
  have hparts : (ofString path).parent.parts = front.filter fun n => n ≠ "" ∧ n ≠ "." := by
    rw [parent, ← filter_namesOf, hnamesOf, List.filter_append,
      List.filter_cons_of_pos (by simpa using hname), List.filter_nil, List.dropLast_concat]
  rw [← pathPlace_eq]
  refine ⟨hslash, place_eq_ok_iff.mpr ⟨by simpa using hempty, by simpa using hzero, ?_, fun _ => hslash⟩⟩
  refine (walkNames_eq_ok_iff _).mpr ⟨hlong, fun names hmem hne => hdirs _ ?_⟩
  rw [hnamesOf] at hmem hne
  refine mem_stations.mpr ⟨names.filter fun n => n ≠ "" ∧ n ≠ ".", ?_, ?_⟩
  · rw [hparts]
    exact ((List.prefix_concat_iff.mp hmem).resolve_left hne).filter _
  · rw [namesFrom_filter, ← start_ofString]
    rfl

lemma walkNames_filter {here there : Place} (h : t.walkNames here names = .ok there) :
    t.walkNames here (names.filter fun n => n ≠ "" ∧ n ≠ ".") = .ok there := by
  induction names generalizing here with
  | nil => exact h
  | cons n r ih =>
    obtain ⟨hhere, h⟩ := walkNames_cons_eq_ok_iff.mp h
    by_cases hskip : n = "" ∨ n = "."
    · rw [List.filter_cons_of_neg (by grind)]
      exact ih ((h.resolve_right (by grind)).2)
    · rw [List.filter_cons_of_pos (by grind), walkNames_cons_eq_ok_iff]
      refine ⟨hhere, (h.resolve_left fun h => hskip h.1).elim (fun h => ?_) fun h => ?_⟩
      · exact .inr (.inl ⟨hskip, h.2.1, ih h.2.2⟩)
      · exact .inr (.inr ⟨hskip, h.2.1, h.2.2.1, ih h.2.2.2⟩)

lemma fronts_of_place (h : t.place path = .ok q) :
    (∀ n ∈ (ofString path).parts, isUsable n) ∧
      ∀ front, front <+: (ofString path).parts → front ≠ (ofString path).parts →
        t.node? (namesFrom ((ofString path).start t.home) front) = some .directory := by
  obtain ⟨-, hzero, hwalk, -⟩ := place_eq_ok_iff.mp h
  have hwalk := walkNames_filter hwalk
  rw [filter_namesOf, ← start_ofString, walkNames_eq hwalk] at hwalk
  obtain ⟨hlong, hdirs⟩ := (walkNames_eq_ok_iff _).mp hwalk
  refine ⟨fun n hn => isUsable_iff.mpr ⟨?_, hlong n hn⟩, hdirs⟩
  rw [← Bool.not_eq_true, List.contains_iff_mem] at *
  exact fun hmem => hzero (mem_of_mem_parts hn hmem)

/-- **The text of a path has a place** exactly if its names can be used and all places before it are
directories. -/
lemma place_text_eq_ok_iff (hp : p.Proper) (hparts : p.parts ≠ []) :
    t.place p.text = .ok (p.place t.home) ↔ (∀ n ∈ p.parts, isUsable n) ∧
      ∀ q ∈ p.parent.stations t.home, t.node? q = some .directory := by
  have htext := ofString_text hp
  constructor
  · intro h
    obtain ⟨hnames, hdirs⟩ := fronts_of_place h
    rw [htext] at hnames hdirs
    refine ⟨hnames, fun q hq => ?_⟩
    obtain ⟨front, hfront, rfl⟩ := mem_stations.mp hq
    obtain ⟨hfront, hne⟩ := (prefix_dropLast_iff hparts).mp hfront
    exact hdirs front hfront hne
  · rintro ⟨hnames, hdirs⟩
    have hname := (List.forall_mem_append.mp (parts_eq hparts ▸ hp.names)).2 _ List.mem_cons_self
    rw [← split_text hp hparts] at hname
    have hplace := (place_of_front (t := t) ⟨hname.1, hname.2.1⟩ (by rwa [htext]) (by rwa [htext])).2
    rwa [htext] at hplace

/-! ## Directories that are made -/

structure Passable (t : Tree) (p : Path) : Prop where
  names : ∀ n ∈ p.parts, isUsable n
  noFile : ∀ q ∈ p.stations t.home, ∀ data, t.node? q ≠ some (.file data)

/-- The second tree is the first one with a directory at every station of a path where nothing
stood. -/
structure Paved (t : Tree) (p : Path) (u : Tree) : Prop where
  home_eq : u.home = t.home
  node_eq : ∀ q, u.node? q =
    if t.node? q = none ∧ q ∈ p.stations t.home then some .directory else t.node? q

lemma ensureDirectory_of_place {path : String} (hplace : t.place path = .ok q) :
    t.ensureDirectory path =
      if t.node? q = none then .ok (t.put q .directory)
      else if t.node? q = some .directory then .ok t
      else .error ⟨.exists, path, none⟩ := by
  have hfind : t.isDirectory path = decide (t.node? q = some .directory) := by
    unfold isDirectory find?
    rw [hplace]
    cases hnode : t.node? q with
    | none => simp [hnode]
    | some n => cases n <;> simp [hnode]
  rw [ensureDirectory, makeDirectory_of_place hplace, hfind]
  cases t.node? q with
  | none => simp
  | some n => cases n <;> simp

lemma ensureDirectory_of_error {path : String} {c : FileCause} (hplace : t.place path = .error c) :
    t.ensureDirectory path = .error ⟨c, path, none⟩ := by
  have hfind : t.isDirectory path = false := by
    unfold isDirectory find?
    rw [hplace]
  rw [ensureDirectory, makeDirectory_of_error hplace, hfind]
  simp

lemma makePath_of_missing (hplace : t.place p.text = .error .missing) (hparts : p.parts ≠ []) :
    t.makePath p = (t.makePath p.parent).bind (·.ensureDirectory p.text) := by
  have hlength : p.parts.length = p.parent.parts.length + 1 := by
    have := List.length_pos_iff.mpr hparts
    rw [parent, List.length_dropLast]
    omega
  rw [makePath, makePath, makePathUpTo, makeDirectory_of_error hplace, ← hlength]
  simp only [List.isEmpty_iff, hparts, if_false]
  cases makePathUpTo p.parts.length t p.parent <;> rfl

lemma makePath_of_not_missing (hplace : t.place p.text ≠ .error .missing) :
    t.makePath p = t.ensureDirectory p.text := by
  have hmake : ∀ q r, t.makeDirectory p.text ≠ .error ⟨.missing, q, r⟩ := by
    intro q r h
    cases hcase : t.place p.text with
    | error c =>
      rw [makeDirectory_of_error hcase] at h
      cases h
      exact hplace hcase
    | ok here =>
      rw [makeDirectory_of_place hcase] at h
      split_ifs at h
      cases h
  rw [makePath, makePathUpTo]
  split
  · rename_i q r h
    exact absurd h (hmake q r)
  · rfl

lemma Passable.place (h : t.Passable (ofString path)) (hempty : path ≠ "") :
    t.place path = .ok ((ofString path).place t.home) ∨ t.place path = .error .missing := by
  obtain ⟨hzero, hlong⟩ := namesOf_of_isUsable h.names
  have hfile : ∀ front, front <+: namesOf path → ∀ data, t.node? (namesFrom
      (if isAbsolute path then [] else t.home) front) ≠ some (.file data) :=
    fun front hfront => h.noFile _ (namesFrom_mem_stations hfront _)
  refine (walkNames_missing _ hlong hfile).imp (fun hok => ?_) fun hmissing => ?_
  · rw [← pathPlace_eq]
    refine place_eq_ok_iff.mpr ⟨by simpa using hempty, by simpa using hzero, hok, ?_⟩
    rintro ⟨data, hdata⟩
    exact absurd hdata (hfile _ (List.prefix_refl _) data)
  · rw [Tree.place, if_neg (by simpa using hempty), if_neg (by simpa using hzero), hmissing]

lemma Passable.parent (h : t.Passable p) : t.Passable p.parent := by
  refine ⟨fun n hn => h.names n (List.dropLast_subset _ hn), fun q hq => h.noFile q ?_⟩
  obtain ⟨front, hfront, rfl⟩ := mem_stations.mp hq
  exact mem_stations.mpr ⟨front, hfront.trans (List.dropLast_prefix _), rfl⟩

lemma paved_self (h : ∀ q ∈ p.stations t.home, t.node? q = some .directory) : t.Paved p t := by
  refine ⟨rfl, fun q => (if_neg ?_).symm⟩
  rintro ⟨hnone, hq⟩
  rw [h q hq] at hnone
  cases hnone

lemma Paved.directory (h : t.Paved p u) (hp : t.Passable p)
    (hq : q ∈ p.stations t.home) : u.node? q = some .directory := by
  rw [h.node_eq]
  cases hnode : t.node? q with
  | none => exact if_pos ⟨rfl, hq⟩
  | some n =>
    cases n with
    | directory => rfl
    | file data => exact absurd hnode (hp.noFile q hq data)

lemma Paved.last {v : Tree} (h : t.Paved p.parent v) (h' : v.Paved p u) (hparts : p.parts ≠ []) :
    t.Paved p u := by
  refine ⟨h'.home_eq.trans h.home_eq, fun q => ?_⟩
  have hstation : q ∈ p.stations t.home ↔ _ := mem_stations_iff_parent hparts
  rw [h'.node_eq, h.home_eq, h.node_eq]
  by_cases hnone : t.node? q = none <;> by_cases hq : q ∈ p.parent.stations t.home <;>
    simp [hnone, hq, hstation]

lemma paved_ensureDirectory {path : String} (hplace : t.place path = .ok (p.place t.home))
    (hparts : p.parts ≠ []) (hdirs : ∀ q ∈ p.parent.stations t.home, t.node? q = some .directory)
    (hfile : ∀ data, t.node? (p.place t.home) ≠ some (.file data)) :
    ∃ u, t.ensureDirectory path = .ok u ∧ t.Paved p u := by
  rw [ensureDirectory_of_place hplace]
  cases hnode : t.node? (p.place t.home) with
  | none =>
    refine ⟨_, if_pos rfl, home_put .., fun q => ?_⟩
    have hstation : q ∈ p.stations t.home ↔ _ := mem_stations_iff_parent hparts
    rw [node?_put (by simp [hnode])]
    by_cases hq : q = p.place t.home
    · rw [if_pos hq, if_pos ⟨hq ▸ hnode, hstation.mpr (.inr hq)⟩]
    · rw [if_neg hq, if_neg]
      rintro ⟨hnone, hmem⟩
      rw [hdirs q ((hstation.mp hmem).resolve_right hq)] at hnone
      cases hnone
  | some n =>
    cases n with
    | file data => exact absurd hnode (hfile data)
    | directory =>
      refine ⟨t, by simp, paved_self fun q hq => ?_⟩
      rcases (mem_stations_iff_parent hparts).mp hq with hq | rfl
      · exact hdirs q hq
      · exact hnode

lemma place_of_ensureDirectory (hp : p.Proper) (h : t.ensureDirectory p.text = .ok u) :
    t.place p.text = .ok (p.place t.home) ∧
      ∀ data, t.node? (p.place t.home) ≠ some (.file data) := by
  cases hplace : t.place p.text with
  | error c =>
    rw [ensureDirectory_of_error hplace] at h
    cases h
  | ok q =>
    obtain rfl := place_eq_pathPlace hplace
    rw [pathPlace_text hp] at hplace ⊢
    refine ⟨rfl, fun data hdata => ?_⟩
    rw [ensureDirectory_of_place hplace, hdata] at h
    simp at h

lemma makePath_of_parts_eq_nil (hp : p.Proper) (hparts : p.parts = []) : t.makePath p = .ok t := by
  have htext := ofString_text hp
  have hplace := place_of_stations (t := t) (text_ne_empty hp) (by simp [htext, hparts])
    fun q hq => node?_of_mem_stations (by rw [htext, hparts]) hq
  have hnode : t.node? ((ofString p.text).place t.home) = some .directory :=
    node?_of_mem_stations (by rw [htext, hparts])
      (mem_stations.mpr ⟨_, List.prefix_refl _, rfl⟩)
  rw [makePath_of_not_missing (by rw [hplace]; simp), ensureDirectory_of_place hplace, hnode]
  rfl

lemma exists_makePath (hp : p.Proper) (h : t.Passable p) :
    ∃ u, t.makePath p = .ok u ∧ t.Paved p u := by
  induction hn : p.parts.length generalizing p with
  | zero =>
    have hparts := List.eq_nil_iff_length_eq_zero.mpr hn
    exact ⟨t, makePath_of_parts_eq_nil hp hparts,
      paved_self fun q hq => node?_of_mem_stations hparts hq⟩
  | succ n ih =>
    have hparts : p.parts ≠ [] := List.ne_nil_of_length_eq_add_one hn
    have hstation : p.place t.home ∈ p.stations t.home :=
      (mem_stations_iff_parent hparts).mpr (.inr rfl)
    have htext := ofString_text hp
    have hpass : t.Passable (ofString p.text) := by rwa [htext]
    have hcases := hpass.place (text_ne_empty hp)
    rw [htext] at hcases
    rcases hcases with hplace | hplace
    · obtain ⟨-, hdirs⟩ := (place_text_eq_ok_iff hp hparts).mp hplace
      rw [makePath_of_not_missing (by rw [hplace]; simp)]
      exact paved_ensureDirectory hplace hparts hdirs (h.noFile _ hstation)
    · obtain ⟨v, hv, hpaved⟩ := ih hp.parent h.parent (by rw [parent, List.length_dropLast, hn]; rfl)
      have hdirs : ∀ q ∈ p.parent.stations v.home, v.node? q = some .directory := by
        rw [hpaved.home_eq]
        exact fun q hq => hpaved.directory h.parent hq
      have hfile : ∀ data, v.node? (p.place v.home) ≠ some (.file data) := by
        intro data
        rw [hpaved.home_eq, hpaved.node_eq]
        split_ifs
        · simp
        · exact h.noFile _ hstation data
      obtain ⟨u, hu, hlast⟩ := paved_ensureDirectory
        ((place_text_eq_ok_iff hp hparts).mpr ⟨h.names, hdirs⟩) hparts hdirs hfile
      refine ⟨u, ?_, hpaved.last hlast hparts⟩
      rw [makePath_of_missing hplace hparts, hv]
      exact hu

lemma passable_of_makePath (hp : p.Proper) (h : t.makePath p = .ok u) : t.Passable p := by
  induction hn : p.parts.length generalizing p u with
  | zero =>
    have hparts := List.eq_nil_iff_length_eq_zero.mpr hn
    refine ⟨by rw [hparts]; simp, fun q hq data => ?_⟩
    rw [node?_of_mem_stations hparts hq]
    exact fun h => nomatch h
  | succ n ih =>
    have hparts : p.parts ≠ [] := List.ne_nil_of_length_eq_add_one hn
    by_cases hplace : t.place p.text = .error .missing
    · rw [makePath_of_missing hplace hparts] at h
      cases hv : t.makePath p.parent with
      | error f =>
        rw [hv] at h
        cases h
      | ok v =>
        have hpassable := ih hp.parent hv (by rw [parent, List.length_dropLast, hn]; rfl)
        obtain ⟨v', hv', hpaved⟩ := exists_makePath hp.parent hpassable
        obtain rfl := Except.ok.inj (hv.symm.trans hv')
        rw [hv] at h
        obtain ⟨hplace, hfile⟩ := place_of_ensureDirectory hp h
        obtain ⟨hnames, -⟩ := (place_text_eq_ok_iff hp hparts).mp hplace
        refine ⟨hnames, fun q hq data hdata => ?_⟩
        rcases (mem_stations_iff_parent hparts).mp hq with hq | rfl
        · exact hpassable.noFile q hq data hdata
        · refine hfile data ?_
          rw [hpaved.home_eq, hpaved.node_eq, if_neg (by simp [hdata]), hdata]
    · rw [makePath_of_not_missing hplace] at h
      obtain ⟨hplace, hfile⟩ := place_of_ensureDirectory hp h
      obtain ⟨hnames, hdirs⟩ := (place_text_eq_ok_iff hp hparts).mp hplace
      refine ⟨hnames, fun q hq data => ?_⟩
      rcases (mem_stations_iff_parent hparts).mp hq with hq | rfl
      · rw [hdirs q hq]
        exact fun h => nomatch h
      · exact hfile data

/-- **What the tree is then**: every station is a directory, and nothing else has changed. -/
lemma paved_of_makePath (hp : p.Proper) (h : t.makePath p = .ok u) : t.Paved p u := by
  obtain ⟨v, hv, hpaved⟩ := exists_makePath hp (passable_of_makePath hp h)
  rwa [Except.ok.inj (h.symm.trans hv)]

/-- **When a file can be written** into directories that were made for it: its name can be used, no
directory stands there, and none was made there. -/
lemma writable_iff_of_paved (hp : p.Proper) (hparts : p.parts ≠ []) (h : t.Passable p.parent)
    (hpaved : t.Paved p.parent u) :
    u.Writable p.text ↔ isUsable p.name ∧ t.node? (p.place t.home) ≠ some .directory ∧
      p.place t.home ∉ p.parent.stations t.home := by
  have hdirs : ∀ q ∈ p.parent.stations u.home, u.node? q = some .directory := by
    rw [hpaved.home_eq]
    exact fun q hq => hpaved.directory h hq
  have hnames : (∀ n ∈ p.parts, isUsable n) ↔ isUsable p.name := by
    rw [parts_eq hparts, List.forall_mem_append, List.forall_mem_singleton]
    exact and_iff_right h.names
  have hplace : u.place p.text = .ok (p.place u.home) ↔ isUsable p.name := by
    rw [place_text_eq_ok_iff hp hparts, hnames]
    exact and_iff_left hdirs
  have hnode : u.node? (p.place t.home) ≠ some .directory ↔
      t.node? (p.place t.home) ≠ some .directory ∧ p.place t.home ∉ p.parent.stations t.home := by
    by_cases hmem : p.place t.home ∈ p.parent.stations t.home
    · simp [hpaved.directory h hmem, hmem]
    · rw [hpaved.node_eq, if_neg (fun h => hmem h.2), and_iff_left hmem]
  rw [writable_iff, pathPlace_text hp, hplace, hpaved.home_eq, hnode,
    and_iff_left (endsInSlash_text hp hparts)]

end Tree

end Salvage
