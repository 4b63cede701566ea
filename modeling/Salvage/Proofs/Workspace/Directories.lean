import Salvage.Proofs.Workspace.Change
import Salvage.Proofs.Workspace.Stations

/-!
# Directories before a text

The directories before a path are also made from its text alone: the text is cut at its last slash, and
the front is treated in the same way until something stands there. Slashes at the end of a front are cut
off with the last one. So the front of a text is read as the directory of the path that the text is
read as, and the directories that are made are its stations.
-/

namespace Salvage

open PathText Salvage.Path

/-! ## Fronts of texts -/

namespace PathText

lemma length_split {s : String} (h : (split s).2 ≠ "") : (split s).1.length < s.length := by
  have hpos : 0 < (split s).2.length := by
    refine Nat.pos_of_ne_zero fun hzero => h ?_
    simpa using hzero
  obtain ⟨-, ⟨hfront, hs⟩ | ⟨-, -, front, k, hs, hfront⟩⟩ := split_cases s
  · rw [hfront, hs]
    exact hpos
  · have hlength := congrArg String.length hfront
    have hall := congrArg String.length hs
    simp only [String.length_append] at hlength hall
    omega

lemma split_front {s : String} (h : (split s).1 ≠ "") :
    (∃ k, (split s).1 = slashes (k + 1)) ∨ (split (split s).1).2 ≠ "" := by
  obtain ⟨-, ⟨hempty, -⟩ | ⟨-, hk | hlast, -⟩⟩ := split_cases s
  · exact absurd hempty h
  · exact .inl hk
  · refine .inr fun htail => hlast ?_
    obtain ⟨-, ⟨-, hs⟩ | ⟨-, -, front, k, hs, -⟩⟩ := split_cases (split s).1
    · rw [htail] at hs
      exact absurd hs h
    · rw [hs, htail]
      simp

lemma isAbsolute_split (s : String) : isAbsolute (split s).1 = isAbsolute s := by
  obtain ⟨hslash, ⟨hempty, hs⟩ | ⟨hne, -, front, k, hs, hfront⟩⟩ := split_cases s
  · have hrelative : isAbsolute s = false := by
      rw [isAbsolute, beq_eq_false_iff_ne, hs]
      exact fun h => hslash (List.mem_of_mem_head? h)
    rw [hempty, hrelative]
    rfl
  · rw [← isAbsolute_append hne (slashes k ++ (split s).2), ← String.append_assoc, hfront, ← hs]

end PathText

namespace Path

lemma parts_append_slashes (a : String) (k : Nat) :
    (ofString (a ++ slashes k)).parts = (ofString a).parts := by
  induction k with
  | zero =>
    show (ofString (a ++ "")).parts = _
    rw [String.append_empty]
  | succ k ih =>
    have hslash : slashes (k + 1) = slashes k ++ "/" := by
      rw [slashes, List.replicate_succ', String.ofList_append]
      rfl
    rw [hslash, ← String.append_assoc, ← String.append_empty (s := _ ++ "/"), parts_append_slash, ih]
    exact List.append_nil _

lemma parts_split (s : String) :
    (ofString s).parts = (ofString (split s).1).parts ++ (ofString (split s).2).parts := by
  obtain ⟨-, ⟨hempty, hs⟩ | ⟨-, -, front, k, hs, hfront⟩⟩ := split_cases s
  · rw [hempty, ← hs]
    rfl
  · have hparts : (ofString (split s).1).parts = (ofString front).parts := by
      rw [← parts_append_slashes _ k, hfront, ← String.append_empty (s := front ++ "/"),
        parts_append_slash]
      exact List.append_nil _
    rw [hparts, ← parts_append_slash, ← hs]

variable {s : String}

lemma parts_of_slash_notMem (h : '/' ∉ s.toList) :
    (ofString s).parts = if s = "" ∨ s = "." then [] else [s] := by
  rw [ofString, pieces_of_slash_notMem h]
  split_ifs with hskip
  · rw [List.filter_cons_of_neg (by grind), List.filter_nil]
  · rw [List.filter_cons_of_pos (by grind), List.filter_nil]

/-- The front of a text before a name is read as the directory of what the text is read as, as far as
names and stations go. -/
lemma front_of_name (hname : (split s).2 ≠ "" ∧ (split s).2 ≠ ".") :
    (ofString s).parts = (ofString (split s).1).parts ++ [(split s).2] ∧
      ∀ home, (ofString (split s).1).stations home = (ofString s).parent.stations home := by
  have hparts : (ofString s).parts =
      (ofString (split s).1).parts ++ [(split s).2] := by
    rw [parts_split, parts_of_slash_notMem (split_cases s).1, if_neg (by simpa using hname)]
  refine ⟨hparts, fun home => ?_⟩
  have hstart : (ofString s).parent.start home = (ofString s).start home := rfl
  rw [stations, stations, hstart, start_ofString, start_ofString, isAbsolute_split, parent,
    hparts, List.dropLast_concat]

lemma front_of_dot (hdot : (split s).2 = ".") :
    (ofString (split s).1).parts = (ofString s).parts ∧
      ∀ home, (ofString (split s).1).stations home = (ofString s).stations home := by
  have hparts : (ofString (split s).1).parts = (ofString s).parts := by
    rw [parts_split s, hdot]
    exact (List.append_nil _).symm
  refine ⟨hparts, fun home => ?_⟩
  rw [stations, stations, start_ofString, start_ofString, isAbsolute_split, hparts]

end Path

namespace Tree

variable {t u : Tree} {p q : Path} {path : String}

/-! ## Directories that are made for a text -/

lemma ensureDirectory_eq (t : Tree) (path : String) :
    (match t.makeDirectory path with
      | .ok u => .ok u
      | .error f => if t.isDirectory path then .ok t else .error f) = t.ensureDirectory path := by
  cases hplace : t.place path with
  | error c =>
    have hfind : t.isDirectory path = false := by
      unfold isDirectory find?
      rw [hplace]
    rw [ensureDirectory_of_error hplace, makeDirectory_of_error hplace, hfind]
    rfl
  | ok q =>
    by_cases hnode : t.node? q = none <;>
      simp [ensureDirectory, makeDirectory_of_place hplace, hnode]

lemma makeDirectoriesUpTo_of_exists (fuel : Nat) (htail : (PathText.split path).2 ≠ "")
    (hfront : (PathText.split path).1 = "" ∨ t.exists? (PathText.split path).1 = true) :
    makeDirectoriesUpTo (fuel + 1) t path = t.ensureDirectory path := by
  rw [makeDirectoriesUpTo]
  cases hsplit : PathText.split path with
  | mk head tail =>
    simp only [hsplit] at htail hfront
    have hstay : (!head.isEmpty && !tail.isEmpty && !t.exists? head) = false := by
      rcases hfront with rfl | hfront
      · rfl
      · simp [hfront]
    simp only [Prod.mk.injEq, htail, and_false, false_implies, implies_true, hstay,
      Bool.false_eq_true, if_false]
    exact ensureDirectory_eq t path

lemma makeDirectoriesUpTo_of_missing {fuel : Nat} (htail : (PathText.split path).2 ≠ "")
    (hfront : (PathText.split path).1 ≠ "") (hmissing : t.exists? (PathText.split path).1 = false)
    (hmake : makeDirectoriesUpTo fuel t (PathText.split path).1 = .ok u) :
    makeDirectoriesUpTo (fuel + 1) t path =
      if (PathText.split path).2 = "." then .ok u else u.ensureDirectory path := by
  rw [makeDirectoriesUpTo]
  cases hsplit : PathText.split path with
  | mk head tail =>
    simp only [hsplit] at htail hfront hmissing hmake
    have hgo : (!head.isEmpty && !tail.isEmpty && !t.exists? head) = true := by
      simp [hmissing, hfront, htail]
    simp only [Prod.mk.injEq, htail, and_false, false_implies, implies_true, hgo, if_true, hmake]
    by_cases hdot : tail = "."
    · simp [hdot]
    · rw [if_neg hdot, beq_eq_false_iff_ne.mpr hdot]
      exact ensureDirectory_eq u path

lemma makeDirectoriesUpTo_slashes (fuel k : Nat) :
    makeDirectoriesUpTo (fuel + 1) t (slashes (k + 1)) =
      t.ensureDirectory (slashes (k + 1)) := by
  rw [makeDirectoriesUpTo]
  simp [split_slashes]
  exact ensureDirectory_eq t _

lemma Passable.congr (h : t.Passable p) (hparts : q.parts = p.parts)
    (hstations : q.stations t.home = p.stations t.home) : t.Passable q :=
  ⟨hparts ▸ h.names, hstations ▸ h.noFile⟩

lemma Paved.congr (h : t.Paved p u) (hstations : q.stations t.home = p.stations t.home) :
    t.Paved q u :=
  ⟨h.home_eq, hstations ▸ h.node_eq⟩

lemma directory_of_isDirectory (h : t.isDirectory path = true) {q : Place}
    (hq : q ∈ (ofString path).stations t.home) : t.node? q = some .directory := by
  obtain ⟨hplace, hnode⟩ := find?_eq_some_iff.mp (isDirectory_iff.mp h)
  obtain ⟨front, hfront, rfl⟩ := mem_stations.mp hq
  by_cases hall : front = (ofString path).parts
  · rwa [hall, Path.start, ← Path.place, ← Path.pathPlace_eq]
  · exact (fronts_of_place hplace).2 front hfront hall

lemma Passable.isDirectory (h : t.Passable (ofString path)) (hexists : t.exists? path = true) :
    t.isDirectory path = true := by
  obtain ⟨node, hfind⟩ := Option.isSome_iff_exists.mp hexists
  cases node with
  | directory => exact isDirectory_iff.mpr hfind
  | file data =>
    have hnode := (find?_eq_some_iff.mp hfind).2
    rw [pathPlace_eq] at hnode
    exact absurd hnode (h.noFile _ (mem_stations.mpr ⟨_, List.prefix_refl _, rfl⟩) data)

lemma ensureDirectory_of_stations (hempty : path ≠ "")
    (hnames : ∀ n ∈ (ofString path).parts, isUsable n)
    (hdirs : ∀ q ∈ (ofString path).stations t.home, t.node? q = some .directory) :
    t.ensureDirectory path = .ok t := by
  have hplace := hdirs _ (mem_stations.mpr ⟨_, List.prefix_refl _, rfl⟩)
  rw [ensureDirectory_of_place (place_of_stations hempty hnames hdirs), Path.place, ← Path.start, hplace]
  rfl

/-- **The directories before a text are made** if it is passable: its front is there or is made first,
and then its last name. -/
lemma exists_makeDirectoriesUpTo {fuel : Nat} (hfuel : path.length < fuel)
    (hend : (∃ k, path = PathText.slashes (k + 1)) ∨ (PathText.split path).2 ≠ "")
    (h : t.Passable (ofString path)) :
    ∃ u, makeDirectoriesUpTo fuel t path = .ok u ∧ t.Paved (ofString path) u := by
  induction fuel generalizing path with
  | zero => omega
  | succ fuel ih =>
    rcases hend with ⟨k, rfl⟩ | htail
    · have hparts : (ofString (slashes (k + 1))).parts = [] := by
        rw [← String.empty_append (s := slashes (k + 1)), parts_append_slashes]
        rfl
      have hdirs : ∀ q ∈ (ofString (slashes (k + 1))).stations t.home,
          t.node? q = some .directory := fun q hq => node?_of_mem_stations hparts hq
      rw [makeDirectoriesUpTo_slashes]
      exact ⟨t, ensureDirectory_of_stations (by simp [slashes]) h.names hdirs, paved_self hdirs⟩
    have hempty : path ≠ "" := by
      rintro rfl
      exact htail rfl
    have hname : (PathText.split path).2 ≠ "." →
        (PathText.split path).2 ≠ "" ∧ (PathText.split path).2 ≠ "." := fun hdot => ⟨htail, hdot⟩
    have hpassable : t.Passable (ofString (PathText.split path).1) := by
      by_cases hdot : (PathText.split path).2 = "."
      · obtain ⟨hparts, hstations⟩ := front_of_dot hdot
        exact h.congr hparts (hstations _)
      · obtain ⟨hparts, hstations⟩ := front_of_name (hname hdot)
        refine h.parent.congr ?_ (hstations _)
        rw [parent, hparts, List.dropLast_concat]
    obtain ⟨v, hv, hstep⟩ : ∃ v, t.Paved (ofString (PathText.split path).1) v ∧
        makeDirectoriesUpTo (fuel + 1) t path =
          if (PathText.split path).2 = "." then .ok v else v.ensureDirectory path := by
      by_cases hfront : (PathText.split path).1 = "" ∨ t.exists? (PathText.split path).1 = true
      · have hdirs : ∀ q ∈ (ofString (PathText.split path).1).stations t.home,
            t.node? q = some .directory := by
          intro q hq
          rcases hfront with hfront | hfront
          · exact node?_of_mem_stations (by rw [hfront]; rfl) hq
          · exact directory_of_isDirectory (hpassable.isDirectory hfront) hq
        refine ⟨t, paved_self hdirs, ?_⟩
        rw [makeDirectoriesUpTo_of_exists fuel htail hfront]
        split_ifs with hdot
        · rw [(front_of_dot hdot).2] at hdirs
          exact ensureDirectory_of_stations hempty h.names hdirs
        · rfl
      · obtain ⟨hne, hmissing⟩ := not_or.mp hfront
        have hshort := length_split htail
        obtain ⟨v, hv, hpaved⟩ := ih (by omega) (split_front hne) hpassable
        exact ⟨v, hpaved, makeDirectoriesUpTo_of_missing htail hne (by simpa using hmissing) hv⟩
    rw [hstep]
    split_ifs with hdot
    · exact ⟨v, rfl, hv.congr ((front_of_dot hdot).2 _).symm⟩
    · obtain ⟨hparts, hstations⟩ := front_of_name (hname hdot)
      have hdirs : ∀ q ∈ (ofString path).parent.stations v.home,
          v.node? q = some .directory := by
        rw [← hstations, hv.home_eq]
        exact fun q hq => hv.directory hpassable hq
      have hplace := (place_of_front (hname hdot) h.names hdirs).2
      have hfile : ∀ data, v.node? ((ofString path).place v.home) ≠ some (.file data) := by
        intro data
        rw [hv.home_eq, hv.node_eq]
        split_ifs
        · simp
        · exact h.noFile _ (mem_stations.mpr ⟨_, List.prefix_refl _, rfl⟩) data
      have hne : (ofString path).parts ≠ [] := by simp [hparts]
      obtain ⟨u, hu, hpaved⟩ := paved_ensureDirectory hplace hne hdirs hfile
      exact ⟨u, hu, (hv.congr (hstations _).symm).last hpaved hne⟩

/-- **Octets are written to a text**, with the directories before it: the text has names that can be
used, it leads through no file, and its place is neither a directory nor one of those to be made. -/
lemma exists_save {b : Bytes} (hname : (PathText.split path).2 ≠ "" ∧ (PathText.split path).2 ≠ ".")
    (hfront : (PathText.split path).1 ≠ "") (hnames : ∀ n ∈ (ofString path).parts, isUsable n)
    (hfile : ∀ q ∈ (ofString path).parent.stations t.home, ∀ data, t.node? q ≠ some (.file data))
    (hdir : t.node? (pathPlace t.home path) ≠ some .directory)
    (hnot : pathPlace t.home path ∉ (ofString path).parent.stations t.home) :
    (save path b t).2 = true ∧ ∀ q, (save path b t).1.node? q =
      if q = pathPlace t.home path then some (.file b)
      else if t.node? q = none ∧ q ∈ (ofString path).parent.stations t.home then some .directory
      else t.node? q := by
  obtain ⟨hparts, hstations⟩ := front_of_name hname
  have hpassable : t.Passable (ofString (PathText.split path).1) := by
    refine ⟨fun n hn => hnames n ?_, by rwa [hstations]⟩
    rw [hparts]
    exact List.mem_append_left _ hn
  obtain ⟨u, hu, hpaved⟩ := exists_makeDirectoriesUpTo (Nat.lt_succ_self _)
    (split_front hfront) hpassable
  have hmake : t.makeDirectories (PathText.directory path) = .ok u := hu
  have hdirs : ∀ q ∈ (ofString path).parent.stations u.home, u.node? q = some .directory := by
    rw [← hstations, hpaved.home_eq]
    exact fun q hq => hpaved.directory hpassable hq
  obtain ⟨hslash, hplace⟩ := place_of_front hname hnames hdirs
  have hpaved := hpaved.congr (hstations _).symm
  have hwritable : u.Writable path := by
    refine ⟨by rw [hplace, pathPlace_eq], ?_, hslash⟩
    rw [hpaved.home_eq, hpaved.node_eq, if_neg (fun h => hnot h.2)]
    exact hdir
  rw [save_eq, Change.seq, Change.of, hmake, if_pos rfl, Change.of, hwritable.write_eq b]
  refine ⟨rfl, fun q => ?_⟩
  rw [node?_put hwritable.notDirectory, hpaved.home_eq, hpaved.node_eq]

end Tree

end Salvage
