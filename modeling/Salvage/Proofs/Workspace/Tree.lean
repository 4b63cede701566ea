import Mathlib.Data.List.Basic
import Salvage.Workspace.Tree

/-!
# File trees that grow

What stands at a path depends on the tree, but where it would stand does not: names lead to one
place only, if they lead anywhere. A tree in which directories are made and files are written keeps
the places of its paths, and changes nowhere else.
-/

namespace Salvage.Tree

variable {t u : Tree} {p q : Place} {path : String}

/-! ## Nodes -/

lemma find?_map_place {f : Entry → Entry} (hf : ∀ e, (f e).place = e.place) (es : List Entry)
    (q : Place) : (es.map f).find? (·.place = q) = (es.find? (·.place = q)).map f := by
  rw [List.find?_map]
  congr 2
  funext e
  simp [hf e]

@[simp] lemma node?_touch (t : Tree) (p q : Place) : (t.touch p).node? q = t.node? q := by
  have hentry : (Tree.entry? (t.touch p) q).map (·.node) = (t.entry? q).map (·.node) := by
    rw [Tree.entry?, touch, find?_map_place (fun e => by split <;> rfl), Option.map_map,
      Tree.entry?]
    congr 1
    funext e
    simp only [Function.comp_apply]
    split <;> rfl
  simp only [node?, hentry]
  rfl

@[simp] lemma home_put (t : Tree) (p : Place) (n : Node) : (t.put p n).home = t.home := by
  unfold put
  split <;> rfl

lemma not_isPrefixOf_home (h : t.node? p ≠ some .directory) : p.isPrefixOf t.home = false := by
  by_cases hp : p.isPrefixOf t.home
  · rw [node?, if_pos hp] at h
    exact absurd rfl h
  · exact Bool.eq_false_iff.mpr hp

/-- **A node put where no directory stands** stands there, and everything else stays. -/
lemma node?_put (h : t.node? p ≠ some .directory) (n : Node) (q : Place) :
    (t.put p n).node? q = if q = p then some n else t.node? q := by
  by_cases hq : q.isPrefixOf t.home
  · have hne : q ≠ p := by
      rintro rfl
      rw [not_isPrefixOf_home h] at hq
      cases hq
    rw [if_neg hne, node?, home_put, if_pos hq, node?, if_pos hq]
  · unfold put
    by_cases hsome : (t.entry? p).isSome
    · rw [if_pos hsome, node?, if_neg hq, Tree.entry?, find?_map_place (fun e => by split <;> rfl),
        Option.map_map]
      by_cases hqp : q = p
      · subst hqp
        obtain ⟨e, he⟩ := Option.isSome_iff_exists.mp hsome
        have hplace : e.place = q := by simpa using List.find?_some he
        rw [Tree.entry?] at he
        simp [he, hplace]
      · rw [if_neg hqp, node?, if_neg hq, Tree.entry?]
        cases he : t.entries.find? (·.place = q) with
        | none => rfl
        | some e =>
          have hplace : e.place = q := by simpa using List.find?_some he
          simp [hplace, hqp]
    · have hnone : t.entries.find? (·.place = p) = none := by
        simpa [Tree.entry?] using hsome
      rw [if_neg hsome, node?_touch, node?, if_neg hq, Tree.entry?, List.find?_append]
      by_cases hqp : q = p
      · subst hqp
        simp [hnone]
      · have hlast : ([⟨p, n, t.clock⟩] : List Entry).find? (·.place = q) = none := by
          simp [Ne.symm hqp]
        rw [hlast, Option.or_none, if_neg hqp, node?, if_neg hq, Tree.entry?]

/-! ## Places -/

def namesFrom : Place → List String → Place
  | p, [] => p
  | p, name :: r =>
    if name = "" ∨ name = "." then namesFrom p r
    else if name = ".." then namesFrom p.dropLast r
    else namesFrom (p ++ [name]) r

def pathPlace (home : Place) (path : String) : Place :=
  namesFrom (if PathText.isAbsolute path then [] else home) (namesOf path)

lemma walkNames_cons_eq_ok_iff {name : String} {r : List String} :
    t.walkNames p (name :: r) = .ok q ↔ t.node? p = some .directory ∧
      ((name = "" ∨ name = ".") ∧ t.walkNames p r = .ok q ∨
        ¬ (name = "" ∨ name = ".") ∧ name = ".." ∧ t.walkNames p.dropLast r = .ok q ∨
        ¬ (name = "" ∨ name = ".") ∧ name ≠ ".." ∧ isTooLong name = false ∧
          t.walkNames (p ++ [name]) r = .ok q) := by
  rw [walkNames]
  cases hnode : t.node? p with
  | none => simp
  | some n => cases n <;> grind

lemma walkNames_eq {names : List String} (h : t.walkNames p names = .ok q) :
    q = namesFrom p names := by
  induction names generalizing p with
  | nil => exact (Except.ok.inj h).symm
  | cons name r ih =>
    rw [namesFrom]
    obtain ⟨-, ⟨hstay, h⟩ | ⟨hstay, hup, h⟩ | ⟨hstay, hup, -, h⟩⟩ := walkNames_cons_eq_ok_iff.mp h
    · rw [if_pos hstay, ih h]
    · rw [if_neg hstay, if_pos hup, ih h]
    · rw [if_neg hstay, if_neg hup, ih h]

lemma walkNames_of_directories
    (hdir : ∀ p, t.node? p = some .directory → u.node? p = some .directory) {names : List String}
    (hw : t.walkNames p names = .ok q) : u.walkNames p names = .ok q := by
  induction names generalizing p with
  | nil => exact hw
  | cons name r ih =>
    obtain ⟨hnode, hw⟩ := walkNames_cons_eq_ok_iff.mp hw
    refine walkNames_cons_eq_ok_iff.mpr ⟨hdir p hnode, ?_⟩
    exact hw.imp (.imp_right ih) (.imp (.imp_right (.imp_right ih))
      (.imp_right (.imp_right (.imp_right ih))))

lemma place_eq_ok_iff : t.place path = .ok p ↔
    path.isEmpty = false ∧ path.toList.contains (Char.ofNat 0) = false ∧
      t.walkNames (if PathText.isAbsolute path then [] else t.home) (namesOf path) = .ok p ∧
      ((∃ data, t.node? p = some (.file data)) → endsInSlash path = false) := by
  unfold place
  by_cases hempty : path.isEmpty
  · simp [hempty]
  by_cases hzero : path.toList.contains (Char.ofNat 0)
  · rw [if_neg hempty, if_pos hzero, hzero]
    simp
  rw [if_neg hempty, if_neg hzero]
  cases hwalk : t.walkNames (if PathText.isAbsolute path then [] else t.home) (namesOf path) with
  | error c => simp
  | ok r =>
    cases hnode : t.node? r with
    | none => grind
    | some n => cases n <;> grind

lemma place_eq_pathPlace (h : t.place path = .ok p) : p = pathPlace t.home path :=
  walkNames_eq (place_eq_ok_iff.mp h).2.2.1

/-! ## Paths that are resolved -/

section Resolve

variable {α : Type} {f : Place → Except FileFault α} {c : FileCause}

lemma resolve_bind (h : t.place path = .ok p) : (t.resolve path >>= f) = f p := by
  rw [resolve, h]
  rfl

lemma resolve_bind_of_error (h : t.place path = .error c) :
    (t.resolve path >>= f) = .error ⟨c, path, none⟩ := by
  rw [resolve, h]
  rfl

lemma resolve_bind_eq_ok_iff {r : α} : (t.resolve path >>= f) = .ok r ↔
    t.place path = .ok (pathPlace t.home path) ∧ f (pathPlace t.home path) = .ok r := by
  cases hplace : t.place path with
  | error c => simp [resolve_bind_of_error hplace]
  | ok p =>
    obtain rfl := place_eq_pathPlace hplace
    simp [resolve_bind hplace]

lemma makeDirectory_of_place (h : t.place path = .ok p) : t.makeDirectory path =
    if t.node? p = none then .ok (t.put p .directory) else .error ⟨.exists, path, none⟩ := by
  rw [makeDirectory, resolve_bind h]
  cases t.node? p <;> simp

lemma makeDirectory_of_error (h : t.place path = .error c) :
    t.makeDirectory path = .error ⟨c, path, none⟩ :=
  resolve_bind_of_error h

end Resolve

/-! ## Growing -/

/-- The second tree has a directory wherever the first one has one, and a file, with any octets,
wherever the first one has one. -/
structure Grows (t u : Tree) : Prop where
  home_eq : u.home = t.home
  directory : ∀ ⦃p⦄, t.node? p = some .directory → u.node? p = some .directory
  file : ∀ ⦃p data⦄, t.node? p = some (.file data) → ∃ data', u.node? p = some (.file data')

namespace Grows

lemma refl (t : Tree) : Grows t t :=
  ⟨rfl, fun _ h => h, fun _ data h => ⟨data, h⟩⟩

lemma trans {v : Tree} (h : Grows t u) (h' : Grows u v) : Grows t v := by
  refine ⟨h'.home_eq.trans h.home_eq, fun p hp => h'.directory (h.directory hp),
    fun p data hp => ?_⟩
  obtain ⟨data', hp'⟩ := h.file hp
  exact h'.file hp'

/-- **Paths keep their places**, unless a file comes to stand where a path with a slash at its end
leads. -/
lemma place (h : Grows t u) (hp : t.place path = .ok p)
    (hslash : ∀ data, u.node? p = some (.file data) → endsInSlash path = false) :
    u.place path = .ok p := by
  obtain ⟨hempty, hzero, hwalk, -⟩ := place_eq_ok_iff.mp hp
  refine place_eq_ok_iff.mpr ⟨hempty, hzero, ?_, fun ⟨data, hdata⟩ => hslash data hdata⟩
  rw [h.home_eq]
  exact walkNames_of_directories h.directory hwalk

end Grows

lemma grows_put {n : Node} (hn : t.node? p = none ∨
    (∃ data data', t.node? p = some (.file data) ∧ n = .file data')) : Grows t (t.put p n) := by
  have hdir : t.node? p ≠ some .directory := by
    rcases hn with h | ⟨data, _, h, -⟩ <;> simp [h]
  refine ⟨home_put t p n, fun q hq => ?_, fun q data hq => ?_⟩
  · rw [node?_put hdir, if_neg (by rintro rfl; exact hdir hq), hq]
  · rw [node?_put hdir]
    by_cases hqp : q = p
    · subst hqp
      rcases hn with h | ⟨_, data', -, rfl⟩
      · rw [h] at hq
        cases hq
      · exact ⟨data', if_pos rfl⟩
    · exact ⟨data, by rw [if_neg hqp, hq]⟩

/-! ## Making directories -/

def tryMake (t : Tree) (path : String) : Tree :=
  match t.makeDirectory path with
  | .ok u => u
  | .error _ => t

def makeAll (t : Tree) (paths : List String) : Tree :=
  paths.foldl tryMake t

lemma tryMake_cases (t : Tree) (path : String) :
    (t.place path = .ok (pathPlace t.home path) ∧ t.node? (pathPlace t.home path) = none ∧
        t.tryMake path = t.put (pathPlace t.home path) .directory) ∨
      (t.tryMake path = t ∧ ∀ p, t.place path = .ok p → t.node? p ≠ none) := by
  unfold tryMake
  cases hplace : t.place path with
  | error c =>
    rw [makeDirectory_of_error hplace]
    exact .inr ⟨rfl, by simp⟩
  | ok p =>
    obtain rfl := place_eq_pathPlace hplace
    rw [makeDirectory_of_place hplace]
    by_cases hnode : t.node? (pathPlace t.home path) = none
    · exact .inl ⟨rfl, hnode, by simp [hnode]⟩
    · exact .inr ⟨by simp [hnode], by simpa using hnode⟩

lemma grows_tryMake (t : Tree) (path : String) : Grows t (t.tryMake path) := by
  obtain ⟨-, hnode, heq⟩ | ⟨heq, -⟩ := tryMake_cases t path
  · rw [heq]
    exact grows_put (.inl hnode)
  · rw [heq]
    exact .refl t

lemma grows_makeAll (t : Tree) (paths : List String) : Grows t (t.makeAll paths) := by
  induction paths generalizing t with
  | nil => exact .refl t
  | cons path paths ih => exact (grows_tryMake t path).trans (ih _)

lemma node?_tryMake_of_ne (h : q ≠ pathPlace t.home path) :
    (t.tryMake path).node? q = t.node? q := by
  obtain ⟨-, hnode, heq⟩ | ⟨heq, -⟩ := tryMake_cases t path
  · rw [heq, node?_put (by simp [hnode]), if_neg h]
  · rw [heq]

lemma node?_makeAll_of_notMem {paths : List String} (h : q ∉ paths.map (pathPlace t.home)) :
    (t.makeAll paths).node? q = t.node? q := by
  induction paths generalizing t with
  | nil => rfl
  | cons path paths ih =>
    rw [List.map_cons, List.mem_cons, not_or] at h
    have htail : q ∉ paths.map (pathPlace (t.tryMake path).home) := by
      rw [(grows_tryMake t path).home_eq]
      exact h.2
    exact (ih htail).trans (node?_tryMake_of_ne h.1)

/-- **A directory that can be made in a tree can be made in one that has grown**, unless a file has
come to stand there. -/
lemma Grows.tryMake (h : Grows t u)
    (hfree : ∀ p data, (t.tryMake path).node? p = some .directory → u.node? p ≠ some (.file data)) :
    Grows (t.tryMake path) (u.tryMake path) := by
  obtain ⟨hplace, hnode, heq⟩ | ⟨heq, -⟩ := tryMake_cases t path
  · have hmade : (t.tryMake path).node? (pathPlace t.home path) = some .directory := by
      rw [heq, node?_put (by simp [hnode]), if_pos rfl]
    have huplace : u.place path = .ok (pathPlace t.home path) :=
      h.place hplace fun data hdata => absurd hdata (hfree _ data hmade)
    -- in the second tree a directory stands at the place already, or is made now
    have hudir : (u.tryMake path).node? (pathPlace t.home path) = some .directory := by
      cases hunode : u.node? (pathPlace t.home path) with
      | none =>
        obtain ⟨-, -, hueq⟩ | ⟨-, hno⟩ := tryMake_cases u path
        · rw [hueq, h.home_eq, node?_put (by simp [hunode]), if_pos rfl]
        · exact absurd hunode (hno _ huplace)
      | some n =>
        cases n with
        | directory => exact (grows_tryMake u path).directory hunode
        | file data => exact absurd hunode (hfree _ data hmade)
    have hu := h.trans (grows_tryMake u path)
    refine ⟨by rw [hu.home_eq, heq, home_put], fun p hp => ?_, fun p data hp => ?_⟩
    · by_cases hpp : p = pathPlace t.home path
      · rw [hpp, hudir]
      · rw [node?_tryMake_of_ne hpp] at hp
        exact hu.directory hp
    · have hpp : p ≠ pathPlace t.home path := by
        rintro rfl
        rw [hmade] at hp
        cases hp
      rw [node?_tryMake_of_ne hpp] at hp
      exact hu.file hp
  · rw [heq]
    exact h.trans (grows_tryMake u path)

/-- Directories that can be made in a tree can be made in one that has grown, unless files have come
to stand there. -/
lemma Grows.makeAll {paths : List String} (h : Grows t u)
    (hfree : ∀ p data, (t.makeAll paths).node? p = some .directory →
      u.node? p ≠ some (.file data)) : Grows (t.makeAll paths) (u.makeAll paths) := by
  induction paths generalizing t u with
  | nil => exact h
  | cons path paths ih =>
    have hstep : Grows (t.tryMake path) (u.tryMake path) :=
      h.tryMake fun p data hp => hfree p data ((grows_makeAll _ paths).directory hp)
    refine ih hstep fun p data hp hfile => ?_
    -- a file that stands there now has stood there before
    by_cases hpp : p = pathPlace u.home path
    · obtain ⟨-, hnode, heq⟩ | ⟨heq, -⟩ := tryMake_cases u path
      · rw [heq, hpp, node?_put (by simp [hnode]), if_pos rfl] at hfile
        cases hfile
      · rw [heq] at hfile
        exact hfree p data hp hfile
    · rw [node?_tryMake_of_ne hpp] at hfile
      exact hfree p data hp hfile

/-! ## Writing files -/

@[mk_iff]
structure Writable (t : Tree) (path : String) : Prop where
  place_eq : t.place path = .ok (pathPlace t.home path)
  notDirectory : t.node? (pathPlace t.home path) ≠ some .directory
  noSlash : endsInSlash path = false

namespace Writable

instance (t : Tree) (path : String) : Decidable (t.Writable path) :=
  decidable_of_iff _ (writable_iff t path).symm

lemma write_eq (h : Writable t path) (data : Bytes) :
    t.write path data = .ok (t.put (pathPlace t.home path) (.file data)) := by
  rw [write, resolve_bind h.place_eq]
  cases hnode : t.node? (pathPlace t.home path) with
  | none => simp [h.noSlash]
  | some n =>
    cases n with
    | directory => exact absurd hnode h.notDirectory
    | file old => rfl

lemma grows (h : Writable t path) (hu : Grows t u)
    (hdir : u.node? (pathPlace t.home path) ≠ some .directory) : Writable u path := by
  refine ⟨?_, by rw [hu.home_eq]; exact hdir, h.noSlash⟩
  rw [hu.home_eq]
  exact hu.place h.place_eq fun _ _ => h.noSlash

end Writable

lemma read_eq (hplace : t.place path = .ok p) {data : Bytes}
    (hnode : t.node? p = some (.file data)) : t.read path = .ok data := by
  rw [read, resolve_bind hplace, hnode]

/-! ## Trees built from others -/

/-- The second tree is the first one with some directories made at places of `D`, and some files
written at places of `W`. -/
structure Built (t : Tree) (D W : List Place) (u : Tree) : Prop where
  home_eq : u.home = t.home
  node_cases : ∀ p, u.node? p = t.node? p ∨
    (t.node? p = none ∧ u.node? p = some .directory ∧ p ∈ D) ∨
    (t.node? p ≠ some .directory ∧ (∃ data, u.node? p = some (.file data)) ∧ p ∈ W)

namespace Built

variable {D W : List Place}

lemma refl (t : Tree) (D W : List Place) : Built t D W t :=
  ⟨rfl, fun _ => .inl rfl⟩

lemma grows (h : Built t D W u) : Grows t u := by
  refine ⟨h.home_eq, fun p hp => ?_, fun p data hp => ?_⟩
  · obtain heq | ⟨hnone, -⟩ | ⟨hne, -⟩ := h.node_cases p
    · rw [heq, hp]
    · rw [hnone] at hp
      cases hp
    · exact absurd hp hne
  · obtain heq | ⟨hnone, -⟩ | ⟨-, hfile, -⟩ := h.node_cases p
    · exact ⟨data, heq.trans hp⟩
    · rw [hnone] at hp
      cases hp
    · exact hfile

lemma tryMake (h : Built t D W u) (hD : pathPlace t.home path ∈ D) :
    Built t D W (u.tryMake path) := by
  obtain ⟨-, hnode, heq⟩ | ⟨heq, -⟩ := tryMake_cases u path
  · rw [h.home_eq] at hnode heq
    refine ⟨by rw [heq, home_put, h.home_eq], fun p => ?_⟩
    rw [heq, node?_put (by simp [hnode])]
    by_cases hpp : p = pathPlace t.home path
    · subst hpp
      obtain hold | ⟨-, hdir, -⟩ | ⟨-, ⟨data, hfile⟩, -⟩ := h.node_cases (pathPlace t.home path)
      · exact .inr (.inl ⟨hold.symm.trans hnode, if_pos rfl, hD⟩)
      · rw [hnode] at hdir
        cases hdir
      · rw [hnode] at hfile
        cases hfile
    · rw [if_neg hpp]
      exact h.node_cases p
  · rw [heq]
    exact h

lemma makeAll {paths : List String} (h : Built t D W u)
    (hD : ∀ path ∈ paths, pathPlace t.home path ∈ D) : Built t D W (u.makeAll paths) := by
  induction paths generalizing u with
  | nil => exact h
  | cons path paths ih =>
    exact ih (h.tryMake (hD path List.mem_cons_self)) fun q hq => hD q (List.mem_cons_of_mem _ hq)

lemma put (h : Built t D W u) (hW : p ∈ W) (hdir : u.node? p ≠ some .directory) (data : Bytes) :
    Built t D W (u.put p (.file data)) := by
  refine ⟨by rw [home_put, h.home_eq], fun q => ?_⟩
  rw [node?_put hdir]
  by_cases hqp : q = p
  · subst hqp
    rw [if_pos rfl]
    exact .inr (.inr ⟨fun ht => hdir (h.grows.directory ht), ⟨data, rfl⟩, hW⟩)
  · rw [if_neg hqp]
    exact h.node_cases q

lemma not_directory (h : Built t D W u) (hp : t.node? p ≠ some .directory) (hD : p ∉ D) :
    u.node? p ≠ some .directory := by
  obtain heq | ⟨-, -, hmem⟩ | ⟨-, ⟨data, hfile⟩, -⟩ := h.node_cases p
  · rwa [heq]
  · exact absurd hmem hD
  · simp [hfile]

lemma file_eq (h : Built t D W u) {data : Bytes} (hp : t.node? p = some (.file data))
    (hW : p ∉ W) : u.node? p = some (.file data) := by
  obtain heq | ⟨hnone, -⟩ | ⟨-, -, hmem⟩ := h.node_cases p
  · rw [heq, hp]
  · rw [hnone] at hp
    cases hp
  · exact absurd hmem hW

end Built

end Salvage.Tree
