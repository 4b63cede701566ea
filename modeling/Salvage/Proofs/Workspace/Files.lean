import Salvage.Proofs.Workspace.Path

/-!
# Files that are written, moved and removed

A file is changed at the place of its path and nowhere else, and is found there afterwards. A file
that is moved leaves its old place empty. The directories made for a path stand at the places of its
own directories, where nothing stood before.

Where a piece of work writes files is said by a condition on places. Directories that are made on the
way are of no account, and a file at any other place stays as it is. Where files are removed as well,
two trees are compared by their files outside such places.
-/

namespace Salvage.Tree

variable {t u : Tree} {p q : Place} {path : String} {data : Bytes}

/-! ## Places that are emptied -/

@[simp] lemma home_erase (t : Tree) (p : Place) : (t.erase p).home = t.home :=
  rfl

lemma node?_erase (h : t.node? p ≠ some .directory) (q : Place) :
    (t.erase p).node? q = if q = p then none else t.node? q := by
  rw [erase, node?_touch]
  by_cases hqp : q = p
  · subst hqp
    have hnone : (t.entries.filter (·.place ≠ q)).find? (·.place = q) = none := by
      simp [List.find?_eq_none]
    rw [if_pos rfl, node?, if_neg (by simp [not_isPrefixOf_home h]), Tree.entry?, hnone]
    rfl
  · have hsame : (t.entries.filter (·.place ≠ p)).find? (·.place = q) =
        t.entries.find? (·.place = q) := by
      rw [List.find?_filter]
      congr 1
      funext e
      by_cases he : e.place = q
      · simp [he, hqp]
      · simp [he]
    rw [if_neg hqp, node?, node?, Tree.entry?, Tree.entry?, hsame]

/-! ## Paths in trees with the same directories -/

/-- A path with a place has the same one in a tree that has all the directories, unless a file comes
to stand where a path with a slash at its end leads. -/
lemma place_of_directories (hhome : u.home = t.home)
    (hdir : ∀ p, t.node? p = some .directory → u.node? p = some .directory)
    (hplace : t.place path = .ok p) (hslash : endsInSlash path = false) : u.place path = .ok p := by
  obtain ⟨hempty, hzero, hwalk, -⟩ := place_eq_ok_iff.mp hplace
  refine place_eq_ok_iff.mpr ⟨hempty, hzero, ?_, fun _ => hslash⟩
  rw [hhome]
  exact walkNames_of_directories hdir hwalk

/-- **A single name** leads to the same place in all trees with one working directory. -/
lemma place_eq_of_slash_notMem (hhome : u.home = t.home) (hname : '/' ∉ path.toList) :
    u.place path = t.place path := by
  have habsolute : PathText.isAbsolute path = false := by
    rw [PathText.isAbsolute, beq_eq_false_iff_ne]
    exact fun h => hname (List.mem_of_head? h)
  have hslash : endsInSlash path = false := by
    rw [endsInSlash, beq_eq_false_iff_ne]
    exact fun h => hname (List.mem_of_getLast? h)
  have hhere : ∀ t : Tree, t.node? t.home = some .directory := fun t =>
    if_pos (List.isPrefixOf_iff_prefix.mpr (List.prefix_refl _))
  have hwalk : u.walkNames u.home (namesOf path) = t.walkNames t.home (namesOf path) := by
    rw [namesOf, PathText.pieces_of_slash_notMem hname]
    by_cases hempty : path.isEmpty
    · simp [hempty, walkNames, hhome]
    · simp [hempty, walkNames, hhere t, hhome ▸ hhere u, hhome]
  have hplace : ∀ t : Tree, t.place path =
      if path.isEmpty then .error .missing
      else if path.toList.contains (Char.ofNat 0) then .error .zeroCharacter
      else t.walkNames t.home (namesOf path) := by
    intro t
    rw [place, habsolute, hslash]
    cases hw : t.walkNames t.home (namesOf path) with
    | error c => simp [hw]
    | ok p => cases hn : t.node? p with
      | none => simp [hw, hn]
      | some n => cases n <;> simp [hw, hn]
  rw [hplace, hplace, hwalk]

/-! ## What is at a path -/

lemma find?_eq_some_iff {n : Node} : t.find? path = some n ↔
    t.place path = .ok (pathPlace t.home path) ∧ t.node? (pathPlace t.home path) = some n := by
  rw [find?]
  cases hplace : t.place path with
  | error c => simp
  | ok p =>
    obtain rfl := place_eq_pathPlace hplace
    simp

lemma isDirectory_iff : t.isDirectory path = true ↔ t.find? path = some .directory := by
  rw [isDirectory]
  cases t.find? path with
  | none => simp
  | some n => cases n <;> simp

lemma isFile_iff : t.isFile path = true ↔ ∃ data, t.find? path = some (.file data) := by
  rw [isFile]
  cases t.find? path with
  | none => simp
  | some n => cases n <;> simp

/-! ## Files -/

lemma read_eq_ok_iff : t.read path = .ok data ↔
    t.place path = .ok (pathPlace t.home path) ∧
      t.node? (pathPlace t.home path) = some (.file data) := by
  rw [read, resolve_bind_eq_ok_iff]
  refine and_congr_right fun _ => ?_
  cases t.node? (pathPlace t.home path) with
  | none => simp
  | some n => cases n <;> simp

lemma write_eq_ok_iff : t.write path data = .ok u ↔
    t.Writable path ∧ u = t.put (pathPlace t.home path) (.file data) := by
  constructor
  · intro h
    obtain ⟨hplace, h⟩ := resolve_bind_eq_ok_iff.mp h
    have hslash := (place_eq_ok_iff.mp hplace).2.2.2
    cases hnode : t.node? (pathPlace t.home path) with
    | none =>
      simp only [hnode] at h
      split_ifs at h with hends
      exact ⟨⟨hplace, by simp [hnode], Bool.eq_false_iff.mpr hends⟩, (Except.ok.inj h).symm⟩
    | some n =>
      cases n with
      | directory => simp [hnode] at h
      | file old =>
        simp only [hnode] at h
        exact ⟨⟨hplace, by simp [hnode], hslash ⟨old, hnode⟩⟩, (Except.ok.inj h).symm⟩
  · rintro ⟨hwritable, rfl⟩
    exact hwritable.write_eq data

lemma Writable.directory_put (h : t.Writable path) (data : Bytes) (p : Place)
    (hp : t.node? p = some .directory) :
    (t.put (pathPlace t.home path) (.file data)).node? p = some .directory := by
  rw [node?_put h.notDirectory, if_neg, hp]
  rintro rfl
  exact h.notDirectory hp

lemma Writable.read_put (h : t.Writable path) (data : Bytes) :
    (t.put (pathPlace t.home path) (.file data)).read path = .ok data := by
  refine read_eq_ok_iff.mpr ⟨?_, ?_⟩
  · rw [home_put]
    exact place_of_directories (home_put ..) (h.directory_put data) h.place_eq h.noSlash
  · rw [home_put, node?_put h.notDirectory, if_pos rfl]

lemma read_eq_ok_iff_find? : t.read path = .ok data ↔ t.find? path = some (.file data) :=
  read_eq_ok_iff.trans find?_eq_some_iff.symm

lemma exists_size (h : t.exists? path = true) : ∃ n, t.size path = .ok n := by
  obtain ⟨node, hfind⟩ := Option.isSome_iff_exists.mp h
  obtain ⟨hplace, hnode⟩ := find?_eq_some_iff.mp hfind
  rw [size, resolve_bind hplace, hnode]
  cases node <;> exact ⟨_, rfl⟩

lemma remove_eq_ok (h : t.read path = .ok data) :
    t.remove path = .ok (t.erase (pathPlace t.home path)) := by
  obtain ⟨hplace, hnode⟩ := read_eq_ok_iff.mp h
  rw [remove, resolve_bind hplace, hnode]

lemma isFile_of_remove (h : t.remove path = .ok u) : t.isFile path = true := by
  obtain ⟨hplace, h⟩ := resolve_bind_eq_ok_iff.mp h
  cases hnode : t.node? (pathPlace t.home path) with
  | none => simp [hnode] at h
  | some n =>
    cases n with
    | directory => simp [hnode] at h
    | file data => exact isFile_iff.mpr ⟨data, find?_eq_some_iff.mpr ⟨hplace, hnode⟩⟩

variable {source target : String}

/-- **A file that is moved to a path** stays if it stands there; otherwise it is put there and its old
place is emptied. -/
lemma rename_cases (h : t.rename source target = .ok u) (hread : t.read source = .ok data) :
    pathPlace t.home source = pathPlace t.home target ∧
        t.place target = .ok (pathPlace t.home target) ∧ u = t ∨
      pathPlace t.home source ≠ pathPlace t.home target ∧ t.Writable target ∧
        u = (t.put (pathPlace t.home target) (.file data)).erase (pathPlace t.home source) := by
  have hsource := (read_eq_ok_iff.mp hread).1
  simp only [rename, hread, resolve, hsource, Except.mapError, bind, Except.bind] at h
  cases htarget : t.place target with
  | error c => simp [htarget] at h
  | ok q =>
    obtain rfl := place_eq_pathPlace htarget
    simp only [htarget] at h
    split_ifs at h with heq
    · exact .inl ⟨heq, rfl, (Except.ok.inj h).symm⟩
    · cases hwrite : t.write target data with
      | error f => simp [hwrite] at h
      | ok v =>
        obtain ⟨hwritable, rfl⟩ := write_eq_ok_iff.mp hwrite
        simp only [hwrite] at h
        exact .inr ⟨heq, hwritable, (Except.ok.inj h).symm⟩

lemma node?_moved (hread : t.read source = .ok data) (hw : t.Writable target) (b : Bytes) (q : Place) :
    ((t.put (pathPlace t.home target) (.file b)).erase (pathPlace t.home source)).node? q =
      if q = pathPlace t.home source then none
      else if q = pathPlace t.home target then some (.file b) else t.node? q := by
  have hput := node?_put hw.notDirectory (.file b)
  rw [node?_erase, hput]
  rw [hput, (read_eq_ok_iff.mp hread).2]
  split <;> simp

lemma read_rename (h : t.rename source target = .ok u)
    (hne : pathPlace t.home source ≠ pathPlace t.home target) (hread : t.read source = .ok data) :
    u.home = t.home ∧ u.read target = .ok data := by
  obtain ⟨-, hwritable, rfl⟩ := (rename_cases h hread).resolve_left fun heq => hne heq.1
  have hhome : ((t.put (pathPlace t.home target) (.file data)).erase (pathPlace t.home source)).home =
      t.home := home_put ..
  refine ⟨hhome, read_eq_ok_iff.mpr ⟨?_, ?_⟩⟩
  · rw [hhome]
    refine place_of_directories hhome (fun p hp => ?_) hwritable.place_eq hwritable.noSlash
    rw [node?_moved hread hwritable, if_neg, if_neg, hp]
    · rintro rfl
      exact hwritable.notDirectory hp
    · rintro rfl
      simp [(read_eq_ok_iff.mp hread).2] at hp
  · rw [hhome, node?_moved hread hwritable, if_neg (Ne.symm hne), if_pos rfl]

/-- **A file that is moved to, or into, a path**: nothing is in the way in a directory. -/
lemma move_cases (h : t.move source target = .ok u) (hread : t.read source = .ok data) :
    (t.isDirectory target = true → t.find? (t.landing source target) = none) ∧
      (pathPlace t.home source = pathPlace t.home (t.landing source target) ∧
          t.place (t.landing source target) = .ok (pathPlace t.home (t.landing source target)) ∧
          u = t ∨
        pathPlace t.home source ≠ pathPlace t.home (t.landing source target) ∧
          t.Writable (t.landing source target) ∧
          u = (t.put (pathPlace t.home (t.landing source target)) (.file data)).erase
            (pathPlace t.home source)) := by
  rw [move] at h
  by_cases hway : t.isDirectory target = true ∧ t.exists? (t.landing source target) = true
  · rw [if_pos hway] at h
    cases h
  · rw [if_neg hway] at h
    refine ⟨fun hdir => ?_, ?_⟩
    · simpa [exists?] using fun hfound => hway ⟨hdir, hfound⟩
    · exact rename_cases h hread

lemma copy_eq_ok_iff : t.copy source target = .ok u ↔
    ∃ data, t.read source = .ok data ∧
      pathPlace t.home source ≠ pathPlace t.home (t.landing source target) ∧
      t.write (t.landing source target) data = .ok u := by
  cases hread : t.read source with
  | error e =>
    simp only [reduceCtorEq, false_and, exists_false, iff_false]
    intro h
    simp only [copy, hread, bind, Except.bind] at h
    split_ifs at h
  | ok data =>
    obtain ⟨hplace, hnode⟩ := read_eq_ok_iff.mp hread
    have hfind : (t.find? source).isSome = true := by
      rw [read_eq_ok_iff_find?.mp hread]
      rfl
    cases hlanding : t.place (t.landing source target) with
    | error c =>
      have hwrite : ∀ v, t.write (t.landing source target) data ≠ .ok v := fun v hv => by
        rw [(write_eq_ok_iff.mp hv).1.place_eq] at hlanding
        cases hlanding
      simp only [copy, hfind, hread, hplace, hlanding, Except.toOption, bind, Except.bind, if_true,
        reduceCtorEq, if_false]
      grind
    | ok q =>
      obtain rfl := place_eq_pathPlace hlanding
      simp only [copy, hfind, hread, hplace, hlanding, Except.toOption, bind, Except.bind, if_true,
        Option.some.injEq]
      by_cases heq : pathPlace t.home source = pathPlace t.home (t.landing source target)
      · simp [heq, throw, throwThe, MonadExceptOf.throw]
      · simp [heq]

/-! ## Directories -/

def ensureDirectory (t : Tree) (path : String) : Except FileFault Tree :=
  match t.makeDirectory path with
  | .ok u => .ok u
  | .error f => if f.cause ≠ .zeroCharacter ∧ t.isDirectory path then .ok t else .error f

lemma ensureDirectory_eq_ok {path : String} (h : t.ensureDirectory path = .ok u) :
    u = t.tryMake path := by
  rw [ensureDirectory] at h
  cases hmake : t.makeDirectory path with
  | ok v =>
    simp only [hmake] at h
    rw [tryMake, hmake, Except.ok.inj h]
  | error f =>
    simp only [hmake] at h
    split_ifs at h
    rw [tryMake, hmake, Except.ok.inj h]

lemma makePathUpTo_succ {fuel : Nat} {made : Path} (h : makePathUpTo (fuel + 1) t made = .ok u) :
    u = t.tryMake made.text ∨
      ∃ v, makePathUpTo fuel t made.parent = .ok v ∧ u = v.tryMake made.text := by
  rw [makePathUpTo] at h
  split at h
  · split_ifs at h
    split at h
    · cases h
    · rename_i v hv
      exact .inr ⟨v, hv, ensureDirectory_eq_ok h⟩
  · exact .inl (ensureDirectory_eq_ok h)

lemma built_makePath {made : Path} {D W : List Place} (h : t.makePath made = .ok u)
    (hD : ∀ n, pathPlace t.home ({ made with parts := made.parts.take n } : Path).text ∈ D) :
    Built t D W u := by
  suffices hup : ∀ (fuel : Nat) (made : Path) (u v : Tree), Built t D W u →
      makePathUpTo fuel u made = .ok v →
      (∀ n, pathPlace t.home ({ made with parts := made.parts.take n } : Path).text ∈ D) →
      Built t D W v from
    hup _ made t u (.refl t D W) h hD
  intro fuel
  induction fuel with
  | zero =>
    intro made u v hu hv _
    exact Except.ok.inj hv ▸ hu
  | succ fuel ih =>
    intro made u v hu hv hD
    have hlast : pathPlace t.home made.text ∈ D := by
      have := hD made.parts.length
      rwa [List.take_length] at this
    obtain rfl | ⟨v', hv', rfl⟩ := makePathUpTo_succ hv
    · exact hu.tryMake hlast
    · refine (ih made.parent u v' hu hv' fun n => ?_).tryMake hlast
      have := hD (min n (made.parts.length - 1))
      rwa [← List.take_take, ← List.dropLast_eq_take] at this

/-! ## Files written at certain places -/

variable {v : Tree} {P Q : Place → Prop}

/-- The second tree has come from the first one by making directories, and by writing files at places
of which `P` holds. -/
structure Written (t : Tree) (P : Place → Prop) (u : Tree) : Prop where
  grows : Grows t u
  file_cases : ∀ ⦃q data⦄, u.node? q = some (.file data) → t.node? q = some (.file data) ∨ P q

namespace Written

lemma refl (t : Tree) (P : Place → Prop) : Written t P t :=
  ⟨.refl t, fun _ _ h => .inl h⟩

lemma trans (h : Written t P u) (h' : Written u P v) : Written t P v :=
  ⟨h.grows.trans h'.grows, fun _ _ hv => (h'.file_cases hv).elim (fun hu => h.file_cases hu) .inr⟩

lemma mono (h : Written t P u) (hPQ : ∀ q, P q → Q q) : Written t Q u :=
  ⟨h.grows, fun q _ hu => (h.file_cases hu).imp_right (hPQ q)⟩

lemma node?_eq (h : Written t P u) {q : Place} (hnode : t.node? q = some (.file data)) (hq : ¬ P q) :
    u.node? q = some (.file data) := by
  obtain ⟨data', hnode'⟩ := h.grows.file hnode
  rcases h.file_cases hnode' with hold | hold
  · rw [hnode', ← hold, hnode]
  · exact absurd hold hq

lemma read_eq (h : Written t P u) (hread : t.read path = .ok data)
    (hP : ¬ P (pathPlace t.home path)) : u.read path = .ok data := by
  obtain ⟨hplace, hnode⟩ := read_eq_ok_iff.mp hread
  have hslash := (place_eq_ok_iff.mp hplace).2.2.2 ⟨data, hnode⟩
  refine read_eq_ok_iff.mpr ?_
  rw [h.grows.home_eq]
  exact ⟨h.grows.place hplace fun _ _ => hslash, h.node?_eq hnode hP⟩

lemma tryMake (t : Tree) (P : Place → Prop) (path : String) : Written t P (t.tryMake path) := by
  refine ⟨grows_tryMake t path, fun q data hq => .inl ?_⟩
  obtain ⟨-, hnode, heq⟩ | ⟨heq, -⟩ := tryMake_cases t path
  · rw [heq, node?_put (by simp [hnode])] at hq
    split_ifs at hq
    · cases hq
    · exact hq
  · rwa [heq] at hq

lemma makeDirectoriesUpTo_succ {fuel : Nat} (h : makeDirectoriesUpTo (fuel + 1) t path = .ok u) :
    ∃ v, (v = t ∨ ∃ front, makeDirectoriesUpTo fuel t front = .ok v) ∧
      (u = v ∨ u = v.tryMake path) := by
  unfold makeDirectoriesUpTo at h
  split at h
  dsimp only at h
  split at h
  · cases h
  all_goals
    rename_i v habove
    have hfront : v = t ∨ ∃ front, makeDirectoriesUpTo fuel t front = .ok v := by
      split at habove
      · split at habove
        · rename_i w hw
          obtain ⟨rfl, -⟩ := Prod.mk.inj (Except.ok.inj habove)
          exact .inr ⟨_, hw⟩
        · split_ifs at habove
          exact .inl (Prod.mk.inj (Except.ok.inj habove)).1.symm
      · exact .inl (Prod.mk.inj (Except.ok.inj habove)).1.symm
    refine ⟨v, hfront, ?_⟩
  · exact .inl (Except.ok.inj h).symm
  · rw [Tree.tryMake]
    cases hmake : v.makeDirectory path with
    | ok w =>
      rw [hmake] at h
      exact .inr (Except.ok.inj h).symm
    | error f =>
      simp only [hmake] at h
      split_ifs at h
      exact .inl (Except.ok.inj h).symm

lemma makeDirectories (h : t.makeDirectories path = .ok u) (P : Place → Prop) : Written t P u := by
  suffices hup : ∀ (fuel : Nat) (path : String) (u : Tree),
      makeDirectoriesUpTo fuel t path = .ok u → Written t P u from hup _ path u h
  intro fuel
  induction fuel with
  | zero =>
    intro path u hu
    exact Except.ok.inj hu ▸ .refl t P
  | succ fuel ih =>
    intro path u hu
    obtain ⟨v, hfront, hlast⟩ := makeDirectoriesUpTo_succ hu
    have hv : Written t P v := by
      rcases hfront with rfl | ⟨front, hfront⟩
      · exact .refl v P
      · exact ih front v hfront
    rcases hlast with rfl | rfl
    · exact hv
    · exact hv.trans (tryMake v P path)

lemma write (h : t.write path data = .ok u) : Written t (· = pathPlace t.home path) u := by
  obtain ⟨hwritable, rfl⟩ := write_eq_ok_iff.mp h
  refine ⟨grows_put ?_, fun q data' hq => ?_⟩
  · cases hnode : t.node? (pathPlace t.home path) with
    | none => exact .inl rfl
    | some n =>
      cases n with
      | directory => exact absurd hnode hwritable.notDirectory
      | file old => exact .inr ⟨old, data, rfl, rfl⟩
  · rw [node?_put hwritable.notDirectory] at hq
    split_ifs at hq with heq
    · exact .inr heq
    · exact .inl hq

end Written

/-! ## Files outside certain places -/

/-- The two trees have one working directory, and the same files at all places of which `P` does not
hold. -/
structure SameFiles (t : Tree) (P : Place → Prop) (u : Tree) : Prop where
  home_eq : u.home = t.home
  file_iff : ∀ ⦃q⦄, ¬ P q → ∀ data, u.node? q = some (.file data) ↔ t.node? q = some (.file data)

namespace SameFiles

lemma refl (t : Tree) (P : Place → Prop) : SameFiles t P t :=
  ⟨rfl, fun _ _ _ => Iff.rfl⟩

lemma trans (h : SameFiles t P u) (h' : SameFiles u P v) : SameFiles t P v :=
  ⟨h'.home_eq.trans h.home_eq, fun _ hq data => (h'.file_iff hq data).trans (h.file_iff hq data)⟩

lemma mono (h : SameFiles t P u) (hPQ : ∀ q, P q → Q q) : SameFiles t Q u :=
  ⟨h.home_eq, fun q hq => h.file_iff fun hP => hq (hPQ q hP)⟩

lemma ofWritten (h : Written t P u) : SameFiles t P u :=
  ⟨h.grows.home_eq, fun _ hq _ =>
    ⟨fun hu => (h.file_cases hu).resolve_right hq, fun ht => h.node?_eq ht hq⟩⟩

lemma erase (h : t.node? p = some (.file data)) : SameFiles t (· = p) (t.erase p) := by
  refine ⟨rfl, fun q hq data' => ?_⟩
  rw [node?_erase (by simp [h]), if_neg hq]

end SameFiles

end Salvage.Tree
