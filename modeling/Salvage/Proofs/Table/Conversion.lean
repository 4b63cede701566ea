import Salvage.Proofs.Job
import Salvage.Proofs.Workspace.Files
import Salvage.Table.Convert

/-!
# What a conversion does to other files

The text of a table is first written in the working directory, under the name that it has in the
output directory, and is then moved there, or removed if the table did not pass. After a fault it is
removed as well, also if the fault came before it was written. So a file of that name in the working
directory is lost, unless the table file is text already and is only copied, or the text is meant for that
very place. All other files stay, but for one in a directory at the output path that a copy replaces.
-/

namespace Salvage

open PathText Salvage.Tree Run Job

/-! ## The name of the text -/

lemma PathText.slash_notMem_base (path : String) : '/' ∉ (base path).toList := by
  unfold base split
  simp only [String.toList_ofList, List.mem_reverse]
  intro h
  simpa using List.mem_takeWhile_imp h

lemma PathText.base_of_slash_notMem {name : String} (h : '/' ∉ name.toList) : base name = name := by
  have hall : name.toList.reverse.takeWhile (· != '/') = name.toList.reverse := by
    rw [List.takeWhile_eq_self_iff]
    intro c hc
    simp only [bne_iff_ne]
    rintro rfl
    exact h (List.mem_reverse.mp hc)
  simp [base, split, hall]

namespace Table

lemma slash_notMem_textName (path : String) : '/' ∉ (textName path).toList := by
  intro h
  rw [textName, Text.replaceAll, String.toList_ofList, if_neg (by decide)] at h
  rcases Text.mem_replaceFrom h with h | h
  · exact slash_notMem_base path h
  · exact absurd h (by decide)

/-! ## Where the text is written at first -/

section Scratch

variable {t u v : Tree} {name target : String} {q : Place}

/-- The place in the working directory where a text is written at first. -/
def Scratch (t : Tree) (name : String) (q : Place) : Prop :=
  t.place name = .ok q

lemma Scratch.eq (h : Scratch t name q) : q = pathPlace t.home name :=
  place_eq_pathPlace h

structure Broken (t : Tree) (name : String) (u : Tree) : Prop where
  same : t.SameFiles (Scratch t name) u
  scratch : t.SameFiles (fun _ => False) u ∨ u.isFile name = true

structure Cleared (t : Tree) (name : String) (u : Tree) : Prop where
  same : t.SameFiles (Scratch t name) u
  gone : u.isFile name = false

structure Moved (t : Tree) (name target : String) (q : Place) (u : Tree) : Prop where
  same : t.SameFiles (fun p => Scratch t name p ∨ p = q) u
  landing : q = pathPlace t.home target ∨
    q = pathPlace t.home (PathText.join target name) ∧ ¬ Scratch t name q ∧
      ∀ data, t.node? q ≠ some (.file data)
  gone : Scratch t name q ∨ u.isFile name = false

lemma broken_of_sameFiles (h : t.SameFiles (fun _ => False) u) : Broken t name u :=
  ⟨h.mono fun _ hq => hq.elim, .inl h⟩

lemma isFile_iff_scratch :
    t.isFile name = true ↔ ∃ q data, Scratch t name q ∧ t.node? q = some (.file data) := by
  rw [isFile_iff]
  constructor
  · rintro ⟨data, hfind⟩
    obtain ⟨hplace, hnode⟩ := Tree.find?_eq_some_iff.mp hfind
    exact ⟨_, data, hplace, hnode⟩
  · rintro ⟨q, data, hplace, hnode⟩
    obtain rfl := Scratch.eq hplace
    exact ⟨data, Tree.find?_eq_some_iff.mpr ⟨hplace, hnode⟩⟩

lemma isFile_erase {data : Bytes} (hq : q = pathPlace t.home name)
    (hnode : t.node? q = some (.file data)) : (t.erase q).isFile name = false := by
  rw [Bool.eq_false_iff, ne_eq, isFile_iff_scratch]
  rintro ⟨p, data', hp, hnode'⟩
  have heq : p = q := by
    rw [hp.eq, home_erase, hq]
  rw [node?_erase (by simp [hnode]), if_pos heq] at hnode'
  cases hnode'

variable (hname : '/' ∉ name.toList)

include hname

lemma scratch_iff (hhome : u.home = t.home) : Scratch u name q ↔ Scratch t name q := by
  rw [Scratch, Scratch, place_eq_of_slash_notMem hhome hname]

lemma isFile_eq (h : t.SameFiles (fun _ => False) u) : u.isFile name = t.isFile name := by
  rw [Bool.eq_iff_iff, isFile_iff_scratch, isFile_iff_scratch]
  simp only [scratch_iff hname h.home_eq, h.file_iff not_false]

lemma broken_write {data : Bytes} (h : t.SameFiles (fun _ => False) u)
    (hwrite : u.write name data = .ok v) : Broken t name v ∧ v.isFile name = true := by
  obtain ⟨hwritable, hv⟩ := write_eq_ok_iff.mp hwrite
  have hsame : u.SameFiles (Scratch t name) v := by
    refine (Tree.SameFiles.ofWritten (.write hwrite)).mono ?_
    rintro q rfl
    exact (scratch_iff hname h.home_eq).mp hwritable.place_eq
  have hthere : v.isFile name = true := by
    rw [hv, isFile_iff]
    exact ⟨data, read_eq_ok_iff_find?.mp (hwritable.read_put data)⟩
  exact ⟨⟨(h.mono fun _ hq => hq.elim).trans hsame, .inr hthere⟩, hthere⟩

lemma Broken.remove (h : Broken t name u) (hremove : u.remove name = .ok v) : Cleared t name v := by
  obtain ⟨data, hfind⟩ := isFile_iff.mp (isFile_of_remove hremove)
  obtain ⟨hplace, hnode⟩ := Tree.find?_eq_some_iff.mp hfind
  have hv : v = u.erase (pathPlace u.home name) := by
    rw [remove_eq_ok (read_eq_ok_iff_find?.mpr hfind)] at hremove
    exact (Except.ok.inj hremove).symm
  subst hv
  refine ⟨h.same.trans ((Tree.SameFiles.erase hnode).mono ?_), isFile_erase rfl hnode⟩
  rintro q rfl
  exact (scratch_iff hname h.same.home_eq).mp hplace

omit hname in
lemma Broken.cleared (h : Broken t name u) (hnone : u.exists? name = false) : Cleared t name u := by
  refine ⟨h.same, ?_⟩
  have hfind : u.find? name = none := by
    simpa [exists?] using hnone
  rw [isFile, hfind]

lemma Broken.landing (h : Broken t name u) (hthere : u.isFile name = true)
    (hfree : u.isDirectory target = true → u.find? (u.landing name target) = none)
    (hplace : u.place (u.landing name target) = .ok q) :
    q = pathPlace t.home target ∨
      q = pathPlace t.home (join target name) ∧ ¬ Scratch t name q ∧
        ∀ data, t.node? q ≠ some (.file data) := by
  have hhome := h.same.home_eq
  have hq := place_eq_pathPlace hplace
  by_cases hdir : u.isDirectory target = true
  · have hnone : u.node? q = none := by
      have hfind := hfree hdir
      rwa [Tree.find?, hplace] at hfind
    have hnot : ¬ Scratch t name q := by
      intro hs
      obtain ⟨p, data, hp, hnode⟩ := isFile_iff_scratch.mp hthere
      rw [((scratch_iff hname hhome).mpr hs).eq, ← hp.eq, hnode] at hnone
      cases hnone
    refine .inr ⟨?_, hnot, fun data hdata => ?_⟩
    · rw [hq, hhome, Tree.landing, if_pos hdir, base_of_slash_notMem hname]
    · rw [(h.same.file_iff hnot data).mpr hdata] at hnone
      cases hnone
  · left
    rw [hq, hhome, Tree.landing, if_neg hdir]

lemma Broken.move (h : Broken t name u) (hthere : u.isFile name = true)
    (hmove : u.move name target = .ok v) : ∃ q, Moved t name target q v := by
  obtain ⟨data, hfind⟩ := isFile_iff.mp hthere
  obtain ⟨hplace, hnode⟩ := Tree.find?_eq_some_iff.mp hfind
  have hscratch : Scratch t name (pathPlace u.home name) :=
    (scratch_iff hname h.same.home_eq).mp hplace
  obtain ⟨hfree, ⟨heq, hfound, rfl⟩ | ⟨hne, hwritable, rfl⟩⟩ :=
    move_cases hmove (read_eq_ok_iff_find?.mpr hfind)
  · refine ⟨_, h.same.mono fun p hp => .inl hp, h.landing hname hthere hfree hfound, .inl ?_⟩
    rwa [← heq]
  · have hput := Tree.SameFiles.ofWritten (.write (hwritable.write_eq data))
    have hfile : (u.put (pathPlace u.home (u.landing name target)) (.file data)).node?
        (pathPlace u.home name) = some (.file data) := by
      rw [node?_put hwritable.notDirectory, if_neg hne, hnode]
    refine ⟨_, ?_, h.landing hname hthere hfree hwritable.place_eq, .inr ?_⟩
    · refine ((h.same.mono fun p hp => .inl hp).trans (hput.mono fun p hp => .inr hp)).trans
        ((Tree.SameFiles.erase hfile).mono ?_)
      rintro p rfl
      exact .inl hscratch
    · refine isFile_erase ?_ hfile
      rw [hput.home_eq]

end Scratch

/-! ## Delivering a table -/

lemma speaks_say (verbose : Bool) (s : String) : Job.Speaks (say verbose s) :=
  .ite (.print s) .silent

lemma quiet_say (verbose : Bool) (s : String) : Job.Quiet (say verbose s) := by
  intro w
  obtain ⟨console, log, hrun⟩ := speaks_say verbose s w
  exact ⟨(), _, hrun, rfl, rfl⟩

lemma meets_clear {α : Type} {t : Tree} {name : String} (hname : '/' ∉ name.toList)
    {next : Unit → Job α} {R : α → Tree → Network → Prop} {F : Tree → Network → Prop}
    (hnext : Job.Meets (fun v _ => Cleared t name v) (next ()) R F)
    (hfault : ∀ v n, Broken t name v → v.isFile name = false → F v n) :
    Job.Meets (fun v _ => Broken t name v)
      (do
        let found ← pathExists name
        if found then
          let r ← removeFile name
          next r
        else next ()) R F := by
  refine .bind (.pathExists name) fun found => .ite (fun hfound => ?_) fun hfound => ?_
  · refine .bind (R := fun _ v _ => Cleared t name v)
      (.change (fun u _ v hu hv => hu.1.remove hname hv) fun u n e hu he => hfault u n hu.1 ?_)
      fun _ => hnext
    -- what cannot be removed is no file
    rw [Bool.eq_false_iff, ne_eq, isFile_iff]
    rintro ⟨data, hfind⟩
    rw [remove_eq_ok (read_eq_ok_iff_find?.mpr hfind)] at he
    cases he
  · refine hnext.pre fun v _ hv => hv.1.cleared ?_
    rw [hv.2, Bool.eq_false_iff]
    exact hfound

inductive Delivered (t : Tree) (path name dir target : String) : Bool → Tree → Prop
  | copied {data : Bytes} {u v : Tree} (read : t.read path = .ok data)
      (loads : (load data).fault = none) (text : isText data = true)
      (made : t.makeDirectories dir = .ok u) (copy : u.copy path target = .ok v) :
      Delivered t path name dir target true v
  | moved {data : Bytes} {q : Place} {v : Tree} (read : t.read path = .ok data)
      (table : isText data = false) (moved : Moved t name target q v) :
      Delivered t path name dir target true v
  | cleared {v : Tree} (cleared : Cleared t name v) : Delivered t path name dir target false v

lemma meets_deliver {t : Tree} {path : String} {data : Bytes} (hread : t.read path = .ok data)
    (hload : (load data).fault = none) (table : Table) (relativePath outputBase : String)
    (inputSize : Nat) (verbose : Bool) :
    Job.Meets (fun u _ => u = t) (deliver table path relativePath outputBase inputSize verbose)
      (fun c u _ => Delivered t path (textName path)
        (join outputBase (directory relativePath))
        (join (join outputBase (directory relativePath)) (textName path))
        c.success u)
      (fun u _ => Broken t (textName path) u) := by
  have hname := slash_notMem_textName path
  unfold deliver
  generalize textName path = name at hname ⊢
  generalize join outputBase (directory relativePath) = dir
  dsimp only
  generalize join dir name = target
  -- making directories leaves the files alone
  refine .bind (R := fun _ u _ => t.makeDirectories dir = .ok u)
    (.change (by rintro _ _ u rfl hu; exact hu) ?_) fun _ => ?_
  · rintro _ _ e rfl -
    exact broken_of_sameFiles (.refl _ _)
  have hsame : ∀ {u : Tree}, t.makeDirectories dir = .ok u → t.SameFiles (fun _ => False) u :=
    fun hu => .ofWritten (.makeDirectories hu _)
  refine .bind (R := fun b u _ => t.makeDirectories dir = .ok u ∧ b = data)
    (.look (fun u _ b hu hb => ⟨hu, ?_⟩) fun u _ e hu _ => broken_of_sameFiles (hsame hu)) fun b => ?_
  · have hagain := Tree.Written.read_eq (.makeDirectories hu fun _ => False) hread not_false
    rw [hb] at hagain
    exact Except.ok.inj hagain
  refine .assume fun hb => ?_
  subst hb
  refine .ite (fun htext => ?_) fun htext => ?_
  · -- the file is text
    refine .bind (R := fun _ v _ => ∃ u, t.makeDirectories dir = .ok u ∧ u.copy path target = .ok v)
      (.change (fun u _ v hu hv => ⟨u, hu, hv⟩) fun u _ e hu _ => broken_of_sameFiles (hsame hu))
      fun _ => .pure ?_
    rintro v - ⟨u, hu, hv⟩
    exact .copied hread hload htext hu hv
  · -- the file is a table, and its text is written
    refine .bind (R := fun _ v _ => Broken t name v ∧ v.isFile name = true)
      (.change (fun u _ v hu hv => broken_write hname (hsame hu) hv)
        fun u _ e hu _ => broken_of_sameFiles (hsame hu)) fun _ => ?_
    refine .bind (R := fun _ v _ => Broken t name v ∧ v.isFile name = true)
      (.look (fun _ _ _ h _ => h) fun _ _ _ h _ => h.1) fun size => ?_
    refine .bind (.quiet (quiet_say verbose _)) fun _ => ?_
    refine .bind (.quiet (quiet_say verbose _)) fun _ => ?_
    cases judge table inputSize size with
    | passed status =>
      refine .bind (R := fun _ v _ => ∃ q, Moved t name target q v)
        (.change (fun u _ v hu hv => hu.1.move hname hu.2 hv) fun _ _ _ hu _ => hu.1) fun _ => ?_
      refine .bind (.quiet (quiet_say verbose _)) fun _ => ?_
      refine .bind (.quiet (quiet_say verbose _)) fun _ => .pure ?_
      rintro v - ⟨q, hq⟩
      exact .moved hread (Bool.eq_false_iff.mpr htext) hq
    | failed status reason =>
      have hend : ∀ c : Conversion, c.success = false →
          Job.Meets (fun v _ => Cleared t name v) (do say verbose ("  Status: ✗ " ++ status); return c)
            (fun c v _ => Delivered t path name dir target c.success v) (fun v _ => Broken t name v) := by
        intro c hc
        refine .bind (.quiet (quiet_say verbose _)) fun _ => .pure fun v _ hv => ?_
        rw [hc]
        exact .cleared hv
      exact (meets_clear hname (hend _ rfl) fun _ _ hv _ => hv).pre fun _ _ hv => hv.1

/-- **How the remedy for a fault ends**: with no text left, or with another fault if a directory stands
there, or if there is no path. -/
lemma meets_abandon (t : Tree) (path inputBase : String) (verbose : Bool) (f : Fault) :
    Job.Meets (fun u _ => Broken t (textName path) u) (abandon path inputBase verbose f)
      (fun c u _ => c.success = false ∧ Cleared t (textName path) u)
      (fun u _ => t.SameFiles (fun _ => False) u ∧ u.isFile (textName path) = false) := by
  have hname := slash_notMem_textName path
  -- without a path the text has no place
  have hempty : path.isEmpty = true → ∀ q, ¬ Scratch t (textName path) q := by
    intro h q hq
    obtain rfl := String.isEmpty_iff.mp h
    cases hq
  unfold abandon
  generalize textName path = name at hname hempty ⊢
  refine .bind (.quiet (quiet_say verbose _)) fun _ => ?_
  refine meets_clear hname ?_ fun v _ hv hfile => ⟨hv.scratch.resolve_right ?_, hfile⟩
  · refine .bind (R := fun _ v _ => Cleared t name v) ?_ fun relativePath => ?_
    · refine .ite (fun h => .throw fun v _ hv => ⟨hv.same.mono (hempty h), hv.gone⟩) fun h => ?_
      exact fun w hw => ended_ok hw
    refine .bind (.pathExists path) fun found => .ite (fun hfound => ?_) fun _ => ?_
    · refine .bind (R := fun _ v _ => Cleared t name v) (.look (fun _ _ _ hv _ => hv.1) ?_) fun size =>
        .pure fun v _ hv => ⟨rfl, hv⟩
      rintro v - e ⟨-, hexists⟩ he
      obtain ⟨n, hn⟩ := exists_size (hexists.trans hfound)
      rw [hn] at he
      cases he
    · exact .pure fun v _ hv => ⟨rfl, hv.1⟩
  · rw [hfile]
    exact Bool.false_ne_true

/-! ## Files that are spared -/

section Delivered

variable {t v : Tree} {path name dir target : String} {success : Bool} {q : Place} {data : Bytes}

def CopiedOver (t : Tree) (path dir target : String) : Prop :=
  ∃ data old u, t.read path = .ok data ∧ (load data).fault = none ∧ isText data = true ∧
    t.makeDirectories dir = .ok u ∧ u.isDirectory target = true ∧
    u.read (PathText.join target (PathText.base path)) = .ok old ∧ old ≠ data

lemma node?_copied {u : Tree} (hread : t.read path = .ok data) (hmade : t.makeDirectories dir = .ok u)
    (hcopy : u.copy path target = .ok v) :
    u.Writable (u.landing path target) ∧
      ∀ p, v.node? p = if p = pathPlace t.home (u.landing path target) then some (.file data)
        else u.node? p := by
  have hwritten := Tree.Written.makeDirectories hmade fun _ => False
  obtain ⟨data', hread', -, hwrite⟩ := copy_eq_ok_iff.mp hcopy
  rw [hwritten.read_eq hread not_false] at hread'
  cases hread'
  obtain ⟨hwritable, rfl⟩ := write_eq_ok_iff.mp hwrite
  refine ⟨hwritable, fun p => ?_⟩
  rw [node?_put hwritable.notDirectory, hwritten.grows.home_eq]

lemma CopiedOver.copy (h : CopiedOver t path dir target) :
    ∃ data u x q old, t.read path = .ok data ∧ (load data).fault = none ∧ isText data = true ∧
      t.makeDirectories dir = .ok u ∧ u.read path = .ok data ∧ u.copy path target = .ok x ∧
      q ≠ pathPlace t.home target ∧ t.node? q = some (.file old) ∧
      x.node? q ≠ some (.file old) := by
  obtain ⟨data, old, u, hread, hload, htext, hmade, hdir, hold, hne⟩ := h
  have hwritten := Tree.Written.makeDirectories hmade fun _ => False
  have hhome := hwritten.grows.home_eq
  have hagain := hwritten.read_eq hread not_false
  obtain ⟨hplace, hnode⟩ := read_eq_ok_iff.mp hold
  have hwritable : u.Writable (join target (base path)) :=
    ⟨hplace, by simp [hnode], (place_eq_ok_iff.mp hplace).2.2.2 ⟨old, hnode⟩⟩
  -- the file is not copied to itself, since the other one has other octets
  have hapart : pathPlace u.home path ≠
      pathPlace u.home (join target (base path)) := by
    intro heq
    have hsame := (read_eq_ok_iff.mp hagain).2
    rw [heq, hnode] at hsame
    cases hsame
    exact hne rfl
  have hlanding : u.landing path target = join target (base path) := by
    rw [landing, if_pos hdir]
  have hcopy : u.copy path target = .ok
      (u.put (pathPlace u.home (join target (base path))) (.file data)) := by
    rw [copy_eq_ok_iff, hlanding]
    exact ⟨data, hagain, hapart, hwritable.write_eq data⟩
  refine ⟨data, u, _, _, old, hread, hload, htext, hmade, hagain, hcopy, ?_,
    ((Tree.SameFiles.ofWritten hwritten).file_iff not_false old).mp hnode, ?_⟩
  · intro heq
    rw [heq, ← hhome, (Tree.find?_eq_some_iff.mp (isDirectory_iff.mp hdir)).2] at hnode
    cases hnode
  · rw [node?_put hwritable.notDirectory, if_pos rfl]
    simpa using Ne.symm hne

lemma Delivered.spares (h : Delivered t path name dir target success v)
    (hover : ¬ CopiedOver t path dir target)
    (hscratch : t.isFile name = true → success = true ∧
      ((∃ data, t.read path = .ok data ∧ isText data = true) ∨
        pathPlace t.home name = pathPlace t.home target))
    (hnode : t.node? q = some (.file data)) (hq : success = true → q ≠ pathPlace t.home target) :
    v.node? q = some (.file data) := by
  cases h with
  | @copied content u v read loads text made copy =>
    have hwritten := Tree.Written.makeDirectories made fun _ => False
    have hhome := hwritten.grows.home_eq
    obtain ⟨hwritable, hnodes⟩ := node?_copied read made copy
    have hthere := hwritten.node?_eq hnode not_false
    rw [hnodes]
    split_ifs with hlanding
    · -- the file that was replaced had the same octets
      by_cases hdir : u.isDirectory target = true
      · rw [landing, if_pos hdir] at hwritable hlanding
        have hold : u.read (join target (base path)) = .ok data := by
          refine read_eq_ok_iff.mpr ⟨hwritable.place_eq, ?_⟩
          rw [hhome, ← hlanding, hthere]
        by_contra hne
        refine hover ⟨content, data, u, read, loads, text, made, hdir, hold, ?_⟩
        rintro rfl
        exact hne rfl
      · rw [landing, if_neg hdir] at hlanding
        exact absurd hlanding (hq rfl)
    · exact hthere
  | @moved content p v read table moved =>
    refine (moved.same.file_iff (not_or.mpr ⟨fun hs => ?_, fun hp => ?_⟩) data).mpr hnode
    · obtain ⟨-, ⟨data', hread, htext⟩ | heq⟩ := hscratch (isFile_iff_scratch.mpr ⟨q, data, hs, hnode⟩)
      · rw [read] at hread
        cases hread
        rw [table] at htext
        cases htext
      · exact hq rfl (hs.eq.trans heq)
    · subst hp
      rcases moved.landing with hp | ⟨-, -, hfree⟩
      · exact hq rfl hp
      · exact hfree data hnode
  | cleared cleared =>
    refine (cleared.same.file_iff (fun hs => ?_) data).mpr hnode
    cases (hscratch (isFile_iff_scratch.mpr ⟨q, data, hs, hnode⟩)).1

lemma Delivered.of_spares (h : Delivered t path name dir target success v)
    (hname : '/' ∉ name.toList) (hfile : t.isFile name = true)
    (hspared : ∀ q data, (success = true → q ≠ pathPlace t.home target) →
      t.node? q = some (.file data) → v.node? q = some (.file data)) :
    success = true ∧ ((∃ data, t.read path = .ok data ∧ isText data = true) ∨
      pathPlace t.home name = pathPlace t.home target) := by
  obtain ⟨q, data, hq, hnode⟩ := isFile_iff_scratch.mp hfile
  -- where the file is spared it is found after the delivery
  have hfound : v.home = t.home → (success = true → q ≠ pathPlace t.home target) →
      v.isFile name = true := fun hhome hne =>
    isFile_iff_scratch.mpr ⟨q, data, (scratch_iff hname hhome).mpr hq, hspared q data hne hnode⟩
  cases h with
  | copied read loads text made copy => exact ⟨rfl, .inl ⟨_, read, text⟩⟩
  | @moved content p v read table moved =>
    refine ⟨rfl, .inr ?_⟩
    by_contra hne
    have hscratch : Scratch t name p := by
      refine moved.gone.resolve_right ?_
      rw [hfound moved.same.home_eq fun _ heq => hne (hq.eq.symm.trans heq)]
      exact Bool.false_ne_true.symm
    rcases moved.landing with hp | ⟨-, hnot, -⟩
    · exact hne (hscratch.eq.symm.trans hp)
    · exact hnot hscratch
  | cleared cleared =>
    have hgone := cleared.gone
    rw [hfound cleared.same.home_eq fun h => nomatch h] at hgone
    cases hgone

/-- **A delivery makes no file** but at the output path or in the directory there, and none if it
failed. -/
lemma Delivered.file_cases (h : Delivered t path name dir target success v)
    (hname : '/' ∉ name.toList) (hnode : v.node? q = some (.file data)) :
    t.node? q = some (.file data) ∨ success = true ∧
      q ∈ [target, join target (base path), join target name].map
        (pathPlace t.home) := by
  -- a text that is left where it was written is found there
  have hfound : v.home = t.home → Scratch t name q → v.isFile name = true := fun hhome hq =>
    isFile_iff_scratch.mpr ⟨q, data, (scratch_iff hname hhome).mpr hq, hnode⟩
  cases h with
  | @copied content u v read loads text made copy =>
    rw [(node?_copied read made copy).2] at hnode
    split_ifs at hnode with hlanding
    · refine .inr ⟨rfl, ?_⟩
      rw [hlanding, landing]
      split <;> simp
    · exact .inl ((Tree.SameFiles.ofWritten (.makeDirectories made fun _ => False)).file_iff not_false
        data |>.mp hnode)
  | @moved content p v read table moved =>
    by_cases hp : q = p
    · refine .inr ⟨rfl, ?_⟩
      rcases moved.landing with h | ⟨h, -⟩ <;> simp [hp, h]
    · refine .inl ((moved.same.file_iff (not_or.mpr ⟨fun hq => ?_, hp⟩) data).mp hnode)
      rcases moved.gone with hs | hgone
      · exact hp (hq.eq.trans hs.eq.symm)
      · rw [hfound moved.same.home_eq hq] at hgone
        cases hgone
  | cleared cleared =>
    refine .inl ((cleared.same.file_iff (fun hq => ?_) data).mp hnode)
    have hgone := cleared.gone
    rw [hfound cleared.same.home_eq hq] at hgone
    cases hgone

end Delivered

/-! ## Converting a file -/

lemma uninterrupted_deliver (table : Table) (path relativePath outputBase : String) (inputSize : Nat)
    (verbose : Bool) :
    Job.Uninterrupted (deliver table path relativePath outputBase inputSize verbose) := by
  have hwords : ∀ s, Job.Uninterrupted (say verbose s) := fun s => .words (speaks_say verbose s)
  unfold deliver
  refine .bind (.change _) fun _ => .bind (.look _) fun b => .ite ?_ ?_
  · exact .bind (.change _) fun _ => .pure _
  · refine .bind (.change _) fun _ => .bind (.look _) fun size => ?_
    refine .bind (hwords _) fun _ => .bind (hwords _) fun _ => ?_
    cases judge table inputSize size with
    | passed status =>
      exact .bind (.change _) fun _ => .bind (hwords _) fun _ => .bind (hwords _) fun _ => .pure _
    | failed status reason =>
      have hend : ∀ c : Conversion,
          Job.Uninterrupted (do say verbose ("  Status: ✗ " ++ status); return c) :=
        fun c => .bind (hwords _) fun _ => .pure c
      exact .bind (.pathExists _) fun found => .ite (.bind (.change _) fun _ => hend _) (hend _)

lemma loadFile_cases (path : String) (w : Workspace) :
    (∃ f v, f ≠ .interrupted ∧ (loadFile path).run w = .error f v ∧ v.tree = w.tree ∧
        ∀ data, w.tree.read path = .ok data → (load data).fault ≠ none) ∨
      ∃ data console log, w.tree.read path = .ok data ∧ (load data).fault = none ∧
        (loadFile path).run w = .ok (load data).table { w with console, log } := by
  rw [loadFile]
  cases hread : w.tree.read path with
  | error e =>
    refine .inl ⟨.file e, w, by simp, bind_error (look_error hread), rfl, ?_⟩
    exact fun data h => nomatch h
  | ok data =>
    have hlook : (readFile path).run w = .ok data w := look_ok hread
    obtain ⟨console, log, hwords⟩ := Job.Speaks.printAll (load data).notes w
    rw [bind_ok hlook, bind_ok hwords]
    cases hfault : (load data).fault with
    | some f =>
      refine .inl ⟨.table f, _, by simp, rfl, rfl, fun b hb => ?_⟩
      cases hb
      simp [hfault]
    | none => exact .inr ⟨data, console, log, rfl, hfault, rfl⟩

/-- **How a conversion starts**: a table is loaded and then delivered, or a fault comes before any file
is changed. -/
lemma convertFileRaw_cases (path inputBase outputBase : String) (verbose : Bool) (w : Workspace) :
    (∃ f v, f ≠ .interrupted ∧ (convertFileRaw path inputBase outputBase verbose).run w = .error f v ∧
        v.tree = w.tree ∧ ∀ data, w.tree.read path = .ok data → (load data).fault ≠ none) ∨
      ∃ data size v, w.tree.read path = .ok data ∧ (load data).fault = none ∧ v.tree = w.tree ∧
        (convertFileRaw path inputBase outputBase verbose).run w =
          (deliver (load data).table path (relative w.root path inputBase) outputBase size
            verbose).run v := by
  rw [convertFileRaw]
  cases hsize : w.tree.size path with
  | error e =>
    refine .inl ⟨.file e, w, by simp, bind_error (look_error hsize), rfl, fun data hread => ?_⟩
    have hexists : w.tree.exists? path = true := by
      rw [exists?, read_eq_ok_iff_find?.mp hread]
      rfl
    obtain ⟨n, hn⟩ := exists_size hexists
    rw [hsize] at hn
    cases hn
  | ok size =>
    have hlook : (fileSize path).run w = .ok size w := look_ok hsize
    obtain ⟨console, log, hwords⟩ := speaks_say verbose ("\nProcessing: " ++ path) w
    obtain ⟨console', log', hwords'⟩ := speaks_say verbose
      ("  Input size: " ++ Decimal.grouped size ++ " bytes") { w with console, log }
    rw [bind_ok hlook, bind_ok hwords, bind_ok hwords']
    obtain ⟨f, v, hf, hload, htree, hnone⟩ | ⟨data, console, log, hread, hfault, hload⟩ :=
      loadFile_cases path { w with console := console', log := log' }
    · exact .inl ⟨f, v, hf, bind_error hload, htree, hnone⟩
    · have hpath : path.isEmpty = false :=
        (place_eq_ok_iff.mp (read_eq_ok_iff.mp hread).1).1
      refine .inr ⟨data, size, { w with console := console, log := log }, hread, hfault, rfl, ?_⟩
      rw [bind_ok hload]
      refine bind_ok ?_
      rw [Job.relative, if_neg (by simp [hpath])]
      rfl

def outputDir (root path inputBase outputBase : String) : String :=
  PathText.join outputBase (PathText.directory (PathText.relative root path inputBase))

def outputPath (root path inputBase outputBase : String) : String :=
  PathText.join (outputDir root path inputBase outputBase) (textName path)

variable (path inputBase outputBase : String) (verbose : Bool) (w : Workspace)

lemma convertFile_ended :
    Job.Ended ((convertFile path inputBase outputBase verbose).run w)
      (fun c u _ => Delivered w.tree path (textName path) (outputDir w.root path inputBase outputBase)
        (outputPath w.root path inputBase outputBase) c.success u)
      (fun u _ => w.tree.SameFiles (fun _ => False) u ∧ u.isFile (textName path) = false) := by
  have hraw : Job.Ended ((convertFileRaw path inputBase outputBase verbose).run w)
      (fun c u _ => Delivered w.tree path (textName path) (outputDir w.root path inputBase outputBase)
        (outputPath w.root path inputBase outputBase) c.success u)
      (fun u _ => Broken w.tree (textName path) u) := by
    obtain ⟨f, v, -, hrun, htree, -⟩ | ⟨data, size, v, hread, hload, htree, hrun⟩ :=
      convertFileRaw_cases path inputBase outputBase verbose w
    · rw [hrun]
      refine ended_error ?_
      rw [htree]
      exact broken_of_sameFiles (.refl _ _)
    · rw [hrun]
      exact meets_deliver hread hload (load data).table _ outputBase size verbose v htree
  have hun : Job.Uninterrupted (convertFileRaw path inputBase outputBase verbose) := by
    intro w f v h
    obtain ⟨g, u, hg, hrun, -⟩ | ⟨data, size, u, -, -, -, hrun⟩ :=
      convertFileRaw_cases path inputBase outputBase verbose w
    · rw [hrun] at h
      cases h
      exact hg
    · rw [hrun] at h
      exact uninterrupted_deliver _ path _ outputBase size verbose u f v h
  refine ended_recover hraw hun fun f => ?_
  refine (meets_abandon w.tree path inputBase verbose f).mono (fun _ _ h => h) (fun c u _ h => ?_)
    fun _ _ h => h
  rw [h.1]
  exact .cleared h.2

lemma convertFile_of_copiedOver
    (h : CopiedOver w.tree path (outputDir w.root path inputBase outputBase)
      (outputPath w.root path inputBase outputBase)) :
    ∃ c v q old, (convertFile path inputBase outputBase verbose).run w = .ok c v ∧
      q ≠ pathPlace w.tree.home (outputPath w.root path inputBase outputBase) ∧
      w.tree.node? q = some (.file old) ∧ v.tree.node? q ≠ some (.file old) := by
  obtain ⟨data, u, x, q, old, hread, hload, htext, hmade, hagain, hcopy, hq, hold, hnew⟩ := h.copy
  obtain ⟨f, v, -, -, -, hno⟩ | ⟨data', size, v, hread', -, htree, hrun⟩ :=
    convertFileRaw_cases path inputBase outputBase verbose w
  · exact absurd hload (hno data hread)
  rw [hread] at hread'
  cases hread'
  have hmake : (makeDirectories (outputDir w.root path inputBase outputBase)).run v =
      .ok () { v with tree := u } := change_ok (htree ▸ hmade)
  have hlook : (readFile path).run { v with tree := u } = .ok data { v with tree := u } :=
    look_ok hagain
  have hcopied : (change (·.copy path (outputPath w.root path inputBase outputBase))).run
      { v with tree := u } = .ok () { v with tree := x } := change_ok hcopy
  have hdeliver : ∃ c, (deliver (load data).table path (relative w.root path inputBase) outputBase
      size verbose).run v = .ok c { v with tree := x } := by
    rw [deliver]
    constructor
    refine (bind_ok hmake).trans ((bind_ok hlook).trans ?_)
    rw [if_pos htext]
    exact bind_ok hcopied
  obtain ⟨c, hc⟩ := hdeliver
  exact ⟨c, _, q, old, tryCatch_ok (hrun.trans hc), hq, hold, hnew⟩

def filesAfter {α : Type} : EStateM.Result Fault Workspace α → Tree
  | .ok _ v => v.tree
  | .error _ v => v.tree

structure Spares (t : Tree) (output : Place) (r : EStateM.Result Fault Workspace Conversion) : Prop where
  other : ∀ q data, q ≠ output → t.node? q = some (.file data) →
    (filesAfter r).node? q = some (.file data)
  failed : ∀ c v, r = .ok c v → c.success = false → ∀ q data, t.node? q = some (.file data) →
    v.tree.node? q = some (.file data)

/-- **When a conversion spares the other files.** Every file but the output stays as it was, and every
file if the conversion failed, exactly if two things hold. A file with the name of the text in the working
directory is met only by a conversion that passed, and either copied a text or had that file for its output.
And no copy into a directory replaces another file there. In any case a new file stands nowhere but at the
output path, or in a directory that is there, and only if the conversion passed. -/
theorem conversion_spares_iff :
    (Spares w.tree (Tree.pathPlace w.tree.home (outputPath w.root path inputBase outputBase))
        ((convertFile path inputBase outputBase verbose).run w) ↔
      (w.tree.isFile (textName path) = true →
        ∃ c v, (convertFile path inputBase outputBase verbose).run w = .ok c v ∧ c.success = true ∧
          ((∃ data, w.tree.read path = .ok data ∧ isText data = true) ∨
            Tree.pathPlace w.tree.home (textName path) =
              Tree.pathPlace w.tree.home (outputPath w.root path inputBase outputBase))) ∧
      ¬ CopiedOver w.tree path (outputDir w.root path inputBase outputBase)
        (outputPath w.root path inputBase outputBase)) ∧
    ∀ q data, (filesAfter ((convertFile path inputBase outputBase verbose).run w)).node? q =
        some (.file data) →
      w.tree.node? q = some (.file data) ∨
        (∃ c v, (convertFile path inputBase outputBase verbose).run w = .ok c v ∧ c.success = true) ∧
        q ∈ [outputPath w.root path inputBase outputBase,
            PathText.join (outputPath w.root path inputBase outputBase) (PathText.base path),
            PathText.join (outputPath w.root path inputBase outputBase) (textName path)].map
          (Tree.pathPlace w.tree.home) := by
  have hname := slash_notMem_textName path
  have hended := convertFile_ended path inputBase outputBase verbose w
  have hover := convertFile_of_copiedOver path inputBase outputBase verbose w
  generalize (convertFile path inputBase outputBase verbose).run w = r at hended hover ⊢
  generalize outputDir w.root path inputBase outputBase = dir at hended hover ⊢
  generalize outputPath w.root path inputBase outputBase = target at hended hover ⊢
  generalize textName path = name at hname hended ⊢
  cases r with
  | ok c v =>
    have hdelivered := hended.1 c v rfl
    refine ⟨⟨fun hspares => ⟨fun hfile => ?_, fun h => ?_⟩, fun ⟨hscratch, hnot⟩ => ?_⟩,
      fun q data hnode => ?_⟩
    · obtain ⟨hsuccess, hcase⟩ := hdelivered.of_spares hname hfile fun q data hq hnode => by
        cases hc : c.success with
        | true => exact hspares.other q data (hq hc) hnode
        | false => exact hspares.failed c v rfl hc q data hnode
      exact ⟨c, v, rfl, hsuccess, hcase⟩
    · obtain ⟨c', v', q, old, hrun, hq, hold, hnew⟩ := hover h
      cases hrun
      exact hnew (hspares.other q old hq hold)
    · have hcase : w.tree.isFile name = true → c.success = true ∧ _ := fun hfile => by
        obtain ⟨c', v', hrun, hcase⟩ := hscratch hfile
        cases hrun
        exact hcase
      refine ⟨fun q data hq hnode => hdelivered.spares hnot hcase hnode fun _ => hq, ?_⟩
      rintro c' v' hrun hfailed q data hnode
      cases hrun
      exact hdelivered.spares hnot hcase hnode fun h => absurd (h.symm.trans hfailed) (by decide)
    · rcases hdelivered.file_cases hname hnode with hold | ⟨hsuccess, hq⟩
      · exact .inl hold
      · exact .inr ⟨⟨c, v, rfl, hsuccess⟩, hq⟩
  | error f v =>
    obtain ⟨hsame, hfile⟩ := hended.2 f v rfl
    have hnone : w.tree.isFile name = false := by
      rw [← isFile_eq hname hsame, hfile]
    refine ⟨iff_of_true ⟨?_, ?_⟩ ⟨?_, ?_⟩, fun q data hnode => ?_⟩
    · exact fun q data _ hnode => (hsame.file_iff not_false data).mpr hnode
    · exact fun c u hrun => nomatch hrun
    · intro hthere
      rw [hnone] at hthere
      cases hthere
    · intro h
      obtain ⟨c, u, q, old, hrun, -⟩ := hover h
      cases hrun
    · exact .inl ((hsame.file_iff not_false data).mp hnode)

def besideFile (name : String) : Workspace where
  tree :=
    { entries :=
        [⟨["tmp", "work", "in"], .directory, 0⟩,
          ⟨["tmp", "work", "in", "x.tab.bytes"], .file [1, 2], 0⟩,
          ⟨["tmp", "work", name], .file [7], 0⟩] }

/-- A file with another name than the text is spared. -/
theorem conversion_spares_other_name :
    Spares (besideFile "y.tsv").tree ["tmp", "work", "out", "x.tsv"]
      ((convertFile "in/x.tab.bytes" "in" "out" false).run (besideFile "y.tsv")) := by
  have hfacts : Tree.pathPlace (besideFile "y.tsv").tree.home
        (outputPath (besideFile "y.tsv").root "in/x.tab.bytes" "in" "out") =
          ["tmp", "work", "out", "x.tsv"] ∧
      (besideFile "y.tsv").tree.isFile (textName "in/x.tab.bytes") = false ∧
      (besideFile "y.tsv").tree.read "in/x.tab.bytes" = .ok [1, 2] ∧ isText [1, 2] = false := by
    with_unfolding_all decide
  obtain ⟨hplace, hfile, hread, htext⟩ := hfacts
  have hiff := (conversion_spares_iff "in/x.tab.bytes" "in" "out" false (besideFile "y.tsv")).1
  rw [hplace] at hiff
  refine hiff.mpr ⟨fun h => ?_, ?_⟩
  · rw [hfile] at h
    cases h
  · rintro ⟨data, old, u, hdata, -, hyes, -⟩
    rw [hread] at hdata
    cases hdata
    rw [htext] at hyes
    cases hyes

/-- A file with the name of the text is removed by a conversion that never wrote a text. -/
theorem leftover_is_removed :
    (besideFile "x.tsv").tree.node? ["tmp", "work", "x.tsv"] = some (.file [7]) ∧
      ∃ c v, (convertFile "in/x.tab.bytes" "in" "out" false).run (besideFile "x.tsv") = .ok c v ∧
        c.success = false ∧ v.tree.node? ["tmp", "work", "x.tsv"] = none ∧
        Tree.pathPlace (besideFile "x.tsv").tree.home
          (outputPath (besideFile "x.tsv").root "in/x.tab.bytes" "in" "out") ≠
            ["tmp", "work", "x.tsv"] := by
  have hfacts : (do
        let c ← convertFile "in/x.tab.bytes" "in" "out" false
        return (c.success, (← get).tree.node? ["tmp", "work", "x.tsv"])).run' (besideFile "x.tsv") =
          some (false, none) ∧
      (besideFile "x.tsv").tree.node? ["tmp", "work", "x.tsv"] = some (.file [7]) ∧
      Tree.pathPlace (besideFile "x.tsv").tree.home
        (outputPath (besideFile "x.tsv").root "in/x.tab.bytes" "in" "out") ≠
          ["tmp", "work", "x.tsv"] := by
    with_unfolding_all decide
  obtain ⟨hrun, hfile, hne⟩ := hfacts
  obtain ⟨x, hx⟩ := Run.exists_of_run' hrun
  obtain ⟨c, v, hc, hend⟩ := Run.exists_of_bind_ok hx
  have hvalues : EStateM.Result.ok (c.success, v.tree.node? ["tmp", "work", "x.tsv"]) v =
      .ok (false, none) x := hend
  obtain ⟨hsuccess, hgone⟩ := Prod.mk.inj (EStateM.Result.ok.inj hvalues).1
  exact ⟨hfile, c, v, hc, hsuccess, hgone, hne⟩

end Table

end Salvage
