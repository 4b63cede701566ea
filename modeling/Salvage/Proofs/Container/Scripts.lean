import Salvage.Proofs.Container.Paths

/-!
# Scripts that are kept

A container is cut at its marks: the scripts are as many as the marks, each starts with one, and
together they are the container from the first mark on. They are written one after the other, so that a
script is lost where another one is written over it, where its path leads through a file or ends at a
directory that was made for another script, and where a name is too long. Whether that happens is seen
from the paths alone.
-/

namespace Salvage.Container

open Salvage.Tree Salvage.Path
open PathText (join)

/-! ## Marks -/

def markCount (b : Bytes) : Nat :=
  b.tails.countP (scriptMark.isPrefixOf ·)

lemma markCount_cons (c : UInt8) (r : Bytes) :
    markCount (c :: r) = (if scriptMark <+: c :: r then 1 else 0) + markCount r := by
  simp [markCount, List.countP_cons, Nat.add_comm]

variable {b : Bytes} {path : String} {done : List (List String × Bytes)}

lemma find?_eq_none (h : Bytes.find? scriptMark b = none) :
    markCount b = 0 ∧ ∀ i, ¬ scriptMark <+: b.drop i := by
  induction b with
  | nil => exact ⟨rfl, fun i => by simp [scriptMark]⟩
  | cons c r ih =>
    rw [Bytes.find?] at h
    split at h
    · cases h
    rename_i hmark
    have hmark : ¬ scriptMark <+: c :: r := fun hp => hmark (List.isPrefixOf_iff_prefix.mpr hp)
    obtain ⟨hcount, hnone⟩ := ih (by simpa using h)
    refine ⟨by rw [markCount_cons, if_neg hmark, hcount], fun i => ?_⟩
    cases i with
    | zero => exact hmark
    | succ i => exact hnone i

lemma find?_eq_some {i : Nat} (h : Bytes.find? scriptMark b = some i) :
    scriptMark <+: b.drop i ∧ markCount b = markCount (b.drop i) ∧
      ∀ j < i, ¬ scriptMark <+: b.drop j := by
  induction b generalizing i with
  | nil => cases h
  | cons c r ih =>
    rw [Bytes.find?] at h
    split at h
    · rename_i hmark
      obtain rfl := Option.some.inj h
      exact ⟨List.isPrefixOf_iff_prefix.mp hmark, rfl, by simp⟩
    rename_i hmark
    have hmark : ¬ scriptMark <+: c :: r := fun hp => hmark (List.isPrefixOf_iff_prefix.mpr hp)
    obtain ⟨j, hj, rfl⟩ := Option.map_eq_some_iff.mp h
    obtain ⟨hfound, hcount, hfirst⟩ := ih hj
    refine ⟨hfound, by rw [markCount_cons, if_neg hmark, hcount, Nat.zero_add]; rfl, fun k hk => ?_⟩
    cases k with
    | zero => exact hmark
    | succ k => exact hfirst k (Nat.lt_of_succ_lt_succ hk)

lemma chunksFrom_spec {fuel : Nat} (hb : scriptMark <+: b) (hfuel : b.length ≤ fuel) :
    (chunksFrom fuel b).flatten = b ∧ (chunksFrom fuel b).length = markCount b ∧
      ∀ c ∈ chunksFrom fuel b, scriptMark <+: c := by
  induction fuel generalizing b with
  | zero =>
    have hlength := hb.length_le
    rw [scriptMark] at hlength
    simp at hlength
    omega
  | succ fuel ih =>
    obtain ⟨r, rfl⟩ := hb
    -- no mark starts inside another
    have hcount : markCount (scriptMark ++ r) = markCount r + 1 := by
      simp [scriptMark, markCount_cons, Nat.add_comm]
    have hlength : (scriptMark ++ r).length = r.length + 4 := rfl
    have hdrop : ∀ i, (scriptMark ++ r).drop (i + 4) = r.drop i := fun i => by simp [scriptMark]
    have hfind : Bytes.findFrom? scriptMark (scriptMark ++ r) 4 =
        (Bytes.find? scriptMark r).map (· + 4) := by
      rw [Bytes.findFrom?, if_pos (by omega)]
      exact congrArg (fun b => (Bytes.find? scriptMark b).map (· + 4)) (hdrop 0)
    rw [chunksFrom, hfind, hcount]
    cases hr : Bytes.find? scriptMark r with
    | none => simp [(find?_eq_none hr).1]
    | some i =>
      obtain ⟨hmark, hsame, -⟩ := find?_eq_some hr
      simp only [Option.map_some, hdrop]
      obtain ⟨hflatten, hlen, hall⟩ := ih hmark (by rw [List.length_drop]; omega)
      refine ⟨?_, by rw [List.length_cons, hlen, hsame], ?_⟩
      · rw [List.flatten_cons, hflatten, ← hdrop, List.take_append_drop]
      · rintro c (_ | ⟨_, hc⟩)
        · refine List.prefix_take_iff.mpr ⟨List.prefix_append .., ?_⟩
          simp [scriptMark]
        · exact hall c hc

lemma chunks_spec (b : Bytes) : (chunks b).length = markCount b ∧
    (∀ c ∈ chunks b, scriptMark <+: c) ∧
    ∃ front, b = front ++ (chunks b).flatten ∧ ∀ i < front.length, ¬ scriptMark <+: b.drop i := by
  rw [chunks]
  cases h : Bytes.find? scriptMark b with
  | none =>
    obtain ⟨hcount, hnone⟩ := find?_eq_none h
    exact ⟨hcount.symm, by simp, b, by simp, fun i _ => hnone i⟩
  | some i =>
    obtain ⟨hmark, hcount, hfirst⟩ := find?_eq_some h
    have hfuel : (b.drop i).length ≤ b.length := by rw [List.length_drop]; omega
    obtain ⟨hflatten, hlength, hall⟩ := chunksFrom_spec hmark hfuel
    refine ⟨hlength.trans hcount.symm, hall, b.take i, ?_, fun j hj => hfirst j ?_⟩
    · exact ((congrArg (b.take i ++ ·) hflatten).trans (List.take_append_drop i b)).symm
    · rw [List.length_take] at hj
      omega

/-! ## Paths in the way of others -/

/-- The files that scripts are to be written to, the first one being the `n`-th: their names below the
output directory, and their octets. -/
def scriptFiles : Nat → List Bytes → List (List String × Bytes)
  | _, [] => []
  | n, b :: r => ((ofString (scriptName n b)).parts, b) :: scriptFiles (n + 1) r

lemma map_snd_scriptFiles (n : Nat) (bs : List Bytes) : (scriptFiles n bs).map Prod.snd = bs := by
  induction bs generalizing n with
  | nil => rfl
  | cons b r ih => rw [scriptFiles, List.map_cons, ih]

def Clear (paths : List (List String)) : Prop :=
  (∀ names ∈ paths, ∀ n ∈ names, isTooLong n = false) ∧
    paths.Pairwise fun a b => ¬ a <+: b ∧ ¬ b <+: a

instance (paths : List (List String)) : Decidable (Clear paths) :=
  inferInstanceAs (Decidable (_ ∧ _))

def Holds (t : Tree) (dir : Place) (contents : List Bytes) : Prop :=
  ∃ files : List (List String × Bytes), (files.map Prod.fst).Nodup ∧
    (∀ names data, (names, data) ∈ files ↔ t.node? (dir ++ names) = some (.file data)) ∧
    (files.map Prod.snd).Perm contents

section Below

variable {t u : Tree} {dir path : String} {home : Place}

lemma exists_join (hpath : PathText.isAbsolute path = false) (hdir : dir ≠ "") :
    ∃ front, join dir path = front ++ "/" ++ path := by
  rw [join, if_neg (by simp [hpath])]
  split
  · rename_i hend
    obtain ⟨cs, hcs⟩ := List.getLast?_eq_some_iff.mp (show dir.toList.getLast? = some '/' by
      simpa [hdir] using hend)
    refine ⟨String.ofList cs, ?_⟩
    rw [← String.ofList_toList (s := dir), hcs, String.ofList_append]
  · exact ⟨dir, rfl⟩

lemma Descends.namesFrom_join (h : Descends path) (dir : String) (home : Place) {front : List String}
    (hfront : front <+: (ofString path).parts) :
    namesFrom ((ofString (join dir path)).start home)
      ((ofString dir).parts ++ front) = pathPlace home dir ++ front := by
  rw [start_ofString, isAbsolute_join dir h.relative, namesFrom_append,
    ← pathPlace_parts]
  exact namesFrom_eq_append (fun n hn => h.mem_parts (hfront.subset hn)) _

lemma Descends.stations_join (h : Descends path) {q : Place}
    (hq : q ∈ (ofString (join dir path)).parent.stations home) :
    q ∈ (ofString dir).stations home ∨ ∃ front, front <+: (ofString path).parts ∧
      front ≠ (ofString path).parts ∧ q = pathPlace home dir ++ front := by
  obtain ⟨names, hnames, rfl⟩ := mem_stations.mp hq
  rw [parent, parts_join dir h.relative,
    List.dropLast_append_of_ne_nil h.parts_ne_nil] at hnames
  rcases List.prefix_or_prefix_of_prefix hnames (List.prefix_append ..) with hin | ⟨front, rfl⟩
  · refine .inl (mem_stations.mpr ⟨names, hin, ?_⟩)
    rw [start_ofString, ← isAbsolute_join dir h.relative, ← start_ofString]
    rfl
  · obtain ⟨hfront, hne⟩ := (prefix_dropLast_iff h.parts_ne_nil).mp
      ((List.prefix_append_right_inj _).mp hnames)
    exact .inr ⟨front, hfront, hne, h.namesFrom_join dir home hfront⟩

/-- What a save that came to its end says of the path: its names are not too long, and it leads through
directories. -/
lemma Descends.of_save (h : Descends path) {b : Bytes}
    (hsave : (save (join dir path) b t).2 = true) :
    (∀ n ∈ (ofString path).parts, isTooLong n = false) ∧
      ∀ front, front <+: (ofString path).parts → front ≠ (ofString path).parts →
        (save (join dir path) b t).1.node? (pathPlace t.home dir ++ front) =
          some .directory := by
  obtain ⟨u, hu, ⟨-, hwrite⟩ | hfail⟩ := save_cases t (join dir path) b
  · obtain ⟨hwritable, heq⟩ := write_eq_ok_iff.mp hwrite
    obtain ⟨hnames, hdirs⟩ := fronts_of_place hwritable.place_eq
    rw [parts_join dir h.relative] at hnames hdirs
    refine ⟨fun n hn => ?_, fun front hfront hne => ?_⟩
    · exact (isUsable_iff.mp (hnames n (List.mem_append_right _ hn))).2.resolve_left
        (h.mem_parts hn).2.2
    · have hdir := hdirs _ ((List.prefix_append_right_inj _).mpr hfront) (by simpa using hne)
      rw [h.namesFrom_join dir _ hfront, hu.grows.home_eq] at hdir
      rw [heq]
      exact hwritable.directory_put b _ hdir
  · rw [hfail] at hsave
    cases hsave

end Below

/-! ## Scripts whose files are written -/

/-- **The scripts whose files are written**: no other file is written, their names are not too long,
and their paths lead through directories afterwards. -/
lemma exists_landed (dir : String) (n : Nat) (bs : List Bytes) (t : Tree) :
    ∃ landed : List (List String), landed.Sublist ((scriptFiles n bs).map Prod.fst) ∧
      t.Written (fun q => ∃ names ∈ landed, q = pathPlace t.home dir ++ names)
        (saveScripts dir n bs t) ∧
      ∀ names ∈ landed, (∀ m ∈ names, isTooLong m = false) ∧
        ∀ front, front <+: names → front ≠ names →
          (saveScripts dir n bs t).node? (pathPlace t.home dir ++ front) = some .directory := by
  induction bs generalizing n t with
  | nil => exact ⟨[], List.Sublist.refl _, .refl t _, by simp⟩
  | cons b r ih =>
    have hname := descends_scriptName n b
    have hsave := written_save t (join dir (scriptName n b)) b
    obtain ⟨landed, hsub, hwritten, hall⟩ :=
      ih (n + 1) (save (join dir (scriptName n b)) b t).1
    rw [hsave.grows.home_eq] at hwritten hall
    cases hend : (save (join dir (scriptName n b)) b t).2 with
    | true =>
      obtain ⟨hshort, hdirs⟩ := hname.of_save hend
      refine ⟨(ofString (scriptName n b)).parts :: landed, hsub.cons_cons _, ?_, ?_⟩
      · refine (hsave.mono fun q hq => ?_).trans (hwritten.mono ?_)
        · exact ⟨_, List.mem_cons_self, hq.trans (hname.pathPlace_join _ _)⟩
        · rintro q ⟨names, hmem, hq⟩
          exact ⟨names, List.mem_cons_of_mem _ hmem, hq⟩
      · refine List.forall_mem_cons.mpr ⟨⟨hshort, fun front hfront hne => ?_⟩, hall⟩
        exact hwritten.grows.directory (hdirs front hfront hne)
    | false =>
      refine ⟨landed, hsub.cons _, Tree.Written.trans ?_ hwritten, hall⟩
      obtain ⟨u, hu, ⟨htrue, -⟩ | hfail⟩ := save_cases t (join dir (scriptName n b)) b
      · rw [hend] at htrue
        cases htrue
      · rw [hfail]
        exact hu.mono fun _ h => h.elim

variable {t u : Tree} {dir : String}

structure Vacant (t : Tree) (dir : String) : Prop where
  isDirectory : t.isDirectory dir = true
  node_eq : ∀ names ≠ [], t.node? (pathPlace t.home dir ++ names) = none

/-- **Where all scripts are kept**, their paths are clear: there are as many files as scripts, so that
every script has one of its own, and a file is no directory on the way to another. -/
lemma Vacant.clear_of_holds (h : Vacant t dir) {n : Nat} {bs : List Bytes}
    (hholds : Holds (saveScripts dir n bs t) (pathPlace t.home dir) bs) :
    Clear ((scriptFiles n bs).map Prod.fst) := by
  obtain ⟨landed, hsub, hwritten, hall⟩ := exists_landed dir n bs t
  obtain ⟨files, hnodup, hfiles, hperm⟩ := hholds
  have hfile : ∀ names ∈ files.map Prod.fst, ∃ data,
      (saveScripts dir n bs t).node? (pathPlace t.home dir ++ names) = some (.file data) := by
    intro names hmem
    obtain ⟨⟨names, data⟩, hentry, rfl⟩ := List.mem_map.mp hmem
    exact ⟨data, (hfiles names data).mp hentry⟩
  have hlanded : files.map Prod.fst ⊆ landed := by
    intro names hmem
    obtain ⟨data, hdata⟩ := hfile names hmem
    rcases hwritten.file_cases hdata with hold | ⟨names', hmem', heq⟩
    · have hdir := (Tree.find?_eq_some_iff.mp (isDirectory_iff.mp h.isDirectory)).2
      by_cases hnil : names = []
      · rw [hnil, List.append_nil, hdir] at hold
        cases hold
      · rw [h.node_eq names hnil] at hold
        cases hold
    · rwa [List.append_cancel_left heq]
  have hcount : ((scriptFiles n bs).map Prod.fst).length = (files.map Prod.fst).length := by
    have hlength := hperm.length_eq
    rw [List.length_map] at hlength
    rw [List.length_map, List.length_map, hlength, ← List.length_map Prod.snd, map_snd_scriptFiles]
  have hall' : (files.map Prod.fst).Perm landed :=
    (List.subperm_of_subset hnodup hlanded).perm_of_length_le (hcount ▸ hsub.length_le)
  obtain rfl := hsub.eq_of_length (hall'.length_eq.symm.trans hcount.symm)
  have hapart : ∀ a ∈ (scriptFiles n bs).map Prod.fst, ∀ b ∈ (scriptFiles n bs).map Prod.fst, a ≠ b →
      ¬ a <+: b := by
    intro a ha b hb hne hab
    obtain ⟨data, hdata⟩ := hfile a (hall'.mem_iff.mpr ha)
    rw [(hall b hb).2 a hab hne] at hdata
    cases hdata
  refine ⟨fun names hmem => (hall names hmem).1, ?_⟩
  exact (hall'.nodup_iff.mp hnodup).pairwise_of_forall_ne fun a ha b hb hne =>
    ⟨hapart a ha b hb hne, hapart b hb a ha hne.symm⟩

/-! ## Scripts on clear paths -/

/-- A tree that has come from one with a vacant directory: below that there are the files `done`, and
directories on the way to them. -/
structure Laid (t : Tree) (dir : String) (done : List (List String × Bytes)) (u : Tree) : Prop where
  grows : t.Grows u
  file_iff : ∀ names data,
    u.node? (pathPlace t.home dir ++ names) = some (.file data) ↔ (names, data) ∈ done
  directory : ∀ names ≠ [], u.node? (pathPlace t.home dir ++ names) = some .directory →
    ∃ e ∈ done, names <+: e.1

lemma Vacant.laid (h : Vacant t dir) : Laid t dir [] t := by
  have hdir := (Tree.find?_eq_some_iff.mp (isDirectory_iff.mp h.isDirectory)).2
  refine ⟨.refl t, fun names data => ?_, fun names hne hnode => ?_⟩
  · by_cases hnil : names = []
    · simp [hnil, hdir]
    · simp [h.node_eq names hnil]
  · rw [h.node_eq names hne] at hnode
    cases hnode

lemma Vacant.front_of_station (h : Vacant t dir) (hpath : Descends path)
    {names : List String} (hne : names ≠ []) (hq : pathPlace t.home dir ++ names ∈
      (ofString (join dir path)).parent.stations t.home) :
    names <+: (ofString path).parts ∧ names ≠ (ofString path).parts := by
  rcases hpath.stations_join hq with hold | ⟨front, hfront, hfne, heq⟩
  · have hdir := directory_of_isDirectory h.isDirectory hold
    rw [h.node_eq names hne] at hdir
    cases hdir
  · rw [List.append_cancel_left heq]
    exact ⟨hfront, hfne⟩

lemma Laid.node?_save (h : Vacant t dir)
    (hlaid : Laid t dir done u) (hpath : Descends path) (b : Bytes)
    (hshort : ∀ n ∈ (ofString path).parts, isTooLong n = false)
    (hclear : ∀ e ∈ done, ¬ e.1 <+: (ofString path).parts ∧
      ¬ (ofString path).parts <+: e.1) (q : Place) :
    (save (join dir path) b u).1.node? q =
      if q = pathPlace t.home dir ++ (ofString path).parts then some (.file b)
      else if u.node? q = none ∧
          q ∈ (ofString (join dir path)).parent.stations t.home then some .directory
      else u.node? q := by
  have hhome := hlaid.grows.home_eq
  have hplace : pathPlace u.home (join dir path) =
      pathPlace t.home dir ++ (ofString path).parts := by
    rw [hpath.pathPlace_join, hhome]
  have hplaceDir := (Tree.find?_eq_some_iff.mp (isDirectory_iff.mp h.isDirectory)).1
  have hempty : dir ≠ "" := by
    rintro rfl
    cases hplaceDir
  obtain ⟨front, hjoin⟩ := exists_join hpath.relative hempty
  rw [← hplace, ← hhome]
  refine (exists_save ?_ (fun hfront => ?_) (fun n hn => ?_) (fun q hq data hdata => ?_)
    (fun hdir => ?_) (fun hmem => ?_)).2 q
  · obtain ⟨stem, hstem⟩ := hpath.extension
    exact split_of_extension ⟨front ++ "/" ++ stem, by rw [hjoin, hstem, ← String.append_assoc]⟩
  · obtain ⟨hslash, ⟨-, hall⟩ | ⟨hne, -⟩⟩ := PathText.split_cases (join dir path)
    · rw [← hall, hjoin] at hslash
      simp at hslash
    · exact hne hfront
  · rw [parts_join dir hpath.relative, List.mem_append] at hn
    rcases hn with hn | hn
    · exact (fronts_of_place hplaceDir).1 n hn
    · refine isUsable_iff.mpr ⟨?_, .inr (hshort n hn)⟩
      rw [← Bool.not_eq_true, List.contains_iff_mem]
      exact fun hzero => hpath.noZero (mem_of_mem_parts hn hzero)
  · -- a file on the way would be one of the scripts
    rw [hhome] at hq
    rcases hpath.stations_join hq with hold | ⟨front, hfront, -, rfl⟩
    · rw [hlaid.grows.directory (directory_of_isDirectory h.isDirectory hold)] at hdata
      cases hdata
    · exact (hclear _ ((hlaid.file_iff front data).mp hdata)).1 hfront
  · rw [hplace] at hdir
    obtain ⟨e, he, hle⟩ := hlaid.directory _ hpath.parts_ne_nil hdir
    exact (hclear e he).2 hle
  · rw [hplace, hhome] at hmem
    exact (h.front_of_station hpath hpath.parts_ne_nil hmem).2 rfl

/-- **A script on a path that is clear of the others** is written, and the others stay. -/
lemma Laid.save (h : Vacant t dir) (hlaid : Laid t dir done u) (hpath : Descends path) (b : Bytes)
    (hshort : ∀ n ∈ (ofString path).parts, isTooLong n = false)
    (hclear : ∀ e ∈ done, ¬ e.1 <+: (ofString path).parts ∧
      ¬ (ofString path).parts <+: e.1) :
    Laid t dir (done ++ [((ofString path).parts, b)])
      (save (join dir path) b u).1 := by
  have hnode := hlaid.node?_save h hpath b hshort hclear
  refine ⟨hlaid.grows.trans (written_save ..).grows, fun names data => ?_,
    fun names hne hdir => ?_⟩
  · have hfile := hlaid.file_iff names data
    have hfresh : (names, data) ∈ done → names ≠ (ofString path).parts := fun hmem heq =>
      (hclear _ hmem).2 (heq ▸ List.prefix_refl _)
    rw [hnode, List.mem_append, List.mem_singleton, Prod.mk.injEq]
    by_cases hself : names = (ofString path).parts
    · rw [if_pos (by rw [hself])]
      grind
    · rw [if_neg (by simpa using hself)]
      grind
  · rw [hnode] at hdir
    split_ifs at hdir with hself hmade
    · cases hdir
    · have hfront := h.front_of_station hpath hne hmade.2
      exact ⟨_, List.mem_append_right _ List.mem_cons_self, hfront.1⟩
    · obtain ⟨e, he, hle⟩ := hlaid.directory names hne hdir
      exact ⟨e, List.mem_append_left _ he, hle⟩

lemma Laid.saveScripts (h : Vacant t dir) (hlaid : Laid t dir done u) (n : Nat) (bs : List Bytes)
    (hclear : Clear ((done ++ scriptFiles n bs).map Prod.fst)) :
    Laid t dir (done ++ scriptFiles n bs) (saveScripts dir n bs u) := by
  induction bs generalizing n done u with
  | nil => rwa [scriptFiles, List.append_nil]
  | cons b r ih =>
    rw [scriptFiles, List.append_cons] at hclear ⊢
    refine ih (hlaid.save h (descends_scriptName n b) b ?_ fun e he => ?_) (n + 1) hclear
    · exact hclear.1 _ (by simp)
    · have hapart := hclear.2
      rw [List.map_append, List.map_append] at hapart
      exact (List.pairwise_append.mp (List.pairwise_append.mp hapart).1).2.2 _
        (List.mem_map_of_mem he) _ List.mem_cons_self

lemma Vacant.holds_of_clear (h : Vacant t dir) {n : Nat} {bs : List Bytes}
    (hclear : Clear ((scriptFiles n bs).map Prod.fst)) :
    Holds (saveScripts dir n bs t) (pathPlace t.home dir) bs := by
  have hlaid := h.laid.saveScripts h n bs hclear
  refine ⟨scriptFiles n bs, hclear.2.imp ?_, fun names data => (hlaid.file_iff names data).symm, ?_⟩
  · rintro a b ⟨hab, -⟩ rfl
    exact hab (List.prefix_refl _)
  · rw [map_snd_scriptFiles]

/-- **All scripts are kept exactly if their paths are clear.** An extraction into a vacant directory
comes to its end whatever the container holds, and counts its marks; the scripts are cut at the marks,
and nothing from the first mark on is left out. The files below the directory are then as many as the
scripts and hold these, exactly if no name on a path is too long and no script has the path of another
one or a path that leads through it. -/
theorem scripts_kept_iff (b : Bytes) (dir : String) (w : Workspace) (h : Vacant w.tree dir) :
    ∃ v, (extractScripts b dir).run w = .ok (markCount b) v ∧
      (chunks b).length = markCount b ∧ (∀ c ∈ chunks b, scriptMark <+: c) ∧
      (∃ front, b = front ++ (chunks b).flatten ∧ ∀ i < front.length, ¬ scriptMark <+: b.drop i) ∧
      (Holds v.tree (Tree.pathPlace w.tree.home dir) (chunks b) ↔
        Clear ((scriptFiles 1 (chunks b)).map Prod.fst)) := by
  obtain ⟨v, hrun, htree⟩ := extractScripts_run b dir w
  obtain ⟨hlength, hmarks, hfront⟩ := chunks_spec b
  refine ⟨v, hlength ▸ hrun, hlength, hmarks, hfront, ?_⟩
  rw [htree]
  exact ⟨h.clear_of_holds, h.holds_of_clear⟩

lemma vacant_home : Vacant {} "." where
  isDirectory := rfl
  node_eq names hne := by
    have hplace : pathPlace ["tmp", "work"] "." = ["tmp", "work"] := rfl
    obtain ⟨n, names, rfl⟩ := List.exists_cons_of_ne_nil hne
    simp [hplace, node?, entry?]

def namedScript (c : UInt8) : Bytes :=
  scriptMark ++ List.replicate 28 0 ++ 6 :: Bytes.ofString "a.lua" ++ [c]

theorem scripts_kept_iff_apart :
    Clear [["a.luac"], ["unknown", "script_0002.luac"]] ∧
    ∃ v, (extractScripts (namedScript 1 ++ scriptMark) ".").run {} = .ok 2 v ∧
      Holds v.tree ["tmp", "work"] [namedScript 1, scriptMark] := by
  have hclear : Clear [["a.luac"], ["unknown", "script_0002.luac"]] := by decide
  obtain ⟨v, hrun, -, -, -, hiff⟩ :=
    scripts_kept_iff (namedScript 1 ++ scriptMark) "." {} vacant_home
  have hall : markCount (namedScript 1 ++ scriptMark) = 2 ∧
      chunks (namedScript 1 ++ scriptMark) = [namedScript 1, scriptMark] ∧
      (scriptFiles 1 [namedScript 1, scriptMark]).map Prod.fst =
        [["a.luac"], ["unknown", "script_0002.luac"]] := by
    with_unfolding_all decide
  rw [hall.1] at hrun
  rw [hall.2.1, hall.2.2] at hiff
  exact ⟨hclear, v, hrun, hiff.mpr hclear⟩

/-- **A script is lost**: two scripts of one name are both counted, and the files left do not hold
both. -/
theorem script_overwritten : Vacant {} "." ∧
    ∃ v, (extractScripts (namedScript 1 ++ namedScript 2) ".").run {} = .ok 2 v ∧
      ¬ Holds v.tree ["tmp", "work"] [namedScript 1, namedScript 2] := by
  have hall : chunks (namedScript 1 ++ namedScript 2) = [namedScript 1, namedScript 2] ∧
      ¬ Clear ((scriptFiles 1 [namedScript 1, namedScript 2]).map Prod.fst) := by
    with_unfolding_all decide
  obtain ⟨v, hrun, htree⟩ := extractScripts_run (namedScript 1 ++ namedScript 2) "." {}
  rw [hall.1] at hrun htree
  refine ⟨vacant_home, v, hrun, fun hholds => hall.2 ?_⟩
  rw [htree] at hholds
  exact vacant_home.clear_of_holds hholds

end Salvage.Container
