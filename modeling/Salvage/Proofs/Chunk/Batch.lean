import Mathlib.Data.List.Nodup
import Salvage.Chunk.Batch
import Salvage.Proofs.Chunk.File

/-!
# Files deciphered one after the other

A run over files carries the seed found last from each file to the next. What a file gives, the
octets written or the complaint, depends on the files before it through this seed and nothing else,
as long as the files are kept apart in the file tree.
-/

namespace Salvage.Chunk

open Salvage.Tree

/-! ## Files to be deciphered -/

structure Job where
  path : String
  data : Bytes
deriving DecidableEq

namespace Job

def target (base outputBase : String) (job : Job) : String :=
  outputPath base job.path outputBase

def spare (job : Job) : String :=
  "tmp/" ++ failureName job.path

def directories (base outputBase : String) (job : Job) : List String :=
  match beforeSlash? (job.target base outputBase) with
  | some dir => Work.stages [] (Work.dropSlash dir).toList
  | none => []

def complaints (job : Job) : Except String Bytes → Bytes
  | .ok _ => []
  | .error complaint =>
    Bytes.ofString complaint ++ Bytes.ofString ("   Failed file saved: " ++ job.spare ++ "\n") ++
      Bytes.ofString ("\nX ERROR: " ++ failureName job.path ++ "\n") ++
      Bytes.ofString "   Reason: Decryption or validation failed\n"

/-- The file stands in the tree, and its plain form and a copy of it could be written. -/
@[mk_iff]
structure Ready (base outputBase : String) (t : Tree) (job : Job) : Prop where
  place_eq : t.place job.path = .ok (pathPlace t.home job.path)
  node_eq : t.node? (pathPlace t.home job.path) = some (.file job.data)
  writable : (t.makeAll (job.directories base outputBase)).Writable (job.target base outputBase)
  spare : t.Writable job.spare

instance (base outputBase : String) (t : Tree) (job : Job) :
    Decidable (job.Ready base outputBase t) :=
  decidable_of_iff _ (job.ready_iff base outputBase t).symm

end Job

namespace Work

variable {base outputBase : String} {job : Job} {b : Bench}

lemma makeDirectories_run (path : String) (b : Bench) :
    (makeDirectories path).run b =
      ((), { b with tree := b.tree.makeAll (stages [] (dropSlash path).toList) }) := by
  have hrun (p : String) (b : Bench) :
      (tryDirectory p).run b = ((), { b with tree := b.tree.tryMake p }) := by
    unfold tryDirectory tryMake
    rw [StateT.run_modify]
    cases b.tree.makeDirectory p <;> rfl
  have hall (paths : List String) (b : Bench) :
      (forIn paths PUnit.unit fun p _ => do
        tryDirectory p
        Pure.pure (ForInStep.yield PUnit.unit) : Work PUnit).run b =
        (PUnit.unit, { b with tree := b.tree.makeAll paths }) := by
    induction paths generalizing b with
    | nil => rfl
    | cons p paths ih =>
      rw [List.forIn_cons, bind_assoc, run_bind_of (hrun p b)]
      exact ih _
  exact run_bind_of (hall _ b)

lemma keepFailure_run (hread : b.tree.read job.path = .ok job.data)
    (hwrite : b.tree.Writable job.spare) :
    (keepFailure job.path).run b = ((), { b with
      tree := b.tree.put (pathPlace b.tree.home job.spare) (.file job.data)
      complaints := b.complaints ++
        Bytes.ofString ("   Failed file saved: " ++ job.spare ++ "\n") }) := by
  rw [keepFailure, get_bind_run, hread]
  dsimp only
  rw [← Job.spare, hwrite.write_eq]
  rfl

lemma decryptListed_eq_counted (base outputBase : String) (job : Job) (b : Bench) :
    (decryptListed base job.path outputBase).run b =
      ((), ((decryptCounted job.path (job.target base outputBase)).run
        { b with tree := b.tree.makeAll (job.directories base outputBase) }).2) := by
  unfold decryptListed Job.directories Job.target
  dsimp only
  cases beforeSlash? (outputPath base job.path outputBase) with
  | none => rfl
  | some dir =>
    rw [run_bind_of (makeDirectories_run dir b)]
    rfl

/-- **One file, counted.** Its plain form or a copy of it is written, according to its result under
the seed found last, and only a failure is complained about. -/
lemma decryptCounted_run {output : String} (hread : b.tree.read job.path = .ok job.data)
    (hwrite : b.tree.Writable output) (hspare : b.tree.Writable job.spare) :
    ∃ r b', (decryptCounted job.path output).run b = (r, b') ∧
      b'.seed = seedAfter b.seed job.data ∧
      b'.complaints = b.complaints ++ job.complaints (resultUnder job.path b.seed job.data) ∧
      match resultUnder job.path b.seed job.data with
      | .ok plain => b'.succeeded = b.succeeded + 1 ∧
          b'.tree = b.tree.put (pathPlace b.tree.home output) (.file plain)
      | .error _ => b'.succeeded = b.succeeded ∧
          b'.tree = b.tree.put (pathPlace b.tree.home job.spare) (.file job.data) := by
  unfold decryptCounted
  rw [modify_bind_run, get_bind_run, print_bind_run]
  obtain ⟨printed, hfile⟩ :=
    decryptFile_run (b := { b with total := b.total + 1, printed := _ }) hread hwrite
  rw [run_bind_of hfile]
  cases hresult : resultUnder job.path b.seed job.data with
  | ok plain =>
    exact ⟨_, _, rfl, rfl, (List.append_nil _).symm, rfl, rfl⟩
  | error complaint =>
    simp only [Bool.false_eq_true, ↓reduceIte]
    have hkeep := keepFailure_run (b := { b with
      seed := seedAfter b.seed job.data
      total := b.total + 1
      failed := b.failed + 1
      printed := printed
      complaints := b.complaints ++ Bytes.ofString complaint }) hread hspare
    rw [modify_bind_run, run_bind_of hkeep]
    refine ⟨_, _, rfl, rfl, ?_, rfl, rfl⟩
    simp only [Job.complaints, List.append_assoc]

end Work

/-! ## Files kept apart -/

section Apart

variable (base outputBase : String)

def directoryPlaces (home : Place) (jobs : List Job) : List Place :=
  jobs.flatMap fun job => (job.directories base outputBase).map (pathPlace home)

/-- The places that the plain forms and the copies of files go to. -/
def filePlaces (home : Place) (jobs : List Job) : List Place :=
  jobs.flatMap fun job =>
    [pathPlace home (job.target base outputBase), pathPlace home job.spare]

/-- The plain forms of the files go to different places. Neither they nor the copies go where a file
is read or a directory is made, and no copy goes where a plain form goes. -/
@[mk_iff]
structure Apart (home : Place) (jobs : List Job) : Prop where
  targets : (jobs.map fun job => pathPlace home (job.target base outputBase)).Nodup
  sources : ∀ job ∈ jobs,
    pathPlace home job.path ∉ filePlaces base outputBase home jobs
  copies : ∀ i ∈ jobs, ∀ j ∈ jobs,
    pathPlace home (i.target base outputBase) ≠ pathPlace home j.spare
  directories : ∀ p ∈ filePlaces base outputBase home jobs,
    p ∉ directoryPlaces base outputBase home jobs

instance (home : Place) (jobs : List Job) : Decidable (Apart base outputBase home jobs) :=
  decidable_of_iff _ (apart_iff base outputBase home jobs).symm

def benchAfter (paths : List String) (b : Bench) : Bench :=
  ((paths.forM fun path => Work.decryptListed base path outputBase).run b).2

end Apart

variable {base outputBase : String} {t u : Tree} {job : Job} {jobs : List Job} {b : Bench}

lemma benchAfter_cons (path : String) (paths : List String) (b : Bench) :
    benchAfter base outputBase (path :: paths) b =
      benchAfter base outputBase paths ((Work.decryptListed base path outputBase).run b).2 :=
  rfl

lemma benchAfter_append (paths paths' : List String) (b : Bench) :
    benchAfter base outputBase (paths ++ paths') b =
      benchAfter base outputBase paths' (benchAfter base outputBase paths b) := by
  induction paths generalizing b with
  | nil => rfl
  | cons path paths ih => rw [List.cons_append, benchAfter_cons, benchAfter_cons, ih]

lemma target_mem_filePlaces (home : Place) (hjob : job ∈ jobs) :
    pathPlace home (job.target base outputBase) ∈ filePlaces base outputBase home jobs :=
  List.mem_flatMap.mpr ⟨job, hjob, List.mem_cons_self⟩

lemma spare_mem_filePlaces (home : Place) (hjob : job ∈ jobs) :
    pathPlace home job.spare ∈ filePlaces base outputBase home jobs :=
  List.mem_flatMap.mpr ⟨job, hjob, List.mem_cons_of_mem _ List.mem_cons_self⟩

lemma mem_directoryPlaces (home : Place) (hjob : job ∈ jobs) {path : String}
    (hpath : path ∈ job.directories base outputBase) :
    pathPlace home path ∈ directoryPlaces base outputBase home jobs :=
  List.mem_flatMap.mpr ⟨job, hjob, List.mem_map_of_mem hpath⟩

lemma Apart.target_ne {home : Place} (h : Apart base outputBase home jobs) {i j : Job}
    (hi : i ∈ jobs) (hj : j ∈ jobs) (hne : i ≠ j) :
    pathPlace home (i.target base outputBase) ≠
      pathPlace home (j.target base outputBase) :=
  fun heq => hne (List.inj_on_of_nodup_map h.targets hi hj heq)

lemma Apart.singleton {home : Place} (h : Apart base outputBase home jobs) (hjob : job ∈ jobs) :
    Apart base outputBase home [job] := by
  have hfiles : filePlaces base outputBase home [job] ⊆ filePlaces base outputBase home jobs := by
    intro p hp
    obtain ⟨j, hj, hp⟩ := List.mem_flatMap.mp hp
    exact List.mem_flatMap.mpr ⟨j, List.mem_singleton.mp hj ▸ hjob, hp⟩
  have hdirectories :
      directoryPlaces base outputBase home [job] ⊆ directoryPlaces base outputBase home jobs := by
    intro p hp
    obtain ⟨j, hj, hp⟩ := List.mem_flatMap.mp hp
    exact List.mem_flatMap.mpr ⟨j, List.mem_singleton.mp hj ▸ hjob, hp⟩
  refine ⟨List.nodup_singleton _, fun j hj hp => ?_, fun i hi j hj => ?_, fun p hp hp' => ?_⟩
  · exact h.sources j (List.mem_singleton.mp hj ▸ hjob) (hfiles hp)
  · exact h.copies i (List.mem_singleton.mp hi ▸ hjob) j (List.mem_singleton.mp hj ▸ hjob)
  · exact h.directories p (hfiles hp) (hdirectories hp')

/-- **A file stays ready** while files that are kept apart from it are deciphered: behind the
directories that are made for it, it is read as before, and its plain form and its copy can be
written.

**Proof sketch.** The tree has directories and files only where the run may put them
(`Tree.Built.node_cases`). None of them is in the way of the file: what it needs to be a directory
is no file (`Tree.Grows.makeAll`), and what it needs to be no directory is none. -/
lemma Job.Ready.of_built (hready : job.Ready base outputBase t) (hjob : job ∈ jobs)
    (hapart : Apart base outputBase t.home jobs)
    (hu : Tree.Built t (directoryPlaces base outputBase t.home jobs)
      (filePlaces base outputBase t.home jobs) u) :
    (u.makeAll (job.directories base outputBase)).read job.path = .ok job.data ∧
      (u.makeAll (job.directories base outputBase)).Writable (job.target base outputBase) ∧
      (u.makeAll (job.directories base outputBase)).Writable job.spare := by
  have hmade := hu.makeAll fun _ => mem_directoryPlaces t.home hjob
  have hnotDirectory {p : Place} (hp : p ∈ filePlaces base outputBase t.home jobs)
      (ht : t.node? p ≠ some .directory) :
      (u.makeAll (job.directories base outputBase)).node? p ≠ some .directory :=
    hmade.not_directory ht (hapart.directories p hp)
  refine ⟨?_, ?_, ?_⟩
  · refine read_eq (hmade.grows.place hready.place_eq fun _ _ => ?_)
      (hmade.file_eq hready.node_eq (hapart.sources job hjob))
    exact (place_eq_ok_iff.mp hready.place_eq).2.2.2 ⟨_, hready.node_eq⟩
  · have hgrows := grows_makeAll t (job.directories base outputBase)
    have hfree : ∀ p data,
        (t.makeAll (job.directories base outputBase)).node? p = some .directory →
          u.node? p ≠ some (.file data) := by
      intro p data hdir hfile
      obtain heq | ⟨-, hnode, -⟩ | ⟨hne, -, hmem⟩ := hu.node_cases p
      · obtain ⟨data', hnode⟩ := hgrows.file (heq.symm.trans hfile)
        rw [hnode] at hdir
        cases hdir
      · rw [hnode] at hfile
        cases hfile
      · by_cases hplace : p ∈ (job.directories base outputBase).map (pathPlace t.home)
        · obtain ⟨path, hpath, rfl⟩ := List.mem_map.mp hplace
          exact hapart.directories _ hmem (mem_directoryPlaces t.home hjob hpath)
        · rw [node?_makeAll_of_notMem hplace] at hdir
          exact hne hdir
    refine hready.writable.grows (hu.grows.makeAll hfree) ?_
    rw [hgrows.home_eq]
    refine hnotDirectory (target_mem_filePlaces t.home hjob) fun ht => ?_
    have hwritable := hready.writable.notDirectory
    rw [hgrows.home_eq] at hwritable
    exact hwritable (hgrows.directory ht)
  · exact hready.spare.grows hmade.grows
      (hnotDirectory (spare_mem_filePlaces t.home hjob) hready.spare.notDirectory)

structure Listed (base outputBase : String) (t : Tree) (jobs : List Job) (job : Job)
    (b b' : Bench) : Prop where
  built : Tree.Built t (directoryPlaces base outputBase t.home jobs)
    (filePlaces base outputBase t.home jobs) b'.tree
  seed_eq : b'.seed = seedAfter b.seed job.data
  complaints_eq : b'.complaints =
    b.complaints ++ job.complaints (resultUnder job.path b.seed job.data)
  result : match resultUnder job.path b.seed job.data with
    | .ok plain => b'.succeeded = b.succeeded + 1 ∧
        b'.tree.node? (pathPlace t.home (job.target base outputBase)) = some (.file plain)
    | .error _ => b'.succeeded = b.succeeded
  others : ∀ other ∈ jobs, other ≠ job →
    b'.tree.node? (pathPlace t.home (other.target base outputBase)) =
      b.tree.node? (pathPlace t.home (other.target base outputBase))

lemma decryptListed_listed (hready : job.Ready base outputBase t) (hjob : job ∈ jobs)
    (hapart : Apart base outputBase t.home jobs)
    (hb : Tree.Built t (directoryPlaces base outputBase t.home jobs)
      (filePlaces base outputBase t.home jobs) b.tree) :
    ∃ b', (Work.decryptListed base job.path outputBase).run b = ((), b') ∧
      Listed base outputBase t jobs job b b' := by
  obtain ⟨hread, hwrite, hspare⟩ := hready.of_built hjob hapart hb
  have hmade := hb.makeAll fun _ => mem_directoryPlaces t.home hjob
  obtain ⟨r, b', hrun, hseed, hcomplaints, hresult⟩ := Work.decryptCounted_run
    (b := { b with tree := b.tree.makeAll (job.directories base outputBase) }) hread hwrite hspare
  rw [hmade.home_eq] at hresult
  have htarget := hwrite.notDirectory
  have hcopy := hspare.notDirectory
  rw [hmade.home_eq] at htarget hcopy
  -- no target of a file is a directory that is made for another one
  have hkept : ∀ other ∈ jobs,
      (b.tree.makeAll (job.directories base outputBase)).node?
        (pathPlace t.home (other.target base outputBase)) =
      b.tree.node? (pathPlace t.home (other.target base outputBase)) := by
    refine fun other hother => node?_makeAll_of_notMem fun hmem => ?_
    obtain ⟨path, hpath, heq⟩ := List.mem_map.mp hmem
    rw [hb.home_eq] at heq
    exact hapart.directories _ (target_mem_filePlaces t.home hother)
      (heq ▸ mem_directoryPlaces t.home hjob hpath)
  refine ⟨b', by rw [Work.decryptListed_eq_counted, hrun], ?_⟩
  cases hcase : resultUnder job.path b.seed job.data with
  | ok plain =>
    simp only [hcase] at hresult hcomplaints
    obtain ⟨hsucceeded, htree⟩ := hresult
    refine ⟨?_, hseed, by rw [hcase]; exact hcomplaints, ?_, fun other hother hne => ?_⟩
    · rw [htree]
      exact hmade.put (target_mem_filePlaces t.home hjob) htarget plain
    · rw [hcase, htree, node?_put htarget]
      exact ⟨hsucceeded, if_pos rfl⟩
    · rw [htree, node?_put htarget,
        if_neg (hapart.target_ne hother hjob hne), hkept other hother]
  | error complaint =>
    simp only [hcase] at hresult hcomplaints
    obtain ⟨hsucceeded, htree⟩ := hresult
    refine ⟨?_, hseed, by rw [hcase]; exact hcomplaints, ?_, fun other hother hne => ?_⟩
    · rw [htree]
      exact hmade.put (spare_mem_filePlaces t.home hjob) hcopy job.data
    · rw [hcase]
      exact hsucceeded
    · rw [htree, node?_put hcopy,
        if_neg (hapart.copies other hother job hjob), hkept other hother]

def carriedSeed (order : List Job) : Option UInt16 :=
  order.foldl (fun seed job => seedAfter seed job.data) none

lemma carriedSeed_singleton (job : Job) : carriedSeed [job] = seedAfter none job.data :=
  rfl

lemma carriedSeed_eq (order : List Job) :
    carriedSeed order = order.findSome? fun job => seedAfter none job.data := by
  have hknown (seed : UInt16) (order : List Job) :
      order.foldl (fun seed job => seedAfter seed job.data) (some seed) = some seed := by
    induction order with
    | nil => rfl
    | cons job order ih => rw [List.foldl_cons, seedAfter_some, ih]
  unfold carriedSeed
  induction order with
  | nil => rfl
  | cons job order ih =>
    rw [List.foldl_cons, List.findSome?_cons]
    cases hseed : seedAfter none job.data with
    | none => exact ih
    | some seed => exact hknown seed order

/-- **A whole run** over files that are kept apart: the tree stays as a run may leave it, the seed
is carried through, and what other files have written stays.

**Proof sketch.** Induction on the files, each of which takes one step (`decryptListed_listed`). -/
lemma benchAfter_built (hready : ∀ job ∈ jobs, job.Ready base outputBase t)
    (hapart : Apart base outputBase t.home jobs) {order : List Job} (horder : order ⊆ jobs)
    (hb : Tree.Built t (directoryPlaces base outputBase t.home jobs)
      (filePlaces base outputBase t.home jobs) b.tree) :
    Tree.Built t (directoryPlaces base outputBase t.home jobs)
        (filePlaces base outputBase t.home jobs)
        (benchAfter base outputBase (order.map Job.path) b).tree ∧
      (benchAfter base outputBase (order.map Job.path) b).seed =
        order.foldl (fun seed job => seedAfter seed job.data) b.seed ∧
      ∀ other ∈ jobs, other ∉ order →
        (benchAfter base outputBase (order.map Job.path) b).tree.node?
            (pathPlace t.home (other.target base outputBase)) =
          b.tree.node? (pathPlace t.home (other.target base outputBase)) := by
  induction order generalizing b with
  | nil => exact ⟨hb, rfl, fun _ _ _ => rfl⟩
  | cons job order ih =>
    have hjob : job ∈ jobs := horder List.mem_cons_self
    obtain ⟨b', hrun, hlisted⟩ := decryptListed_listed (hready job hjob) hjob hapart hb
    have hstep : benchAfter base outputBase ((job :: order).map Job.path) b =
        benchAfter base outputBase (order.map Job.path) b' := by
      rw [List.map_cons, benchAfter_cons, hrun]
    obtain ⟨hbuilt, hseed, hothers⟩ := ih (fun j hj => horder (List.mem_cons_of_mem _ hj))
      hlisted.built
    rw [hstep]
    refine ⟨hbuilt, ?_, fun other hother hmem => ?_⟩
    · rw [hseed, hlisted.seed_eq, List.foldl_cons]
    · rw [List.mem_cons, not_or] at hmem
      rw [hothers other hother hmem.2, hlisted.others other hother hmem.1]

/-! ## Reports -/

structure Report where
  /-- What stands, at the end, where the plain form of the file goes, if the file was counted as
  deciphered. -/
  written : Option Node
  complaints : Bytes

/-- What a run from a tree tells about a file that is deciphered between others. -/
def reportBetween (base outputBase : String) (t : Tree) (before : List Job) (job : Job)
    (after : List Job) : Report :=
  let b := benchAfter base outputBase (before.map Job.path) { tree := t }
  let b' := benchAfter base outputBase [job.path] b
  let last := benchAfter base outputBase (after.map Job.path) b'
  { written :=
      if b.succeeded < b'.succeeded then
        last.tree.node? (pathPlace t.home (job.target base outputBase))
      else none
    complaints := b'.complaints.drop b.complaints.length }

def Job.report (job : Job) (result : Except String Bytes) : Report :=
  { written := result.toOption.map Node.file, complaints := job.complaints result }

lemma Job.report_injective (job : Job) {x y : Except String Bytes}
    (h : job.report x = job.report y) : x = y := by
  obtain ⟨hwritten, hcomplaints⟩ := Report.mk.inj h
  cases x with
  | ok a =>
    cases y with
    | ok c => simpa [Except.toOption] using hwritten
    | error d => simp [Except.toOption] at hwritten
  | error c =>
    cases y with
    | ok d => simp [Except.toOption] at hwritten
    | error d =>
      simp only [Job.complaints, List.append_assoc, List.append_cancel_right_eq] at hcomplaints
      rw [Bytes.ofString_injective hcomplaints]

/-- **What a run tells about a file** is its result under the seed that the files before it have
left.

**Proof sketch.** The files before it leave a seed and nothing in its way (`benchAfter_built`); its
own step gives the result (`decryptListed_listed`); and what it has written stays while the files
behind it are deciphered. -/
lemma reportBetween_eq (hready : ∀ job ∈ jobs, job.Ready base outputBase t)
    (hapart : Apart base outputBase t.home jobs) {before after : List Job}
    (hbefore : before ⊆ jobs) (hjob : job ∈ jobs) (hafter : after ⊆ jobs) (hnot : job ∉ after) :
    reportBetween base outputBase t before job after =
      job.report (resultUnder job.path (carriedSeed before) job.data) := by
  obtain ⟨hb, hseed, -⟩ := benchAfter_built (b := { tree := t }) hready hapart hbefore
    (.refl t _ _)
  obtain ⟨b', hrun, hlisted⟩ := decryptListed_listed (hready job hjob) hjob hapart hb
  obtain ⟨-, -, hlast⟩ := benchAfter_built hready hapart hafter hlisted.built
  have hstep : benchAfter base outputBase [job.path]
      (benchAfter base outputBase (before.map Job.path) { tree := t }) = b' := by
    rw [benchAfter_cons, hrun]
    rfl
  have hcomplaints := hlisted.complaints_eq
  have hresult := hlisted.result
  simp only [reportBetween, hstep, Job.report]
  change _ = carriedSeed before at hseed
  rw [hseed] at hcomplaints hresult
  cases hcase : resultUnder job.path (carriedSeed before) job.data with
  | ok plain =>
    simp only [hcase] at hresult
    rw [if_pos (by omega), hlast job hjob hnot, hresult.2, hcomplaints, hcase, List.drop_left]
    rfl
  | error complaint =>
    simp only [hcase] at hresult
    rw [if_neg (by omega), hcomplaints, hcase, List.drop_left]
    rfl

/-! ## Directories -/

/-- **Deciphering a directory** is deciphering some files one after the other.

**Proof sketch.** Induction on the levels and on the names in a directory. -/
lemma decryptBelow_run (base outputBase : String) (fuel : Nat) (dir : String) (b : Bench) :
    ∃ paths, (Work.decryptBelow base outputBase fuel dir).run b =
      ((), benchAfter base outputBase paths b) := by
  induction fuel generalizing dir b with
  | zero => exact ⟨[], rfl⟩
  | succ fuel ih =>
    rw [Work.decryptBelow, Work.get_bind_run]
    cases b.tree.place dir with
    | error c => exact ⟨[], rfl⟩
    | ok place =>
      dsimp only
      rw [Work.get_bind_run]
      induction b.tree.children place generalizing b with
      | nil => exact ⟨[], rfl⟩
      | cons name names ihnames =>
        have hrest (paths : List String) {w : Work Unit}
            (h : ∃ paths', w.run (benchAfter base outputBase paths b) =
              ((), benchAfter base outputBase paths' (benchAfter base outputBase paths b))) :
            ∃ paths', w.run (benchAfter base outputBase paths b) =
              ((), benchAfter base outputBase paths' b) := by
          obtain ⟨paths', hrun⟩ := h
          exact ⟨paths ++ paths', by rw [hrun, benchAfter_append]⟩
        rw [List.forIn_cons, bind_assoc, bind_assoc, Work.get_bind_run]
        split
        · obtain ⟨paths, hrun⟩ := ih (dir ++ "/" ++ name) b
          rw [bind_assoc, Work.run_bind_of hrun]
          exact hrest paths (ihnames _)
        · split
          · rw [bind_assoc]
            exact hrest [dir ++ "/" ++ name] (ihnames _)
          · exact hrest [] (ihnames _)

/-! ## Two files with different seeds -/

/-- A file with one function, whose code is two words and which has nothing else. -/
def leafFile (first second : Bytes) : Bytes :=
  [0x1B, 0x4C, 0x75, 0x61, 0x54, 0x30, 0x01, 0x00, 0x19, 0x93, 0x0D, 0x0A, 0x1A, 0x0A, 4, 8, 8,
    0x78, 0x56, 0, 0, 0, 0, 0, 0, 0, 0, 0, 0, 0, 0x28, 0x77, 0x40, 0] ++
  [0x80, 0x80, 0x80, 0, 1, 2, 0x82] ++ first ++ second ++ List.replicate 7 0x80

def leafSession (first second : Bytes) (seed : Option UInt16) (offset : Nat) : Session :=
  { data := leafFile first second, offset := offset, seed := seed }

def leafRepaired (first second : Bytes) (seed : Option UInt16) : Session :=
  let s := ((Walk.repairAt 41 2 0).run (leafSession first second seed 41)).2
  let s := ((Walk.fitStack 39 41 2).run s).2
  { s with offset := s.offset + 8 }

lemma functionsUnder_leafFile {a b c d e f g h i j k l : UInt8} {seed seed' : Option UInt16}
    (hdecipher : (Walk.decipherWith 41 2 0 0).run (leafSession [a, b, c, d] [e, f, g, h] seed 41) =
      (true, leafSession [a, b, c, d] [i, j, k, l] seed' 41)) :
    functionsUnder seed (leafFile [a, b, c, d] [e, f, g, h]) =
      let s := ((Walk.sections true 0 (Walk.functionUpTo true 50 1)).run
        (leafRepaired [a, b, c, d] [i, j, k, l] seed')).2
      (Varint.overwrite s.data 6 [0], s.seed) := by
  have hnumber : Walk.number.run (leafSession [a, b, c, d] [e, f, g, h] seed 40) =
      (some 2, leafSession [a, b, c, d] [e, f, g, h] seed 41) := rfl
  have hsection : (Walk.codeSection true 0 0 39).run
      (leafSession [a, b, c, d] [e, f, g, h] seed 40) =
      (true, leafRepaired [a, b, c, d] [i, j, k, l] seed') :=
    Walk.codeSection_run hnumber (by decide) (Walk.code_run (by decide) hdecipher) rfl
  have hsource : (Walk.source true 0).run (leafSession [a, b, c, d] [e, f, g, h] seed 34) =
      (true, leafSession [a, b, c, d] [e, f, g, h] seed 35) := rfl
  have hfunction : (Walk.function true 0).run (leafSession [a, b, c, d] [e, f, g, h] seed 34) =
      (Walk.sections true 0 (Walk.functionUpTo true 50 1)).run
        (leafRepaired [a, b, c, d] [i, j, k, l] seed') :=
    Walk.functionWith_run hsource rfl rfl (Nat.le_of_ble_eq_true rfl) hsection
  have hflag : (leafFile [a, b, c, d] [e, f, g, h]).getD 6 0 = 1 := rfl
  have hoffset : functionOffset (leafFile [a, b, c, d] [e, f, g, h]) = 33 := rfl
  rw [functionsUnder, hflag, if_neg (by decide), hoffset]
  exact congrArg (fun r : Unit × Session => (Varint.overwrite r.2.data 6 [0], r.2.seed)) hfunction

lemma decipherWith_leafSession_known {a b c d e f g h i j k l : UInt8} {seed : UInt16}
    (hplain : decipherCode 0 seed [a, b, c, d, e, f, g, h] = [a, b, c, d, i, j, k, l]) :
    (Walk.decipherWith 41 2 0 0).run (leafSession [a, b, c, d] [e, f, g, h] (some seed) 41) =
      (true, leafSession [a, b, c, d] [i, j, k, l] (some seed) 41) := by
  have hwindow :
      Bytes.window (leafSession [a, b, c, d] [e, f, g, h] (some seed) 41).data 41 (4 * 2) =
        [a, b, c, d, e, f, g, h] := rfl
  rw [Walk.decipherWith_known rfl, hwindow, hplain]
  rfl

lemma decipherWith_leafSession_found {a b c d e f g h i j k l : UInt8} {seed : UInt16}
    (hmark : seed ≠ 0xFFFF) (hfound : findSeed 0 [a, b, c, d, e, f, g, h] = some seed)
    (hplain : decipherCode 0 seed [a, b, c, d, e, f, g, h] = [a, b, c, d, i, j, k, l]) :
    (Walk.decipherWith 41 2 0 0).run (leafSession [a, b, c, d] [e, f, g, h] none 41) =
      (true, leafSession [a, b, c, d] [i, j, k, l] (some seed) 41) := by
  have hwindow : Bytes.window (leafSession [a, b, c, d] [e, f, g, h] none 41).data 41 (4 * 2) =
      [a, b, c, d, e, f, g, h] := rfl
  rw [Walk.decipherWith_found rfl (by decide) hmark (by rw [hwindow, hfound]), hwindow, hplain]
  rfl

lemma findSeed_eq_one {line : UInt32} {code : Bytes}
    (hzero : looksLikeCode (sample line code 0) = false)
    (hone : looksLikeCode (sample line code 1) = true) : findSeed line code = some 1 := by
  have hseed : UInt16.ofNat (0xFFFF - 65535) = 0 ∧ UInt16.ofNat (0xFFFF - 65534) = 1 := by decide
  rw [findSeed, findSeedFrom, findSeedFrom]
  simp only [hseed.1, hseed.2, hzero, hone, Bool.false_eq_true, ↓reduceIte]

def fileUnderOne : Job := ⟨"in/a.luac", leafFile [0x7F, 0, 0, 0] [0xD4, 0x9F, 0x42, 0xB9]⟩

def fileUnderZero : Job := ⟨"in/b.luac", leafFile [0x51, 0, 0, 0] [0x75, 0x4C, 0xF5, 0xD2]⟩

lemma seedAfter_fileUnderOne : seedAfter none fileUnderOne.data = some 1 := by
  have hdata : fileUnderOne.data = leafFile [0x7F, 0, 0, 0] [0xD4, 0x9F, 0x42, 0xB9] := rfl
  have hzero : looksLikeCode (sample 0 [0x7F, 0, 0, 0, 0xD4, 0x9F, 0x42, 0xB9] 0) = false := by
    rw [sample, decipherCode_eq]
    decide +kernel
  have hplain : decipherCode 0 1 [0x7F, 0, 0, 0, 0xD4, 0x9F, 0x42, 0xB9] =
      [0x7F, 0, 0, 0, 0x47, 0, 0, 0] := by
    rw [decipherCode_eq]
    decide +kernel
  have hone : looksLikeCode (sample 0 [0x7F, 0, 0, 0, 0xD4, 0x9F, 0x42, 0xB9] 1) = true := by
    rw [sample, List.take_of_length_le (by decide), hplain]
    decide
  have hfault : headerFault? fileUnderOne.data = none := by decide
  rw [seedAfter, hfault, hdata, functionsUnder_leafFile
    (decipherWith_leafSession_found (by decide) (findSeed_eq_one hzero hone) hplain)]
  decide

lemma resultUnder_fileUnderZero_ne :
    resultUnder fileUnderZero.path (some 1) fileUnderZero.data ≠
      resultUnder fileUnderZero.path none fileUnderZero.data := by
  have hdata : fileUnderZero.data = leafFile [0x51, 0, 0, 0] [0x75, 0x4C, 0xF5, 0xD2] := rfl
  have hzero : decipherCode 0 0 [0x51, 0, 0, 0, 0x75, 0x4C, 0xF5, 0xD2] =
      [0x51, 0, 0, 0, 0x47, 0, 0, 0] := by
    rw [decipherCode_eq]
    decide +kernel
  have hone : decipherCode 0 1 [0x51, 0, 0, 0, 0x75, 0x4C, 0xF5, 0xD2] =
      [0x51, 0, 0, 0, 0xE6, 0xD3, 0xB7, 0x6B] := by
    rw [decipherCode_eq]
    decide +kernel
  have hfound : findSeed 0 [0x51, 0, 0, 0, 0x75, 0x4C, 0xF5, 0xD2] = some 0 := by
    have hlooks : looksLikeCode (sample 0 [0x51, 0, 0, 0, 0x75, 0x4C, 0xF5, 0xD2] 0) = true := by
      rw [sample, List.take_of_length_le (by decide), hzero]
      decide
    have hseed : UInt16.ofNat (0xFFFF - 65535) = 0 := by decide
    rw [findSeed, findSeedFrom]
    simp only [hseed, hlooks, ↓reduceIte]
  have hfault : headerFault? fileUnderZero.data = none := by decide
  rw [resultUnder, resultUnder, hfault, hdata,
    functionsUnder_leafFile (decipherWith_leafSession_known hone),
    functionsUnder_leafFile (decipherWith_leafSession_found (by decide) hfound hzero)]
  decide +kernel

def treeOf (jobs : List Job) : Tree :=
  { entries := [⟨["tmp", "work", "tmp"], .directory, 0⟩, ⟨["tmp", "work", "in"], .directory, 0⟩] ++
      jobs.map fun job => ⟨pathPlace ["tmp", "work"] job.path, .file job.data, 0⟩ }

lemma twoFiles_ready : ∀ job ∈ [fileUnderOne, fileUnderZero],
    job.Ready "in" "out" (treeOf [fileUnderOne, fileUnderZero]) ∧
      job.Ready "in" "out" (treeOf [job]) := by
  with_unfolding_all decide

lemma twoFiles_apart : Apart "in" "out" ["tmp", "work"] [fileUnderOne, fileUnderZero] := by
  have hpaths : ([fileUnderOne, fileUnderZero].map fun job =>
      pathPlace ["tmp", "work"] job.path) =
      [["tmp", "work", "in", "a.luac"], ["tmp", "work", "in", "b.luac"]] := by
    with_unfolding_all rfl
  have htargets : ([fileUnderOne, fileUnderZero].map fun job =>
      pathPlace ["tmp", "work"] (job.target "in" "out")) =
      [["tmp", "work", "out", "a.luac"], ["tmp", "work", "out", "b.luac"]] := by
    with_unfolding_all rfl
  have hspares : ([fileUnderOne, fileUnderZero].map fun job =>
      pathPlace ["tmp", "work"] job.spare) =
      [["tmp", "work", "tmp", "a.luac"], ["tmp", "work", "tmp", "b.luac"]] := by
    with_unfolding_all rfl
  have hdirectories : directoryPlaces "in" "out" ["tmp", "work"] [fileUnderOne, fileUnderZero] =
      [["tmp", "work", "out"], ["tmp", "work", "out"]] := by
    with_unfolding_all rfl
  simp only [List.map_cons, List.map_nil, List.cons.injEq] at hpaths htargets hspares
  rw [apart_iff, hdirectories]
  simp [filePlaces, hpaths, htargets, hspares]

/-! ## Any order -/

end Salvage.Chunk
