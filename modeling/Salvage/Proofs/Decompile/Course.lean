import Mathlib
import Salvage.Proofs.Decompile.Task

/-!
# Courses in any order

The scripts below a directory are decompiled one by one, or by workers that finish in some order. Either
way each script is a chore, so that both courses count and leave the same in every order exactly if the
chores do not hinder each other.
-/

namespace Salvage.Decompile

open Run

variable {base output : Path} {d : Option Decompiler} {home : Place} {σ : Nodes} {w : Workspace}

/-! ## Tasks -/

structure Task.Ready (base output : Path) (task : Task) : Prop where
  target_eq : targetOf base task.input output = .ok task.output
  proper : task.output.Proper
  named : task.output.parts ≠ []

lemma exists_tasksOf {files : List Path}
    (h : ∀ p ∈ files, ∃ q, targetOf base p output = .ok q ∧ q.Proper ∧ q.parts ≠ []) :
    ∃ tasks, tasksOf base output files = .ok tasks ∧ tasks.map (·.input) = files ∧
      ∀ task ∈ tasks, task.Ready base output := by
  induction files with
  | nil => exact ⟨[], rfl, rfl, fun task htask => nomatch htask⟩
  | cons p files ih =>
    obtain ⟨q, hq, hproper, hnamed⟩ := h p List.mem_cons_self
    obtain ⟨tasks, htasks, hfiles, hready⟩ := ih fun p hp => h p (List.mem_cons_of_mem _ hp)
    refine ⟨⟨p, q⟩ :: tasks, ?_, by rw [List.map_cons, hfiles], fun task htask => ?_⟩
    · rw [tasksOf] at htasks ⊢
      rw [List.mapM_cons, hq, htasks]
      rfl
    · rcases List.mem_cons.mp htask with rfl | htask
      · exact ⟨hq, hproper, hnamed⟩
      · exact hready task htask

/-! ## Counting -/

lemma Counts.count_spec (c : Counts) (name : String) (failure : Option Failure) :
    (c.count name failure).success = c.success + (if failure.isNone then 1 else 0) ∧
      (c.count name failure).total = c.total + 1 := by
  cases failure with
  | none => exact ⟨rfl, Nat.add_right_comm _ _ _⟩
  | some f =>
    refine ⟨rfl, ?_⟩
    rw [total, failed, count, List.length_append]
    rfl

variable {tasks : List Task}

lemma oneByOne_run (hready : ∀ task ∈ tasks, task.Ready base output) (i : Nat)
    (c : Counts) (hw : Stands d home σ w) :
    ∃ c' v, (oneByOne base output i (tasks.map (·.input)) c).run w = .ok c' v ∧
      Stands d home (performAll σ (tasks.map (·.chore d home))) v ∧
      c'.success = c.success + successes σ (tasks.map (·.chore d home)) ∧
      c'.total = c.total + tasks.length := by
  induction tasks generalizing i c σ w with
  | nil => exact ⟨c, w, rfl, hw, rfl, rfl⟩
  | cons task tasks ih =>
    obtain ⟨htarget, hproper, hnamed⟩ := hready task List.mem_cons_self
    obtain ⟨failure, u, hrun, hu, hfailure⟩ := script_run hproper hnamed (i + 1) true hw
    obtain ⟨c', v, hrest, hv, hsuccess, htotal⟩ :=
      ih (fun task htask => hready task (List.mem_cons_of_mem _ htask)) (i + 1)
        (c.count task.input.name failure) hu
    obtain ⟨hone, hall⟩ := c.count_spec task.input.name failure
    have hof : (Job.ofExcept id (targetOf base task.input output)).run w = .ok task.output w := by
      rw [htarget]
      rfl
    refine ⟨c', v, ?_, hv, ?_, ?_⟩
    · rw [List.map_cons, oneByOne, bind_ok hof, bind_ok hrun]
      exact hrest
    · rw [hsuccess, hone, hfailure, List.map_cons, successes, Nat.add_assoc]
    · rw [htotal, hall, List.length_cons]
      omega

lemma runAll_run (hready : ∀ task ∈ tasks, task.Ready base output) (hw : Stands d home σ w) :
    ∃ results v, (runAll tasks).run w = .ok results v ∧
      Stands d home (performAll σ (tasks.map (·.chore d home))) v ∧
      results.countP (·.2.isNone) = successes σ (tasks.map (·.chore d home)) ∧
      results.length = tasks.length := by
  induction tasks generalizing σ w with
  | nil => exact ⟨[], w, rfl, hw, rfl, rfl⟩
  | cons task tasks ih =>
    obtain ⟨-, hproper, hnamed⟩ := hready task List.mem_cons_self
    obtain ⟨failure, u, hrun, hu, hfailure⟩ := script_run hproper hnamed 0 false hw
    obtain ⟨results, v, hrest, hv, hsuccess, hlength⟩ :=
      ih (fun task htask => hready task (List.mem_cons_of_mem _ htask)) hu
    refine ⟨(task, failure) :: results, v, ?_, hv, ?_, by rw [List.length_cons, hlength]; rfl⟩
    · have htask : task.run.run w = .ok failure u := hrun
      rw [runAll, bind_ok htask, bind_ok hrest]
      rfl
    · rw [List.countP_cons, hsuccess, hfailure, List.map_cons, successes, Nat.add_comm]

lemma countAll_run (n i : Nat) (results : List (Task × Option Failure)) (c : Counts)
    (hw : Stands d home σ w) :
    ∃ c' v, (countAll n i results c).run w = .ok c' v ∧ Stands d home σ v ∧
      c'.success = c.success + results.countP (·.2.isNone) ∧ c'.total = c.total + results.length := by
  induction results generalizing i c w with
  | nil => exact ⟨c, w, rfl, hw, rfl, rfl⟩
  | cons result results ih =>
    obtain ⟨task, failure⟩ := result
    obtain ⟨u, hline, hu⟩ := hw.words (.print ("[" ++ Decimal.nat (i + 1) ++ "/" ++
      Decimal.nat n ++ "] " ++ (if failure.isNone then "✓" else "✗") ++ " " ++ task.input.name))
    obtain ⟨c', v, hrest, hv, hsuccess, htotal⟩ :=
      ih (i + 1) (c.count task.input.name failure) hu
    obtain ⟨hone, hall⟩ := c.count_spec task.input.name failure
    refine ⟨c', v, ?_, hv, ?_, ?_⟩
    · rw [countAll, bind_ok hline]
      exact hrest
    · rw [hsuccess, hone, List.countP_cons, Nat.add_assoc]
      exact congrArg (c.success + ·) (Nat.add_comm _ _)
    · rw [htotal, hall, List.length_cons]
      omega

/-! ## Courses -/

lemma speaks_listFailures (c : Counts) : Job.Speaks (listFailures c) :=
  .ite .silent (.printAll _)

lemma found_run (base : Path) (hw : Stands d home σ w) :
    ∃ v, (found base).run w = .ok (collect w.tree base) v ∧ Stands d home σ v := by
  have htree : Job.tree.run w = .ok w.tree w := rfl
  rw [found, bind_ok htree]
  by_cases hempty : (collect w.tree base).isEmpty
  · obtain ⟨v, hsaid, hv⟩ := hw.words (.print "No .luac or .lua.bytes files found")
    refine ⟨v, ?_, hv⟩
    rw [if_pos hempty, bind_ok hsaid]
    rfl
  · exact ⟨w, by rw [if_neg hempty]; rfl, hw⟩

def inParallelBy (finish : List Task → List Task) (input output : Path) (workers : Int) :
    Job Counts := do
  let files ← found input
  if files.isEmpty then return {}
  Job.print ("Found " ++ Decimal.nat files.length ++ " files to process")
  Job.print ("Using " ++ Decimal.int workers ++ " parallel workers")
  Job.print "Processing...\n"
  let tasks ← Job.ofExcept id (tasksOf input output files)
  if workers ≤ 0 then throw .noWorkers
  let c ← countAll files.length 0 (← runAll (finish tasks)) {}
  listFailures c
  return c

lemma inParallelBy_id (input output : Path) (workers : Int) :
    inParallelBy id input output workers = inParallel input output workers :=
  rfl

/-- **The scripts below a directory, one by one**: what is counted, and what is left. -/
lemma serially_run (hready : ∀ task ∈ tasks, task.Ready base output)
    (hfiles : tasks.map (·.input) = collect w.tree base) (hw : Stands d home σ w) :
    ∃ c v, (serially base output).run w = .ok c v ∧
      Stands d home (performAll σ (tasks.map (·.chore d home))) v ∧
      c.success = successes σ (tasks.map (·.chore d home)) ∧ c.total = tasks.length := by
  obtain ⟨u, hfound, hu⟩ := found_run base hw
  rw [serially, bind_ok hfound, ← hfiles]
  by_cases hempty : tasks = []
  · subst hempty
    exact ⟨{}, u, rfl, hu, rfl, rfl⟩
  · obtain ⟨u₁, hcount, hu₁⟩ := hu.words (.print ("Found " ++
      Decimal.nat (tasks.map (·.input)).length ++ " files to process\n"))
    obtain ⟨c, u₂, hrun, hu₂, hsuccess, htotal⟩ := oneByOne_run hready 0 {} hu₁
    obtain ⟨v, hlist, hv⟩ := hu₂.words (speaks_listFailures c)
    refine ⟨c, v, ?_, hv, hsuccess.trans (Nat.zero_add _), htotal.trans (Nat.zero_add _)⟩
    rw [if_neg (by simpa using hempty), bind_ok hcount, bind_ok hrun, bind_ok hlist]
    rfl

/-- **The scripts below a directory, by workers**: what is counted, and what is left. -/
lemma inParallelBy_run (hready : ∀ task ∈ tasks, task.Ready base output)
    (htasks : tasksOf base output (collect w.tree base) = .ok tasks)
    (hfiles : tasks.map (·.input) = collect w.tree base) {finish : List Task → List Task}
    (hfinish : (finish tasks).Perm tasks) {workers : Int} (hworkers : 0 < workers)
    (hw : Stands d home σ w) :
    ∃ c v, (inParallelBy finish base output workers).run w = .ok c v ∧
      Stands d home (performAll σ ((finish tasks).map (·.chore d home))) v ∧
      c.success = successes σ ((finish tasks).map (·.chore d home)) ∧ c.total = tasks.length := by
  obtain ⟨u, hfound, hu⟩ := found_run base hw
  rw [inParallelBy, bind_ok hfound, ← hfiles]
  rw [← hfiles] at htasks
  by_cases hempty : tasks = []
  · subst hempty
    rw [List.perm_nil.mp hfinish]
    exact ⟨{}, u, rfl, hu, rfl, rfl⟩
  · obtain ⟨u₁, hcount, hu₁⟩ := hu.words (.print ("Found " ++
      Decimal.nat (tasks.map (·.input)).length ++ " files to process"))
    obtain ⟨u₂, husing, hu₂⟩ := hu₁.words (.print ("Using " ++ Decimal.int workers ++ " parallel workers"))
    obtain ⟨u₃, hstart, hu₃⟩ := hu₂.words (.print "Processing...\n")
    have hof : (Job.ofExcept id (tasksOf base output (tasks.map (·.input)))).run u₃ = .ok tasks u₃ := by
      rw [htasks]
      rfl
    obtain ⟨results, u₄, hrun, hu₄, hsuccess, hlength⟩ :=
      runAll_run (fun task htask => hready task (hfinish.mem_iff.mp htask)) hu₃
    obtain ⟨c, u₅, hcounted, hu₅, hsuccess', htotal⟩ :=
      countAll_run (tasks.map (·.input)).length 0 results {} hu₄
    obtain ⟨v, hlist, hv⟩ := hu₅.words (speaks_listFailures c)
    refine ⟨c, v, ?_, hv, ?_, ?_⟩
    · rw [if_neg (by simpa using hempty), bind_ok hcount, bind_ok husing, bind_ok hstart,
        bind_ok hof, if_neg (by omega), bind_ok hrun, bind_ok hcounted, bind_ok hlist]
      rfl
    · rw [hsuccess', hsuccess]
      exact Nat.zero_add _
    · rw [htotal, hlength, hfinish.length_eq]
      exact Nat.zero_add _

/-! ## When the order does not matter -/

lemma exists_perm_of_map_perm {f : Task → Chore} {l : List Chore}
    (hl : l.Perm (tasks.map f)) : ∃ order : List Task, order.Perm tasks ∧ order.map f = l := by
  have hrel : List.Forall₂ (fun c task => c = f task) (tasks.map f) tasks := by
    rw [List.forall₂_map_left_iff]
    exact List.forall₂_same.mpr fun _ _ => rfl
  obtain ⟨order, hmap, hperm⟩ := List.perm_comp_forall₂ hl hrel
  have heq : List.Forall₂ (· = ·) l (order.map f) := List.forall₂_map_right_iff.mpr hmap
  rw [List.forall₂_eq_eq_eq] at heq
  exact ⟨order, hperm, heq.symm⟩

def twoScripts (other : String) : Workspace where
  tree :=
    { entries :=
        [⟨["tmp", "work", "in"], .directory, 0⟩, ⟨["tmp", "work", "in", "a.luac"], .file [1], 0⟩,
          ⟨["tmp", "work", "in", other], .file [2], 0⟩] }
  decompiler := some { runs :=
    [("a.luac", { output := Utf8.encode "local x = 1" }), (other, { output := Utf8.encode "local x = 2" })] }

lemma tasks_of_twoScripts {other kept : String}
    (hfiles : collect (twoScripts other).tree (.ofString "in") =
      [⟨"", ["in", "a.luac"]⟩, ⟨"", ["in", other]⟩])
    (htargets : (tasksOf (.ofString "in") (.ofString "out")
      [⟨"", ["in", "a.luac"]⟩, ⟨"", ["in", other]⟩]).toOption =
        some [⟨⟨"", ["in", "a.luac"]⟩, ⟨"", ["out", "a.lua"]⟩⟩,
          ⟨⟨"", ["in", other]⟩, ⟨"", ["out", kept]⟩⟩]) :
    tasksOf (.ofString "in") (.ofString "out") (collect (twoScripts other).tree (.ofString "in")) =
      .ok [⟨⟨"", ["in", "a.luac"]⟩, ⟨"", ["out", "a.lua"]⟩⟩, ⟨⟨"", ["in", other]⟩, ⟨"", ["out", kept]⟩⟩] := by
  rw [hfiles]
  cases h : tasksOf (.ofString "in") (.ofString "out") [⟨"", ["in", "a.luac"]⟩, ⟨"", ["in", other]⟩] with
  | error f =>
    rw [h] at htargets
    cases htargets
  | ok tasks =>
    rw [h] at htargets
    rw [Option.some.inj htargets]

end Salvage.Decompile
