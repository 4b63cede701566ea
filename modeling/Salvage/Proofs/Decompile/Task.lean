import Salvage.Decompile.Course
import Salvage.Proofs.Decompile.Order
import Salvage.Proofs.Job
import Salvage.Proofs.Workspace.Stations

/-!
# Scripts as chores

Every compiled script below a directory has a target, in a directory or as a file with a name of its
own. Decompiling the script is a chore: the directories of the target are made and the text is written,
and the script counts as decompiled exactly if the chore succeeds.
-/

namespace Salvage

/-! ## Listings -/

namespace Tree

def WellNamed (t : Tree) : Prop :=
  ∀ e ∈ t.entries, ∀ n ∈ e.place, n ≠ "" ∧ n ≠ "." ∧ '/' ∉ n.toList

instance (t : Tree) : Decidable t.WellNamed :=
  inferInstanceAs (Decidable (∀ e ∈ t.entries, ∀ n ∈ e.place, n ≠ "" ∧ n ≠ "." ∧ '/' ∉ n.toList))

variable {t : Tree}

lemma WellNamed.children (ht : t.WellNamed) {p : Place} {n : String} (hn : n ∈ t.children p) :
    n ≠ "" ∧ n ≠ "." ∧ '/' ∉ n.toList := by
  obtain ⟨e, he, hlast⟩ := List.mem_filterMap.mp (List.mem_mergeSort.mp hn)
  split_ifs at hlast
  exact ht e he n (List.mem_of_getLast? hlast)

lemma WellNamed.matchingBelowFrom (ht : t.WellNamed) {pattern : String} {fuel : Nat} {dir p : Path}
    (hp : p ∈ t.matchingBelowFrom pattern fuel dir) :
    ∃ names, names ≠ [] ∧ p = { dir with parts := dir.parts ++ names } ∧
      ∀ n ∈ names, n ≠ "" ∧ n ≠ "." ∧ '/' ∉ n.toList := by
  induction fuel generalizing dir with
  | zero => cases hp
  | succ fuel ih =>
    rw [Tree.matchingBelowFrom] at hp
    split at hp
    · cases hp
    · rename_i place hplace
      split at hp
      · rename_i hnode
        rcases List.mem_append.mp hp with hp | hp
        · simp only [matching, hplace, hnode] at hp
          obtain ⟨n, hn, rfl⟩ := List.mem_map.mp hp
          exact ⟨[n], List.cons_ne_nil _ _, rfl, fun m hm =>
            List.mem_singleton.mp hm ▸ ht.children (List.mem_of_mem_filter hn)⟩
        · obtain ⟨d, hd, hp⟩ := List.mem_flatMap.mp hp
          obtain ⟨names, -, rfl, hnames⟩ := ih hp
          have hchild : d ∈ t.children place := by
            rw [Tree.split, List.partition_eq_filter_filter] at hd
            exact List.mem_of_mem_filter hd
          refine ⟨d :: names, List.cons_ne_nil _ _, ?_, fun m hm => ?_⟩
          · simp only [List.append_assoc, List.singleton_append]
          · rcases List.mem_cons.mp hm with rfl | hm
            · exact ht.children hchild
            · exact hnames m hm
      · cases hp

end Tree

namespace Decompile

variable {base output p : Path} {t : Tree}

lemma exists_of_mem_collect (ht : t.WellNamed) (hp : p ∈ collect t base) :
    ∃ names, names ≠ [] ∧ p = { base with parts := base.parts ++ names } ∧
      ∀ n ∈ names, n ≠ "" ∧ n ≠ "." ∧ '/' ∉ n.toList := by
  rw [collect, List.mem_mergeSort] at hp
  rcases List.mem_append.mp hp with hp | hp
  · exact ht.matchingBelowFrom hp
  · exact ht.matchingBelowFrom hp

/-! ## Targets -/

lemma withExtension_eq_ok (hname : p.name ≠ "") (ext : String) :
    withExtension p ext = .ok (p.withName (p.stem ++ ext)) := by
  rw [withExtension, Path.withExtension?, if_neg (by simpa using hname)]

def luaExtension (p : Path) : Except Fault Path :=
  if p.extension = ".lua" then .ok p else withExtension p ".lua"

lemma luaExtension_eq_ok (hname : p.name ≠ "") :
    luaExtension p = .ok (p.withName (p.stem ++ ".lua")) := by
  unfold luaExtension
  split_ifs with hext
  · have hparts : p.parts ≠ [] := by
      intro h
      rw [Path.name, h] at hname
      exact hname rfl
    have hkeep : p.parts.dropLast ++ [p.name] = p.parts := (Path.parts_eq hparts).symm
    rw [← hext, Path.stem_append_extension, Path.withName, hkeep]
  · exact withExtension_eq_ok hname ".lua"

lemma stem_ne_of_extension (hext : p.extension ≠ "") : p.stem ≠ "" := by
  unfold Path.extension Path.dotPlace at hext
  unfold Path.stem Path.dotPlace
  dsimp only at hext ⊢
  split_ifs at hext ⊢ with hdot
  · exact absurd rfl hext
  · rw [not_or, not_or] at hdot
    intro hstem
    have hempty := congrArg String.toList hstem
    rw [String.toList_ofList, String.toList_empty, List.take_eq_nil_iff] at hempty
    rcases hempty with hzero | hnil
    · exact hdot.2.1 hzero
    · exact hdot.1 (by rw [hnil]; rfl)

lemma targetOf_eq (base output : Path) (names : List String) :
    targetOf base { base with parts := base.parts ++ names } output =
      if ({ output with parts := output.parts ++ names } : Path).extension = ".bytes" then
        (withExtension { output with parts := output.parts ++ names } "").bind luaExtension
      else luaExtension { output with parts := output.parts ++ names } := by
  have hrelative : Path.relativeTo? { base with parts := base.parts ++ names } base =
      some { parts := names } := by
    simp [Path.relativeTo?]
  rw [targetOf, hrelative]
  rfl

lemma exists_targetOf (hout : output.Proper) (ht : t.WellNamed) (hp : p ∈ collect t base) :
    ∃ q, targetOf base p output = .ok q ∧ q.Proper ∧ q.parts ≠ [] := by
  obtain ⟨names, hne, rfl, hnames⟩ := exists_of_mem_collect ht hp
  let target : Path := { output with parts := output.parts ++ names }
  have hproper : target.Proper := ⟨hout.anchor_cases, fun n hn =>
    (List.mem_append.mp hn).elim (hout.names n) (hnames n)⟩
  have hparts : target.parts ≠ [] := List.append_ne_nil_of_right_ne_nil _ hne
  have hname : target.name ≠ "" := by
    have hmem : target.name ∈ target.parts := by
      rw [Path.parts_eq hparts]
      exact List.mem_append_right _ List.mem_cons_self
    exact (hproper.names _ hmem).1
  have hslash : '/' ∉ target.name.toList := hproper.slash_notMem_name
  rw [targetOf_eq]
  by_cases hext : target.extension = ".bytes"
  · -- the stem is the last name then
    have hstem : target.stem ≠ "" := stem_ne_of_extension (by rw [hext]; decide)
    let inner : Path := target.withName (target.stem ++ "")
    have hparent : inner.parent.Proper := by
      rw [Path.parent_withName]
      exact hproper.parent
    have hinner : inner.name = target.stem := by
      rw [Path.name_withName, String.append_empty]
    rw [if_pos hext, withExtension_eq_ok hname, Except.bind,
      luaExtension_eq_ok (by rw [hinner]; exact hstem)]
    refine ⟨_, rfl, .withExtension hparent ?_ (by decide) (by decide), by simp [Path.withName]⟩
    rw [hinner]
    exact fun hmem => hslash (Path.mem_name_of_mem_stem hmem)
  · rw [if_neg hext, luaExtension_eq_ok hname]
    exact ⟨_, rfl, .withExtension hproper.parent hslash (by decide) (by decide), by simp [Path.withName]⟩

/-! ## Chores -/

def textOf (d : Option Decompiler) (input : Path) : Option Bytes :=
  (d.bind fun d => (judge (d.run input.name)).toOption).bind fun text =>
    (Literal.decodeAll text).toOption.map Utf8.encode

def Task.chore (d : Option Decompiler) (home : Place) (task : Task) : Chore where
  stations := task.output.parent.stations home
  leads := task.output.parent.parts.all Tree.isUsable
  target := task.output.place home
  named := Tree.isUsable task.output.name
  text := textOf d task.input

variable {d : Option Decompiler} {task : Task} {u : Tree}

lemma passes_iff_passable :
    (task.chore d t.home).passes t.node? ↔
      (textOf d task.input).isSome ∧ t.Passable task.output.parent := by
  rw [Chore.passes_iff]
  refine and_congr_right fun _ => ⟨fun h => ⟨List.all_eq_true.mp h.1, h.2⟩,
    fun h => ⟨List.all_eq_true.mpr h.names, h.noFile⟩⟩

lemma succeeds_iff_writable (hout : task.output.Proper) (hparts : task.output.parts ≠ [])
    (hpasses : (task.chore d t.home).passes t.node?) (hpaved : t.Paved task.output.parent u) :
    (task.chore d t.home).succeeds t.node? ↔ u.Writable task.output.text := by
  rw [Tree.writable_iff_of_paved hout hparts (passes_iff_passable.mp hpasses).2 hpaved,
    Chore.succeeds_iff]
  exact and_iff_right hpasses

lemma node?_of_paved (hpasses : (task.chore d t.home).passes t.node?)
    (hsucceeds : ¬ (task.chore d t.home).succeeds t.node?) (hpaved : t.Paved task.output.parent u) :
    u.node? = (task.chore d t.home).perform t.node? := by
  funext q
  rw [hpaved.node_eq, Chore.perform_of_not_succeeds hpasses hsucceeds]
  rfl

lemma node?_of_put (hsucceeds : (task.chore d t.home).succeeds t.node?)
    (hpaved : t.Paved task.output.parent u) {data : Bytes} (htext : textOf d task.input = some data)
    (hplace : u.node? (task.output.place t.home) ≠ some .directory) :
    (u.put (task.output.place t.home) (.file data)).node? =
      (task.chore d t.home).perform t.node? := by
  funext q
  rw [Tree.node?_put hplace, Chore.perform_of_succeeds hsucceeds, hpaved.node_eq]
  exact if_congr Iff.rfl (congrArg (Option.map Node.file) htext).symm rfl

/-- What a task finds, and leaves: the decompiler, the working directory, and what stands where. -/
structure Stands (d : Option Decompiler) (home : Place) (σ : Nodes) (w : Workspace) : Prop where
  decompiler_eq : w.decompiler = d
  home_eq : w.tree.home = home
  node_eq : w.tree.node? = σ

lemma Stands.words {home : Place} {σ : Nodes} {w : Workspace} (hw : Stands d home σ w)
    {words : Job Unit} (hwords : Job.Speaks words) :
    ∃ v, words.run w = .ok () v ∧ Stands d home σ v := by
  obtain ⟨console, log, hlog⟩ := hwords w
  exact ⟨{ w with console, log }, hlog, hw.decompiler_eq, hw.home_eq, hw.node_eq⟩

/-! ## Jobs that do a chore -/

/-- A job does a chore: it ends with a good value exactly if the chore succeeds, and otherwise with
another value or with a fault that is no interruption. -/
def Does {α : Type} (d : Option Decompiler) (home : Place) (c : Chore) (good : α → Prop)
    (job : Job α) : Prop :=
  ∀ σ w, Stands d home σ w → ∃ v, Stands d home (c.perform σ) v ∧
    (c.succeeds σ = true ∧ (∃ a, good a ∧ job.run w = .ok a v) ∨
      c.succeeds σ = false ∧ ((∃ a, ¬ good a ∧ job.run w = .ok a v) ∨
        ∃ f, f ≠ .interrupted ∧ job.run w = .error f v))

namespace Does

variable {α β : Type} {home : Place} {c : Chore} {good : α → Prop} {job : Job α}

lemma words {words : Job Unit} (hwords : Job.Speaks words) (hjob : Does d home c good job) :
    Does d home c good (do words; job) := by
  intro σ w hw
  obtain ⟨u, hrun, hu⟩ := hw.words hwords
  rw [Run.bind_ok hrun]
  exact hjob σ u hu

lemma reads {x : Job β} {b : β} {next : β → Job α} (hx : ∀ w, w.decompiler = d → x.run w = .ok b w)
    (hjob : Does d home c good (next b)) : Does d home c good (x >>= next) := by
  intro σ w hw
  rw [Run.bind_ok (hx w hw.decompiler_eq)]
  exact hjob σ w hw

lemma done {words : Job Unit} {good' : β → Prop} {b : β} (hjob : Does d home c (fun _ => True) job)
    (hwords : Job.Speaks words) (hb : good' b) :
    Does d home c good' (do let _ ← job; words; return b) := by
  intro σ w hw
  obtain ⟨v, hv, ⟨hc, a, -, hrun⟩ | ⟨hc, ⟨a, ha, -⟩ | ⟨f, hf, hrun⟩⟩⟩ := hjob σ w hw
  · obtain ⟨u, hsaid, hu⟩ := hv.words hwords
    exact ⟨u, hu, .inl ⟨hc, b, hb, (Run.bind_ok hrun).trans (Run.bind_ok hsaid)⟩⟩
  · exact absurd trivial ha
  · exact ⟨v, hv, .inr ⟨hc, .inr ⟨f, hf, Run.bind_error hrun⟩⟩⟩

lemma nothing (hc : c.text = none) (hjob : ∀ w, w.decompiler = d →
      (∃ a, ¬ good a ∧ job.run w = .ok a w) ∨ ∃ f, f ≠ .interrupted ∧ job.run w = .error f w) :
    Does d home c good job := by
  intro σ w hw
  have hpasses : ¬ c.passes σ := fun h => by
    obtain ⟨data, hdata⟩ := Chore.exists_text h
    rw [hc] at hdata
    cases hdata
  refine ⟨w, ?_, .inr ⟨?_, hjob w hw.decompiler_eq⟩⟩
  · rwa [Chore.perform_of_not_passes hpasses]
  · exact Bool.eq_false_iff.mpr fun h => hpasses (Chore.succeeds_iff.mp h).1

end Does

lemma does_files (hout : task.output.Proper) (hparts : task.output.parts ≠ []) (home : Place)
    {s : String} (htext : textOf d task.input = some (Utf8.encode s)) :
    Does d home (task.chore d home) (fun _ => True) (do
      Job.makePath task.output.parent
      Job.writeText task.output.text s) := by
  rintro σ w ⟨hd, rfl, rfl⟩
  have hpasses_iff : (task.chore d w.tree.home).passes w.tree.node? ↔
      w.tree.Passable task.output.parent := by
    rw [passes_iff_passable, htext]
    exact and_iff_right rfl
  cases hmake : w.tree.makePath task.output.parent with
  | error e =>
    have hno : ¬ (task.chore d w.tree.home).passes w.tree.node? := fun hpasses => by
      obtain ⟨u, hu, -⟩ := Tree.exists_makePath hout.parent (hpasses_iff.mp hpasses)
      rw [hmake] at hu
      cases hu
    refine ⟨w, ⟨hd, rfl, (Chore.perform_of_not_passes hno).symm⟩, .inr ⟨?_, .inr ⟨.file e,
      fun h => (nomatch h), Run.bind_error (Job.change_error hmake)⟩⟩⟩
    exact Bool.eq_false_iff.mpr fun h => hno (Chore.succeeds_iff.mp h).1
  | ok u =>
    have hpasses := hpasses_iff.mpr (Tree.passable_of_makePath hout.parent hmake)
    have hpaved := Tree.paved_of_makePath hout.parent hmake
    have hwritable := succeeds_iff_writable hout hparts hpasses hpaved
    have hplace : Tree.pathPlace u.home task.output.text = task.output.place w.tree.home := by
      rw [Path.pathPlace_text hout, hpaved.home_eq]
    rw [Job.makePath, Run.bind_ok (Job.change_ok hmake)]
    cases hsucceeds : (task.chore d w.tree.home).succeeds w.tree.node? with
    | true =>
      have hwrite := (hwritable.mp hsucceeds).write_eq (Utf8.encode s)
      have hfree := (hwritable.mp hsucceeds).notDirectory
      rw [hplace] at hwrite hfree
      exact ⟨{ w with tree := u.put (task.output.place w.tree.home) (.file (Utf8.encode s)) },
        ⟨hd, (Tree.home_put ..).trans hpaved.home_eq, node?_of_put hsucceeds hpaved htext hfree⟩,
        .inl ⟨rfl, (), trivial, Job.change_ok hwrite⟩⟩
    | false =>
      have hsucceeds : ¬ (task.chore d w.tree.home).succeeds w.tree.node? := by simp [hsucceeds]
      refine ⟨{ w with tree := u }, ⟨hd, hpaved.home_eq, node?_of_paved hpasses hsucceeds hpaved⟩,
        .inr ⟨rfl, .inr ?_⟩⟩
      cases hwrite : u.write task.output.text (Utf8.encode s) with
      | ok v => exact absurd (hwritable.mpr (Tree.write_eq_ok_iff.mp hwrite).1) hsucceeds
      | error e => exact ⟨.file e, fun h => (nomatch h), Job.change_error hwrite⟩

lemma does_keepScript (hout : task.output.Proper) (hparts : task.output.parts ≠ []) (home : Place)
    {text : String} (htext : textOf d task.input = (Literal.decodeAll text).toOption.map Utf8.encode) :
    Does d home (task.chore d home) (fun _ => True) (keepScript task.output text) := by
  unfold keepScript
  cases hdecode : Literal.decodeAll text with
  | error e =>
    rw [hdecode] at htext
    exact .nothing htext fun w _ => .inr ⟨.literal e, fun h => (nomatch h), rfl⟩
  | ok s =>
    rw [hdecode] at htext
    exact does_files hout hparts home htext

lemma speaks_tell (verbose : Bool) (lines : List String) : Job.Speaks (tell verbose lines) :=
  .ite (.printAll lines) .silent

lemma does_attemptScript (hout : task.output.Proper) (hparts : task.output.parts ≠ []) (home : Place)
    (verbose : Bool) :
    Does d home (task.chore d home) (· = none) (attemptScript task.input task.output verbose) := by
  refine .words (speaks_tell _ _) ?_
  have hget : ∀ w, (get : Job Workspace).run w = .ok w w := fun _ => rfl
  cases d with
  | none =>
    have hrun : ∀ w : Workspace, w.decompiler = none →
        (runOf task.input).run w = .error (.file { cause := .missing, path := "java" }) w := by
      intro w hw
      rw [runOf, Run.bind_ok (hget w), hw]
      rfl
    exact .nothing rfl fun w hw => .inr ⟨.file { cause := .missing, path := "java" },
      fun h => (nomatch h), Run.bind_error (hrun w hw)⟩
  | some d =>
    have hrun : ∀ w : Workspace, w.decompiler = some d →
        (runOf task.input).run w = .ok (d.run task.input.name) w := by
      intro w hw
      rw [runOf, Run.bind_ok (hget w), hw]
      rfl
    refine .reads hrun ?_
    have htext : textOf (some d) task.input =
        (judge (d.run task.input.name)).toOption.bind fun text =>
          (Literal.decodeAll text).toOption.map Utf8.encode := rfl
    cases hjudge : judge (d.run task.input.name) with
    | error failure =>
      rw [hjudge] at htext
      exact .nothing htext fun w _ => .inl ⟨some failure, fun h => (nomatch h), rfl⟩
    | ok text =>
      rw [hjudge] at htext
      exact .words (speaks_tell _ _) (.done (does_keepScript hout hparts home htext) (speaks_tell _ _) rfl)

lemma script_run (hout : task.output.Proper) (hparts : task.output.parts ≠ []) (number : Int)
    (verbose : Bool) {home : Place} {σ : Nodes} {w : Workspace} (hw : Stands d home σ w) :
    ∃ failure v, (script task.input task.output number verbose).run w = .ok failure v ∧
      Stands d home ((task.chore d home).perform σ) v ∧
      failure.isNone = (task.chore d home).succeeds σ := by
  obtain ⟨u, hname, hu⟩ :=
    hw.words (speaks_tell verbose ["\n[" ++ Decimal.int number ++ "] " ++ task.input.name])
  -- a fault is a failure
  have hattempt : ∃ failure v, (Job.recover (attemptScript task.input task.output verbose)
      fun f => return some (.fault f)).run u = .ok failure v ∧
      Stands d home ((task.chore d home).perform σ) v ∧
      failure.isNone = (task.chore d home).succeeds σ := by
    obtain ⟨v, hv, ⟨hc, a, rfl, hrun⟩ | ⟨hc, ⟨a, ha, hrun⟩ | ⟨f, hf, hrun⟩⟩⟩ :=
      does_attemptScript hout hparts home verbose σ u hu
    · exact ⟨none, v, Run.tryCatch_ok hrun, hv, hc.symm⟩
    · refine ⟨a, v, Run.tryCatch_ok hrun, hv, ?_⟩
      rw [hc]
      exact Option.isNone_eq_false_iff.mpr (Option.isSome_iff_ne_none.mpr ha)
    · exact ⟨some (.fault f), v, Job.recover_of_error hrun hf, hv, hc.symm⟩
  obtain ⟨failure, v, hrun, hv, hfailure⟩ := hattempt
  obtain ⟨v', hlines, hv'⟩ := hv.words (speaks_tell verbose (failure.elim [] Failure.lines))
  refine ⟨failure, v', ?_, hv', hfailure⟩
  rw [script, Run.bind_ok hname, Run.bind_ok hrun, Run.bind_ok hlines]
  rfl

end Decompile

end Salvage
