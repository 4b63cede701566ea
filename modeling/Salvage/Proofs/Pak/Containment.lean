import Salvage.Proofs.Number.Decimal
import Salvage.Proofs.Pak.Accounting

/-!
# Where an extraction writes

What is written under a hash stands in the output directory, and so does the summary. What is written
under a path stands where its name leads: a name that starts at the top, or that has a double dot in
it, may lead out of the output directory. No file is written anywhere else, however the extraction
ends.
-/

namespace Salvage.Extraction

open Salvage.Tree

variable {plan : Plan} {store : Store} {L : Ledger} {home : Place}

/-! ## Places in the output directory -/

def isAstray (name : String) : Bool :=
  PathText.isAbsolute name || (PathText.pieces name).contains ".."

lemma pathPlace_hashPath (plan : Plan) (home : Place) (hash : UInt32) (kind : FileType) :
    pathPlace home (hashPath plan hash kind) = pathPlace home plan.output ++
      ["by_hash", Decimal.nat hash.toNat ++ kind.extension] := by
  have hslash : '/' ∉ (Decimal.nat hash.toNat ++ kind.extension).toList := by
    rw [String.toList_append, List.mem_append, not_or]
    refine ⟨fun h => ?_, by cases kind <;> decide⟩
    exact absurd (Decimal.isDigit_of_mem_nat h) (by decide)
  have hdots := Path.append_ne_dots (Decimal.nat hash.toNat)
    (by cases kind <;> decide : 2 < kind.extension.length)
  rw [hashPath, Path.pathPlace_join_name home _ hslash hdots,
    Path.pathPlace_join_name home plan.output (by decide) (by decide), List.append_assoc]
  rfl

lemma prefix_summaryPaths (plan : Plan) (home : Place) :
    ∀ path ∈ summaryPaths plan, pathPlace home plan.output <+: pathPlace home path := by
  intro path hpath
  simp only [summaryPaths, List.mem_cons, List.not_mem_nil, or_false] at hpath
  rcases hpath with rfl | rfl <;>
  · rw [Path.pathPlace_join_name home plan.output (by decide) (by decide)]
    exact List.prefix_append ..

lemma prefix_placePath (plan : Plan) (home : Place) {name : String} (h : isAstray name = false) :
    pathPlace home plan.output ++ ["by_path"] <+: pathPlace home (placePath plan name) := by
  obtain ⟨hrelative, hdots⟩ := Bool.or_eq_false_iff.mp h
  rw [placePath, Path.pathPlace_join home _ hrelative,
    Path.pathPlace_join_name home plan.output (by decide) (by decide)]
  refine Path.prefix_namesFrom ?_ _
  intro hmem
  rw [List.contains_iff_mem.mpr hmem] at hdots
  cases hdots

/-! ## Resources that were kept -/

lemma Resource.node?_save {r : Resource} {b : Bytes} {t : Tree} (h : (r.save plan b t).2 = true) :
    (∃ data, (r.save plan b t).1.node? (pathPlace t.home (placePath plan (r.name (.ofBytes b)))) =
      some (.file data)) ∧
    (r.save plan b t).1.node? (pathPlace t.home (hashPath plan r.hash (.ofBytes b))) =
      some (.file b) := by
  rw [Resource.save, Tree.Change.seq] at h ⊢
  cases hplace : (Tree.save (placePath plan (r.name (.ofBytes b))) b t).2 with
  | false =>
    rw [hplace, if_neg Bool.false_ne_true, hplace] at h
    cases h
  | true =>
    rw [hplace, if_pos rfl] at h
    rw [if_pos rfl]
    have hfirst := written_save t (placePath plan (r.name (.ofBytes b))) b
    have hsecond := Tree.written_save (Tree.save (placePath plan (r.name (.ofBytes b))) b t).1
      (hashPath plan r.hash (.ofBytes b)) b
    refine ⟨hsecond.grows.file (Tree.node?_save hplace), ?_⟩
    rw [← hfirst.grows.home_eq]
    exact Tree.node?_save h

namespace Ledger

lemma grows_handle (plan : Plan) (L : Ledger) (r : Resource) :
    L.tree.Grows (L.handle plan r).tree :=
  (written_handle (P := fun _ => True) (.refl L.tree _) fun _ _ => trivial).grows

def Kept (plan : Plan) (L : Ledger) : Prop :=
  ∀ r, (r, true) ∈ L.handled → ∃ b data, r.content = some b ∧
    L.tree.node? (pathPlace L.tree.home (placePath plan (r.name (.ofBytes b)))) =
      some (.file data)

lemma Kept.handle (h : L.Kept plan) (r : Resource) : (L.handle plan r).Kept plan := by
  intro s hs
  have hgrows := grows_handle plan L r
  rw [hgrows.home_eq]
  rcases kept_cases hs with hold | ⟨rfl, b, hcontent, hsaved, htree⟩
  · obtain ⟨b, data, hcontent, hnode⟩ := h s hold
    obtain ⟨data', hnode'⟩ := hgrows.file hnode
    exact ⟨b, data', hcontent, hnode'⟩
  · obtain ⟨data, hnode⟩ := (Resource.node?_save hsaved).1
    exact ⟨b, data, hcontent, htree ▸ hnode⟩

lemma kept_ledger (plan : Plan) (store : Store) (t : Tree) : (ledger plan store t).Kept plan :=
  ledger_keeps (fun _ h => nomatch h) (fun _ _ h => h) fun _ r h => h.handle r

end Ledger

/-! ## Runs -/

/-- Every file of the second tree is one of the first, or stands in the output directory, or stands where
an astray name of a resource of the ledger leads. -/
def Contained (plan : Plan) (L : Ledger) (t u : Tree) : Prop :=
  ∀ q data, u.node? q = some (.file data) → t.node? q = some (.file data) ∨
    pathPlace t.home plan.output <+: q ∨
    ∃ x ∈ L.handled, ∃ b, x.1.content = some b ∧ isAstray (x.1.name (.ofBytes b)) = true ∧
      q = pathPlace t.home (placePath plan (x.1.name (.ofBytes b)))

lemma contained_of_written {t u : Tree}
    (h : ∀ P : Place → Prop, L.Covered plan t.home P →
      (∀ path ∈ summaryPaths plan, P (pathPlace t.home path)) → t.Written P u) :
    Contained plan L t u := by
  intro q data hq
  refine (h (fun q => pathPlace t.home plan.output <+: q ∨
    ∃ x ∈ L.handled, ∃ b, x.1.content = some b ∧ isAstray (x.1.name (.ofBytes b)) = true ∧
      q = pathPlace t.home (placePath plan (x.1.name (.ofBytes b)))) ?_ ?_).file_cases hq
  · intro x hx path hpath
    cases hcontent : x.1.content with
    | none => simp [Resource.targets, hcontent] at hpath
    | some b =>
      simp only [Resource.targets, hcontent, Option.toList_some, List.flatMap_cons, List.flatMap_nil,
        List.append_nil, List.mem_cons, List.not_mem_nil, or_false] at hpath
      rcases hpath with rfl | rfl
      · cases hastray : isAstray (x.1.name (.ofBytes b)) with
        | true => exact .inr ⟨x, hx, b, hcontent, hastray, rfl⟩
        | false => exact .inl ((List.prefix_append ..).trans (prefix_placePath plan t.home hastray))
      · rw [pathPlace_hashPath]
        exact .inl (List.prefix_append ..)
  · exact fun path hpath => .inl (prefix_summaryPaths plan t.home path hpath)

/-- **Where a run writes.** However it ends, every file that it has made or changed stands in the output
directory, unless it stands where the name of a resource leads that starts at the top or has a double
dot in it. A run that ends by itself has made a file wherever the name of a resource that it kept
leads. -/
theorem contained_unless_astray (plan : Plan) (store : Store) (w : Workspace) :
    let L := ledger plan store w.tree
    (∀ r v, (run plan store).run w = .ok r v → Contained plan L w.tree v.tree) ∧
    (∀ f v, (run plan store).run w = .error f v → Contained plan L w.tree v.tree) ∧
    ∀ p v, (run plan store).run w = .ok (some p) v → v.isStopped = false →
      ∀ r, (r, true) ∈ L.handled → ∃ b data, r.content = some b ∧
        v.tree.node? (Tree.pathPlace w.tree.home (placePath plan (r.name (.ofBytes b)))) =
          some (.file data) := by
  intro L
  refine ⟨fun r v hrun => contained_of_written fun P hP hsummary => ?_,
    fun f v hrun => contained_of_written fun P hP hsummary => ?_, fun p v hrun hnever r hr => ?_⟩
  · have houtcome := outcome_run plan store w hP hsummary
    rw [hrun] at houtcome
    cases houtcome with
    | unstarted htree => exact htree ▸ .refl _ P
    | early _ h => exact h.written
    | done n hsound hdone =>
      have hwritten := written_summary n L.progress hsound.written hsummary
      rwa [hdone] at hwritten
  · have houtcome := outcome_run plan store w hP hsummary
    rw [hrun] at houtcome
    cases houtcome with
    | fault h => exact h
  · have houtcome := outcome_run (P := fun _ => True) plan store w (fun _ _ _ _ => trivial)
      fun _ _ => trivial
    rw [hrun] at houtcome
    cases houtcome with
    | early hstop _ =>
      rw [hstop] at hnever
      cases hnever
    | done n hsound hdone =>
      obtain ⟨b, data, hcontent, hnode⟩ := Ledger.kept_ledger plan store w.tree r hr
      obtain ⟨data', hnode'⟩ := (grows_of_summary hdone).file hnode
      rw [hsound.written.grows.home_eq] at hnode'
      exact ⟨b, data', hcontent, hnode'⟩

/-! ## A name that leads out -/

def astrayGame : Workspace :=
  onePak [("../../x", 40, 20)] sealedOctets

lemma run_astrayGame : ∃ p v, (run onePakPlan {}).run astrayGame = .ok (some p) v ∧
    v.isStopped = false ∧ p.success = 1 ∧ p.failed = 0 ∧
    (v.tree.node? ["tmp", "work", "x.bin"]).isSome = true := by
  let g (v : Workspace) : Bool × Bool :=
    (v.isStopped, (v.tree.node? ["tmp", "work", "x.bin"]).isSome)
  have hdecide : (do let r ← run onePakPlan {}; return (r, g (← get))).run' astrayGame =
      some (some {
        total := 1, success := 1, failed := 0, mapping := [("3532226264", "../../x")]
        kinds := [(.other, 1)] }, false, true) := by
    decide +kernel
  obtain ⟨v, hrun, hend⟩ := Run.exists_of_run'_get hdecide
  exact ⟨_, v, hrun, (Prod.mk.inj hend).1, rfl, rfl, (Prod.mk.inj hend).2⟩

/-- The astray entry is kept, and has a file where its name leads. -/
theorem contained_unless_astray_of_double_dots :
    let L := ledger onePakPlan {} astrayGame.tree
    L.handled.map Prod.snd = [true] ∧
    ∃ p v, (run onePakPlan {}).run astrayGame = .ok (some p) v ∧ v.isStopped = false ∧
      Contained onePakPlan L astrayGame.tree v.tree ∧
      ∀ r, (r, true) ∈ L.handled → ∃ b data, r.content = some b ∧
        v.tree.node? (Tree.pathPlace astrayGame.tree.home
          (placePath onePakPlan (r.name (.ofBytes b)))) = some (.file data) := by
  obtain ⟨p, v, hrun, hnever, hsuccess, hfailed, -⟩ := run_astrayGame
  have hprogress := progress_eq_of_run hrun hnever
  have hkept : (ledger onePakPlan {} astrayGame.tree).handled.map Prod.snd = [true] := by
    rw [(Ledger.tallied_ledger onePakPlan {} astrayGame.tree).map_snd (hprogress ▸ hfailed),
      ← hprogress, hsuccess]
    rfl
  obtain ⟨hreturned, -, hfiles⟩ := contained_unless_astray onePakPlan {} astrayGame
  exact ⟨hkept, p, v, hrun, hnever, hreturned _ v hrun, hfiles p v hrun hnever⟩

/-- **A name with double dots leads out of the output directory**: the only entry of a pak file makes a
file beside it. -/
theorem double_dots_lead_out :
    let q : Place := ["tmp", "work", "x.bin"]
    ∃ p v, (run onePakPlan {}).run astrayGame = .ok (some p) v ∧ astrayGame.tree.node? q = none ∧
      (v.tree.node? q).isSome = true ∧
      ¬ Tree.pathPlace astrayGame.tree.home onePakPlan.output <+: q := by
  obtain ⟨p, v, hrun, -, -, -, hfile⟩ := run_astrayGame
  have hnone : astrayGame.tree.node? ["tmp", "work", "x.bin"] = none := by decide
  have hout : Tree.pathPlace astrayGame.tree.home onePakPlan.output = ["tmp", "work", "out"] := by
    decide
  refine ⟨p, v, hrun, hnone, hfile, ?_⟩
  rw [hout]
  decide

end Salvage.Extraction
