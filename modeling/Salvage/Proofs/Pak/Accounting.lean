import Mathlib.Algebra.GroupWithZero.Nat
import Salvage.Proofs.Pak.Ledger

/-!
# The counts of an extraction

Every resource that an extraction meets is counted as written or as failed once it has been handled.
The entries of a pak file are met together, before the first of them is handled, and a resource outside
the pak files is met when it has been handled. So the counts never exceed the total, and a run that is
not stopped leaves nothing uncounted.
-/

namespace Salvage.Extraction

namespace Ledger

variable {plan : Plan} {store : Store} {L : Ledger}

structure Tallied (L : Ledger) : Prop where
  total : L.progress.total =
    (L.paks.map (·.entries.length)).sum + L.handled.countP (fun x => !x.1.inPak)
  success : L.progress.success = L.handled.countP (fun x => x.2)
  failed : L.progress.failed = L.handled.countP (fun x => !x.2)

namespace Tallied

lemma handle (h : L.Tallied) (plan : Plan) (r : Resource) : (L.handle plan r).Tallied := by
  obtain ⟨kept, hhandled, hpaks, hsuccess, hfailed, htotal⟩ := handle_spec plan L r
  refine ⟨?_, ?_, ?_⟩ <;> rw [hhandled, List.countP_append, List.countP_singleton]
  · rw [htotal, hpaks, h.total, Nat.add_assoc]
  · rw [hsuccess, h.success]
  · rw [hfailed, h.failed]

lemma map_snd (h : L.Tallied) (hfailed : L.progress.failed = 0) :
    L.handled.map Prod.snd = List.replicate L.progress.success true := by
  have hall : ∀ x ∈ L.handled, x.2 = true := by
    simpa [h.failed, List.countP_eq_zero] using hfailed
  have hlength : L.progress.success = L.handled.length := by
    rw [h.success, List.countP_eq_length]
    exact hall
  rw [hlength, List.eq_replicate_iff, List.length_map]
  refine ⟨rfl, fun kept hkept => ?_⟩
  obtain ⟨x, hx, rfl⟩ := List.mem_map.mp hkept
  exact hall x hx

lemma load (h : L.Tallied) (pak : Pak) : (L.load pak).Tallied := by
  refine ⟨?_, h.success, h.failed⟩
  change L.progress.total + pak.entries.length = ((L.paks ++ [pak]).map (·.entries.length)).sum +
    L.handled.countP (fun x => !x.1.inPak)
  rw [h.total, List.map_append, List.sum_append, List.map_singleton, List.sum_singleton]
  omega

end Tallied

lemma tallied_ledger (plan : Plan) (store : Store) (t : Tree) : (ledger plan store t).Tallied :=
  ledger_keeps ⟨rfl, rfl, rfl⟩ (fun _ pak h => h.load pak) fun _ r h => h.handle plan r

end Ledger

/-! ## Runs -/

/-- **The counts of a run.** Whenever it returns its counts, those of the resources written and failed
do not exceed the total. If the stop sign was never raised, they add up to it, and it is the number of
entries of all pak files that were loaded and of all further resources that were tried; and a resource
is counted as written exactly if it was kept. -/
theorem counts_le_total_and_eq (plan : Plan) (store : Store) (w v : Workspace) (p : Progress)
    (hrun : (run plan store).run w = .ok (some p) v) :
    p.success + p.failed ≤ p.total ∧
    (v.isStopped = false →
      let L := ledger plan store w.tree
      p.success + p.failed = p.total ∧
      p.total = (L.paks.map (·.entries.length)).sum + L.handled.countP (fun x => !x.1.inPak) ∧
      p.success = L.handled.countP (fun x => x.2)) := by
  have houtcome := outcome_run (P := fun _ => True) plan store w (fun _ _ _ _ => trivial)
    fun _ _ => trivial
  rw [hrun] at houtcome
  cases houtcome with
  | early hstop h => exact ⟨h.counts, fun hnever => by rw [hstop] at hnever; cases hnever⟩
  | done n hsound hsummary =>
    have htallied := Ledger.tallied_ledger plan store w.tree
    exact ⟨hsound.halted.counts, fun _ => ⟨hsound.balance, htallied.total, htallied.success⟩⟩

/-- A game whose only pak file has a sealed entry and one without octets. -/
theorem counts_of_two_entries :
    let w := onePak [("x", 44, 20), ("y", 0, 0)] sealedOctets
    let L := ledger onePakPlan {} w.tree
    ∃ p v, (run onePakPlan {}).run w = .ok (some p) v ∧ v.isStopped = false ∧
      (p.total = 2 ∧ p.success = 1 ∧ p.failed = 1) ∧ p.success + p.failed = p.total ∧
      p.total = (L.paks.map (·.entries.length)).sum + L.handled.countP (fun x => !x.1.inPak) := by
  intro w L
  have hdecide : (do let r ← run onePakPlan {}; return (r, (← get).isStopped)).run' w =
      some (some {
        total := 2, success := 1, failed := 1, mapping := [("120", "x"), ("121", "y")]
        kinds := [(.other, 1)] }, false) := by
    decide +kernel
  obtain ⟨v, hrun, hnever⟩ := Run.exists_of_run'_get hdecide
  obtain ⟨-, hcounts⟩ := counts_le_total_and_eq onePakPlan {} w v _ hrun
  exact ⟨_, v, hrun, hnever, ⟨rfl, rfl, rfl⟩, (hcounts hnever).1, (hcounts hnever).2.1⟩

end Salvage.Extraction
