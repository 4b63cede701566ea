import Salvage.Proofs.Pak.Store
import Salvage.Proofs.Workspace.Change

/-!
# Contracts of parts of an extraction

A part of an extraction ends with a value, or early because the stop sign is raised, or with a fault.
A contract says what holds of the files in each case, when the files at the start are given. The sign
is looked at in many places and may be raised in any of them, so that a contract has one condition
for all early ends.
-/

namespace Salvage

lemma Extraction.changes_write (path : String) (b : Bytes) :
    Job.Changes (Extraction.write path b) (Tree.save path b) := by
  rw [Tree.save_eq]
  exact .seq (.change _) (.change _)

/-! ## The stop sign -/

def Workspace.isStopped (w : Workspace) : Bool :=
  w.stop.any (·.raised)

lemma Job.stopped_run (w : Workspace) : ∃ v, Job.stopped.run w = .ok v.isStopped v ∧
    v.tree = w.tree ∧ (w.isStopped = true → v.isStopped = true) := by
  have hlook : ∀ s : StopSign, s.look.1 = s.look.2.raised ∧ (s.raised = true → s.look.1 = true) := by
    rintro ⟨raised, _ | _ | n⟩ <;> simp [StopSign.look]
  unfold Workspace.isStopped
  cases hstop : w.stop with
  | none => exact ⟨w, by simp [EStateM.run, Job.stopped, hstop], rfl, fun h => nomatch h⟩
  | some s =>
    refine ⟨{ w with stop := some s.look.2 }, ?_, rfl, fun h => ?_⟩
    · simp [EStateM.run, Job.stopped, hstop, (hlook s).1]
    · exact (hlook s).1.symm.trans ((hlook s).2 h)

/-! ## Contracts -/

namespace Extraction

variable {α β : Type} {t : Tree} {Q : β → Tree → Prop} {R : α → Tree → Prop}
  {H : Progress → Tree → Prop} {F : Tree → Prop}

/-- How a part of an extraction ended: with a value for which, and for the files, `after` holds; with
what has been done before the sign was raised, when `halted` holds; or with a fault, when `failed`
holds of the files. -/
inductive Ended (after : α → Tree → Prop) (halted : Progress → Tree → Prop) (failed : Tree → Prop) :
    EStateM.Result Fault Workspace (Except Progress α) → Prop
  | value {a v} (h : after a v.tree) : Ended after halted failed (.ok (.ok a) v)
  | early {p v} (hstop : v.isStopped = true) (h : halted p v.tree) :
      Ended after halted failed (.ok (.error p) v)
  | fault {f v} (h : failed v.tree) : Ended after halted failed (.error f v)

/-- A part of an extraction meets a contract when it starts with the files `t`. -/
def Gives (t : Tree) (x : Run α) (after : α → Tree → Prop) (halted : Progress → Tree → Prop)
    (failed : Tree → Prop) : Prop :=
  ∀ w : Workspace, w.tree = t → Ended after halted failed (x.run.run w)

lemma run_lift_ok {job : Job α} {w v : Workspace} {a : α} (h : job.run w = .ok a v) :
    (liftM job : Run α).run.run w = .ok (.ok a) v := by
  change (Except.ok <$> job : Job (Except Progress α)).run w = _
  rw [map_eq_pure_bind]
  exact Run.bind_ok h

lemma run_lift_error {job : Job α} {w v : Workspace} {f : Fault} (h : job.run w = .error f v) :
    (liftM job : Run α).run.run w = .error f v := by
  change (Except.ok <$> job : Job (Except Progress α)).run w = _
  rw [map_eq_pure_bind]
  exact Run.bind_error h

lemma run_bind_ok {x : Run α} {f : α → Run β} {w v : Workspace} {a : α}
    (h : x.run.run w = .ok (.ok a) v) : (x >>= f).run.run w = (f a).run.run v :=
  Run.bind_ok h

namespace Gives

lemma pure {a : α} (h : R a t) : Gives t (Pure.pure a) R H F :=
  fun _ hw => .value (hw ▸ h)

lemma bind {x : Run α} {f : α → Run β} (hx : Gives t x R H F)
    (hf : ∀ a u, R a u → Gives u (f a) Q H F) : Gives t (x >>= f) Q H F := by
  intro w hw
  have hend := hx w hw
  cases hrun : x.run.run w with
  | ok r v =>
    rw [hrun] at hend
    cases hend with
    | value h =>
      rw [run_bind_ok hrun]
      exact hf _ _ h v rfl
    | early hstop h =>
      have hbind : (x >>= f).run.run w = .ok (.error _) v := Run.bind_ok hrun
      rw [hbind]
      exact .early hstop h
  | error e v =>
    rw [hrun] at hend
    cases hend with
    | fault h =>
      have hbind : (x >>= f).run.run w = .error e v := Run.bind_error hrun
      rw [hbind]
      exact .fault h

lemma words {words : Job Unit} {f : Unit → Run β} (hwords : Job.Speaks words)
    (hf : Gives t (f ()) Q H F) : Gives t (liftM words >>= f) Q H F := by
  intro w hw
  obtain ⟨console, log, hlog⟩ := hwords w
  rw [run_bind_ok (run_lift_ok hlog)]
  exact hf _ hw

lemma wordsIf {c : Prop} [Decidable c] {words : Job Unit} {f : Unit → Run β}
    (hwords : Job.Speaks words) (hf : Gives t (f ()) Q H F) :
    Gives t (if c then liftM words >>= f else f ()) Q H F := by
  split
  · exact .words hwords hf
  · exact hf

lemma checkStop {p : Progress} {words : Job Unit} {f : Unit → Run β} (hwords : Job.Speaks words)
    (hp : H p t) (hf : Gives t (f ()) Q H F) :
    Gives t (Extraction.checkStop p words >>= f) Q H F := by
  intro w hw
  obtain ⟨v, hrun, htree, -⟩ := Job.stopped_run w
  rw [hw] at htree
  have hsign : (Extraction.checkStop p words).run.run w = _ := run_bind_ok (run_lift_ok hrun)
  cases hstop : v.isStopped with
  | false =>
    rw [hstop, if_neg Bool.false_ne_true] at hsign
    rw [run_bind_ok hsign]
    exact hf v htree
  | true =>
    obtain ⟨console, log, hlog⟩ := hwords v
    rw [hstop, if_pos rfl, run_bind_ok (run_lift_ok hlog)] at hsign
    have hbind : (Extraction.checkStop p words >>= f).run.run w =
        .ok (.error p) { v with console, log } := Run.bind_ok hsign
    rw [hbind]
    exact .early hstop (htree ▸ hp)

lemma unlessStopped {p : Progress} {words : Job Unit} {f : Unit → Run β} {x : Run β}
    (hwords : Job.Speaks words) (hp : H p t) (hx : Gives t x Q H F) :
    Gives t (do if ← liftM Job.stopped then Extraction.checkStop p words >>= f else x) Q H F := by
  intro w hw
  obtain ⟨v, hrun, htree, -⟩ := Job.stopped_run w
  rw [hw] at htree
  rw [run_bind_ok (run_lift_ok hrun)]
  cases hstop : v.isStopped with
  | false =>
    rw [if_neg Bool.false_ne_true]
    exact hx v htree
  | true =>
    obtain ⟨u, hrun', htree', hraised⟩ := Job.stopped_run v
    obtain ⟨console, log, hlog⟩ := hwords u
    have hsign : (Extraction.checkStop p words).run.run v = _ := run_bind_ok (run_lift_ok hrun')
    rw [hraised hstop, if_pos rfl, run_bind_ok (run_lift_ok hlog)] at hsign
    have hbind : (Extraction.checkStop p words >>= f).run.run v =
        .ok (.error p) { u with console, log } := Run.bind_ok hsign
    rw [if_pos rfl, hbind]
    exact .early (hraised hstop) (by rw [htree', htree]; exact hp)

lemma look {job : Job α} {f : α → Run β} (hjob : Job.Looks job)
    (hf : ∀ a, job.on t = some a → Gives t (f a) Q H F) (hF : F t) :
    Gives t (liftM job >>= f) Q H F := by
  intro w hw
  obtain ⟨a, v, hon, hrun, htree⟩ | ⟨e, v, -, -, hrun, htree⟩ := hjob.cases w
  · rw [hw] at hon htree
    rw [run_bind_ok (run_lift_ok hrun)]
    exact hf a hon v htree
  · have hbind : (liftM job >>= f).run.run w = .error e v := Run.bind_error (run_lift_error hrun)
    rw [hbind]
    exact .fault (by rw [htree, hw]; exact hF)

lemma attemptLook {job : Job α} {f : Except Fault α → Run β} (hjob : Job.Looks job)
    (hok : ∀ a, job.on t = some a → Gives t (f (.ok a)) Q H F)
    (herror : ∀ e, job.on t = none → Gives t (f (.error e)) Q H F) :
    Gives t (liftM job.attempt >>= f) Q H F := by
  intro w hw
  obtain ⟨a, v, hon, hrun, htree⟩ | ⟨e, v, hon, he, hrun, htree⟩ := hjob.cases w
  · rw [hw] at hon htree
    rw [run_bind_ok (run_lift_ok (Job.attempt_ok hrun))]
    exact hok a hon v htree
  · rw [hw] at hon htree
    rw [run_bind_ok (run_lift_ok (Job.attempt_error hrun he))]
    exact herror e hon v htree

lemma change {job : Job Unit} {c : Tree.Change} {f : Unit → Run β} (hjob : Job.Changes job c)
    (hf : (c t).2 = true → Gives (c t).1 (f ()) Q H F) (hF : F (c t).1) :
    Gives t (liftM job >>= f) Q H F := by
  intro w hw
  obtain ⟨v, htree, hend⟩ := hjob w
  rw [hw] at htree hend
  obtain ⟨hc, hrun⟩ | ⟨-, e, -, hrun⟩ := hend
  · rw [run_bind_ok (run_lift_ok hrun)]
    exact hf hc v htree
  · have hbind : (liftM job >>= f).run.run w = .error e v := Run.bind_error (run_lift_error hrun)
    rw [hbind]
    exact .fault (htree ▸ hF)

lemma attemptChange {job : Job Unit} {c : Tree.Change} {f : Except Fault Unit → Run β}
    (hjob : Job.Changes job c) (hok : (c t).2 = true → Gives (c t).1 (f (.ok ())) Q H F)
    (herror : ∀ e, (c t).2 = false → Gives (c t).1 (f (.error e)) Q H F) :
    Gives t (liftM job.attempt >>= f) Q H F := by
  intro w hw
  obtain ⟨v, htree, hend⟩ := hjob w
  rw [hw] at htree hend
  obtain ⟨hc, hrun⟩ | ⟨hc, e, he, hrun⟩ := hend
  · rw [run_bind_ok (run_lift_ok (Job.attempt_ok hrun))]
    exact hok hc v htree
  · rw [run_bind_ok (run_lift_ok (Job.attempt_error hrun he))]
    exact herror e hc v htree

end Gives

end Extraction

end Salvage
