import Salvage.Proofs.Job
import Salvage.Proofs.Workspace.Files

/-!
# Changes of the files that may end early

A job that changes the files, and does nothing else, is described by a function of the files: what they
are after it, and whether the change came to its end.
-/

namespace Salvage

/-! ## Changes that may end early -/

namespace Tree

/-- A change of the files that may end early: the files after it, and whether it came to its end. -/
abbrev Change := Tree → Tree × Bool

namespace Change

def of (f : Tree → Except FileFault Tree) : Change := fun t =>
  match f t with
  | .ok u => (u, true)
  | .error _ => (t, false)

def seq (c d : Change) : Change := fun t =>
  if (c t).2 then d (c t).1 else c t

end Change

def save (path : String) (b : Bytes) : Change :=
  .seq (.of (·.makeDirectories (PathText.directory path))) (.of (·.write path b))

lemma save_eq (path : String) (b : Bytes) :
    save path b = .seq (.of (·.makeDirectories (PathText.directory path))) (.of (·.write path b)) :=
  rfl

attribute [irreducible] save

variable {t : Tree} {path : String} {b : Bytes}

lemma save_cases (t : Tree) (path : String) (b : Bytes) :
    ∃ u, t.Written (fun _ => False) u ∧
      ((save path b t).2 = true ∧ u.write path b = .ok (save path b t).1 ∨ save path b t = (u, false)) := by
  rw [save_eq, Change.seq, Change.of]
  cases hmake : t.makeDirectories (PathText.directory path) with
  | error f => exact ⟨t, .refl t _, .inr rfl⟩
  | ok u =>
    refine ⟨u, .makeDirectories hmake _, ?_⟩
    rw [if_pos rfl, Change.of]
    cases hwrite : u.write path b with
    | error f => exact .inr rfl
    | ok v => exact .inl ⟨rfl, rfl⟩

lemma written_save (t : Tree) (path : String) (b : Bytes) :
    t.Written (· = pathPlace t.home path) (save path b t).1 := by
  obtain ⟨u, hu, ⟨-, hwrite⟩ | hsave⟩ := save_cases t path b
  · refine (hu.mono fun _ h => h.elim).trans ?_
    rw [← hu.grows.home_eq]
    exact .write hwrite
  · rw [hsave]
    exact hu.mono fun _ h => h.elim

variable {t₀ : Tree} {P : Place → Prop}

lemma Written.save (h : t₀.Written P t)
    (hP : P (pathPlace t₀.home path)) : t₀.Written P (Tree.save path b t).1 := by
  refine h.trans ((written_save t path b).mono ?_)
  rintro q rfl
  rw [h.grows.home_eq]
  exact hP

lemma Written.ofWrite (h : t₀.Written P t)
    (hP : P (pathPlace t₀.home path)) : t₀.Written P (Change.of (·.write path b) t).1 := by
  rw [Change.of]
  cases hwrite : t.write path b with
  | error f => exact h
  | ok u =>
    refine h.trans ((Written.write hwrite).mono ?_)
    rintro q rfl
    rw [h.grows.home_eq]
    exact hP

lemma Written.seq {c d : Change} (hc : t₀.Written P (c t).1) (hd : t₀.Written P (d (c t).1).1) :
    t₀.Written P (c.seq d t).1 := by
  rw [Change.seq]
  split
  · exact hd
  · exact hc

lemma node?_save (h : (save path b t).2 = true) :
    (save path b t).1.node? (pathPlace t.home path) = some (.file b) := by
  obtain ⟨u, hu, ⟨-, hwrite⟩ | hsave⟩ := save_cases t path b
  · obtain ⟨hwritable, heq⟩ := write_eq_ok_iff.mp hwrite
    rw [heq, ← hu.grows.home_eq, node?_put hwritable.notDirectory, if_pos rfl]
  · rw [hsave] at h
    cases h

end Tree

/-! ## Jobs that change the files -/

namespace Job

/-- A job that changes the files, by what they are alone: it ends with a value if the change comes to
its end, and otherwise with a fault that is no interruption. -/
def Changes (job : Job Unit) (c : Tree.Change) : Prop :=
  ∀ w, ∃ v, v.tree = (c w.tree).1 ∧
    ((c w.tree).2 = true ∧ job.run w = .ok () v ∨
      (c w.tree).2 = false ∧ ∃ f, f ≠ .interrupted ∧ job.run w = .error f v)

namespace Changes

lemma change (f : Tree → Except FileFault Tree) : Changes (Job.change f) (.of f) := by
  intro w
  rw [Tree.Change.of]
  cases hf : f w.tree with
  | ok u => exact ⟨{ w with tree := u }, rfl, .inl ⟨rfl, Job.change_ok hf⟩⟩
  | error e =>
    refine ⟨w, rfl, .inr ⟨rfl, .file e, fun h => ?_, Job.change_error hf⟩⟩
    cases h

lemma seq {job next : Job Unit} {c d : Tree.Change} (hjob : Changes job c) (hnext : Changes next d) :
    Changes (do job; next) (c.seq d) := by
  intro w
  rw [Tree.Change.seq]
  obtain ⟨v, hv, ⟨hc, hrun⟩ | ⟨hc, f, hf, hrun⟩⟩ := hjob w
  · obtain ⟨u, hu, hend⟩ := hnext v
    rw [hv] at hu hend
    rw [hc, if_pos rfl, Run.bind_ok hrun]
    exact ⟨u, hu, hend⟩
  · rw [hc, if_neg Bool.false_ne_true, hc]
    exact ⟨v, hv, .inr ⟨rfl, f, hf, Run.bind_error hrun⟩⟩

lemma words {job words : Job Unit} {c : Tree.Change} (hjob : Changes job c) (hwords : Speaks words) :
    Changes (do job; words) c := by
  intro w
  obtain ⟨v, hv, ⟨hc, hrun⟩ | ⟨hc, f, hf, hrun⟩⟩ := hjob w
  · obtain ⟨console, log, hlog⟩ := hwords v
    exact ⟨{ v with console, log }, hv, .inl ⟨hc, (Run.bind_ok hrun).trans hlog⟩⟩
  · exact ⟨v, hv, .inr ⟨hc, f, hf, Run.bind_error hrun⟩⟩

end Changes

end Job

end Salvage
