import Mathlib.Tactic.Lemma

/-!
# Steps that may fail

A step takes a state to a value or a fault, and a state after it. What follows a step is run only
after a value.
-/

namespace Salvage.Run

variable {ε σ α β : Type} {x : EStateM ε σ α} {f : α → EStateM ε σ β} {s t : σ}

variable {a : α}

lemma bind_ok (h : x.run s = .ok a t) : (x >>= f).run s = (f a).run t := by
  change EStateM.bind x f s = f a t
  rw [EStateM.run] at h
  rw [EStateM.bind, h]

lemma bind_error {e : ε} (h : x.run s = .error e t) : (x >>= f).run s = .error e t := by
  change EStateM.bind x f s = .error e t
  rw [EStateM.run] at h
  rw [EStateM.bind, h]

lemma exists_of_bind_ok {b : β} (h : (x >>= f).run s = .ok b t) :
    ∃ a u, x.run s = .ok a u ∧ (f a).run u = .ok b t := by
  cases hx : x.run s with
  | ok a u => exact ⟨a, u, rfl, (bind_ok hx).symm.trans h⟩
  | error e u => exact nomatch (bind_error hx).symm.trans h

lemma tryCatch_ok {remedy : ε → EStateM ε σ α} (h : x.run s = .ok a t) :
    (tryCatch x remedy).run s = .ok a t := by
  change x s = .ok a t at h
  change EStateM.tryCatch x remedy s = .ok a t
  delta EStateM.tryCatch
  rw [h]

lemma tryCatch_error {e : ε} {remedy : ε → EStateM ε σ α} (h : x.run s = .error e t) :
    (tryCatch x remedy).run s = (remedy e).run t := by
  change x s = .error e t at h
  change EStateM.tryCatch x remedy s = remedy e t
  delta EStateM.tryCatch
  rw [h]
  rfl

lemma exists_of_run' (h : x.run' s = some a) : ∃ t, x.run s = .ok a t := by
  unfold EStateM.run' at h
  cases hx : x.run s with
  | ok b t =>
    rw [hx] at h
    exact ⟨t, congrArg (EStateM.Result.ok · t) (Option.some.inj h)⟩
  | error e t =>
    rw [hx] at h
    cases h

lemma exists_of_run'_get {γ : Type} {g : σ → γ} {c : γ}
    (h : (do let a ← x; return (a, g (← get))).run' s = some (a, c)) :
    ∃ t, x.run s = .ok a t ∧ g t = c := by
  obtain ⟨t, ht⟩ := exists_of_run' h
  obtain ⟨b, u, hx, hu⟩ := exists_of_bind_ok ht
  have hend : EStateM.Result.ok (b, g u) u = .ok (a, c) t := hu
  obtain ⟨rfl, hc⟩ := Prod.mk.inj (EStateM.Result.ok.inj hend).1
  exact ⟨u, hx, hc⟩

lemma modifyGet_run (g : σ → α × σ) (s : σ) :
    (modifyGet g : EStateM ε σ α).run s = .ok (g s).1 (g s).2 :=
  rfl

lemma modify_run (g : σ → σ) (s : σ) : (modify g : EStateM ε σ PUnit).run s = .ok ⟨⟩ (g s) :=
  rfl

end Salvage.Run
