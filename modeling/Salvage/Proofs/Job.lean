import Salvage.Job.Basic
import Salvage.Proofs.Run

/-!
# Contracts of jobs

What a job does to the files and the servers is said by a contract: from workspaces in which
something holds, the job ends with a value for which a second thing holds, or with a fault, in a
workspace in which a third thing holds. What is printed and logged, and how often the stop sign is
looked at, is no part of a contract, so that steps of these kinds keep whatever holds.
-/

namespace Salvage.Job

open Run

variable {α β : Type}

variable {P F : Tree → Network → Prop} {Q : β → Tree → Network → Prop} {R : α → Tree → Network → Prop}

/-- How a job ended: with a value for which `after` holds of the files and the servers, or with a
fault, when `failed` holds of them. -/
def Ended (r : EStateM.Result Fault Workspace α) (after : α → Tree → Network → Prop)
    (failed : Tree → Network → Prop) : Prop :=
  (∀ a v, r = .ok a v → after a v.tree v.network) ∧ ∀ f v, r = .error f v → failed v.tree v.network

variable {w v : Workspace} {job : Job α} {f : Fault} {a : α}

lemma ended_ok (h : R a v.tree v.network) : Ended (.ok a v) R F := by
  refine ⟨fun b u hu => ?_, fun f u hu => nomatch hu⟩
  cases hu
  exact h

lemma ended_error (h : F v.tree v.network) : Ended (.error f v) R F := by
  refine ⟨fun b u hu => (nomatch hu), fun g u hu => ?_⟩
  cases hu
  exact h

/-- A job meets a contract: when `before` holds of the files and the servers, the job ends with a
value for which `after` holds, or with a fault, when `failed` holds. -/
def Meets (before : Tree → Network → Prop) (job : Job α) (after : α → Tree → Network → Prop)
    (failed : Tree → Network → Prop) : Prop :=
  ∀ w : Workspace, before w.tree w.network → Ended (job.run w) after failed

/-- A job that leaves the files and the servers alone, and has no fault. -/
def Quiet (job : Job α) : Prop :=
  ∀ w, ∃ a v, job.run w = .ok a v ∧ v.tree = w.tree ∧ v.network = w.network

lemma recover_error (remedy : Fault → Job α) (h : job.run w = .error f v) :
    (recover job remedy).run w = .error f v ∨ (recover job remedy).run w = (remedy f).run v := by
  rw [recover, tryCatch_error h]
  cases f with
  | interrupted => exact .inl rfl
  | _ => exact .inr rfl

namespace Meets

lemma pure {a : α} (h : ∀ t n, P t n → R a t n) : Meets P (Pure.pure a) R F :=
  fun _ hw => ended_ok (h _ _ hw)

lemma throw {f : Fault} (h : ∀ t n, P t n → F t n) : Meets P (MonadExcept.throw f : Job α) R F :=
  fun _ hw => ended_error (h _ _ hw)

variable {job : Job α}

lemma bind {next : α → Job β} (hjob : Meets P job R F)
    (hnext : ∀ a, Meets (R a) (next a) Q F) : Meets P (job >>= next) Q F := by
  intro w hw
  obtain ⟨hok, herror⟩ := hjob w hw
  cases h : job.run w with
  | ok a v =>
    rw [bind_ok h]
    exact hnext a v (hok a v h)
  | error f v =>
    rw [bind_error h]
    exact ended_error (herror f v h)

lemma ite {c : Prop} [Decidable c] {other : Job α} (hjob : c → Meets P job R F)
    (hother : ¬ c → Meets P other R F) : Meets P (if c then job else other) R F := by
  by_cases h : c
  · rw [if_pos h]
    exact hjob h
  · rw [if_neg h]
    exact hother h

lemma mono {P' F' : Tree → Network → Prop} {R' : α → Tree → Network → Prop}
    (h : Meets P job R F) (hP : ∀ t n, P' t n → P t n) (hR : ∀ a t n, R a t n → R' a t n)
    (hF : ∀ t n, F t n → F' t n) : Meets P' job R' F' := by
  intro w hw
  obtain ⟨hok, herror⟩ := h w (hP _ _ hw)
  exact ⟨fun a v hv => hR _ _ _ (hok a v hv), fun f v hv => hF _ _ (herror f v hv)⟩

lemma pre {P' : Tree → Network → Prop} (h : Meets P job R F)
    (hP : ∀ t n, P' t n → P t n) : Meets P' job R F :=
  fun w hw => h w (hP _ _ hw)

lemma assume {c : Prop} (h : c → Meets P job R F) : Meets (fun t n => P t n ∧ c) job R F :=
  fun w hw => h hw.2 w hw.1

lemma choose {γ : Type} {P : γ → Tree → Network → Prop}
    (h : ∀ x, Meets (P x) job R F) : Meets (fun t n => ∃ x, P x t n) job R F :=
  fun w ⟨x, hx⟩ => h x w hx

lemma quiet (h : Quiet job) : Meets P job (fun _ => P) F := by
  intro w hw
  obtain ⟨a, v, hrun, htree, hnetwork⟩ := h w
  rw [hrun]
  exact ended_ok (by rwa [htree, hnetwork])

lemma look {f : Tree → Except FileFault α} (hok : ∀ t n a, P t n → f t = .ok a → R a t n)
    (herror : ∀ t n e, P t n → f t = .error e → F t n) : Meets P (Job.look f) R F := by
  intro w hw
  have hrun : (Job.look f).run w = (Job.ofExcept .file (f w.tree)).run w := rfl
  rw [hrun]
  cases h : f w.tree with
  | ok a => exact ended_ok (hok _ _ a hw h)
  | error e => exact ended_error (herror _ _ e hw h)

lemma change {f : Tree → Except FileFault Tree} {Q : Unit → Tree → Network → Prop}
    (hok : ∀ t n u, P t n → f t = .ok u → Q () u n)
    (herror : ∀ t n e, P t n → f t = .error e → F t n) : Meets P (Job.change f) Q F := by
  have hlook : Meets P (Job.look f) (fun u _ n => Q () u n) F := look hok herror
  exact hlook.bind fun u w hw => ended_ok hw

lemma recover {remedy : Fault → Job α} {F' : Tree → Network → Prop}
    (hjob : Meets P job R F') (hremedy : ∀ f, Meets F' (remedy f) R F) (hF : ∀ t n, F' t n → F t n) :
    Meets P (Job.recover job remedy) R F := by
  intro w hw
  obtain ⟨hok, herror⟩ := hjob w hw
  cases h : job.run w with
  | ok a v =>
    rw [Job.recover, tryCatch_ok h]
    exact ended_ok (hok a v h)
  | error f v =>
    have hv := herror f v h
    rcases recover_error remedy h with hrun | hrun
    · rw [hrun]
      exact ended_error (hF _ _ hv)
    · rw [hrun]
      exact hremedy f v hv

lemma attempt (hjob : Meets P job R F) :
    Meets P (Job.attempt job)
      (fun r t n => (∀ a, r = .ok a → R a t n) ∧ ∀ f, r = .error f → F t n) F := by
  have hvalue : Meets P (do return .ok (← job) : Job (Except Fault α))
      (fun r t n => (∀ a, r = .ok a → R a t n) ∧ ∀ f, r = .error f → F t n) F := by
    refine hjob.bind fun a => pure fun t n h => ⟨fun b hb => ?_, fun f hf => nomatch hf⟩
    cases hb
    exact h
  exact recover hvalue (fun f => pure fun t n h => ⟨fun b hb => (nomatch hb), fun _ _ => h⟩)
    fun _ _ h => h

end Meets

/-! ## Single steps -/

lemma quiet_stopped : Quiet stopped := by
  intro w
  cases h : w.stop with
  | none => exact ⟨false, w, by simp only [EStateM.run, stopped, h], rfl, rfl⟩
  | some s =>
    exact ⟨s.look.1, { w with stop := some s.look.2 }, by simp only [EStateM.run, stopped, h], rfl, rfl⟩

lemma quiet_log (level : Level) (s : String) : Quiet (log level s) := by
  intro w
  refine ⟨(), _, rfl, ?_, ?_⟩ <;> split <;> rfl

lemma quiet_pathExists (path : String) : Quiet (pathExists path) :=
  fun w => ⟨_, w, rfl, rfl, rfl⟩

/-! ## Jobs that do not depend on the workspace -/

def Fixed (job : Job α) : Prop :=
  (∃ a, ∀ w, job.run w = .ok a w) ∨ ∃ f, ∀ w, job.run w = .error f w

namespace Fixed

lemma ofExcept {ε : Type} {wrap : ε → Fault} (r : Except ε α) : Fixed (Job.ofExcept wrap r) := by
  cases r with
  | ok a => exact .inl ⟨a, fun _ => rfl⟩
  | error e => exact .inr ⟨wrap e, fun _ => rfl⟩

variable {job : Job α}

lemma bind {next : α → Job β} (hjob : Fixed job) (hnext : ∀ a, Fixed (next a)) :
    Fixed (job >>= next) := by
  obtain ⟨a, ha⟩ | ⟨f, hf⟩ := hjob
  · obtain ⟨b, hb⟩ | ⟨g, hg⟩ := hnext a
    · exact .inl ⟨b, fun w => (bind_ok (ha w)).trans (hb w)⟩
    · exact .inr ⟨g, fun w => (bind_ok (ha w)).trans (hg w)⟩
  · exact .inr ⟨f, fun w => bind_error (hf w)⟩

lemma pure (a : α) : Fixed (Pure.pure a) :=
  .inl ⟨a, fun _ => rfl⟩

lemma throw (f : Fault) : Fixed (MonadExcept.throw f : Job α) :=
  .inr ⟨f, fun _ => rfl⟩

lemma meets (hjob : Fixed job) : Meets P job (fun _ => P) P := by
  intro w hw
  obtain ⟨a, ha⟩ | ⟨f, hf⟩ := hjob
  · exact ha w ▸ ended_ok hw
  · exact hf w ▸ ended_error hw

lemma run_eq (hjob : Fixed job) {a : α} {w v : Workspace} (h : job.run w = .ok a v)
    (u : Workspace) : job.run u = .ok a u := by
  obtain ⟨b, hb⟩ | ⟨f, hf⟩ := hjob
  · rw [hb w] at h
    cases h
    exact hb u
  · rw [hf w] at h
    cases h

end Fixed

/-! ## Changes of the files -/

lemma look_ok {f : Tree → Except FileFault α} (h : f w.tree = .ok a) :
    (look f).run w = .ok a w := by
  have hlook : (look f).run w = (ofExcept .file (f w.tree)).run w := rfl
  rw [hlook, h]
  rfl

lemma look_error {f : Tree → Except FileFault α} {e : FileFault}
    (h : f w.tree = .error e) : (look f).run w = .error (.file e) w := by
  have hlook : (look f).run w = (ofExcept .file (f w.tree)).run w := rfl
  rw [hlook, h]
  rfl

lemma change_ok {f : Tree → Except FileFault Tree} {u : Tree}
    (h : f w.tree = .ok u) : (change f).run w = .ok () { w with tree := u } := by
  have hlook : (look f).run w = (ofExcept .file (f w.tree)).run w := rfl
  rw [h] at hlook
  exact bind_ok hlook

lemma change_error {f : Tree → Except FileFault Tree} {e : FileFault}
    (h : f w.tree = .error e) : (change f).run w = .error (.file e) w := by
  have hlook : (look f).run w = (ofExcept .file (f w.tree)).run w := rfl
  rw [h] at hlook
  exact bind_error hlook

lemma Meets.pathExists (path : String) :
    Meets P (Job.pathExists path) (fun found t n => P t n ∧ t.exists? path = found) F :=
  fun _ hw => ended_ok ⟨hw, rfl⟩

/-! ## Faults as values -/

lemma attempt_ok (h : job.run w = .ok a v) : (attempt job).run w = .ok (.ok a) v :=
  tryCatch_ok (bind_ok h)

lemma recover_of_error {remedy : Fault → Job α}
    (h : job.run w = .error f v) (hf : f ≠ .interrupted) :
    (recover job remedy).run w = (remedy f).run v := by
  rw [recover, tryCatch_error h]
  cases f with
  | interrupted => exact absurd rfl hf
  | _ => rfl

lemma attempt_error (h : job.run w = .error f v)
    (hf : f ≠ .interrupted) : (attempt job).run w = .ok (.error f) v :=
  recover_of_error (bind_error h) hf

/-! ## Jobs that only speak -/

def Speaks (job : Job Unit) : Prop :=
  ∀ w, ∃ console log, job.run w = .ok () { w with console, log }

namespace Speaks

lemma log (level : Level) (s : String) : Speaks (Job.log level s) := by
  intro w
  rw [Job.log, modify_run]
  split
  · exact ⟨w.console, w.log, rfl⟩
  · exact ⟨w.console, _, rfl⟩

lemma print (s : String) : Speaks (Job.print s) :=
  fun w => ⟨_, w.log, rfl⟩

variable {job : Job Unit}

lemma bind {next : Job Unit} (hjob : Speaks job) (hnext : Speaks next) : Speaks (do job; next) := by
  intro w
  obtain ⟨console, log, hlog⟩ := hjob w
  obtain ⟨console', log', hlog'⟩ := hnext { w with console, log }
  exact ⟨console', log', (bind_ok hlog).trans hlog'⟩

lemma silent : Speaks (pure ()) :=
  fun w => ⟨w.console, w.log, rfl⟩

lemma printAll (lines : List String) : Speaks (Job.printAll lines) := by
  induction lines with
  | nil => exact silent
  | cons s r ih => exact (print s).bind ih

lemma heading (c : Char) (words : String) : Speaks (Job.heading c words) :=
  (log _ _).bind ((log _ _).bind (log _ _))

lemma ite {c : Prop} [Decidable c] {other : Job Unit} (hjob : Speaks job) (hother : Speaks other) :
    Speaks (if c then job else other) := by
  split
  · exact hjob
  · exact hother

lemma ifThen {c : Prop} [Decidable c] {next : Unit → Job Unit} (hjob : Speaks job)
    (hnext : Speaks (next ())) : Speaks (if c then job >>= next else next ()) :=
  ite (bind hjob hnext) hnext

lemma forIn {γ : Type} (xs : List γ) {body : γ → PUnit → Job (ForInStep PUnit)}
    (hbody : ∀ x w, ∃ console log,
      (body x PUnit.unit).run w = .ok (.yield PUnit.unit) { w with console, log }) :
    Speaks (ForIn.forIn xs PUnit.unit body) := by
  induction xs with
  | nil => exact silent
  | cons x r ih =>
    intro w
    obtain ⟨console, log, hlog⟩ := hbody x w
    obtain ⟨console', log', hlog'⟩ := ih { w with console, log }
    rw [List.forIn_cons]
    exact ⟨console', log', (bind_ok hlog).trans hlog'⟩

end Speaks

/-! ## Jobs that are not interrupted -/

def Uninterrupted (job : Job α) : Prop :=
  ∀ w f v, job.run w = .error f v → f ≠ .interrupted

namespace Uninterrupted

lemma pure (a : α) : Uninterrupted (Pure.pure a) :=
  fun _ _ _ h => nomatch h

lemma bind {job : Job α} {next : α → Job β} (hjob : Uninterrupted job)
    (hnext : ∀ a, Uninterrupted (next a)) : Uninterrupted (job >>= next) := by
  intro w f v h
  cases hrun : job.run w with
  | ok a u =>
    rw [bind_ok hrun] at h
    exact hnext a u f v h
  | error g u =>
    rw [bind_error hrun] at h
    cases h
    exact hjob w f v hrun

lemma ite {c : Prop} [Decidable c] {job other : Job α} (hjob : Uninterrupted job)
    (hother : Uninterrupted other) : Uninterrupted (if c then job else other) := by
  split
  · exact hjob
  · exact hother

lemma words {job : Job Unit} (hjob : Speaks job) : Uninterrupted job := by
  intro w f v h
  obtain ⟨console, log, hrun⟩ := hjob w
  rw [hrun] at h
  cases h

lemma look (f : Tree → Except FileFault α) : Uninterrupted (Job.look f) := by
  intro w g v h
  cases hf : f w.tree with
  | ok a =>
    rw [look_ok hf] at h
    cases h
  | error e =>
    rw [look_error hf] at h
    cases h
    simp

lemma change (f : Tree → Except FileFault Tree) : Uninterrupted (Job.change f) :=
  (look f).bind fun _ _ _ _ h => nomatch h

lemma pathExists (path : String) : Uninterrupted (Job.pathExists path) :=
  fun _ _ _ h => nomatch h

end Uninterrupted

lemma ended_recover {remedy : Fault → Job α} {F' : Tree → Network → Prop}
    (hjob : Ended (job.run w) R F') (hun : Uninterrupted job)
    (hremedy : ∀ f, Meets F' (remedy f) R F) : Ended ((recover job remedy).run w) R F := by
  cases h : job.run w with
  | ok a v =>
    rw [recover, tryCatch_ok h]
    exact ended_ok (hjob.1 a v h)
  | error f v =>
    rw [recover_of_error h (hun w f v h)]
    exact hremedy f v (hjob.2 f v h)

/-! ## Jobs that only look -/

/-- A job that only looks at the files: how it ends, and with which value or fault, depends on the
files alone, which stay as they are. It is not interrupted. -/
def Looks (job : Job α) : Prop :=
  ∀ t, (∃ a, ∀ w, w.tree = t → ∃ v, job.run w = .ok a v ∧ v.tree = t) ∨
    ∃ f, f ≠ .interrupted ∧ ∀ w, w.tree = t → ∃ v, job.run w = .error f v ∧ v.tree = t

/-- What a job gives in a workspace with some files and nothing else. -/
def on (job : Job α) (t : Tree) : Option α :=
  job.run' { tree := t }

lemma on_eq_some {t : Tree} (h : job.run { tree := t } = .ok a v) : job.on t = some a := by
  delta on EStateM.run'
  rw [h]

lemma on_eq_none {t : Tree} (h : job.run { tree := t } = .error f v) : job.on t = none := by
  delta on EStateM.run'
  rw [h]

namespace Looks

variable {job : Job α}

/-- **How a look ends**: with the value that it gives for the files, or with a fault if there is
none. -/
lemma cases (hjob : Looks job) (w : Workspace) :
    (∃ a v, job.on w.tree = some a ∧ job.run w = .ok a v ∧ v.tree = w.tree) ∨
      ∃ f v, job.on w.tree = none ∧ f ≠ .interrupted ∧ job.run w = .error f v ∧
        v.tree = w.tree := by
  obtain ⟨a, ha⟩ | ⟨f, hne, hf⟩ := hjob w.tree
  · obtain ⟨v, hv, htree⟩ := ha w rfl
    obtain ⟨u, hu, -⟩ := ha { tree := w.tree } rfl
    exact .inl ⟨a, v, on_eq_some hu, hv, htree⟩
  · obtain ⟨v, hv, htree⟩ := hf w rfl
    obtain ⟨u, hu, -⟩ := hf { tree := w.tree } rfl
    exact .inr ⟨f, v, on_eq_none hu, hne, hv, htree⟩

lemma pure (a : α) : Looks (Pure.pure a) :=
  fun _ => .inl ⟨a, fun w hw => ⟨w, rfl, hw⟩⟩

lemma ofExcept {ε : Type} {wrap : ε → Fault} (hwrap : ∀ e, wrap e ≠ .interrupted)
    (r : Except ε α) : Looks (Job.ofExcept wrap r) := by
  cases r with
  | ok a => exact pure a
  | error e => exact fun _ => .inr ⟨wrap e, hwrap e, fun w hw => ⟨w, rfl, hw⟩⟩

lemma bind {next : α → Job β} (hjob : Looks job) (hnext : ∀ a, Looks (next a)) :
    Looks (job >>= next) := by
  intro t
  obtain ⟨a, ha⟩ | ⟨f, hne, hf⟩ := hjob t
  · obtain ⟨b, hb⟩ | ⟨f, hne, hf⟩ := hnext a t
    · refine .inl ⟨b, fun w hw => ?_⟩
      obtain ⟨v, hv, htree⟩ := ha w hw
      rw [bind_ok hv]
      exact hb v htree
    · refine .inr ⟨f, hne, fun w hw => ?_⟩
      obtain ⟨v, hv, htree⟩ := ha w hw
      rw [bind_ok hv]
      exact hf v htree
  · refine .inr ⟨f, hne, fun w hw => ?_⟩
    obtain ⟨v, hv, htree⟩ := hf w hw
    exact ⟨v, bind_error hv, htree⟩

lemma ite {c : Prop} [Decidable c] {other : Job α} (hjob : Looks job) (hother : Looks other) :
    Looks (if c then job else other) := by
  split
  · exact hjob
  · exact hother

lemma words {words : Job Unit} (hwords : Speaks words) (hjob : Looks job) :
    Looks (do words; job) := by
  refine bind (fun t => .inl ⟨(), fun w hw => ?_⟩) fun _ => hjob
  obtain ⟨console, log, hlog⟩ := hwords w
  exact ⟨_, hlog, hw⟩

lemma tree : Looks Job.tree :=
  fun t => .inl ⟨t, fun w hw => ⟨w, congrArg (EStateM.Result.ok · w) hw, hw⟩⟩

lemma look (f : Tree → Except FileFault α) : Looks (Job.look f) := by
  refine tree.bind fun t => ofExcept (fun e h => ?_) (f t)
  cases h

lemma recover {remedy : Fault → Job α} (hjob : Looks job)
    (hremedy : ∀ f, Looks (remedy f)) : Looks (Job.recover job remedy) := by
  intro t
  obtain ⟨a, ha⟩ | ⟨f, hne, hf⟩ := hjob t
  · refine .inl ⟨a, fun w hw => ?_⟩
    obtain ⟨v, hv, htree⟩ := ha w hw
    exact ⟨v, tryCatch_ok hv, htree⟩
  · obtain ⟨a, ha⟩ | ⟨g, hg, hremedied⟩ := hremedy f t
    · refine .inl ⟨a, fun w hw => ?_⟩
      obtain ⟨v, hv, htree⟩ := hf w hw
      rw [recover_of_error hv hne]
      exact ha v htree
    · refine .inr ⟨g, hg, fun w hw => ?_⟩
      obtain ⟨v, hv, htree⟩ := hf w hw
      rw [recover_of_error hv hne]
      exact hremedied v htree

end Looks

end Salvage.Job
