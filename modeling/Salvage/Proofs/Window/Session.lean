import Salvage.Proofs.Job
import Salvage.Window.Actions

/-!
# Sessions at the window

A session is a window together with the tasks that were started from it and have not ended. It goes on
by actions: buttons are pressed, the window is closed or not, a filter is chosen, the filters are looked
for again, the files change, and tasks end, in any order. A task that was started has a number, and the
window only knows whether the task that was started last is still running.
-/

namespace Salvage

open Window

/-! ## Contracts about the window -/

namespace Desk

variable {α β : Type} {P F : Window → Prop} {R : α → Window → Prop} {Q : β → Window → Prop}

/-- What is done at a window of which `before` holds ends with a value for which `after` holds of the
window, or with a fault, when `failed` holds of it. -/
def Meets (before : Window → Prop) (x : Desk α) (after : α → Window → Prop)
    (failed : Window → Prop) : Prop :=
  ∀ d : Window × Workspace, before d.1 →
    (∀ a v, x.run d = .ok a v → after a v.1) ∧ ∀ f v, x.run d = .error f v → failed v.1

def state (x : Desk α) (d : Window × Workspace) : Window × Workspace :=
  match x.run d with
  | .ok _ v => v
  | .error _ v => v

lemma window_bind_run (f : Window → Desk β) (d : Window × Workspace) :
    (Desk.window >>= f).run d = (f d.1).run d :=
  rfl

namespace Meets

variable {x : Desk α}

lemma state (h : Meets P x (fun _ => F) F) {d : Window × Workspace} (hd : P d.1) :
    F (x.state d).1 := by
  obtain ⟨hok, herror⟩ := h d hd
  unfold Desk.state
  cases hrun : x.run d with
  | ok a v => exact hok a v hrun
  | error f v => exact herror f v hrun

lemma pure {a : α} (h : ∀ w, P w → R a w) : Meets P (Pure.pure a) R F := by
  intro d hd
  refine ⟨fun b v hv => ?_, fun f v hv => nomatch hv⟩
  cases hv
  exact h d.1 hd

lemma bind {f : α → Desk β} (hx : Meets P x R F) (hf : ∀ a, Meets (R a) (f a) Q F) :
    Meets P (x >>= f) Q F := by
  intro d hd
  obtain ⟨hok, herror⟩ := hx d hd
  cases h : x.run d with
  | ok a v =>
    rw [Run.bind_ok h]
    exact hf a v (hok a v h)
  | error e v =>
    rw [Run.bind_error h]
    refine ⟨fun b u hu => (nomatch hu), fun e' u hu => ?_⟩
    cases hu
    exact herror e v h

lemma job (j : Job α) : Meets P (Desk.job j) (fun _ => P) P := by
  rintro ⟨w, s⟩ hw
  have hrun : (Desk.job j).run (w, s) = Desk.job j (w, s) := rfl
  rw [hrun, Desk.job]
  cases j s with
  | ok a v =>
    refine ⟨fun b u hu => ?_, fun f u hu => nomatch hu⟩
    cases hu
    exact hw
  | error e v =>
    refine ⟨fun b u hu => (nomatch hu), fun f u hu => ?_⟩
    cases hu
    exact hw

lemma words {j : Job Unit} (hj : Job.Speaks j) : Meets P (Desk.job j) (fun _ => P) F := by
  rintro ⟨w, s⟩ hw
  obtain ⟨console, log, hrun⟩ := hj s
  have hdesk : (Desk.job j).run (w, s) = .ok () (w, { s with console, log }) := by
    have h : j s = .ok () { s with console, log } := hrun
    show Desk.job j (w, s) = _
    rw [Desk.job, h]
  rw [hdesk]
  refine ⟨fun b u hu => ?_, fun f u hu => nomatch hu⟩
  cases hu
  exact hw

lemma window_bind {f : Window → Desk β} (hf : ∀ w, P w → Meets (· = w) (f w) Q F) :
    Meets P (Desk.window >>= f) Q F := by
  intro d hd
  rw [window_bind_run]
  exact hf d.1 hd d rfl

lemma change {g : Window → Window} {Q : Unit → Window → Prop} (h : ∀ w, P w → Q () (g w)) :
    Meets P (Desk.change g) Q F := by
  intro d hd
  refine ⟨fun b v hv => ?_, fun f v hv => nomatch hv⟩
  cases hv
  exact h d.1 hd

lemma modify {g : Window × Workspace → Window × Workspace} {Q : PUnit → Window → Prop}
    (h : ∀ d, P d.1 → Q ⟨⟩ (g d).1) : Meets P (modify g : Desk PUnit) Q F := by
  intro d hd
  refine ⟨fun b v hv => ?_, fun f v hv => nomatch hv⟩
  cases hv
  exact h d hd

lemma ite {c : Prop} [Decidable c] {y : Desk α} (hx : c → Meets P x R F)
    (hy : ¬ c → Meets P y R F) : Meets P (if c then x else y) R F := by
  by_cases h : c
  · rw [if_pos h]
    exact hx h
  · rw [if_neg h]
    exact hy h

lemma mono {P' F' : Window → Prop} {R' : α → Window → Prop} (h : Meets P x R F)
    (hP : ∀ w, P' w → P w) (hR : ∀ a w, R a w → R' a w) (hF : ∀ w, F w → F' w) :
    Meets P' x R' F' := by
  intro d hd
  obtain ⟨hok, herror⟩ := h d (hP _ hd)
  exact ⟨fun a v hv => hR _ _ (hok a v hv), fun f v hv => hF _ (herror f v hv)⟩

lemma pre {G : Window → Prop} (h : Meets P x R F) (hP : ∀ w, G w → P w) : Meets G x R F :=
  h.mono hP (fun _ _ h => h) fun _ h => h

lemma tryCatch {remedy : Fault → Desk α} {G : Window → Prop} (hx : Meets P x R G)
    (hremedy : ∀ f, Meets G (remedy f) R F) : Meets P (tryCatch x remedy) R F := by
  intro d hd
  obtain ⟨hok, herror⟩ := hx d hd
  cases h : x.run d with
  | ok a v =>
    rw [Run.tryCatch_ok h]
    refine ⟨fun b u hu => ?_, fun f u hu => nomatch hu⟩
    cases hu
    exact hok a v h
  | error e v =>
    rw [Run.tryCatch_error h]
    exact hremedy e v (herror e v h)

end Meets

end Desk

/-! ## What a button can do -/

namespace Window

variable {w v : Window}

/-- All that pressing a button can do to the task and to the stop sign, when it starts a task or when it
does not: both stay as they are, or the sign is raised for the task that is running, or a task is
started where none is running. -/
inductive Effect (w : Window) : Option (Desk Unit) → Window → Prop
  | kept {v : Window} (hworker : v.worker = w.worker) (hsign : v.sign = w.sign) : Effect w none v
  | raised {v : Window} (hbusy : w.isBusy = true) (hworker : v.worker = w.worker)
      (hsign : v.sign.raised = true) : Effect w none v
  | started {v : Window} {work : Desk Unit} (hfree : w.isBusy = false)
      (hworker : v.worker = .running) : Effect w (some work) v

def SameTask (w v : Window) : Prop :=
  v.worker = w.worker ∧ v.sign = w.sign

lemma SameTask.effect (h : w.SameTask v) : Effect w none v :=
  .kept h.1 h.2

variable {P F Q : Window → Prop}

lemma loadSettings_meets (h : ∀ v boxes, P v → P { v with boxes }) :
    Desk.Meets P loadSettings (fun _ => P) P := by
  refine .window_bind fun u hu => ?_
  refine Desk.Meets.pre (P := P) ?_ fun v hv => hv ▸ hu
  refine (Desk.Meets.job _).bind fun r => ?_
  cases r with
  | ok settings => exact .pure fun _ h => h
  | error f => exact .bind (R := fun _ => P) (.change fun v hv => h v _ hv) fun _ => .pure fun _ h => h

lemma unlessBusy_effect {words : String} {begin : Doc → Desk (Option (Desk Unit))} {w : Window}
    (hbegin : w.isBusy = false → ∀ settings,
      Desk.Meets w.SameTask (begin settings) (Effect w) (Effect w none)) :
    Desk.Meets (· = w) (unlessBusy words begin) (Effect w) (Effect w none) := by
  refine .window_bind fun u hu => ?_
  subst hu
  have hsame : ∀ v, v = u → u.SameTask v := by
    rintro v rfl
    exact ⟨rfl, rfl⟩
  refine .ite (fun hbusy => ?_) fun hfree => ?_
  · refine .bind (R := fun _ => u.SameTask) (.change ?_) fun _ => .pure fun v hv => hv.effect
    rintro v rfl
    exact ⟨rfl, rfl⟩
  · have hload := (loadSettings_meets (P := u.SameTask) fun _ _ h => h).mono hsame
      (fun _ _ h => h) fun v hv => hv.effect
    refine hload.bind fun r => ?_
    cases r with
    | none => exact .pure fun v hv => hv.effect
    | some settings => exact hbegin (Bool.eq_false_iff.mpr hfree) settings

lemma job_bind_effect {α : Type} {j : Job α} {f : α → Desk (Option (Desk Unit))} {w : Window}
    (hf : ∀ a, Desk.Meets w.SameTask (f a) (Effect w) (Effect w none)) :
    Desk.Meets w.SameTask (Desk.job j >>= f) (Effect w) (Effect w none) := by
  have hjob : Desk.Meets w.SameTask (Desk.job j) (fun _ => w.SameTask) (Effect w none) :=
    (Desk.Meets.job j).mono (fun _ h => h) (fun _ _ h => h) fun v hv => hv.effect
  exact hjob.bind hf

lemma begin_effect {w : Window} (hfree : w.isBusy = false) (work : Desk Unit) :
    Desk.Meets w.SameTask
      (do Desk.change fun w => { w.lowerSign with worker := .running }; return some work)
      (Effect w) (Effect w none) := by
  refine .bind (R := fun _ v => v.worker = .running) (.change fun _ _ => rfl) fun _ => ?_
  exact .pure fun v hv => .started hfree hv

lemma startTask_effect (t : Task) (name : String) (w : Window) :
    Desk.Meets (· = w) (startTask t name) (Effect w) (Effect w none) := by
  refine unlessBusy_effect fun hfree settings => ?_
  refine .window_bind fun u hu => ?_
  refine Desk.Meets.pre (P := w.SameTask) ?_ fun v hv => hv ▸ hu
  refine job_bind_effect fun settings => job_bind_effect fun package => ?_
  refine .bind (R := fun _ => w.SameTask) (.change fun _ h => h) fun _ => ?_
  exact job_bind_effect fun _ => begin_effect hfree _

lemma startLists_effect (w : Window) : Desk.Meets (· = w) startLists (Effect w) (Effect w none) :=
  unlessBusy_effect fun hfree _ => job_bind_effect fun _ => begin_effect hfree _

lemma stopTask_effect (w : Window) :
    Desk.Meets (· = w) stopTask (fun _ => Effect w none) (Effect w none) := by
  refine .window_bind fun u hu => ?_
  subst hu
  refine .ite (fun hbusy => ?_) fun _ => ?_
  · refine .bind (R := fun _ => Effect u none) (.change ?_) fun _ => .job _
    rintro v rfl
    exact .raised hbusy rfl rfl
  · refine .change ?_
    rintro v rfl
    exact .kept rfl rfl

lemma browseSettings_meets (h : ∀ v boxes settingsPath, P v → P { v with boxes, settingsPath }) :
    Desk.Meets P browseSettings (fun _ => P) F := by
  refine .bind (R := fun _ => P) (.change fun v hv => h v _ v.settingsPath hv) fun _ => ?_
  refine .window_bind fun u hu => ?_
  refine .ite (fun _ => .change ?_) fun _ => .pure ?_
  · rintro v rfl
    exact h v v.boxes _ hu
  · rintro v rfl
    exact hu

lemma browsePackage_meets (hnone : ∀ v boxes, P v → v.choice.isEmpty = true → Q { v with boxes })
    (hsome : ∀ v boxes, P v → v.choice.isEmpty = false → Q { v with boxes, package := v.choice }) :
    Desk.Meets P browsePackage (fun _ => Q) F := by
  refine .bind (R := fun _ u => ∃ v boxes, P v ∧ u = { v with boxes })
    (.change fun v hv => ⟨v, _, hv, rfl⟩) fun _ => ?_
  refine .window_bind fun u hu => ?_
  obtain ⟨v, boxes, hv, rfl⟩ := hu
  refine .ite (fun hchoice => ?_) fun hchoice => .pure ?_
  · refine .bind (R := fun _ => Q) (.change ?_) fun _ => .words (.log _ _)
    rintro _ rfl
    exact hsome v boxes hv (by simpa using hchoice)
  · rintro _ rfl
    exact hnone v boxes hv (by simpa using hchoice)

lemma start_effect (b : Button) (w : Window) :
    Desk.Meets (· = w) (start b) (Effect w) (Effect w none) := by
  have hsame : ∀ v, v = w → w.SameTask v := by
    rintro v rfl
    exact ⟨rfl, rfl⟩
  cases b with
  | browseSettings =>
    refine .bind (R := fun _ => w.SameTask) ?_ fun _ => .pure fun v hv => hv.effect
    exact .pre (browseSettings_meets fun _ _ _ h => h) hsame
  | browsePackage =>
    refine .bind (R := fun _ => w.SameTask) ?_ fun _ => .pure fun v hv => hv.effect
    exact .pre (browsePackage_meets (P := w.SameTask) (fun _ _ h _ => h) fun _ _ h _ => h) hsame
  | downloadLists => exact startLists_effect w
  | stop => exact (stopTask_effect w).bind fun _ => .pure fun v hv => hv
  | _ => exact startTask_effect _ _ w

lemma stopTask_raises :
    Desk.Meets (·.isBusy = true) stopTask (fun _ v => v.sign.raised = true)
      (·.sign.raised = true) := by
  refine .window_bind fun u hu => ?_
  rw [if_pos hu]
  exact .bind (R := fun _ v => v.sign.raised = true) (.change fun _ _ => rfl) fun _ => .job _

lemma close_effect (w : Window) :
    Desk.Meets (· = w) close (fun _ => Effect w none) (Effect w none) := by
  have hshut : ∀ v, Effect w none v → Effect w none { v with logging := false, closed := true } := by
    intro v hv
    cases hv with
    | kept hworker hsign => exact .kept hworker hsign
    | raised hbusy hworker hsign => exact .raised hbusy hworker hsign
  refine .window_bind fun u hu => ?_
  subst hu
  by_cases hbusy : u.isBusy = true
  · rw [if_pos hbusy]
    refine .bind (R := fun _ => u.SameTask) (.change ?_) fun _ => .window_bind fun v hv => ?_
    · rintro v rfl
      exact ⟨rfl, rfl⟩
    · refine .ite (fun _ => .pure ?_) fun _ => ?_
      · rintro _ rfl
        exact hv.effect
      · refine .bind (R := fun _ => Effect u none) (.change ?_) fun _ => .change hshut
        rintro _ rfl
        exact .raised hbusy hv.1 rfl
  · rw [if_neg hbusy]
    refine .change ?_
    rintro v rfl
    exact hshut v (.kept rfl rfl)

lemma stopTask_meets (h : ∀ v boxes sign, P v → P { v with boxes, sign }) :
    Desk.Meets P stopTask (fun _ => P) P := by
  refine .window_bind fun u hu => Desk.Meets.pre (P := P) ?_ fun v hv => hv ▸ hu
  refine .ite (fun _ => ?_) fun _ => .change fun v hv => h v _ v.sign hv
  exact .bind (R := fun _ => P) (.change fun v hv => h v v.boxes _ hv) fun _ => .job _

lemma close_meets
    (h : ∀ v boxes sign logging closed, P v → P { v with boxes, sign, logging, closed }) :
    Desk.Meets P close (fun _ => P) P := by
  have hshut : Desk.Meets P (Desk.change fun w => { w with logging := false, closed := true })
      (fun _ => P) P := .change fun v hv => h v v.boxes v.sign _ _ hv
  refine .window_bind fun u hu => Desk.Meets.pre (P := P) ?_ fun v hv => hv ▸ hu
  by_cases hbusy : u.isBusy = true
  · rw [if_pos hbusy]
    refine .bind (R := fun _ => P) (.change fun v hv => h v _ v.sign v.logging v.closed hv) fun _ => ?_
    refine .window_bind fun v hv => Desk.Meets.pre (P := P) ?_ fun u hu => hu ▸ hv
    refine .ite (fun _ => .pure fun _ h => h) fun _ => ?_
    exact .bind (R := fun _ => P) (.change fun v hv => h v v.boxes _ v.logging v.closed hv) fun _ => hshut
  · rw [if_neg hbusy]
    exact hshut

/-- What looking for filters offers, and what it shows as chosen. -/
inductive Offer : List String → String → Prop
  | nothing : Offer [allChoice] allChoice
  | names (names : List String) : Offer (allChoice :: names) everythingChoice

/-- **Looking for filters** changes what is offered and chosen, and nothing else. -/
lemma refreshFilter_meets
    (h : ∀ v choices chosen, P v → Offer choices chosen → Q { v with choices, filter := chosen }) :
    Desk.Meets P refreshFilter (fun _ => Q) F := by
  have hnothing : ∀ {F}, Desk.Meets P (setChoices [allChoice] allChoice) (fun _ => Q) F :=
    .change fun v hv => h v _ _ hv .nothing
  have hfind : Desk.Meets P findChoices (fun _ => Q) P := by
    refine (Desk.Meets.job _).bind fun t => .ite (fun _ => hnothing) fun _ => ?_
    refine (Desk.Meets.job _).bind fun names => ?_
    dsimp only
    split
    · exact hnothing
    · refine .bind (R := fun _ => Q) (.change fun v hv => h v _ _ hv (.names _)) fun _ => ?_
      exact .words (.log _ _)
  exact hfind.tryCatch fun f => .bind (.words (.log _ _)) fun _ => hnothing

lemma readSettings_meets (h : ∀ v listsOnly package, P v → P { v with listsOnly, package }) :
    Desk.Meets P readSettings (fun _ => P) P := by
  refine .tryCatch (G := P) ?_ fun _ => .pure fun _ h => h
  refine (Desk.Meets.job _).bind fun settings => (Desk.Meets.job _).bind fun part => ?_
  refine (Desk.Meets.job _).bind fun given => ?_
  have hpackage : Desk.Meets P
      (do
        let package ← Desk.job (Update.shape (packageOf settings))
        Desk.change (·.choosePackage package))
      (fun _ => P) P :=
    (Desk.Meets.job _).bind fun _ => .change fun v hv => h v v.listsOnly _ hv
  refine .ite (fun _ => ?_) fun _ => hpackage
  exact .bind (R := fun _ => P) (.change fun v hv => h v _ v.package hv) fun _ => hpackage

/-- **Opening the window** offers filters, shows a text and takes what the settings say. -/
lemma launch_meets
    (hoffer : ∀ v choices chosen, P v → Offer choices chosen → Q { v with choices, filter := chosen })
    (htext : ∀ v text logging earlier, Q v → Q { v with text, logging, earlier })
    (hsettings : ∀ v listsOnly package, Q v → Q { v with listsOnly, package }) :
    Desk.Meets P launch (fun _ => Q) Q := by
  refine .bind (R := fun _ => Q) (refreshFilter_meets hoffer) fun _ => ?_
  refine .bind (R := fun _ => Q) (.change fun v hv => htext v _ v.logging v.earlier hv) fun _ => ?_
  refine .bind (R := fun _ => Q) ?_ fun _ => readSettings_meets hsettings
  exact .modify fun d hd => htext d.1 d.1.text _ _ hd

end Window

/-! ## Sessions -/

structure Thread where
  number : Nat
  work : Desk Unit

structure Session where
  window : Window
  workspace : Workspace
  started : Nat := 0
  alive : List Thread := []

namespace Session

inductive Action where
  /-- A button is pressed; `file` is what the user chooses if asked for a file, empty for none. -/
  | press (b : Window.Button) (file : String)
  /-- The window is to be closed; the user answers whether a running task is to be stopped. -/
  | close (confirmed : Bool)
  | choose (entry : String)
  | refresh
  | meanwhile (workspace : Workspace)
  | finish (number : Nat)

def after {α : Type} (s : Session) (x : Desk α) : Session :=
  { s with window := (x.state (s.window, s.workspace)).1, workspace := (x.state (s.window, s.workspace)).2 }

def begin (s : Session) (x : Desk (Option (Desk Unit))) : Session :=
  match x.run (s.window, s.workspace) with
  | .ok (some work) (w, v) =>
    { window := w, workspace := v, started := s.started + 1
      alive := ⟨s.started, work⟩ :: s.alive }
  | .ok none (w, v) => { s with window := w, workspace := v }
  | .error _ (w, v) => { s with window := w, workspace := v }

def choose (s : Session) (entry : String) : Session :=
  if entry ∈ s.window.choices then { s with window := { s.window with filter := entry } } else s

def finish (s : Session) (t : Thread) : Session :=
  let done := s.after t.work
  { done with
    window :=
      if t.number + 1 = s.started then { done.window with worker := .finished } else done.window
    alive := s.alive.filter (·.number ≠ t.number) }

def step (s : Session) : Action → Session
  | .press b file =>
    ({ s with window := { s.window with choice := file } } : Session).begin (start b)
  | .close confirmed =>
    ({ s with window := { s.window with confirms := confirmed } } : Session).after close
  | .choose entry => s.choose entry
  | .refresh => s.after refreshFilter
  | .meanwhile workspace => { s with workspace }
  | .finish number => ((s.alive.find? (·.number = number)).map s.finish).getD s

def run (s : Session) (actions : List Action) : Session :=
  actions.foldl step s

def opened (workspace : Workspace) : Session :=
  ({ window := {}, workspace } : Session).after launch

variable {s s' : Session}

/-! ### What an action can do -/

/-- All that an action can do to the tasks of a session: it starts and ends none, or it starts one where
the window knows of none, or one of them ends. -/
inductive Change (s : Session) : Session → Prop
  | none {s' : Session} (halive : s'.alive = s.alive) (hstarted : s'.started = s.started)
      (heffect : Window.Effect s.window none s'.window) : Change s s'
  | start {s' : Session} {work : Desk Unit} (hfree : s.window.isBusy = false)
      (halive : s'.alive = ⟨s.started, work⟩ :: s.alive) (hstarted : s'.started = s.started + 1)
      (hworker : s'.window.worker = .running) : Change s s'
  | finish {s' : Session} {t : Thread} (ht : t ∈ s.alive)
      (halive : s'.alive = s.alive.filter (·.number ≠ t.number)) (hstarted : s'.started = s.started)
      (hlast : t.number + 1 = s.started → s'.window.worker = .finished) : Change s s'

lemma window_begin {P F : Window → Prop} {x : Desk (Option (Desk Unit))}
    (hx : Desk.Meets P x (fun _ => F) F) (hs : P s.window) : F (s.begin x).window := by
  obtain ⟨hok, herror⟩ := hx (s.window, s.workspace) hs
  unfold begin
  cases hrun : x.run (s.window, s.workspace) with
  | ok r v =>
    have hv := hok r v hrun
    cases r with
    | none => exact hv
    | some work => exact hv
  | error f v => exact herror f v hrun

lemma change_begin {x : Desk (Option (Desk Unit))}
    (hx : Desk.Meets (· = s.window) x (Window.Effect s.window) (Window.Effect s.window none)) :
    Change s (s.begin x) := by
  obtain ⟨hok, herror⟩ := hx (s.window, s.workspace) rfl
  unfold begin
  cases hrun : x.run (s.window, s.workspace) with
  | ok r v =>
    have heffect := hok r v hrun
    cases r with
    | none => exact .none rfl rfl heffect
    | some work =>
      cases heffect with
      | started hfree hworker => exact .start hfree rfl rfl hworker
  | error f v => exact .none rfl rfl (herror f v hrun)

lemma change_step (s : Session) (a : Action) : Change s (s.step a) := by
  cases a with
  | press b file =>
    -- the answer to a question for a file is no part of what a change is about
    have h := change_begin (s := { s with window := { s.window with choice := file } })
      (start_effect b _)
    cases h with
    | none halive hstarted heffect =>
      refine .none halive hstarted ?_
      cases heffect with
      | kept hworker hsign => exact .kept hworker hsign
      | raised hbusy hworker hsign => exact .raised hbusy hworker hsign
    | start hfree halive hstarted hworker => exact .start hfree halive hstarted hworker
    | finish ht halive hstarted hlast => exact .finish ht halive hstarted hlast
  | close confirmed =>
    have h := (close_effect { s.window with confirms := confirmed }).state
      (d := ({ s.window with confirms := confirmed }, s.workspace)) rfl
    refine .none rfl rfl ?_
    cases h with
    | kept hworker hsign => exact .kept hworker hsign
    | raised hbusy hworker hsign => exact .raised hbusy hworker hsign
  | choose entry =>
    show Change s (s.choose entry)
    unfold choose
    split
    · exact .none rfl rfl (.kept rfl rfl)
    · exact .none rfl rfl (.kept rfl rfl)
  | refresh =>
    have h := (refreshFilter_meets (P := s.window.SameTask) (Q := s.window.SameTask)
      fun _ _ _ h _ => h).state (d := (s.window, s.workspace)) ⟨rfl, rfl⟩
    exact .none rfl rfl h.effect
  | meanwhile workspace => exact .none rfl rfl (.kept rfl rfl)
  | finish number =>
    show Change s (((s.alive.find? (·.number = number)).map s.finish).getD s)
    cases ht : s.alive.find? (·.number = number) with
    | none => exact .none rfl rfl (.kept rfl rfl)
    | some t =>
      refine .finish (List.mem_of_find?_eq_some ht) rfl rfl fun hlast => ?_
      simp [finish, hlast]

/-! ### One task at a time -/

inductive Sound (s : Session) : Prop
  | idle (halive : s.alive = []) (hfree : s.window.isBusy = false)
  | working {t : Thread} (halive : s.alive = [t]) (hlast : t.number + 1 = s.started)
      (hbusy : s.window.isBusy = true)

lemma isBusy_of_effect {w v : Window} (h : Window.Effect w none v) : v.isBusy = w.isBusy := by
  cases h with
  | kept hworker hsign => rw [isBusy, isBusy, hworker]
  | raised hbusy hworker hsign => rw [isBusy, isBusy, hworker]

namespace Sound

lemma change (hs : s.Sound) (h : Change s s') : s'.Sound := by
  cases h with
  | none halive hstarted heffect =>
    have hsame := isBusy_of_effect heffect
    cases hs with
    | idle hnone hfree => exact .idle (halive.trans hnone) (hsame.trans hfree)
    | working hone hlast hbusy =>
      exact .working (halive.trans hone) (by rw [hstarted]; exact hlast) (hsame.trans hbusy)
  | start hfree halive hstarted hworker =>
    cases hs with
    | idle hnone _ =>
      rw [hnone] at halive
      exact .working halive hstarted.symm (by simp [isBusy, hworker])
    | working hone hlast hbusy =>
      rw [hfree] at hbusy
      cases hbusy
  | finish ht halive hstarted hlast =>
    cases hs with
    | idle hnone hfree =>
      rw [hnone] at ht
      cases ht
    | working hone hnumber hbusy =>
      rw [hone, List.mem_singleton] at ht
      subst ht
      have hnone : s'.alive = [] := by simp [halive, hone]
      have hended := hlast hnumber
      exact .idle hnone (by simp [isBusy, hended])

lemma run (hs : s.Sound) (actions : List Action) : (s.run actions).Sound := by
  induction actions generalizing s with
  | nil => exact hs
  | cons a r ih => exact ih (hs.change (change_step s a))

lemma opened (workspace : Workspace) : (Session.opened workspace).Sound := by
  have h := (launch_meets (P := Window.SameTask {}) (Q := Window.SameTask {})
    (fun _ _ _ h _ => h) (fun _ _ _ _ h => h) fun _ _ _ h => h).state (d := ({}, workspace)) ⟨rfl, rfl⟩
  refine .idle rfl ?_
  have hworker : (Session.opened workspace).window.worker = .none := h.1
  simp [isBusy, hworker]

lemma length_alive_le (hs : s.Sound) : s.alive.length ≤ 1 := by
  cases hs with
  | idle hnone _ => simp [hnone]
  | working hone _ _ => simp [hone]

lemma eq_of_mem (hs : s.Sound) {t u : Thread} (ht : t ∈ s.alive) (hu : u ∈ s.alive) : t = u := by
  cases hs with
  | idle hnone _ =>
    rw [hnone] at ht
    cases ht
  | working hone _ _ =>
    rw [hone, List.mem_singleton] at ht hu
    rw [ht, hu]

lemma isBusy_of_mem (hs : s.Sound) {t : Thread} (ht : t ∈ s.alive) :
    s.window.isBusy = true ∧ t.number < s.started := by
  cases hs with
  | idle hnone _ =>
    rw [hnone] at ht
    cases ht
  | working hone hlast hbusy =>
    rw [hone, List.mem_singleton] at ht
    subst ht
    exact ⟨hbusy, by omega⟩

end Sound

/-! ### Stop signs -/

structure Asked (number : Nat) (s : Session) : Prop where
  sound : s.Sound
  past : number < s.started
  raised : (∃ t ∈ s.alive, t.number = number) → s.window.sign.raised = true

namespace Asked

variable {number : Nat}

/-- **One action does not take back the request**: while the task is alive nothing can be started, and
only a start lowers the sign. -/
lemma change (hs : s.Asked number) (h : Change s s') : s'.Asked number := by
  obtain ⟨hsound, hpast, hraised⟩ := hs
  refine ⟨hsound.change h, ?_, ?_⟩
  · cases h <;> omega
  · rintro ⟨t, ht, rfl⟩
    cases h with
    | none halive hstarted heffect =>
      rw [halive] at ht
      cases heffect with
      | kept hworker hsign =>
        rw [hsign]
        exact hraised ⟨t, ht, rfl⟩
      | raised hbusy hworker hsign => exact hsign
    | start hfree halive hstarted hworker =>
      -- the task that is started has a number of its own, and no other is alive
      rw [halive, List.mem_cons] at ht
      rcases ht with rfl | ht
      · simp at hpast
      · have hbusy := (hsound.isBusy_of_mem ht).1
        rw [hfree] at hbusy
        cases hbusy
    | finish hu halive hstarted hlast =>
      rw [halive] at ht
      -- the only task that can have ended is this one
      obtain ⟨hmem, hne⟩ := List.mem_filter.mp ht
      rw [hsound.eq_of_mem hmem hu] at hne
      simp at hne

lemma run (hs : s.Asked number) (actions : List Action) : (s.run actions).Asked number := by
  induction actions generalizing s with
  | nil => exact hs
  | cons a r ih => exact ih (hs.change (change_step s a))

lemma of_stop (hs : s.Sound) {t : Thread} (ht : t ∈ s.alive) (file : String) :
    (s.step (.press .stop file)).Asked t.number := by
  have hchange := change_step s (.press .stop file)
  obtain ⟨hbusy, hpast⟩ := hs.isBusy_of_mem ht
  refine ⟨hs.change hchange, ?_, fun _ => ?_⟩
  · cases hchange <;> omega
  · exact window_begin (stopTask_raises.bind fun _ => .pure fun _ h => h) hbusy

end Asked

/-- **One task at a time, and no stop is lost.** However a session goes, at most one task is alive; and
when a stop is asked for while a task is alive, the sign is raised, and it is raised after any further
actions unless the task has ended. -/
theorem one_alive_and_stop_kept (workspace : Workspace) (actions : List Action)
    (hs : (opened workspace).run actions = s) :
    s.alive.length ≤ 1 ∧
      ∀ t ∈ s.alive, ∀ (file : String) (later : List Action),
        (∃ u ∈ ((s.step (.press .stop file)).run later).alive, u.number = t.number) →
          ((s.step (.press .stop file)).run later).window.sign.raised = true := by
  have hsound : s.Sound := hs ▸ (Sound.opened workspace).run actions
  refine ⟨hsound.length_alive_le, ?_⟩
  intro t ht file later halive
  exact ((Asked.of_stop hsound ht file).run later).raised halive

def emptySettings : Workspace where
  tree := { entries := [⟨["tmp", "work", "config.json"], .file (Utf8.encode "\x7b\x7d"), 0⟩] }

/-- A task was started and stopped; another one cannot be started, the lists cannot be downloaded, and
the window is not closed. The task is alive, and the sign is raised. -/
theorem stop_kept_while_extracting :
    ∃ t ∈ ((opened emptySettings).run [.press .extract ""]).alive,
      (∃ u ∈ ((((opened emptySettings).run [.press .extract ""]).step (.press .stop "")).run
          [.press .decompile "", .press .downloadLists "", .close false]).alive,
        u.number = t.number) ∧
      ((((opened emptySettings).run [.press .extract ""]).step (.press .stop "")).run
        [.press .decompile "", .press .downloadLists "", .close false]).window.sign.raised = true := by
  have hbefore : ((opened emptySettings).run [.press .extract ""]).alive.map (·.number) = [0] := by
    with_unfolding_all decide
  have hafter : ((((opened emptySettings).run [.press .extract ""]).step (.press .stop "")).run
      [.press .decompile "", .press .downloadLists "", .close false]).alive.map (·.number) = [0] := by
    with_unfolding_all decide
  obtain ⟨t, ht, hnumber⟩ := List.mem_map.mp (hbefore ▸ List.mem_singleton_self 0)
  have halive := List.mem_map.mp (hafter ▸ List.mem_singleton_self 0)
  have hraised := (one_alive_and_stop_kept emptySettings [.press .extract ""] rfl).2 t ht ""
    [.press .decompile "", .press .downloadLists "", .close false]
  rw [hnumber] at hraised
  refine ⟨t, ht, ?_, hraised halive⟩
  rw [hnumber]
  exact halive

end Session

end Salvage
