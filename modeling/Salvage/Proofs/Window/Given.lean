import Salvage.Proofs.Doc
import Salvage.Proofs.Window.Session

/-!
# What a task is given

A task is started with the settings that the window reads from a file and changes a little, and it looks
at the window once it runs. This module says which package and which filter reach the task, and compares
them with what the window shows: the package that was chosen last, and the choice in the list of filters.
-/

namespace Salvage

open Window

namespace Window

variable {w v : Window} {settings settings' : Doc}

/-! ## Settings at the start of a task -/

def updateFields (w : Window) (fields : List (String × Doc)) : List (String × Doc) :=
  Doc.insert "json_only" (.bool w.listsOnly)
    (Doc.insert "workers" (.int w.workers) (Doc.insert "filter" (filterOf w.filter) fields))

lemma exists_of_overridden (h : w.overridden settings = .ok settings') :
    ∃ fields part, settings = .obj fields ∧
      settings' = .obj (Doc.insert "DOWNLOADER_CONFIG" (.obj (w.updateFields part)) fields) := by
  cases settings with
  | obj fields =>
    cases hpart : (Doc.lookup "DOWNLOADER_CONFIG" fields).getD (.obj []) with
    | obj part =>
      refine ⟨fields, part, rfl, ?_⟩
      have hsection : updateSection (.obj fields) = .ok (.obj part) := congrArg Except.ok hpart
      rw [overridden, overrideUpdate, hsection] at h
      exact (Except.ok.inj h).symm
    | _ =>
      have hsection : updateSection (.obj fields) = .ok _ := congrArg Except.ok hpart
      rw [overridden, overrideUpdate, hsection] at h
      cases h
  | _ => cases h

lemma packageOf_overridden (h : w.overridden settings = .ok settings') :
    packageOf settings' = packageOf settings := by
  obtain ⟨fields, part, rfl, rfl⟩ := exists_of_overridden h
  have hgot : ∀ fs : List (String × Doc), (Doc.obj fs).getOr "METADATA_CONFIG" (.obj []) =
      .ok ((Doc.lookup "METADATA_CONFIG" fs).getD (.obj [])) := fun _ => rfl
  rw [packageOf, packageOf, hgot, hgot, Doc.lookup_insert_of_ne (by decide)]

variable {s : Workspace} {α : Type} {d : Window × Workspace} {a : α} {words : String}
  {begin : Doc → Desk (Option (Desk Unit))} {work : Desk Unit} {t : Task}

lemma exists_of_job {j : Job α}
    (h : (Desk.job j).run (w, s) = .ok a d) : ∃ v, j.run s = .ok a v ∧ d = (w, v) := by
  have hrun : (Desk.job j).run (w, s) = Desk.job j (w, s) := rfl
  rw [hrun, Desk.job] at h
  cases hj : j s with
  | ok b v =>
    rw [hj] at h
    cases h
    exact ⟨v, hj, rfl⟩
  | error f v =>
    rw [hj] at h
    cases h

lemma eq_ok_of_shape {r : Except Doc.ShapeFault α} {v : Workspace}
    (h : (Update.shape r).run s = .ok a v) : r = .ok a := by
  cases r with
  | ok b =>
    cases h
    rfl
  | error f => cases h

lemma run_of_attempt {j : Job α} {v : Workspace}
    (h : (Job.attempt j).run s = .ok (.ok a) v) : j.run s = .ok a v := by
  cases hj : j.run s with
  | ok b u =>
    rw [Job.attempt_ok hj] at h
    cases h
    rfl
  | error f u =>
    by_cases hf : f = .interrupted
    · subst hf
      have hrun : (Job.attempt j).run s = .error .interrupted u :=
        Run.tryCatch_error (Run.bind_error hj)
      rw [hrun] at h
      cases h
    · rw [Job.attempt_error hj hf] at h
      cases h

lemma exists_of_loadSettings (h : loadSettings.run (w, s) = .ok (some settings) d) :
    ∃ v, (Settings.load w.settingsPath).run s = .ok settings v ∧ d = (w, v) := by
  rw [loadSettings, Desk.window_bind_run] at h
  obtain ⟨r, e, hjob, hrest⟩ := Run.exists_of_bind_ok h
  obtain ⟨v, hattempt, rfl⟩ := exists_of_job hjob
  cases r with
  | ok found =>
    cases hrest
    exact ⟨v, run_of_attempt hattempt, rfl⟩
  | error f => cases hrest

lemma exists_of_unlessBusy (h : (unlessBusy words begin).run (w, s) = .ok (some work) d) :
    ∃ settings v, (Settings.load w.settingsPath).run s = .ok settings v ∧
      (begin settings).run (w, v) = .ok (some work) d := by
  rw [unlessBusy, Desk.window_bind_run] at h
  by_cases hbusy : w.isBusy
  · rw [if_pos hbusy] at h
    cases h
  · rw [if_neg hbusy] at h
    obtain ⟨r, e, hload, hrest⟩ := Run.exists_of_bind_ok h
    cases r with
    | none => cases hrest
    | some settings =>
      obtain ⟨v, hfile, rfl⟩ := exists_of_loadSettings hload
      exact ⟨settings, v, hfile, hrest⟩

/-- **What a task is started with**: the settings in the window's file with what the window says about
updates, and from then on the window holds the package that the settings name. -/
lemma exists_of_startTask {name : String} (h : (startTask t name).run (w, s) = .ok (some work) d) :
    ∃ settings settings' v path, (Settings.load w.settingsPath).run s = .ok settings v ∧
      w.overridden settings = .ok settings' ∧ packageOf settings = .ok path ∧
      work = t.work (if name.isEmpty then t.name else name) settings' ∧ d.1.package = path := by
  obtain ⟨settings, v, hfile, hrest⟩ := exists_of_unlessBusy h
  rw [Desk.window_bind_run] at hrest
  obtain ⟨settings', e, hjob, hrest⟩ := Run.exists_of_bind_ok hrest
  obtain ⟨v₁, hshape, rfl⟩ := exists_of_job hjob
  have hover := eq_ok_of_shape hshape
  obtain ⟨path, e, hjob, hrest⟩ := Run.exists_of_bind_ok hrest
  obtain ⟨v₂, hshape, rfl⟩ := exists_of_job hjob
  have hpath := eq_ok_of_shape hshape
  change (Desk.job _ >>= _).run (w.detachPackage path, v₂) = _ at hrest
  obtain ⟨_, e, hjob, hrest⟩ := Run.exists_of_bind_ok hrest
  obtain ⟨v₃, _, rfl⟩ := exists_of_job hjob
  cases hrest
  exact ⟨settings, settings', v, path, hfile, hover, packageOf_overridden hover ▸ hpath, rfl, rfl⟩

/-! ## Tasks on what they are given -/

def Task.extractMetadataOf (package : String) : Task where
  name := "run_metadata"
  run := fun _ settings _ => Settings.extractMetadata settings package

def Task.downloadWith (options : Update.Options) : Task :=
  .ofJob "<lambda>" fun _ => Settings.unlessStopped (Settings.guarded "Downloader" do
    Job.note "Running Downloader..."
    Update.run options
    Settings.conclude "Downloader")

lemma perform_congr {u : Task} {label : String}
    (h : ∀ sign, t.run w settings sign = u.run w settings sign) :
    t.perform w label settings = u.perform w label settings := by
  unfold Task.perform
  rw [h, h]

lemma work_run (t : Task) (label : String) (settings : Doc) (w : Window) (s : Workspace) :
    (t.work label settings).run (w, s) = (underSign (t.perform w label settings)).run (w, s) :=
  rfl

lemma extractMetadata_work (label : String) (settings : Doc) (w : Window) (s : Workspace) :
    (Task.extractMetadata.work label settings).run (w, s) =
      ((Task.extractMetadataOf w.package).work label settings).run (w, s) := by
  have hsame : Task.extractMetadata.perform w label settings =
      (Task.extractMetadataOf w.package).perform w label settings := perform_congr fun _ => rfl
  rw [work_run, work_run, hsame]

lemma work_congr {u : Task} (h : ∀ w sign, t.run w settings sign = u.run w settings sign)
    (label : String) : t.work label settings = u.work label settings := by
  have hsame : (fun w => underSign (t.perform w label settings)) =
      fun w => underSign (u.perform w label settings) :=
    funext fun w => congrArg underSign (perform_congr (h w))
  exact congrArg (Desk.window >>= ·) hsame

def optionsOf (fields : List (String × Doc)) : Update.Options where
  download := (Doc.lookup "download" fields).getD (.bool true)
  workers := (Doc.lookup "workers" fields).getD (.int 8)
  filter := (Doc.lookup "filter" fields).getD .null
  listsOnly := (Doc.lookup "json_only" fields).getD (.bool false)

lemma discard_update_run {fields part : List (String × Doc)}
    (hpart : Doc.lookup "DOWNLOADER_CONFIG" fields = some (.obj part)) (b : Bool) :
    (discard (Settings.update (.obj fields) (some b)) : Job Unit) =
      Settings.unlessStopped (Settings.guarded "Downloader" do
        Job.note "Running Downloader..."
        Update.run (optionsOf (Doc.insert "json_only" (.bool b) part))
        Settings.conclude "Downloader") := by
  have hchoose : Settings.chooseLists (.obj fields) (some b) =
      .ok (.obj (Doc.insert "json_only" (.bool b) part),
        (Doc.obj fields).setField "DOWNLOADER_CONFIG" (.obj (Doc.insert "json_only" (.bool b) part))) := by
    unfold Settings.chooseLists
    simp [Doc.getOr, Doc.get?, Doc.fields, Doc.field?, Doc.assign, hpart, bind, Except.bind, pure, Except.pure]
  have hby : Settings.updateBy (.obj (Doc.insert "json_only" (.bool b) part)) =
      Settings.guarded "Downloader" (do
        Job.note "Running Downloader..."
        Update.run (optionsOf (Doc.insert "json_only" (.bool b) part))
        Settings.conclude "Downloader") := rfl
  have hdiscard : ∀ x : Job Doc, (discard x : Job Unit) = (fun _ => ()) <$> x := fun _ => rfl
  rw [hdiscard, Settings.update, hchoose, map_bind]
  refine congrArg (Job.stopped >>= ·) (funext fun stopped => ?_)
  cases stopped with
  | true => simp
  | false => simp [hby]

lemma downloadAssets_work (h : w.overridden settings = .ok settings') (label : String) :
    ∃ options : Update.Options, options.filter = filterOf w.filter ∧
      options.listsOnly = .bool false ∧
      Task.downloadAssets.work label settings' = (Task.downloadWith options).work label settings' := by
  obtain ⟨fields, part, rfl, rfl⟩ := exists_of_overridden h
  refine ⟨optionsOf (Doc.insert "json_only" (.bool false) (w.updateFields part)), ?_, ?_, ?_⟩
  · simp [optionsOf, updateFields, Doc.lookup_insert_of_ne]
  · simp [optionsOf]
  · refine work_congr (fun v sign => ?_) label
    exact discard_update_run (Doc.lookup_insert_self _ _ _) false

/-! ## Choices -/

/-- The filter that a choice means to the user: none for the two texts that stand for everything, else
the choice itself. -/
def meant (shown : String) : Doc :=
  if shown = allChoice ∨ shown = everythingChoice then .null else .str shown

lemma filterOf_eq_meant_iff (shown : String) :
    filterOf shown = meant shown ↔
      shown ≠ everythingChoice ∧
        (shown = allChoice ∨
          Text.strip shown = shown ∧ shown ≠ "" ∧ Text.lower shown ≠ "all") := by
  by_cases hall : shown = allChoice
  · subst hall
    have htaken : filterOf allChoice = .null := by rfl
    have hne : allChoice ≠ everythingChoice := by decide
    simp [meant, htaken, hne]
  · by_cases hevery : shown = everythingChoice
    · subst hevery
      have htaken : filterOf everythingChoice = .str everythingChoice := by rfl
      simp [meant, htaken]
    · simp only [meant, hall, hevery, or_self, if_false, false_or, ne_eq, not_false_eq_true, true_and]
      unfold filterOf
      by_cases hnone : (Text.strip shown).isEmpty || Text.lower (Text.strip shown) = "all"
      · rw [if_pos hnone]
        refine iff_of_false (fun h => nomatch h) ?_
        rintro ⟨hstrip, hne, hlower⟩
        rw [hstrip] at hnone
        simp [hne, hlower] at hnone
      · rw [if_neg hnone]
        constructor
        · intro h
          have hstrip := Doc.str.inj h
          rw [hstrip] at hnone
          simpa [hstrip] using hnone
        · rintro ⟨hstrip, -, -⟩
          rw [hstrip]

def Offers (w : Window) : Prop :=
  allChoice ∈ w.choices ∧ (w.filter = everythingChoice ∨ w.filter ∈ w.choices)

lemma Offer.offers {choices : List String} {chosen : String} (h : Offer choices chosen) :
    Offers { w with choices, filter := chosen } := by
  cases h with
  | nothing => exact ⟨List.mem_singleton_self _, .inr (List.mem_singleton_self _)⟩
  | names names => exact ⟨List.mem_cons_self, .inl rfl⟩

def KeepsOffer {α : Type} (x : Desk α) : Prop :=
  Desk.Meets Offers x (fun _ => Offers) Offers

lemma keepsOffer_underSign (j : Job α) : KeepsOffer (underSign j) := by
  rintro ⟨w, s⟩ hw
  have hrun : (underSign j).run (w, s) = underSign j (w, s) := rfl
  rw [hrun, underSign]
  cases j { s with stop := some w.sign } with
  | ok a v =>
    refine ⟨fun b u hu => ?_, fun f u hu => nomatch hu⟩
    cases hu
    exact hw
  | error e v =>
    refine ⟨fun b u hu => (nomatch hu), fun f u hu => ?_⟩
    cases hu
    exact hw

lemma keepsOffer_work (t : Task) (label : String) (settings : Doc) :
    KeepsOffer (t.work label settings) := by
  refine .window_bind fun u hu => ?_
  exact .pre (keepsOffer_underSign _) fun v hv => hv ▸ hu

lemma keepsOffer_listsWork (settings : Doc) : KeepsOffer (listsWork settings) := by
  have hupdate : KeepsOffer (discard (underSign (Settings.update settings (some true)))) :=
    Desk.Meets.bind (keepsOffer_underSign _) fun _ => .pure fun _ h => h
  refine (Desk.Meets.job _).bind fun _ => hupdate.bind fun _ => ?_
  refine .bind (R := fun _ => Offers) (refreshFilter_meets fun _ _ _ _ h => h.offers) fun _ => ?_
  exact .job _

def StartsOffering (x : Desk (Option (Desk Unit))) : Prop :=
  Desk.Meets Offers x (fun r v => Offers v ∧ ∀ work, r = some work → KeepsOffer work) Offers

lemma startsOffering_none : StartsOffering (pure none) :=
  .pure fun _ h => ⟨h, fun _ hnone => nomatch hnone⟩

lemma startsOffering_unlessBusy (hbegin : ∀ settings, StartsOffering (begin settings)) :
    StartsOffering (unlessBusy words begin) := by
  refine .window_bind fun u hu => ?_
  refine Desk.Meets.pre (P := Offers) ?_ fun v hv => hv ▸ hu
  refine .ite (fun _ => ?_) fun _ => ?_
  · exact .bind (R := fun _ => Offers) (.change fun _ h => h) fun _ => startsOffering_none
  · refine (loadSettings_meets fun _ _ h => h).bind fun r => ?_
    cases r with
    | none => exact startsOffering_none
    | some settings => exact hbegin settings

lemma startsOffering_begin (h : KeepsOffer work) :
    StartsOffering (do Desk.change fun w => { w.lowerSign with worker := .running }; return some work) := by
  refine .bind (R := fun _ => Offers) (.change fun _ h => h) fun _ => .pure fun v hv => ⟨hv, ?_⟩
  rintro _ ⟨⟩
  exact h

lemma startsOffering_startTask (t : Task) (name : String) : StartsOffering (startTask t name) := by
  refine startsOffering_unlessBusy fun settings => .window_bind fun u hu => ?_
  refine Desk.Meets.pre (P := Offers) ?_ fun v hv => hv ▸ hu
  refine (Desk.Meets.job _).bind fun settings => (Desk.Meets.job _).bind fun package => ?_
  refine .bind (R := fun _ => Offers) (.change fun _ h => h) fun _ => ?_
  exact (Desk.Meets.job _).bind fun _ => startsOffering_begin (keepsOffer_work _ _ _)

lemma startsOffering_start (b : Button) : StartsOffering (start b) := by
  cases b with
  | browseSettings =>
    exact (browseSettings_meets fun _ _ _ h => h).bind fun _ => startsOffering_none
  | browsePackage =>
    exact (browsePackage_meets (fun _ _ h _ => h) fun _ _ h _ => h).bind fun _ => startsOffering_none
  | downloadLists =>
    refine startsOffering_unlessBusy fun settings => (Desk.Meets.job _).bind fun settings => ?_
    exact startsOffering_begin (keepsOffer_listsWork settings)
  | stop => exact (stopTask_meets fun _ _ _ h => h).bind fun _ => startsOffering_none
  | _ => exact startsOffering_startTask _ _

lemma unlessBusy_of_busy {P F G : Window → Prop} (hbusy : ∀ v, P v → v.isBusy = true)
    (h : ∀ v boxes, P v → F { v with boxes }) :
    Desk.Meets P (unlessBusy words begin) (fun _ => F) G := by
  refine .window_bind fun u hu => ?_
  rw [if_pos (hbusy u hu)]
  refine .bind (R := fun _ => F) (.change ?_) fun _ => .pure fun _ h => h
  rintro v rfl
  exact h v _ hu

end Window

/-! ## Along a session -/

namespace Session

variable {s s' : Session}

def Offering (s : Session) : Prop :=
  s.window.Offers ∧ ∀ t ∈ s.alive, Window.KeepsOffer t.work

namespace Offering

lemma begin {x : Desk (Option (Desk Unit))} (hs : s.Offering) (hx : Window.StartsOffering x) :
    (s.begin x).Offering := by
  obtain ⟨hok, herror⟩ := hx (s.window, s.workspace) hs.1
  unfold Session.begin
  cases hrun : x.run (s.window, s.workspace) with
  | ok r v =>
    obtain ⟨hv, hwork⟩ := hok r v hrun
    cases r with
    | none => exact ⟨hv, hs.2⟩
    | some work =>
      refine ⟨hv, ?_⟩
      intro t ht
      rcases List.mem_cons.mp ht with rfl | ht
      · exact hwork work rfl
      · exact hs.2 t ht
  | error f v => exact ⟨herror f v hrun, hs.2⟩

lemma after {α : Type} {x : Desk α} (hs : s.Offering) (hx : Window.KeepsOffer x) :
    (s.after x).Offering :=
  ⟨hx.state (d := (s.window, s.workspace)) hs.1, hs.2⟩

lemma step (hs : s.Offering) (a : Action) : (s.step a).Offering := by
  cases a with
  | press b file => exact begin (s := { s with window := _ }) hs (startsOffering_start b)
  | close confirmed => exact after (s := { s with window := _ }) hs (close_meets fun _ _ _ _ _ h => h)
  | choose entry =>
    show (s.choose entry).Offering
    unfold Session.choose
    by_cases hentry : entry ∈ s.window.choices
    · rw [if_pos hentry]
      exact ⟨⟨hs.1.1, .inr hentry⟩, hs.2⟩
    · rw [if_neg hentry]
      exact hs
  | refresh => exact hs.after (refreshFilter_meets fun _ _ _ _ h => h.offers)
  | meanwhile workspace => exact hs
  | finish number =>
    show Offering (((s.alive.find? (·.number = number)).map s.finish).getD s)
    cases ht : s.alive.find? (·.number = number) with
    | none => exact hs
    | some t =>
      have hdone := (hs.after (hs.2 t (List.mem_of_find?_eq_some ht))).1
      refine ⟨?_, fun u hu => hs.2 u (List.mem_filter.mp hu).1⟩
      show Window.Offers (if t.number + 1 = s.started then _ else _)
      split
      · exact hdone
      · exact hdone

lemma run (hs : s.Offering) (actions : List Action) : (s.run actions).Offering := by
  induction actions generalizing s with
  | nil => exact hs
  | cons a r ih => exact ih (hs.step a)

lemma opened (workspace : Workspace) : (Session.opened workspace).Offering := by
  have h := (launch_meets (P := fun _ => True) (Q := Window.Offers)
    (fun _ _ _ _ h => h.offers) (fun _ _ _ _ h => h) fun _ _ _ h => h).state
      (d := ({}, workspace)) trivial
  exact ⟨h, fun t ht => nomatch ht⟩

end Offering

/-! ### The package -/

def Action.package? : Action → Option String
  | .press .browsePackage file => if file.isEmpty then none else some file
  | _ => none

def lastPackage : List Action → Option String
  | [] => none
  | a :: r => (lastPackage r).or a.package?

lemma lastPackage_append (actions later : List Action) :
    lastPackage (actions ++ later) = (lastPackage later).or (lastPackage actions) := by
  induction actions with
  | nil => simp [lastPackage]
  | cons a r ih => simp [lastPackage, ih, Option.or_assoc]

lemma eq_chosen_iff {actions later : List Action} {b : Window.Button} {file path chosen : String}
    (h : lastPackage (actions ++ .press b file :: later) = some chosen) :
    (lastPackage later).getD path = chosen ↔ (lastPackage later).isSome = true ∨ path = chosen := by
  rw [lastPackage_append, lastPackage] at h
  cases hlater : lastPackage later with
  | none => simp
  | some p =>
    rw [hlater] at h
    simpa using h

lemma package_press (hbusy : s.window.isBusy = true) (b : Window.Button) (file : String) :
    (s.step (.press b file)).window.package =
      (Action.press b file).package?.getD s.window.package := by
  have hsame : ∀ v : Window, v = { s.window with choice := file } → v.package = s.window.package := by
    rintro v rfl
    rfl
  have hother : ∀ {words begin},
      Desk.Meets (· = { s.window with choice := file }) (unlessBusy words begin)
        (fun _ v => v.package = s.window.package) (·.package = s.window.package) := by
    intro words begin
    refine unlessBusy_of_busy ?_ ?_
    · rintro v rfl
      exact hbusy
    · rintro v boxes rfl
      rfl
  refine window_begin (s := { s with window := { s.window with choice := file } })
    (P := (· = { s.window with choice := file }))
    (F := (·.package = (Action.press b file).package?.getD s.window.package)) ?_ rfl
  cases b with
  | browsePackage =>
    refine .bind (R := fun _ v => v.package = _) (browsePackage_meets ?_ ?_) fun _ => .pure fun _ h => h
    · rintro v boxes rfl hfile
      simp only [Action.package?]
      rw [if_pos hfile]
      rfl
    · rintro v boxes rfl hfile
      simp only [Action.package?]
      rw [if_neg (by simpa using hfile)]
      rfl
  | browseSettings =>
    refine .bind (R := fun _ v => v.package = s.window.package) ?_ fun _ => .pure fun _ h => h
    exact .pre (browseSettings_meets fun _ _ _ h => h) hsame
  | stop =>
    refine .bind (R := fun _ v => v.package = s.window.package) ?_ fun _ => .pure fun _ h => h
    exact .pre (stopTask_meets fun _ _ _ h => h) hsame
  | _ => exact hother

variable {t : Thread}

lemma mem_alive_of_step {a : Action} (hpast : t.number < s.started)
    (ht : t ∈ (s.step a).alive) : t ∈ s.alive := by
  cases change_step s a with
  | none halive hstarted heffect =>
    rw [halive] at ht
    exact ht
  | start hfree halive hstarted hworker =>
    rw [halive, List.mem_cons] at ht
    rcases ht with rfl | ht
    · simp at hpast
    · exact ht
  | finish hu halive hstarted hlast =>
    rw [halive] at ht
    exact (List.mem_filter.mp ht).1

lemma package_step (hs : s.Sound) {a : Action} (hpast : t.number < s.started)
    (ht : t ∈ (s.step a).alive) : (s.step a).window.package = a.package?.getD s.window.package := by
  have hmem := mem_alive_of_step hpast ht
  have hbusy := (hs.isBusy_of_mem hmem).1
  cases a with
  | press b file => exact package_press hbusy b file
  | close confirmed =>
    have h := (close_meets (P := (·.package = s.window.package)) fun _ _ _ _ _ h => h).state
      (d := ({ s.window with confirms := confirmed }, s.workspace)) rfl
    exact h
  | choose entry =>
    show (s.choose entry).window.package = _
    unfold Session.choose
    split
    · rfl
    · rfl
  | refresh =>
    have h := (refreshFilter_meets (P := (·.package = s.window.package))
      (Q := (·.package = s.window.package)) fun _ _ _ h _ => h).state (d := (s.window, s.workspace)) rfl
    exact h
  | meanwhile workspace => rfl
  | finish number =>
    change t ∈ Session.alive (((s.alive.find? (·.number = number)).map s.finish).getD s) at ht
    show package (Session.window (((s.alive.find? (·.number = number)).map s.finish).getD s)) = _
    cases hfound : s.alive.find? (·.number = number) with
    | none => rfl
    | some u =>
      -- the task that has ended is the only one that was alive
      rw [hfound] at ht
      obtain ⟨_, hne⟩ := List.mem_filter.mp ht
      rw [hs.eq_of_mem hmem (List.mem_of_find?_eq_some hfound)] at hne
      simp at hne

structure Running (number : Nat) (work : Desk Unit) (path : String) (s : Session) : Prop where
  sound : s.Sound
  past : number < s.started
  given : ∀ t ∈ s.alive, t.number = number → t.work = work ∧ s.window.package = path

namespace Running

variable {number : Nat} {work : Desk Unit} {path : String}

lemma step (hs : s.Running number work path) (a : Action) :
    (s.step a).Running number work (a.package?.getD path) := by
  have hchange := change_step s a
  refine ⟨hs.sound.change hchange, ?_, ?_⟩
  · have hpast := hs.past
    cases hchange <;> omega
  · rintro t ht rfl
    obtain ⟨hwork, hpackage⟩ := hs.given t (mem_alive_of_step hs.past ht) rfl
    refine ⟨hwork, ?_⟩
    rw [package_step hs.sound hs.past ht, hpackage]

/-- **Until the task has ended** the window holds the package that was chosen last. -/
lemma run (hs : s.Running number work path) (later : List Action) :
    (s.run later).Running number work ((lastPackage later).getD path) := by
  induction later generalizing s path with
  | nil => exact hs
  | cons a r ih =>
    rw [lastPackage, Option.getD_or]
    exact ih (hs.step a)

end Running

lemma exists_of_begin {x : Desk (Option (Desk Unit))} (ht : t ∈ (s.begin x).alive)
    (hold : t ∉ s.alive) :
    ∃ d, x.run (s.window, s.workspace) = .ok (some t.work) d ∧ (s.begin x).window = d.1 := by
  unfold begin at ht ⊢
  cases hrun : x.run (s.window, s.workspace) with
  | ok r d =>
    rw [hrun] at ht
    cases r with
    | none => exact absurd ht hold
    | some work =>
      rcases List.mem_cons.mp ht with rfl | ht
      · exact ⟨d, rfl, rfl⟩
      · exact absurd ht hold
  | error f d =>
    rw [hrun] at ht
    exact absurd ht hold

lemma exists_of_press (hs : s.Sound) {b : Window.Button} {task : Window.Task} {name file : String}
    (hb : start b = startTask task name)
    (ht : t ∈ (s.step (.press b file)).alive) (hnumber : t.number = s.started) :
    ∃ settings settings' v path,
      (Settings.load s.window.settingsPath).run s.workspace = .ok settings v ∧
      s.window.overridden settings = .ok settings' ∧ packageOf settings = .ok path ∧
      t.work = task.work (if name.isEmpty then task.name else name) settings' ∧
      (s.step (.press b file)).Running s.started t.work path := by
  have hold : t ∉ s.alive := by
    intro hmem
    have hpast := (hs.isBusy_of_mem hmem).2
    omega
  have hsound := hs.change (change_step s (.press b file))
  obtain ⟨d, hrun, hwindow⟩ := exists_of_begin (s := { s with window := _ }) ht hold
  rw [hb] at hrun
  obtain ⟨settings, settings', v, path, hload, hover, hpath, hwork, hpackage⟩ :=
    exists_of_startTask hrun
  refine ⟨settings, settings', v, path, hload, hover, hpath, hwork, hsound, ?_, ?_⟩
  · rw [← hnumber]
    exact (hsound.isBusy_of_mem ht).2
  · intro u hu _
    exact ⟨by rw [hsound.eq_of_mem hu ht], (congrArg package hwindow).trans hpackage⟩

/-- **What tasks are given, and when that is what the window shows.** However a session goes, the choice
in the list of filters is offered. The extraction of metadata is done on the package that the settings
name when it is started, or on one that is chosen after that: this is the package that was chosen last
only if it was chosen after the start or the settings name it. The download of assets is done with the
filter that the choice stands for: this is what the choice means only if it is not the text that is
shown after the lists were looked through, and is the choice of no filter, or a name that has no white
space at its ends, is not empty and does not read "all". -/
theorem given_what_is_shown_iff (workspace : Workspace) (actions : List Action)
    (hs : (opened workspace).run actions = s) (file : String) :
    s.window.Offers ∧
    (∀ t ∈ (s.step (.press .extractMetadata file)).alive, t.number = s.started →
      ∃ settings settings' v path,
        (Settings.load s.window.settingsPath).run s.workspace = .ok settings v ∧
        Window.packageOf settings = .ok path ∧
        ∀ later now, (s.step (.press .extractMetadata file)).run later = now →
          (∃ u ∈ now.alive, u.number = t.number) →
          (∀ v, t.work.run (now.window, v) =
            ((Window.Task.extractMetadataOf ((lastPackage later).getD path)).work "run_metadata"
              settings').run (now.window, v)) ∧
          ∀ chosen, lastPackage (actions ++ .press .extractMetadata file :: later) = some chosen →
            ((lastPackage later).getD path = chosen ↔
              (lastPackage later).isSome = true ∨ path = chosen)) ∧
    (∀ t ∈ (s.step (.press .downloadAssets file)).alive, t.number = s.started →
      ∃ (options : Update.Options) (settings' : Doc),
        t.work = (Window.Task.downloadWith options).work "<lambda>" settings' ∧
        options.listsOnly = .bool false ∧
        options.filter = Window.filterOf s.window.filter ∧
        (options.filter = Window.meant s.window.filter ↔
          s.window.filter ≠ Window.everythingChoice ∧
            (s.window.filter = Window.allChoice ∨
              Text.strip s.window.filter = s.window.filter ∧ s.window.filter ≠ "" ∧
                Text.lower s.window.filter ≠ "all"))) := by
  have hsound : s.Sound := hs ▸ (Sound.opened workspace).run actions
  have hoffering : s.Offering := hs ▸ (Offering.opened workspace).run actions
  refine ⟨hoffering.1, ?_, ?_⟩
  · intro t ht hnumber
    obtain ⟨settings, settings', v, path, hload, _, hpath, hwork, hrunning⟩ :=
      exists_of_press hsound rfl ht hnumber
    refine ⟨settings, settings', v, path, hload, hpath, ?_⟩
    rintro later now rfl ⟨u, hu, hsame⟩
    constructor
    · intro v
      rw [← ((hrunning.run later).given u hu (hsame.trans hnumber)).2, hwork]
      exact Window.extractMetadata_work _ _ _ _
    · intro chosen hchosen
      exact eq_chosen_iff hchosen
  · intro t ht hnumber
    obtain ⟨settings, settings', v, path, _, hover, _, hwork, _⟩ :=
      exists_of_press hsound rfl ht hnumber
    obtain ⟨options, hfilter, hlists, hdownload⟩ := Window.downloadAssets_work hover "<lambda>"
    refine ⟨options, settings', hwork.trans hdownload, hlists, hfilter, ?_⟩
    rw [hfilter]
    exact Window.filterOf_eq_meant_iff s.window.filter

def namedPackage : Workspace where
  tree :=
    { entries :=
        [⟨["tmp", "work", "config.json"],
            .file (Utf8.encode "\x7b\"METADATA_CONFIG\": \x7b\"xapk_path\": \"a.xapk\"\x7d\x7d"), 0⟩,
          ⟨["tmp", "work", "downloads"], .directory, 0⟩,
          ⟨["tmp", "work", "downloads", "version_index"], .directory, 0⟩,
          ⟨["tmp", "work", "downloads", "version_index", "p"], .directory, 0⟩,
          ⟨["tmp", "work", "downloads", "version_index", "p", "x.json"], .file [], 0⟩] }

/-- Another package was chosen than the settings name, and a list: the metadata is extracted from the
package in the settings, and the download has the name of the list as its filter. -/
theorem given_what_is_shown_of_list :
    ∃ s, (opened namedPackage).run [.press .browsePackage "b.xapk", .choose "x"] = s ∧
      s.window.filter = "x" ∧
      (∃ t ∈ (s.step (.press .extractMetadata "")).alive, t.number = s.started ∧
        ∃ settings', ∀ v, t.work.run ((s.step (.press .extractMetadata "")).window, v) =
          ((Window.Task.extractMetadataOf "a.xapk").work "run_metadata" settings').run
            ((s.step (.press .extractMetadata "")).window, v)) ∧
      ∃ t ∈ (s.step (.press .downloadAssets "")).alive, t.number = s.started ∧
        ∃ (options : Update.Options) (settings' : Doc),
          t.work = (Window.Task.downloadWith options).work "<lambda>" settings' ∧
          options.filter = .str "x" := by
  -- One evaluation of the session gives all that is asked of it.
  have hsession : ((opened namedPackage).run [.press .browsePackage "b.xapk", .choose "x"]).window.filter =
        "x" ∧
      (((opened namedPackage).run [.press .browsePackage "b.xapk", .choose "x"]).step
        (.press .extractMetadata "")).alive.map (·.number) =
        [((opened namedPackage).run [.press .browsePackage "b.xapk", .choose "x"]).started] ∧
      (do
        let settings ← Settings.load
          ((opened namedPackage).run [.press .browsePackage "b.xapk", .choose "x"]).window.settingsPath
        Update.shape (Window.packageOf settings)).run'
          ((opened namedPackage).run [.press .browsePackage "b.xapk", .choose "x"]).workspace =
        some "a.xapk" ∧
      (((opened namedPackage).run [.press .browsePackage "b.xapk", .choose "x"]).step
        (.press .downloadAssets "")).alive.map (·.number) =
        [((opened namedPackage).run [.press .browsePackage "b.xapk", .choose "x"]).started] := by
    decide +kernel
  obtain ⟨hshown, hextracting, hsettings, hdownloading⟩ := hsession
  refine ⟨_, rfl, hshown, ?_, ?_⟩
  · obtain ⟨t, ht, hnumber⟩ := List.mem_map.mp (hextracting ▸ List.mem_singleton_self _)
    obtain ⟨settings, settings', v, path, hload, hpath, hlater⟩ :=
      (given_what_is_shown_iff namedPackage [.press .browsePackage "b.xapk", .choose "x"] rfl "").2.1
        t ht hnumber
    obtain ⟨u, hrun⟩ := Run.exists_of_run' hsettings
    rw [Run.bind_ok hload] at hrun
    obtain rfl := Except.ok.inj (hpath.symm.trans (Window.eq_ok_of_shape hrun))
    exact ⟨t, ht, hnumber, settings', (hlater [] _ rfl ⟨t, ht, rfl⟩).1⟩
  · obtain ⟨t, ht, hnumber⟩ := List.mem_map.mp (hdownloading ▸ List.mem_singleton_self _)
    obtain ⟨options, settings', hwork, -, -, hiff⟩ :=
      (given_what_is_shown_iff namedPackage [.press .browsePackage "b.xapk", .choose "x"] rfl "").2.2
        t ht hnumber
    rw [hshown] at hiff
    exact ⟨t, ht, hnumber, options, settings', hwork, hiff.mpr (by decide)⟩

/-- The settings name a package and the user has chosen another one: the task looks for the one in the
settings. And while the window says that everything is downloaded, the download has that text as its
filter. -/
theorem chosen_package_is_not_given :
    lastPackage [.press .browsePackage "b.xapk", .press .extractMetadata "", .finish 0] =
        some "b.xapk" ∧
      "XAPK file not found: a.xapk" ∈ ((opened namedPackage).run
        [.press .browsePackage "b.xapk", .press .extractMetadata "", .finish 0]).workspace.log.map
          (·.text) ∧
      (opened namedPackage).window.filter = Window.everythingChoice ∧
      ∃ t ∈ ((opened namedPackage).step (.press .downloadAssets "")).alive,
        ∃ (options : Update.Options) (settings' : Doc),
          t.work = (Window.Task.downloadWith options).work "<lambda>" settings' ∧
          options.filter = .str Window.everythingChoice := by
  have hsession : "XAPK file not found: a.xapk" ∈ ((opened namedPackage).run
        [.press .browsePackage "b.xapk", .press .extractMetadata "", .finish 0]).workspace.log.map
          (·.text) ∧
      (opened namedPackage).window.filter = Window.everythingChoice ∧
      ((opened namedPackage).step (.press .downloadAssets "")).alive.map (·.number) =
        [(opened namedPackage).started] := by
    decide +kernel
  obtain ⟨hlog, hshown, hnumbers⟩ := hsession
  refine ⟨by decide, hlog, hshown, ?_⟩
  obtain ⟨t, ht, hnumber⟩ := List.mem_map.mp (hnumbers ▸ List.mem_singleton_self _)
  obtain ⟨settings, settings', v, path, -, hover, -, hwork, -⟩ :=
    exists_of_press (Sound.opened namedPackage) rfl ht hnumber
  obtain ⟨options, hfilter, -, hdownload⟩ := Window.downloadAssets_work hover "<lambda>"
  refine ⟨t, ht, options, settings', hwork.trans hdownload, ?_⟩
  rw [hfilter, hshown]
  rfl

end Session

end Salvage
