import Mathlib
import Salvage.Assembly.Convert
import Salvage.Proofs.Job
import Salvage.Proofs.Workspace.Stations

/-!
# Files that are converted and removed

A file that is converted is copied to its output and then removed, so its content moves from one place to
another. A run is a list of such moves. Which of the old contents stands where at the end depends on the
moves alone, and can be found without looking at any content: this is the origin of a place.
-/

namespace Salvage.Assembly

open Salvage.Tree Run

/-! ## Moves -/

structure Move where
  source : Place
  target : Place
deriving DecidableEq

section Moves

variable {α β : Type} {f : Place → Option α} {m n : Move} {moves : List Move} {q : Place}

def Move.apply (m : Move) (f : Place → Option α) (q : Place) : Option α :=
  if q = m.source then none else if q = m.target then f m.source else f q

def applyAll (moves : List Move) (f : Place → Option α) : Place → Option α :=
  moves.foldl (fun f m => m.apply f) f

def origin (moves : List Move) : Place → Option Place :=
  applyAll moves some

@[simp]
lemma applyAll_cons (m : Move) (moves : List Move) (f : Place → Option α) :
    applyAll (m :: moves) f = applyAll moves (m.apply f) :=
  rfl

@[simp]
lemma Move.apply_source (m : Move) (f : Place → Option α) : m.apply f m.source = none :=
  if_pos rfl

lemma Move.apply_target (h : m.target ≠ m.source) (f : Place → Option α) :
    m.apply f m.target = f m.source := by
  rw [apply, if_neg h, if_pos rfl]

lemma Move.apply_of_ne (hsource : q ≠ m.source) (htarget : q ≠ m.target) (f : Place → Option α) :
    m.apply f q = f q := by
  rw [apply, if_neg hsource, if_neg htarget]

lemma applyAll_of_ne (hsource : ∀ m ∈ moves, q ≠ m.source) (htarget : ∀ m ∈ moves, q ≠ m.target)
    (f : Place → Option α) : applyAll moves f q = f q := by
  induction moves generalizing f with
  | nil => rfl
  | cons m r ih =>
    rw [List.forall_mem_cons] at hsource htarget
    rw [applyAll_cons, ih hsource.2 htarget.2, Move.apply_of_ne hsource.1 htarget.1]

lemma applyAll_eq_none (hq : f q = none) (htarget : ∀ m ∈ moves, q ≠ m.target) :
    applyAll moves f q = none := by
  induction moves generalizing f with
  | nil => exact hq
  | cons m r ih =>
    rw [List.forall_mem_cons] at htarget
    rw [applyAll_cons]
    apply ih _ htarget.2
    by_cases hsource : q = m.source
    · rw [hsource, Move.apply_source]
    · rw [Move.apply_of_ne hsource htarget.1, hq]

lemma applyAll_eq_bind (moves : List Move) (f : Place → Option α) (q : Place) :
    applyAll moves f q = (origin moves q).bind f := by
  suffices hall : ∀ g : Place → Option Place,
      applyAll moves (fun q => (g q).bind f) q = (applyAll moves g q).bind f from hall some
  intro g
  induction moves generalizing g with
  | nil => rfl
  | cons m r ih =>
    have happly : m.apply (fun q => (g q).bind f) = fun q => (m.apply g q).bind f := by
      funext q
      unfold Move.apply
      split
      · rfl
      · split <;> rfl
    rw [applyAll_cons, applyAll_cons, happly, ih]

inductive Finds : List Move → (Place → Option α) → Prop
  | nil {f : Place → Option α} : Finds [] f
  | cons {m : Move} {r : List Move} {f : Place → Option α} {a : α} (hsource : f m.source = some a)
      (hrest : Finds r (m.apply f)) : Finds (m :: r) f

def Agree (f : Place → Option α) (moves : List Move) : Prop :=
  ∀ m ∈ moves, ∀ n ∈ moves, m.target = n.target → f m.source = f n.source

structure Forward (moves : List Move) : Prop where
  self : ∀ m ∈ moves, m.target ≠ m.source
  later : moves.Pairwise fun m n => m.target ≠ n.source

def Apart (moves : List Move) : Prop :=
  ∀ m ∈ moves, ∀ n ∈ moves, m.target ≠ n.source

def Kept (before after : Place → Option α) (m : Move) : Prop :=
  ∃ a, before m.source = some a ∧ after m.target = some a

lemma Finds.source_ne (h : Finds moves f) (hq : f q = none)
    (hlater : moves.Pairwise fun m n => m.target ≠ n.source) : ∀ m ∈ moves, m.source ≠ q := by
  induction h with
  | nil => simp
  | @cons m r f a hsource hrest ih =>
    rw [List.pairwise_cons] at hlater
    have hne : m.source ≠ q := by
      rintro rfl
      rw [hsource] at hq
      cases hq
    rw [List.forall_mem_cons]
    refine ⟨hne, ?_⟩
    by_cases htarget : q = m.target
    · rw [htarget]
      exact fun n hn => Ne.symm (hlater.1 n hn)
    · apply ih _ hlater.2
      rw [Move.apply_of_ne (Ne.symm hne) htarget, hq]

/-- **Nothing is lost** by moves that go forward and agree: each takes a thing from where it stood at
first, and the last move to a place puts there what those before it put there. -/
lemma kept_of_forward (hfinds : Finds moves f) (hagree : Agree f moves) (hforward : Forward moves) :
    ∀ m ∈ moves, Kept f (applyAll moves f) m := by
  induction hfinds with
  | nil => simp
  | @cons m r f a hsource hrest ih =>
    obtain ⟨hself, hlater⟩ := hforward
    rw [List.forall_mem_cons] at hself
    rw [List.pairwise_cons] at hlater
    have hdistinct := hrest.source_ne (Move.apply_source m f) hlater.2
    have hsame : ∀ n ∈ r, m.apply f n.source = f n.source := fun n hn =>
      Move.apply_of_ne (hdistinct n hn) (Ne.symm (hlater.1 n hn)) f
    have hrestAgree : Agree (m.apply f) r := by
      intro n hn k hk htarget
      rw [hsame n hn, hsame k hk]
      exact hagree n (List.mem_cons_of_mem m hn) k (List.mem_cons_of_mem m hk) htarget
    have hkept := ih hrestAgree ⟨hself.2, hlater.2⟩
    rw [List.forall_mem_cons, applyAll_cons]
    refine ⟨⟨a, hsource, ?_⟩, fun n hn => ?_⟩
    · by_cases hagain : ∃ n ∈ r, n.target = m.target
      · obtain ⟨n, hn, htarget⟩ := hagain
        obtain ⟨b, hb, hafter⟩ := hkept n hn
        rw [← htarget, hafter, ← hb, hsame n hn, ← hsource]
        exact hagree n (List.mem_cons_of_mem m hn) m List.mem_cons_self htarget
      · rw [applyAll_of_ne hlater.1 fun n hn htarget => hagain ⟨n, hn, htarget.symm⟩,
          Move.apply_target hself.1, hsource]
    · obtain ⟨b, hb, hafter⟩ := hkept n hn
      exact ⟨b, hsame n hn ▸ hb, hafter⟩

lemma applyAll_source (hm : m ∈ moves) (htarget : ∀ n ∈ moves, m.source ≠ n.target)
    (f : Place → Option α) : applyAll moves f m.source = none := by
  induction moves generalizing f with
  | nil => cases hm
  | cons n r ih =>
    rw [List.forall_mem_cons] at htarget
    rw [applyAll_cons]
    rcases List.mem_cons.mp hm with rfl | hm
    · exact applyAll_eq_none (Move.apply_source m f) htarget.2
    · exact ih hm htarget.2 _

lemma Apart.forward (h : Apart moves) : Forward moves :=
  ⟨fun m hm => h m hm m hm, List.pairwise_of_forall_mem_list h⟩

/-- **When everything has been moved**, with nothing left where it stood: moves to one place are moves of
one content, and nothing is put where something is taken from. -/
lemma moved_iff (hfinds : Finds moves f) :
    (∀ m ∈ moves, Kept f (applyAll moves f) m ∧ applyAll moves f m.source = none) ↔
      Agree f moves ∧ Apart moves := by
  constructor
  · intro hmoved
    constructor
    · intro m hm n hn htarget
      obtain ⟨a, ha, hafter⟩ := (hmoved m hm).1
      obtain ⟨b, hb, hafter'⟩ := (hmoved n hn).1
      rw [htarget, hafter'] at hafter
      rw [ha, hb, hafter]
    · intro m hm n hn htarget
      obtain ⟨a, -, hafter⟩ := (hmoved m hm).1
      rw [htarget, (hmoved n hn).2] at hafter
      cases hafter
  · rintro ⟨hagree, hapart⟩ m hm
    refine ⟨kept_of_forward hfinds hagree hapart.forward m hm, ?_⟩
    exact applyAll_source hm (fun n hn => Ne.symm (hapart n hn m hm)) f

end Moves

/-! ## One file -/

def contentAt (t : Tree) (q : Place) : Option Bytes :=
  match t.node? q with
  | some (.file b) => some b
  | _ => none

variable {t u : Tree} {plan : Plan} {path : Path} {w : Workspace} {b : Bytes}

lemma contentAt_eq_some {q : Place} : contentAt t q = some b ↔ t.node? q = some (.file b) := by
  unfold contentAt
  split
  · rename_i c hc
    rw [hc]
    simp
  · rename_i hno
    refine iff_of_false (fun h => nomatch h) fun h => hno b h

lemma contentAt_congr {q : Place} (h : u.node? q = t.node? q) : contentAt u q = contentAt t q := by
  rw [contentAt, contentAt, h]

def Plan.output (plan : Plan) (path : Path) (n : Naming) : Path :=
  (plan.target.getD path.parent).child n.name

/-- What the conversion of a file that is then removed makes of a tree, and its move, if it can be
done. -/
def convert? (plan : Plan) (t : Tree) (path : Path) : Option (Move × Tree) := do
  let b ← (t.read path.text).toOption
  let n ← (naming path.name b plan.unchecked).toOption
  let u ← (t.write (plan.output path n).text b).toOption
  return (⟨pathPlace t.home path.text, pathPlace t.home (plan.output path n).text⟩,
    u.erase (pathPlace t.home path.text))

lemma eq_ok_of_toOption {ε α : Type} {r : Except ε α} {a : α} (h : r.toOption = some a) : r = .ok a := by
  cases r with
  | ok b => rw [Option.some.inj h]
  | error e => cases h

lemma convert?_eq_some {m : Move} :
    convert? plan t path = some (m, u) ↔
      ∃ b n v, t.read path.text = .ok b ∧ naming path.name b plan.unchecked = .ok n ∧
        t.write (plan.output path n).text b = .ok v ∧
        m = ⟨pathPlace t.home path.text, pathPlace t.home (plan.output path n).text⟩ ∧
        u = v.erase (pathPlace t.home path.text) := by
  constructor
  · intro h
    simp only [convert?, Option.bind_eq_bind, Option.bind_eq_some_iff] at h
    obtain ⟨b, hread, n, hname, v, hwrite, hend⟩ := h
    obtain ⟨hmove, htree⟩ := Prod.mk.inj (Option.some.inj hend)
    exact ⟨b, n, v, eq_ok_of_toOption hread, eq_ok_of_toOption hname, eq_ok_of_toOption hwrite,
      hmove.symm, htree.symm⟩
  · rintro ⟨b, n, v, hread, hname, hwrite, rfl, rfl⟩
    simp [convert?, hread, hname, hwrite, Except.toOption]

lemma contentAt_convert {m : Move} (h : convert? plan t path = some (m, u)) :
    (∃ b, contentAt t m.source = some b) ∧ contentAt u = m.apply (contentAt t) := by
  obtain ⟨b, n, v, hread, -, hwrite, rfl, rfl⟩ := convert?_eq_some.mp h
  obtain ⟨hwritable, rfl⟩ := write_eq_ok_iff.mp hwrite
  have hfile := (read_eq_ok_iff.mp hread).2
  refine ⟨⟨b, contentAt_eq_some.mpr hfile⟩, funext fun q => ?_⟩
  have hnode := node?_moved hread hwritable b q
  unfold Move.apply
  by_cases hsource : q = pathPlace t.home path.text
  · rw [if_pos hsource] at hnode ⊢
    rw [contentAt, hnode]
  · rw [if_neg hsource] at hnode ⊢
    by_cases htarget : q = pathPlace t.home (plan.output path n).text
    · rw [if_pos htarget] at hnode ⊢
      rw [contentAt_eq_some.mpr hnode, contentAt_eq_some.mpr hfile]
    · rw [if_neg htarget] at hnode ⊢
      exact contentAt_congr hnode

lemma read_put {path target : String} (h : t.read path = .ok b) (hwritable : t.Writable target) :
    (t.put (pathPlace t.home target) (.file b)).read path = .ok b := by
  obtain ⟨hplace, hnode⟩ := read_eq_ok_iff.mp h
  have hslash := (place_eq_ok_iff.mp hplace).2.2.2 ⟨b, hnode⟩
  have hthere := place_of_directories (home_put t (pathPlace t.home target) (.file b))
    (hwritable.directory_put b) hplace hslash
  refine read_eq_ok_iff.mpr ?_
  rw [home_put, node?_put hwritable.notDirectory]
  refine ⟨hthere, ?_⟩
  split
  · rfl
  · exact hnode

lemma convert?_eq_none
    (h : ∀ b n u, t.read path.text = .ok b → naming path.name b plan.unchecked = .ok n →
      t.write (plan.output path n).text b ≠ .ok u) : convert? plan t path = none := by
  cases hconvert : convert? plan t path with
  | none => rfl
  | some r =>
    obtain ⟨b, n, v, hread, hname, hwrite, -⟩ := convert?_eq_some.mp (show _ = some (r.1, r.2) from hconvert)
    exact absurd hwrite (h b n v hread hname)

lemma copyFile_run (hremove : plan.remove = true) {n : Naming}
    {v : Tree} (hread : w.tree.read path.text = .ok b)
    (hwrite : w.tree.write (plan.output path n).text b = .ok v) :
    ∃ words, (copyFile plan path b n).run w =
      .ok ⟨true, words⟩ { w with tree := v.erase (pathPlace w.tree.home path.text) } := by
  obtain ⟨hwritable, rfl⟩ := write_eq_ok_iff.mp hwrite
  have hwritten := Job.change_ok (f := (·.write (plan.output path n).text b)) hwrite
  have hremoved := Job.attempt_ok (Job.change_ok (f := (·.remove path.text))
    (w := { w with tree := w.tree.put (pathPlace w.tree.home (plan.output path n).text) (.file b) })
    (remove_eq_ok (read_put hread hwritable)))
  rw [home_put] at hremoved
  refine ⟨"Converted " ++ n.words ++ ": " ++ path.name ++ " -> " ++ (plan.output path n).text, ?_⟩
  rw [copyFile, hremove]
  refine (bind_ok hwritten).trans ?_
  exact bind_ok hremoved

lemma convertFile_run (hremove : plan.remove = true) (path : Path) (w : Workspace) :
    ∃ o, (convertFile plan path).run w = .ok o
        { w with tree := ((convert? plan w.tree path).map (·.2)).getD w.tree } ∧
      o.done = (convert? plan w.tree path).isSome := by
  -- a fault leaves the tree as it is
  have hfault : ∀ {f : FileFault} {job : Job Outcome}, convert? plan w.tree path = none →
      job.run w = .error (.file f) w →
      ∃ o, (Job.recover job fun f => return ⟨false, "Error converting " ++ path.name ++ ": " ++ f.message⟩).run w =
          .ok o { w with tree := ((convert? plan w.tree path).map (·.2)).getD w.tree } ∧
        o.done = (convert? plan w.tree path).isSome := by
    intro f job hnone hjob
    rw [hnone, Job.recover_of_error hjob (fun h => nomatch h)]
    exact ⟨_, rfl, rfl⟩
  cases hread : w.tree.read path.text with
  | error e =>
    refine hfault (convert?_eq_none fun b n u h => ?_) (bind_error (Job.look_error hread))
    rw [hread] at h
    cases h
  | ok b =>
    have hlook : (Job.readFile path.text).run w = .ok b w := Job.look_ok hread
    cases hname : naming path.name b plan.unchecked with
    | error words =>
      have hnone : convert? plan w.tree path = none := convert?_eq_none fun c n u h h' => by
        rw [hread] at h
        cases h
        rw [hname] at h'
        cases h'
      refine ⟨⟨false, words⟩, tryCatch_ok ?_, ?_⟩
      · rw [bind_ok hlook, hname, hnone]
        rfl
      · rw [hnone]
        rfl
    | ok n =>
      cases hwrite : w.tree.write (plan.output path n).text b with
      | error e =>
        refine hfault (f := e) (convert?_eq_none fun c k u h h' => ?_) ?_
        · rw [hread] at h
          cases h
          rw [hname] at h'
          cases h'
          rw [hwrite]
          exact fun h => nomatch h
        · rw [bind_ok hlook, hname]
          exact bind_error (Job.change_error hwrite)
      | ok v =>
        have hsome := convert?_eq_some.mpr ⟨b, n, v, hread, hname, hwrite, rfl, rfl⟩
        obtain ⟨words, hcopy⟩ := copyFile_run hremove hread hwrite
        refine ⟨⟨true, words⟩, tryCatch_ok ?_, ?_⟩
        · rw [bind_ok hlook, hname, hsome]
          exact hcopy
        · rw [hsome]
          rfl

/-! ## All files -/

def course (plan : Plan) : Tree → List Path → List Move × Tree
  | t, [] => ([], t)
  | t, p :: r =>
    match convert? plan t p with
    | none => course plan t r
    | some (m, u) => (m :: (course plan u r).1, (course plan u r).2)

lemma course_moves (plan : Plan) (t : Tree) (files : List Path) :
    Finds (course plan t files).1 (contentAt t) ∧
      contentAt (course plan t files).2 = applyAll (course plan t files).1 (contentAt t) := by
  induction files generalizing t with
  | nil => exact ⟨.nil, rfl⟩
  | cons p r ih =>
    rw [course]
    cases hconvert : convert? plan t p with
    | none => exact ih t
    | some c =>
      obtain ⟨⟨b, hsource⟩, hcontent⟩ := contentAt_convert (show _ = some (c.1, c.2) from hconvert)
      obtain ⟨hfinds, hrest⟩ := ih c.2
      rw [hcontent] at hfinds hrest
      exact ⟨.cons hsource hfinds, hrest⟩

lemma convertEach_run (hremove : plan.remove = true) (files : List Path) (tally : Tally)
    (w : Workspace) :
    ∃ tally' v, (convertEach plan files tally).run w = .ok tally' v ∧
      v.tree = (course plan w.tree files).2 ∧
      tally'.success = tally.success + (course plan w.tree files).1.length := by
  induction files generalizing tally w with
  | nil => exact ⟨tally, w, rfl, rfl, rfl⟩
  | cons p r ih =>
    obtain ⟨o, hfile, hdone⟩ := convertFile_run hremove p w
    obtain ⟨console, log, hprint⟩ := Job.Speaks.print ((if o.done then "✓ " else "✗ ") ++ o.words)
      { w with tree := ((convert? plan w.tree p).map (·.2)).getD w.tree }
    obtain ⟨tally', v, hrest, htree, hsuccess⟩ := ih (tally.count o.done)
      { w with tree := ((convert? plan w.tree p).map (·.2)).getD w.tree, console, log }
    refine ⟨tally', v, ?_, ?_⟩
    · rw [convertEach, bind_ok hfile, bind_ok hprint, hrest]
    · rw [htree, hsuccess, hdone, course]
      cases convert? plan w.tree p with
      | none => exact ⟨rfl, rfl⟩
      | some c =>
        simp [Tally.count]
        omega

lemma convertFound_run (hremove : plan.remove = true) (source : String)
    (files : List Path) (w : Workspace) :
    ∃ tally v, (convertFound plan source files).run w = .ok tally v ∧
      v.tree = (course plan w.tree files).2 ∧
      tally.success = (course plan w.tree files).1.length := by
  rw [convertFound]
  by_cases hempty : files.isEmpty
  · obtain rfl := List.isEmpty_iff.mp hempty
    obtain ⟨console, log, hprint⟩ := Job.Speaks.print ("No .bytes files found in '" ++ source ++ "'") w
    exact ⟨{}, { w with console, log }, bind_ok hprint, rfl, rfl⟩
  · rw [if_neg hempty]
    have hconvert : ∀ u : Workspace, u.tree = w.tree → ∃ tally v, (do
        Job.print (Text.line '-' 80)
        let t ← convertEach plan files { total := files.length }
        Job.print (Text.line '-' 80)
        Job.print ("Conversion complete: " ++ Decimal.nat t.success ++ " succeeded, " ++
          Decimal.nat t.failed ++ " failed")
        return t).run u = .ok tally v ∧ v.tree = (course plan w.tree files).2 ∧
          tally.success = (course plan w.tree files).1.length := by
      intro u hu
      obtain ⟨_, _, hline⟩ := Job.Speaks.print (Text.line '-' 80) u
      obtain ⟨tally, v, heach, htree, hsuccess⟩ :=
        convertEach_run hremove files { total := files.length } _
      obtain ⟨_, _, hline'⟩ := Job.Speaks.print (Text.line '-' 80) v
      obtain ⟨_, _, hwords⟩ := Job.Speaks.print ("Conversion complete: " ++ Decimal.nat tally.success ++
        " succeeded, " ++ Decimal.nat tally.failed ++ " failed") _
      refine ⟨tally, _, (bind_ok hline).trans ((bind_ok heach).trans
        ((bind_ok hline').trans (bind_ok hwords))), ?_, ?_⟩
      · exact htree.trans (by rw [hu])
      · rw [hsuccess, hu, Nat.zero_add]
    obtain ⟨_, _, hfound⟩ := Job.Speaks.print
      ("Found " ++ Decimal.nat files.length ++ " .bytes file(s) in '" ++ source ++ "'") w
    rw [bind_ok hfound]
    by_cases hunchecked : plan.unchecked
    · rw [if_pos hunchecked]
      obtain ⟨_, _, hnote⟩ := Job.Speaks.print
        "Note: PDB validation is disabled - all files will be converted" { w with console := _, log := _ }
      rw [bind_ok hnote]
      exact hconvert _ rfl
    · rw [if_neg hunchecked]
      exact hconvert _ rfl

lemma contentAt_makePath {p : Path} (hp : p.Proper) (h : t.makePath p = .ok u) :
    contentAt u = contentAt t := by
  funext q
  have hnode := (paved_of_makePath hp h).node_eq q
  by_cases hnone : t.node? q = none ∧ q ∈ p.stations t.home
  · rw [if_pos hnone] at hnode
    rw [contentAt, contentAt, hnode, hnone.1]
  · rw [if_neg hnone] at hnode
    exact contentAt_congr hnode

def removing (target : Option String) (unchecked : Bool) : Plan where
  target := (target.filter (· ≠ "")).map Path.ofString
  remove := true
  unchecked := unchecked

lemma removing_proper (target : Option String) (unchecked : Bool) :
    ∀ p ∈ (removing target unchecked).target, p.Proper := by
  intro p hp
  obtain ⟨s, -, rfl⟩ := Option.map_eq_some_iff.mp hp
  exact Path.proper_ofString s

lemma makeTarget_cases {target : Option Path} (htarget : ∀ p ∈ target, p.Proper) (w : Workspace) :
    (∃ u, (makeTarget target).run w = .ok () u ∧ contentAt u.tree = contentAt w.tree) ∨
      ∃ f, (makeTarget target).run w = .error f w := by
  cases target with
  | none => exact .inl ⟨w, rfl, rfl⟩
  | some p =>
    cases hmake : w.tree.makePath p with
    | ok u =>
      obtain ⟨console, log, hprint⟩ := Job.Speaks.print ("Output directory: " ++ p.text) { w with tree := u }
      refine .inl ⟨{ w with tree := u, console, log }, ?_, contentAt_makePath (htarget p rfl) hmake⟩
      exact (bind_ok (Job.change_ok hmake)).trans hprint
    | error e => exact .inr ⟨.file e, bind_error (Job.change_error hmake)⟩

lemma contentAt_makeTarget {target : Option Path} (htarget : ∀ p ∈ target, p.Proper)
    {u : Workspace} (h : (makeTarget target).run w = .ok () u) :
    contentAt u.tree = contentAt w.tree := by
  rcases makeTarget_cases htarget w with ⟨v, hmake, hcontent⟩ | ⟨f, hmake⟩
  · rw [hmake] at h
    cases h
    exact hcontent
  · rw [hmake] at h
    cases h

/-- **A conversion counts its moves** if the directory is there and the one for the copies can be made. -/
lemma convertAll_run (source : String) (target : Option String) (unchecked : Bool) {u : Workspace}
    (hthere : w.tree.exists? (Path.ofString source).text = true)
    (hmake : (makeTarget (removing target unchecked).target).run w = .ok () u) (recursive : Bool) :
    ∃ tally v, (convertAll source target true recursive unchecked).run w = .ok (some tally) v ∧
      v.tree = (course (removing target unchecked) u.tree
        (filesIn u.tree (.ofString source) recursive)).2 ∧
      tally.success = (course (removing target unchecked) u.tree
        (filesIn u.tree (.ofString source) recursive)).1.length := by
  have hexists : (Job.pathExists (Path.ofString source).text).run w = .ok true w :=
    congrArg (EStateM.Result.ok · w) hthere
  have hlook : Job.tree.run u = .ok u.tree u := rfl
  obtain ⟨tally, v, hrun, htree, hsuccess⟩ := convertFound_run
    (show (removing target unchecked).remove = true from rfl) source (filesIn u.tree (.ofString source) recursive) u
  refine ⟨tally, v, ?_, htree, hsuccess⟩
  rw [convertAll, bind_ok hexists]
  refine (bind_ok hmake).trans ?_
  rw [bind_ok hlook]
  exact bind_ok hrun

lemma convertAll_of_not {source : String} {target : Option String} {unchecked : Bool}
    (h : ¬ (w.tree.exists? (Path.ofString source).text = true ∧
      ∃ u, (makeTarget (removing target unchecked).target).run w = .ok () u)) (recursive : Bool) :
    ∃ v, ((convertAll source target true recursive unchecked).run w = .ok none v ∨
        ∃ f, (convertAll source target true recursive unchecked).run w = .error f v) ∧
      v.tree = w.tree := by
  have hexists : (Job.pathExists (Path.ofString source).text).run w =
      .ok (w.tree.exists? (Path.ofString source).text) w := rfl
  cases hthere : w.tree.exists? (Path.ofString source).text with
  | true =>
    rw [hthere] at hexists
    rcases makeTarget_cases (removing_proper target unchecked) w with ⟨u, hmake, -⟩ | ⟨f, hmake⟩
    · exact absurd ⟨hthere, u, hmake⟩ h
    · refine ⟨w, .inr ⟨f, ?_⟩, rfl⟩
      rw [convertAll, bind_ok hexists]
      exact bind_error hmake
  | false =>
    rw [hthere] at hexists
    obtain ⟨console, log, hprint⟩ := Job.Speaks.print
      ("Error: Source directory '" ++ source ++ "' does not exist") w
    refine ⟨{ w with console, log }, .inl ?_, rfl⟩
    rw [convertAll, bind_ok hexists]
    exact bind_ok hprint

def twoFiles (other : String) : Workspace where
  tree :=
    { entries :=
        [⟨["tmp", "work", "src"], .directory, 0⟩, ⟨["tmp", "work", "src", "x.bytes"], .file [1], 0⟩,
          ⟨["tmp", "work", "src", other], .file [2], 0⟩] }

end Salvage.Assembly
