import Mathlib.Data.List.Induction
import Mathlib.Data.List.Perm.Basic
import Salvage.Workspace.Tree

/-!
# Chores in any order

A chore makes the directories of a file and writes the file. Chores that are done one after the other
can hinder each other: a file stands where a directory is needed, or a file is written over. They leave
the same files in every order exactly if no two of them hinder each other.
-/

namespace Salvage.Decompile

abbrev Nodes := Place → Option Node

/-! ## One chore -/

structure Chore where
  stations : List Place
  leads : Bool
  target : Place
  named : Bool
  text : Option Bytes
deriving DecidableEq

namespace Chore

def passes (c : Chore) (σ : Nodes) : Bool :=
  c.text.isSome && c.leads && c.stations.all fun q => (σ q).all Node.isDirectory

def succeeds (c : Chore) (σ : Nodes) : Bool :=
  c.passes σ && c.named && !(σ c.target).any Node.isDirectory && !c.stations.contains c.target

def perform (c : Chore) (σ : Nodes) : Nodes := fun q =>
  if c.succeeds σ ∧ q = c.target then c.text.map .file
  else if c.passes σ ∧ σ q = none ∧ q ∈ c.stations then some .directory
  else σ q

variable {c : Chore} {σ τ : Nodes} {q : Place} {data : Bytes}

lemma passes_iff : c.passes σ ↔ c.text.isSome ∧ c.leads ∧
    ∀ q ∈ c.stations, ∀ data, σ q ≠ some (.file data) := by
  have hnode : ∀ q, (σ q).all Node.isDirectory ↔ ∀ data, σ q ≠ some (.file data) := by
    intro q
    cases hq : σ q with
    | none => simp
    | some n => cases n <;> simp [Node.isDirectory]
  simp only [passes, Bool.and_eq_true, List.all_eq_true, hnode, and_assoc]

lemma succeeds_iff : c.succeeds σ ↔
    c.passes σ ∧ c.named ∧ σ c.target ≠ some .directory ∧ c.target ∉ c.stations := by
  have hnode : (!(σ c.target).any Node.isDirectory) = true ↔ σ c.target ≠ some .directory := by
    cases hq : σ c.target with
    | none => simp
    | some n => cases n <;> simp [Node.isDirectory]
  simp only [succeeds, Bool.and_eq_true, hnode, Bool.not_eq_true', List.contains_eq_mem,
    decide_eq_false_iff_not, and_assoc]

lemma exists_text (h : c.passes σ) : ∃ data, c.text = some data :=
  Option.isSome_iff_exists.mp (passes_iff.mp h).1

lemma perform_of_not_passes (h : ¬ c.passes σ) : c.perform σ = σ := by
  funext q
  rw [perform, if_neg (fun hc => h (succeeds_iff.mp hc.1).1), if_neg (fun hc => h hc.1)]

lemma perform_of_not_succeeds (hpasses : c.passes σ) (h : ¬ c.succeeds σ) (q : Place) :
    c.perform σ q = if σ q = none ∧ q ∈ c.stations then some .directory else σ q := by
  rw [perform, if_neg (fun hc => h hc.1)]
  exact if_congr (and_iff_right hpasses) rfl rfl

lemma perform_of_succeeds (h : c.succeeds σ) (q : Place) :
    c.perform σ q = if q = c.target then c.text.map .file
      else if σ q = none ∧ q ∈ c.stations then some .directory else σ q := by
  rw [perform]
  exact if_congr (and_iff_right h) rfl
    (if_congr (and_iff_right (succeeds_iff.mp h).1) rfl rfl)

lemma perform_directory (c : Chore) (h : σ q = some .directory) :
    c.perform σ q = some .directory := by
  rw [perform, if_neg, h, if_neg]
  · simp
  · rintro ⟨hc, rfl⟩
    exact (succeeds_iff.mp hc).2.2.1 h

lemma perform_file (c : Chore) (h : σ q = some (.file data)) :
    ∃ data', c.perform σ q = some (.file data') := by
  rw [perform]
  split_ifs with hc hd
  · obtain ⟨text, htext⟩ := exists_text (succeeds_iff.mp hc.1).1
    exact ⟨text, by rw [htext]; rfl⟩
  · rw [h] at hd
    cases hd.2.1
  · exact ⟨data, h⟩

end Chore

/-! ## Chores one after the other -/

def performAll (σ : Nodes) (cs : List Chore) : Nodes :=
  cs.foldl (fun σ c => c.perform σ) σ

def successes : Nodes → List Chore → Nat
  | _, [] => 0
  | σ, c :: r => (if c.succeeds σ then 1 else 0) + successes (c.perform σ) r

variable {cs l l' : List Chore} {σ τ : Nodes} {q : Place} {data : Bytes}

lemma performAll_directory (cs : List Chore) (h : σ q = some .directory) :
    performAll σ cs q = some .directory := by
  induction cs generalizing σ with
  | nil => exact h
  | cons c r ih => exact ih (c.perform_directory h)

lemma performAll_file (cs : List Chore) (h : σ q = some (.file data)) :
    ∃ data', performAll σ cs q = some (.file data') := by
  induction cs generalizing σ data with
  | nil => exact ⟨data, h⟩
  | cons c r ih =>
    obtain ⟨data', hc⟩ := c.perform_file h
    exact ih hc

def Apart (σ : Nodes) (cs : List Chore) : Prop :=
  ∀ a ∈ cs, ∀ b ∈ cs, a.succeeds σ → b.passes σ → a.target ∉ b.stations

/-- Chores that succeed with files at the same place write the same. -/
def Agreeing (σ : Nodes) (cs : List Chore) : Prop :=
  ∀ a ∈ cs, ∀ b ∈ cs, a.succeeds σ → b.succeeds σ → a.target = b.target → a.text = b.text

structure Independent (σ : Nodes) (cs : List Chore) : Prop where
  apart : Apart σ cs
  agreeing : Agreeing σ cs

/-- What can stand where while chores that keep apart are done: nothing is lost, and what is new was
made by one of them. -/
structure Reached (cs : List Chore) (σ τ : Nodes) : Prop where
  directory : ∀ ⦃q⦄, σ q = some .directory → τ q = some .directory
  file : ∀ ⦃q data⦄, σ q = some (.file data) → ∃ data', τ q = some (.file data')
  directory_cases : ∀ ⦃q⦄, τ q = some .directory →
    σ q = some .directory ∨ ∃ a ∈ cs, a.passes σ ∧ q ∈ a.stations
  file_cases : ∀ ⦃q data⦄, τ q = some (.file data) →
    (∃ data', σ q = some (.file data')) ∨ ∃ a ∈ cs, a.succeeds σ ∧ a.target = q

namespace Reached

lemma refl (cs : List Chore) (σ : Nodes) : Reached cs σ σ :=
  ⟨fun _ h => h, fun _ data h => ⟨data, h⟩, fun _ h => .inl h, fun _ data h => .inl ⟨data, h⟩⟩

variable {c : Chore}

/-- **The directories of a chore can be made** while the others are done exactly if they could be
made before. -/
lemma passes_eq (h : Reached cs σ τ) (hcs : Apart σ cs) (hc : c ∈ cs) :
    c.passes τ = c.passes σ := by
  rw [Bool.eq_iff_iff, Chore.passes_iff, Chore.passes_iff]
  refine and_congr_right fun htext => and_congr_right fun hleads => ⟨fun hτ q hq data hdata => ?_,
    fun hσ q hq data hdata => ?_⟩
  · obtain ⟨data', hdata'⟩ := h.file hdata
    exact hτ q hq data' hdata'
  · rcases h.file_cases hdata with ⟨data', hdata'⟩ | ⟨a, ha, hsucceeds, rfl⟩
    · exact hσ q hq data' hdata'
    · exact hcs a ha c hc hsucceeds (Chore.passes_iff.mpr ⟨htext, hleads, hσ⟩) hq

/-- **The file of a chore can be written** while the others are done exactly if it could be written
before. -/
lemma succeeds_eq (h : Reached cs σ τ) (hcs : Apart σ cs) (hc : c ∈ cs) :
    c.succeeds τ = c.succeeds σ := by
  rw [Bool.eq_iff_iff, Chore.succeeds_iff, Chore.succeeds_iff, h.passes_eq hcs hc]
  refine and_congr_right fun hpasses => and_congr_right fun hnamed => and_congr_left fun hstation =>
    not_congr ⟨fun hτ => ?_, fun hσ => h.directory hσ⟩
  by_contra hσ
  rcases h.directory_cases hτ with hdir | ⟨a, ha, hpass, hmem⟩
  · exact hσ hdir
  · have hsucceeds := Chore.succeeds_iff.mpr ⟨hpasses, hnamed, hσ, hstation⟩
    exact hcs c hc a ha hsucceeds hpass hmem

lemma perform (h : Reached cs σ τ) (hcs : Apart σ cs) (hc : c ∈ cs) :
    Reached cs σ (c.perform τ) := by
  refine ⟨fun q hq => c.perform_directory (h.directory hq), fun q data hq => ?_, fun q hq => ?_,
    fun q data hq => ?_⟩
  · obtain ⟨data', hdata'⟩ := h.file hq
    exact c.perform_file hdata'
  · rw [Chore.perform] at hq
    split_ifs at hq with hwrite hmake
    · obtain ⟨text, htext⟩ := Chore.exists_text (Chore.succeeds_iff.mp hwrite.1).1
      rw [htext] at hq
      cases hq
    · exact .inr ⟨c, hc, h.passes_eq hcs hc ▸ hmake.1, hmake.2.2⟩
    · exact h.directory_cases hq
  · rw [Chore.perform] at hq
    split_ifs at hq with hwrite hmake
    · exact .inr ⟨c, hc, h.succeeds_eq hcs hc ▸ hwrite.1, hwrite.2.symm⟩
    · cases hq
    · exact h.file_cases hq

lemma performAll (h : Reached cs σ τ) (hcs : Apart σ cs) (hl : l ⊆ cs) :
    Reached cs σ (performAll τ l) := by
  induction l generalizing τ with
  | nil => exact h
  | cons c r ih =>
    obtain ⟨hc, hr⟩ := List.cons_subset.mp hl
    exact ih (h.perform hcs hc) hr

lemma successes_eq (h : Reached cs σ τ) (hcs : Apart σ cs) (hl : l ⊆ cs) :
    successes τ l = l.countP (·.succeeds σ) := by
  induction l generalizing τ with
  | nil => rfl
  | cons c r ih =>
    obtain ⟨hc, hr⟩ := List.cons_subset.mp hl
    rw [successes, ih (h.perform hcs hc) hr, h.succeeds_eq hcs hc, List.countP_cons, Nat.add_comm]

end Reached

/-! ## Independent chores -/

lemma performAll_concat (σ : Nodes) (l : List Chore) (c : Chore) :
    performAll σ (l ++ [c]) = c.perform (performAll σ l) := by
  rw [performAll, List.foldl_concat]
  rfl

variable {a : Chore}

lemma performAll_target (hcs : Independent σ cs) (hl : l ⊆ cs) (ha : a ∈ l)
    (hsucceeds : a.succeeds σ) : performAll σ l a.target = a.text.map .file := by
  induction l using List.reverseRecOn with
  | nil => cases ha
  | append_singleton l c ih =>
    obtain ⟨hl, hc⟩ := List.append_subset.mp hl
    have hc : c ∈ cs := hc List.mem_cons_self
    have hreached := (Reached.refl cs σ).performAll hcs.apart hl
    rw [performAll_concat, Chore.perform, hreached.succeeds_eq hcs.apart hc]
    by_cases hwrite : c.succeeds σ ∧ a.target = c.target
    · have hacs : a ∈ cs := (List.mem_append.mp ha).elim (fun h => hl h) fun h =>
        List.mem_singleton.mp h ▸ hc
      rw [if_pos hwrite, hcs.agreeing a hacs c hc hsucceeds hwrite.1 hwrite.2]
    · have hal : a ∈ l := (List.mem_append.mp ha).resolve_right fun h => by
        obtain rfl := List.mem_singleton.mp h
        exact hwrite ⟨hsucceeds, rfl⟩
      obtain ⟨text, htext⟩ := Chore.exists_text (Chore.succeeds_iff.mp hsucceeds).1
      rw [if_neg hwrite, ih hl hal, htext, if_neg (by simp)]

lemma performAll_of_no_target (hcs : Apart σ cs) (hl : l ⊆ cs)
    (hq : ∀ a ∈ l, a.succeeds σ → a.target ≠ q) :
    performAll σ l q =
      if σ q = none ∧ ∃ a ∈ l, a.passes σ ∧ q ∈ a.stations then some .directory else σ q := by
  induction l using List.reverseRecOn with
  | nil => simp [performAll]
  | append_singleton l c ih =>
    obtain ⟨hl, hc⟩ := List.append_subset.mp hl
    have hc : c ∈ cs := hc List.mem_cons_self
    have hreached := (Reached.refl cs σ).performAll hcs hl
    have hwrite : ¬ (c.succeeds σ ∧ q = c.target) := fun h =>
      hq c (List.mem_append_right _ List.mem_cons_self) h.1 h.2.symm
    have hbefore := ih hl fun a ha => hq a (List.mem_append_left _ ha)
    have hsome : (∃ a ∈ l ++ [c], a.passes σ ∧ q ∈ a.stations) ↔
        (∃ a ∈ l, a.passes σ ∧ q ∈ a.stations) ∨ c.passes σ ∧ q ∈ c.stations := by
      simp only [List.mem_append, List.mem_singleton, or_and_right, exists_or, exists_eq_left]
    rw [performAll_concat, Chore.perform, hreached.succeeds_eq hcs hc, hreached.passes_eq hcs hc,
      if_neg hwrite]
    by_cases hmade : σ q = none ∧ ∃ a ∈ l, a.passes σ ∧ q ∈ a.stations
    · rw [if_pos hmade] at hbefore
      rw [hbefore, if_neg (by simp), if_pos ⟨hmade.1, hsome.mpr (.inl hmade.2)⟩]
    · rw [if_neg hmade] at hbefore
      rw [hbefore]
      refine if_congr ?_ rfl rfl
      rw [hsome]
      exact ⟨fun h => ⟨h.2.1, .inr ⟨h.1, h.2.2⟩⟩, fun h =>
        have hc := h.2.resolve_left fun hl => hmade ⟨h.1, hl⟩
        ⟨hc.1, h.1, hc.2⟩⟩

lemma performAll_perm (hcs : Independent σ cs) (hl : l.Perm cs) :
    performAll σ l = performAll σ cs := by
  funext q
  by_cases hq : ∃ a ∈ cs, a.succeeds σ ∧ a.target = q
  · obtain ⟨a, ha, hsucceeds, rfl⟩ := hq
    rw [performAll_target hcs hl.subset (hl.mem_iff.mpr ha) hsucceeds,
      performAll_target hcs (List.Subset.refl cs) ha hsucceeds]
  · have hno : ∀ a ∈ cs, a.succeeds σ → a.target ≠ q := fun a ha hsucceeds heq =>
      hq ⟨a, ha, hsucceeds, heq⟩
    rw [performAll_of_no_target hcs.apart hl.subset fun a ha => hno a (hl.mem_iff.mp ha),
      performAll_of_no_target hcs.apart (List.Subset.refl cs) hno]
    simp only [hl.mem_iff]

lemma successes_perm (hcs : Independent σ cs) (hl : l.Perm cs) : successes σ l = successes σ cs := by
  rw [(Reached.refl cs σ).successes_eq hcs.apart hl.subset,
    (Reached.refl cs σ).successes_eq hcs.apart (List.Subset.refl cs), hl.countP_eq]

/-! ## Chores that hinder each other -/

def SameFiles (σ τ : Nodes) : Prop :=
  ∀ q data, σ q = some (.file data) ↔ τ q = some (.file data)

lemma not_sameFiles_of_station {b : Chore} (ha : a.succeeds σ) (hb : b.passes σ)
    (hmem : a.target ∈ b.stations) (rest : List Chore) :
    ¬ SameFiles (performAll σ (a :: b :: rest)) (performAll σ (b :: a :: rest)) := by
  obtain ⟨text, htext⟩ := Chore.exists_text (Chore.succeeds_iff.mp ha).1
  have hfirst : a.perform σ a.target = some (.file text) := by
    rw [Chore.perform, if_pos ⟨ha, rfl⟩, htext]
    rfl
  have hnone : σ a.target = none := by
    cases hnode : σ a.target with
    | none => rfl
    | some n =>
      cases n with
      | directory => exact absurd hnode (Chore.succeeds_iff.mp ha).2.2.1
      | file data => exact absurd hnode ((Chore.passes_iff.mp hb).2.2 _ hmem data)
  have hother : b.perform σ a.target = some .directory := by
    rw [Chore.perform, if_neg, if_pos ⟨hb, hnone, hmem⟩]
    rintro ⟨hsucceeds, heq⟩
    exact (Chore.succeeds_iff.mp hsucceeds).2.2.2 (heq ▸ hmem)
  obtain ⟨data, hdata⟩ := performAll_file (b :: rest) hfirst
  have hdir := performAll_directory (a :: rest) hother
  intro hsame
  have hfile := (hsame a.target data).mp hdata
  rw [performAll, List.foldl_cons, ← performAll, hdir] at hfile
  cases hfile

lemma not_sameFiles_of_text (hcs : Apart σ cs) {b : Chore} (hacs : a ∈ cs) (hbcs : b ∈ cs)
    (ha : a.succeeds σ) (hb : b.succeeds σ) (htarget : a.target = b.target) (htext : a.text ≠ b.text)
    (hl : l ⊆ cs) : ¬ SameFiles (performAll σ (l ++ [a, b])) (performAll σ (l ++ [b, a])) := by
  -- whichever of the two comes last, its text stands at their place
  have hlast : ∀ c d : Chore, c ∈ cs → d ∈ cs → d.succeeds σ →
      performAll σ (l ++ [c, d]) d.target = d.text.map .file := by
    intro c d hc hd hsucceeds
    have hreached := (Reached.refl cs σ).performAll hcs
      (List.append_subset.mpr ⟨hl, List.cons_subset.mpr ⟨hc, List.nil_subset _⟩⟩)
    have happend : l ++ [c, d] = l ++ [c] ++ [d] := by rw [List.append_assoc]; rfl
    rw [happend, performAll_concat, Chore.perform,
      if_pos ⟨(hreached.succeeds_eq hcs hd).trans hsucceeds, rfl⟩]
  obtain ⟨text, hsome⟩ := Chore.exists_text (Chore.succeeds_iff.mp hb).1
  have hab := hlast a b hacs hbcs hb
  have hba := hlast b a hbcs hacs ha
  intro hsame
  rw [hsome] at hab
  rw [htarget, (hsame b.target text).mp hab] at hba
  refine htext ?_
  rw [hsome]
  cases hatext : a.text with
  | none => rw [hatext] at hba; cases hba
  | some other =>
    rw [hatext] at hba
    exact congrArg some (Node.file.inj (Option.some.inj hba)).symm

lemma independent_of_sameFiles
    (h : ∀ l, l.Perm cs → SameFiles (performAll σ l) (performAll σ cs)) : Independent σ cs := by
  have hpair : ∀ l l', l.Perm cs → l'.Perm cs → SameFiles (performAll σ l) (performAll σ l') :=
    fun l l' hl hl' q data => (h l hl q data).trans (h l' hl' q data).symm
  -- two different chores can be brought to the front, or to the end, in both orders
  have hfront : ∀ a ∈ cs, ∀ b ∈ cs, a ≠ b → ∃ rest, (a :: b :: rest).Perm cs := by
    intro a ha b hb hne
    have hb' : b ∈ cs.erase a := (List.mem_erase_of_ne (Ne.symm hne)).mpr hb
    exact ⟨(cs.erase a).erase b,
      ((List.perm_cons_erase ha).trans ((List.perm_cons_erase hb').cons a)).symm⟩
  have hapart : Apart σ cs := by
    intro a ha b hb hsucceeds hpasses hmem
    have hne : a ≠ b := by
      rintro rfl
      exact (Chore.succeeds_iff.mp hsucceeds).2.2.2 hmem
    obtain ⟨rest, hrest⟩ := hfront a ha b hb hne
    exact not_sameFiles_of_station hsucceeds hpasses hmem rest
      (hpair _ _ hrest ((List.Perm.swap a b rest).trans hrest))
  refine ⟨hapart, fun a ha b hb hsucceeds hsucceeds' htarget => ?_⟩
  by_contra htext
  have hne : a ≠ b := fun heq => htext (heq ▸ rfl)
  obtain ⟨rest, hrest⟩ := hfront a ha b hb hne
  have hsub : rest ⊆ cs := fun c hc =>
    hrest.subset (List.mem_cons_of_mem a (List.mem_cons_of_mem b hc))
  exact not_sameFiles_of_text hapart ha hb hsucceeds hsucceeds' htarget htext hsub
    (hpair _ _ (List.perm_append_comm.trans hrest)
      (List.perm_append_comm.trans ((List.Perm.swap a b rest).trans hrest)))

end Salvage.Decompile
