import Salvage.Container.Scripts
import Salvage.Proofs.Number.Decimal
import Salvage.Proofs.Workspace.Directories

/-!
# Where scripts are written

The name in a script is not to be trusted: it may start at the top, or lead upwards. A double dot is
replaced wherever it stands in the name, and no step after that brings two dots together again: slashes
are only taken away beside other slashes or at the front, and an extension is put where a dot was cut
off. So the paths of scripts lead downwards, and the files stand below the output directory.
-/

namespace Salvage.Container

open PathText

/-! ## Dots -/

def SingleDots (cs : List Char) : Prop :=
  cs.IsChain fun a b => a = '.' → b ≠ '.'

lemma singleDots_replaceFrom (skip : Nat) (cs : List Char) :
    SingleDots (Text.replaceFrom ['.', '.'] ['_'] skip cs) := by
  induction cs generalizing skip with
  | nil => exact .nil
  | cons c r ih =>
    cases skip with
    | succ skip => exact ih skip
    | zero =>
      rw [Text.replaceFrom]
      split
      · exact List.isChain_cons.mpr ⟨by simp, ih 1⟩
      · rename_i hpair
        refine List.isChain_cons.mpr ⟨fun y hy hc => ?_, ih 0⟩
        -- a single dot has another character behind it, which stays, or is none of two dots
        cases r with
        | nil => simp [Text.replaceFrom] at hy
        | cons d r =>
          rw [Text.replaceFrom] at hy
          split at hy
          · simp at hy
            simp [← hy]
          · simp at hy
            subst hc hy
            exact fun hd => hpair (by simp [hd])

lemma head?_singleSlashes (cs : List Char) : (singleSlashes cs).head? = cs.head? := by
  fun_cases singleSlashes cs <;> rfl

variable {path : String} {cs : List Char}

lemma singleDots_singleSlashes (h : SingleDots cs) : SingleDots (singleSlashes cs) := by
  fun_induction singleSlashes cs with
  | case1 => exact .nil
  | case2 r q hq ih =>
    rw [← hq]
    exact ih (List.isChain_cons.mp h).2
  | case3 r hq ih => exact List.isChain_cons.mpr ⟨by simp, ih (List.isChain_cons.mp h).2⟩
  | case4 c r hc ih =>
    obtain ⟨hhead, hr⟩ := List.isChain_cons.mp h
    exact List.isChain_cons.mpr ⟨by rwa [head?_singleSlashes], ih hr⟩

lemma mem_singleSlashes {x : Char} (h : x ∈ singleSlashes cs) : x ∈ cs := by
  fun_induction singleSlashes cs <;> simp_all <;> grind

lemma beforeLastDot_cases (cs : List Char) :
    ('.' ∉ cs ∧ beforeLastDot cs = cs) ∨ ∃ r, cs = beforeLastDot cs ++ '.' :: r := by
  obtain ⟨rs, rfl⟩ : ∃ rs, cs = rs.reverse := ⟨cs.reverse, by simp⟩
  unfold beforeLastDot
  by_cases hdot : '.' ∈ rs.reverse
  · right
    rw [if_pos (List.contains_iff_mem.mpr hdot), List.reverse_reverse]
    obtain ⟨d, r, hr⟩ : ∃ d r, rs.dropWhile (· ≠ '.') = d :: r := by
      refine List.exists_cons_of_ne_nil fun hnil => ?_
      simpa using List.dropWhile_eq_nil_iff.mp hnil '.' (List.mem_reverse.mp hdot)
    have hd := List.head?_dropWhile_not (· ≠ '.') rs
    rw [hr] at hd
    have hd : d = '.' := by simpa using hd
    have hall := List.takeWhile_append_dropWhile (p := (· ≠ '.')) (l := rs)
    rw [hr, hd] at hall
    rw [hr]
    refine ⟨(rs.takeWhile (· ≠ '.')).reverse, ?_⟩
    calc rs.reverse = (rs.takeWhile (· ≠ '.') ++ '.' :: r).reverse := by rw [hall]
      _ = _ := by simp
  · left
    exact ⟨hdot, if_neg (mt List.contains_iff_mem.mp hdot)⟩

lemma singleDots_compiled (h : SingleDots cs) :
    SingleDots (beforeLastDot cs ++ ".luac".toList) := by
  refine List.isChain_append.mpr ⟨?_, by decide, fun x hx y hy hdot => ?_⟩
  · rcases beforeLastDot_cases cs with ⟨-, heq⟩ | ⟨r, hr⟩
    · rwa [heq]
    · exact h.prefix ⟨_, hr.symm⟩
  · subst hdot
    rcases beforeLastDot_cases cs with ⟨hnone, heq⟩ | ⟨r, hr⟩
    · rw [heq] at hx
      exact absurd (List.mem_of_getLast? hx) hnone
    · rw [hr] at h
      exact absurd rfl ((List.isChain_append.mp h).2.2 '.' hx '.' rfl rfl)

/-! ## Paths -/

structure Descends (path : String) : Prop where
  relative : isAbsolute path = false
  noDots : ".." ∉ pieces path
  extension : ∃ front, path = front ++ ".luac"
  noZero : Char.ofNat 0 ∉ path.toList

lemma split_of_extension (h : ∃ front, path = front ++ ".luac") :
    (split path).2 ≠ "" ∧ (split path).2 ≠ "." := by
  obtain ⟨front, hfront⟩ := h
  have hext : ".luac".toList = ['.', 'l', 'u', 'a', 'c'] := rfl
  have hlast : path.toList.getLast? = some 'c' := by simp [hfront, hext]
  obtain ⟨-, ⟨-, hpath⟩ | ⟨-, -, front, -, hpath, -⟩⟩ := split_cases path
  all_goals
    constructor <;>
    · intro htail
      rw [hpath, htail] at hlast
      simp at hlast

namespace Descends

variable {path : String}

lemma parts_ne_nil (h : Descends path) : (Path.ofString path).parts ≠ [] := by
  rw [(Path.front_of_name (split_of_extension h.extension)).1]
  simp

lemma mem_parts (h : Descends path) {n : String} (hn : n ∈ (Path.ofString path).parts) :
    n ≠ "" ∧ n ≠ "." ∧ n ≠ ".." := by
  obtain ⟨hmem, hne⟩ := List.mem_filter.mp hn
  have hne : n ≠ "" ∧ n ≠ "." := of_decide_eq_true hne
  exact ⟨hne.1, hne.2, fun hdots => h.noDots (hdots ▸ hmem)⟩

lemma pathPlace_join (h : Descends path) (home : Place) (dir : String) :
    Tree.pathPlace home (join dir path) =
      Tree.pathPlace home dir ++ (Path.ofString path).parts := by
  rw [Path.pathPlace_join home dir h.relative, ← Path.namesFrom_filter]
  exact Path.namesFrom_eq_append (fun n hn => h.mem_parts hn) _

end Descends

lemma dots_notMem_pieces (h : SingleDots path.toList) : ".." ∉ pieces path := by
  intro hmem
  obtain ⟨cs, hcs, hdots⟩ := List.mem_map.mp hmem
  have hpair : cs = ['.', '.'] := by
    rw [← String.toList_ofList (l := cs), hdots]
    rfl
  have hchain := h.infix (infix_of_mem_splitChars hcs)
  rw [hpair] at hchain
  exact absurd hchain (by decide)

lemma safePath?_eq_some {name : String} (h : safePath? name = some path) :
    SingleDots path.toList ∧ path.toList.head? ≠ some '/' ∧
      ∀ c ∈ path.toList, c ∈ name.toList ∨ c = '/' ∨ c = '_' := by
  unfold safePath? at h
  dsimp only at h
  split at h
  · cases h
  obtain rfl := Option.some.inj h
  simp only [Text.replaceAll, String.toList_ofList]
  rw [if_neg (by decide), if_neg (by decide)]
  refine ⟨?_, ?_, fun c hc => ?_⟩
  · exact (singleDots_singleSlashes (singleDots_replaceFrom 0 _)).suffix (List.dropWhile_suffix _)
  · intro hhead
    generalize singleSlashes _ = cs at hhead
    have hslash := List.head?_dropWhile_not (· = '/') cs
    rw [hhead] at hslash
    simp at hslash
  · have hc := mem_singleSlashes ((List.dropWhile_sublist _).subset hc)
    rcases Text.mem_replaceFrom hc with hc | hc
    · rcases Text.mem_replaceFrom hc with hc | hc
      · exact .inl hc
      · exact .inr (.inl (List.mem_singleton.mp hc))
    · exact .inr (.inr (List.mem_singleton.mp hc))

lemma descends_compiledPath (hdots : SingleDots path.toList)
    (hhead : path.toList.head? ≠ some '/') (hzero : Char.ofNat 0 ∉ path.toList) :
    Descends (compiledPath path) := by
  unfold compiledPath
  split
  · rename_i hend
    obtain ⟨front, hfront⟩ := List.isSuffixOf_iff_suffix.mp hend
    refine ⟨by simpa [isAbsolute] using hhead, dots_notMem_pieces hdots,
      ⟨String.ofList front, ?_⟩, hzero⟩
    rw [← String.toList_inj, String.toList_append, String.toList_ofList, hfront]
  · have hfront : beforeLastDot path.toList <+: path.toList := by
      rcases beforeLastDot_cases path.toList with ⟨-, heq⟩ | ⟨r, hr⟩
      · rw [heq]
      · exact ⟨_, hr.symm⟩
    obtain ⟨r, hr⟩ := hfront
    refine ⟨?_, dots_notMem_pieces ?_, ⟨_, rfl⟩, ?_⟩
    · rw [isAbsolute, beq_eq_false_iff_ne, String.toList_append, String.toList_ofList]
      cases hcs : beforeLastDot path.toList with
      | nil => decide
      | cons c cs =>
        rw [← hr, hcs] at hhead
        exact hhead
    · rw [String.toList_append, String.toList_ofList]
      exact singleDots_compiled hdots
    · rw [String.toList_append, String.toList_ofList, List.mem_append, not_or]
      exact ⟨fun h => hzero (hr ▸ List.mem_append_left _ h), by decide⟩

/-! ## Names in scripts -/

lemma mem_longestEnding {p : List Char} (h : longestEnding cs = some p) {c : Char} (hc : c ∈ p) :
    c ∈ cs := by
  have hreversed : ∀ cs, longestEndingReversed cs = some p → p.reverse <:+ cs := by
    intro cs hcs
    induction cs with
    | nil => cases hcs
    | cons x r ih =>
      rw [longestEndingReversed] at hcs
      split at hcs
      · rw [← Option.some.inj hcs, List.reverse_reverse]
      · exact (ih hcs).trans (List.suffix_cons x r)
  simpa using (hreversed _ h).subset (List.mem_reverse.mpr hc)

lemma zero_notMem_sourceName {b : Bytes} {name : String} (h : sourceName? b = some name) :
    Char.ofNat 0 ∉ name.toList := by
  obtain ⟨octets, -, h⟩ := Option.bind_eq_some_iff.mp h
  obtain ⟨p, hp, h⟩ := Option.bind_eq_some_iff.mp h
  obtain rfl := Option.some.inj h
  rw [String.toList_ofList]
  intro hzero
  unfold pathIn? at hp
  split at hp
  · rename_i q hq
    obtain rfl := Option.some.inj hp
    have := List.mem_takeWhile_imp (mem_longestEnding hq hzero)
    exact absurd this (by decide)
  · obtain ⟨i, -, rfl⟩ := Option.map_eq_some_iff.mp hp
    have := List.of_mem_filter hzero
    exact absurd this (by decide)

lemma descends_scriptPath {b : Bytes} (h : scriptPath? b = some path) : Descends path := by
  obtain ⟨name, hname, h⟩ := Option.bind_eq_some_iff.mp h
  obtain ⟨safe, hsafe, h⟩ := Option.bind_eq_some_iff.mp h
  obtain rfl := Option.some.inj h
  obtain ⟨hdots, hhead, hmem⟩ := safePath?_eq_some hsafe
  refine descends_compiledPath hdots hhead fun hzero => ?_
  rcases hmem _ hzero with hzero | hzero | hzero
  · exact zero_notMem_sourceName hname hzero
  · exact absurd hzero (by decide)
  · exact absurd hzero (by decide)

lemma descends_namelessPath (n : Nat) : Descends (namelessPath n) := by
  have hdigit : ∀ c ∈ (Decimal.natPadded 4 n).toList, c.isDigit = true := by
    intro c hc
    rw [Decimal.natPadded, Decimal.padLeft, String.toList_append, String.toList_ofList,
      List.mem_append] at hc
    rcases hc with hc | hc
    · rw [(List.mem_replicate.mp hc).2]
      rfl
    · exact Decimal.isDigit_of_mem_nat hc
  have hmem : ∀ c, c ∈ ("unknown/script_" ++ Decimal.natPadded 4 n).toList →
      c ∈ "unknown/script_".toList ∨ c.isDigit = true := by
    intro c hc
    rw [String.toList_append, List.mem_append] at hc
    exact hc.imp_right (hdigit c)
  have hdot : '.' ∉ ("unknown/script_" ++ Decimal.natPadded 4 n).toList := fun h =>
    absurd (hmem _ h) (by decide)
  have hchain : ∀ cs : List Char, '.' ∉ cs → SingleDots cs := by
    intro cs hcs
    induction cs with
    | nil => exact .nil
    | cons c r ih =>
      refine List.isChain_cons.mpr ⟨fun _ _ hc => ?_, ih fun h => hcs (List.mem_cons_of_mem _ h)⟩
      exact absurd (hc ▸ List.mem_cons_self) hcs
  have hpath : namelessPath n = compiledPath ("unknown/script_" ++ Decimal.natPadded 4 n) := by
    rw [compiledPath, if_neg, beforeLastDot, if_neg, String.ofList_toList]
    · rfl
    · simpa using hdot
    · intro hend
      exact hdot ((List.isSuffixOf_iff_suffix.mp hend).subset (by decide))
  rw [hpath]
  refine descends_compiledPath (hchain _ hdot) (by simp [String.toList_append]) fun h => ?_
  exact absurd (hmem _ h) (by decide)

/-! ## Files -/

def scriptName (n : Nat) (b : Bytes) : String :=
  (scriptPath? b).getD (namelessPath n)

lemma descends_scriptName (n : Nat) (b : Bytes) : Descends (scriptName n b) := by
  rw [scriptName]
  cases h : scriptPath? b with
  | none => exact descends_namelessPath n
  | some path => exact descends_scriptPath h

/-- The files after scripts are written, the first one being the `n`-th. -/
def saveScripts (dir : String) : Nat → List Bytes → Tree → Tree
  | _, [], t => t
  | n, b :: r, t => saveScripts dir (n + 1) r (Tree.save (join dir (scriptName n b)) b t).1

lemma writeScript_run (dir : String) (n : Nat) (b : Bytes) (w : Workspace) :
    ∃ v, (writeScript dir n b).run w = .ok (scriptPath? b).isSome v ∧
      v.tree = (Tree.save (join dir (scriptName n b)) b w.tree).1 := by
  have hjob : ∀ words, Job.Changes (do
      Job.makeDirectories (directory (join dir (scriptName n b)))
      Job.writeFile (join dir (scriptName n b)) b
      Job.print words) (Tree.save (join dir (scriptName n b)) b) := fun words => by
    rw [Tree.save_eq]
    exact .seq (.change _) (.words (.change _) (.print words))
  obtain ⟨v, hv, ⟨-, hrun⟩ | ⟨-, f, hf, hrun⟩⟩ := hjob _ w
  · exact ⟨v, Run.bind_ok (Run.tryCatch_ok hrun), hv⟩
  · obtain ⟨console, log, hlog⟩ := Job.Speaks.print
      ("[-] Failed " ++ scriptName n b ++ ": " ++ f.message) v
    exact ⟨{ v with console, log }, Run.bind_ok ((Job.recover_of_error hrun hf).trans hlog), hv⟩

lemma writeScripts_run (dir : String) (n : Nat) (bs : List Bytes) (w : Workspace) :
    ∃ k v, (writeScripts dir n bs).run w = .ok k v ∧ v.tree = saveScripts dir n bs w.tree := by
  induction bs generalizing n w with
  | nil => exact ⟨0, w, rfl, rfl⟩
  | cons b r ih =>
    obtain ⟨u, hu, htree⟩ := writeScript_run dir n b w
    obtain ⟨k, v, hv, hrest⟩ := ih (n + 1) u
    refine ⟨(if (scriptPath? b).isSome then 1 else 0) + k, v, ?_, by rw [hrest, htree, saveScripts]⟩
    rw [writeScripts, Run.bind_ok hu]
    exact Run.bind_ok hv

/-- **An extraction writes every script**, and gives their number, whatever becomes of the files. -/
lemma extractScripts_run (b : Bytes) (dir : String) (w : Workspace) :
    ∃ v, (extractScripts b dir).run w = .ok (chunks b).length v ∧
      v.tree = saveScripts dir 1 (chunks b) w.tree := by
  obtain ⟨console, log, hfirst⟩ := Job.Speaks.print "\n[*] Extracting Lua files...\n" w
  obtain ⟨k, v, hv, htree⟩ := writeScripts_run dir 1 (chunks b) { w with console, log }
  obtain ⟨console, log, hlast⟩ := Job.Speaks.print ("\n[+] Extracted " ++ Decimal.nat k ++ "/" ++
    Decimal.nat (chunks b).length ++ " files with original paths") v
  refine ⟨{ v with console, log }, ?_, htree⟩
  rw [extractScripts, Run.bind_ok hfirst]
  refine (Run.bind_ok hv).trans (Run.bind_ok hlast)

lemma written_saveScripts {t u : Tree} (dir : String) (n : Nat) (bs : List Bytes)
    (h : t.Written (fun q => Tree.pathPlace t.home dir <+: q ∧ q ≠ Tree.pathPlace t.home dir) u) :
    t.Written (fun q => Tree.pathPlace t.home dir <+: q ∧ q ≠ Tree.pathPlace t.home dir)
      (saveScripts dir n bs u) := by
  induction bs generalizing n u with
  | nil => exact h
  | cons b r ih =>
    have hname := descends_scriptName n b
    refine ih (n + 1) (h.save ?_)
    rw [hname.pathPlace_join]
    exact ⟨List.prefix_append .., by simp [hname.parts_ne_nil]⟩

/-- **Scripts are written below the output directory**: an extraction always ends, a file it leaves was
there before or stands below the output directory, and the path that a script gets, by its name or by
its number, is relative, is not empty and has no double dot among its pieces. -/
theorem scripts_stand_below (b : Bytes) (dir : String) (w : Workspace) :
    (∃ v, (extractScripts b dir).run w = .ok (chunks b).length v ∧
      ∀ q data, v.tree.node? q = some (.file data) → w.tree.node? q = some (.file data) ∨
        (Tree.pathPlace w.tree.home dir <+: q ∧ q ≠ Tree.pathPlace w.tree.home dir)) ∧
    ∀ n script, PathText.isAbsolute (scriptName n script) = false ∧ scriptName n script ≠ "" ∧
      ".." ∉ PathText.pieces (scriptName n script) := by
  constructor
  · obtain ⟨v, hrun, htree⟩ := extractScripts_run b dir w
    refine ⟨v, hrun, fun q data hq => ?_⟩
    rw [htree] at hq
    exact (written_saveScripts dir 1 (chunks b) (.refl _ _)).file_cases hq
  · intro n script
    have h := descends_scriptName n script
    refine ⟨h.relative, fun hempty => ?_, h.noDots⟩
    rw [hempty] at h
    exact absurd rfl h.parts_ne_nil

def strayScript : Bytes :=
  scriptMark ++ List.replicate 28 0 ++ 12 :: Bytes.ofString "../../x.lua"

theorem scripts_stand_below_stray :
    scriptName 1 strayScript = "_/_/x.luac" ∧ ".." ∉ PathText.pieces "_/_/x.luac" := by
  have hname : scriptName 1 strayScript = "_/_/x.luac" := by with_unfolding_all decide
  exact ⟨hname, hname ▸ ((scripts_stand_below strayScript "out" {}).2 1 strayScript).2.2⟩

end Salvage.Container
