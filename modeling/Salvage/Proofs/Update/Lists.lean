import Salvage.Proofs.Descriptor.Scope
import Salvage.Proofs.Job
import Salvage.Proofs.Workspace.Files
import Salvage.Update.Run

/-!
# Lists that are left out of a download

An update scans the lists of a package before it downloads them, and leaves out those whose copy it
takes for the right one. A list is left out exactly if its copy has the digest that its name
announces or, whatever its digest is, the size that its name announces.
-/

namespace Salvage.Update

open Expected Run

variable {t : Tree} {dir : Path} {w : Workspace}

/-! ## The scan -/

def passes (t : Tree) (dir : Path) (name : String) : Bool :=
  t.exists? (copyPath dir name).text &&
    ((ofName name).met (copyPath dir name).text t).toOption.join.isSome

lemma isPresent_run {name : String}
    (hshort : w.tree.place (copyPath dir name).text ≠ .error .nameTooLong) :
    ∃ console log, (isPresent dir name).run w =
      .ok (passes w.tree dir name) { w with console, log } := by
  have hthere : (isThere (copyPath dir name).text).run w =
      .ok (w.tree.exists? (copyPath dir name).text) w := by
    refine Job.look_ok ?_
    split
    · contradiction
    · rfl
  rw [isPresent, bind_ok hthere, passes]
  cases w.tree.exists? (copyPath dir name).text with
  | false => exact ⟨w.console, w.log, rfl⟩
  | true =>
    cases hmet : (ofName name).met (copyPath dir name).text w.tree with
    | ok o =>
      have hlook := Job.look_ok (f := (ofName name).met (copyPath dir name).text) hmet
      cases o with
      | none => exact ⟨w.console, w.log, tryCatch_ok (bind_ok hlook)⟩
      | some words =>
        obtain ⟨console, log, hlog⟩ := Job.Speaks.log .info
          ("[SKIP] " ++ (copyPath dir name).name ++ " (" ++ words ++ ")") w
        exact ⟨console, log, tryCatch_ok ((bind_ok hlook).trans (bind_ok hlog))⟩
    | error e =>
      have hlook := Job.look_error (f := (ofName name).met (copyPath dir name).text) hmet
      obtain ⟨console, log, hlog⟩ := Job.Speaks.log .warning
        ("[WARN] Could not verify " ++ (copyPath dir name).name ++ ": " ++ (Fault.file e).message) w
      exact ⟨console, log,
        (Job.recover_of_error (bind_error hlook) (by simp)).trans (bind_ok hlog)⟩

lemma missingLists_run {names : List String} (hstop : w.stop = none)
    (hshort : ∀ name ∈ names, w.tree.place (copyPath dir name).text ≠ .error .nameTooLong) :
    ∃ console log, (missingLists dir (names.map .str)).run w =
      .ok ((names.filter fun name => !passes w.tree dir name).map .str) { w with console, log } := by
  induction names generalizing w with
  | nil => exact ⟨w.console, w.log, rfl⟩
  | cons name r ih =>
    obtain ⟨console, log, hrun⟩ := isPresent_run (hshort name List.mem_cons_self)
    obtain ⟨console', log', hrest⟩ := ih (w := { w with console, log }) hstop
      fun n hn => hshort n (List.mem_cons_of_mem _ hn)
    have hstopped : Job.stopped.run w = .ok false w := by
      simp only [EStateM.run, Job.stopped, hstop]
    have hpath : (shape (Doc.str name).path).run w = .ok name w := rfl
    refine ⟨console', log', ?_⟩
    rw [List.map_cons, missingLists, bind_ok hstopped]
    simp only [Bool.false_eq_true, if_false]
    rw [bind_ok hpath, bind_ok hrun, List.filter_cons]
    cases passes w.tree dir name with
    | true => exact hrest
    | false => exact bind_ok hrest

/-! ## Names with a digest and a size -/

def listName (base digest size : String) : String :=
  base ++ "_" ++ digest ++ "_" ++ size

lemma splitFrom_append {c : Char} {b : List Char} (hb : c ∉ b) (piece a : List Char) :
    Text.splitFrom [c] 0 piece (a ++ c :: b) = Text.splitFrom [c] 0 piece a ++ [b] := by
  induction a generalizing piece with
  | nil =>
    rw [List.nil_append, Text.splitFrom_cons, if_pos rfl, Text.splitFrom_of_notMem hb]
    rfl
  | cons x r ih =>
    rw [List.cons_append, Text.splitFrom_cons, Text.splitFrom_cons]
    split <;> simp [ih]

variable {digest : String}

lemma ofName_listName {base size : String} (hdigest : '_' ∉ digest.toList)
    (hsize : '_' ∉ size.toList) :
    ofName (listName base digest size) =
      { digest := some digest, size := Whole.ofText? size } := by
  have hname : (listName base digest size).toList =
      (base.toList ++ '_' :: digest.toList) ++ '_' :: size.toList := by
    simp [listName]
  obtain ⟨first, r, hfirst⟩ := List.exists_cons_of_ne_nil (List.reverse_ne_nil_iff.mpr
    (Text.splitFrom_ne_nil '_' [] base.toList))
  have hsplit : (Text.splitOn (listName base digest size) "_").reverse =
      size :: digest :: String.ofList first :: r.map String.ofList := by
    have hline : "_".toList = ['_'] := rfl
    rw [Text.splitOn, hname, hline, splitFrom_append hsize, splitFrom_append hdigest,
      ← List.map_reverse, List.reverse_append, List.reverse_append, hfirst]
    simp
  rw [ofName, hsplit]

def HasDigest (t : Tree) (path digest : String) : Prop :=
  ∃ data, t.read path = .ok data ∧ Hex.encode (Md5.digest data) = Text.lower digest

/-- The file at a path is not empty and has as many octets as a text says. -/
def HasSize (t : Tree) (path size : String) : Prop :=
  ∃ data, t.read path = .ok data ∧ data ≠ [] ∧ Whole.ofText? size = some (data.length : Int)

lemma size_eq {path : String} {data : Bytes} (h : t.read path = .ok data) :
    t.size path = .ok data.length := by
  obtain ⟨hplace, hnode⟩ := Tree.read_eq_ok_iff.mp h
  rw [Tree.size, Tree.resolve_bind hplace, hnode]

lemma met_listName {path : String} {size : Option Int} (hne : digest ≠ "") :
    (({ digest := some digest, size } : Expected).met path t).toOption.join.isSome = true ↔
      ∃ data, t.read path = .ok data ∧ (Hex.encode (Md5.digest data) = Text.lower digest ∨
        size.getD 0 ≠ 0 ∧ (data.length : Int) = size.getD 0) := by
  cases hread : t.read path with
  | error e =>
    simp [met, hasDigest, hne, hread, bind, Except.bind, Except.toOption]
  | ok data =>
    by_cases hsame : Hex.encode (Md5.digest data) = Text.lower digest
    · simp [met, hasDigest, hne, hread, hsame, bind, Except.bind, pure, Except.pure,
        Except.toOption]
    · by_cases hzero : size.getD 0 = 0
      · simp [met, hasDigest, hasSize, hne, hread, hsame, hzero, bind,
          Except.bind, pure, Except.pure, Except.toOption]
      · by_cases hlength : (data.length : Int) = size.getD 0 <;>
        simp [met, hasDigest, hasSize, hne, hread, size_eq hread, hsame,
          hzero, hlength, bind, Except.bind, pure, Except.pure, Except.toOption]

lemma passes_listName {base size : String} (hne : digest ≠ "") (hdigest : '_' ∉ digest.toList)
    (hsize : '_' ∉ size.toList) :
    passes t dir (listName base digest size) = true ↔
      HasDigest t (copyPath dir (listName base digest size)).text digest ∨
        HasSize t (copyPath dir (listName base digest size)).text size := by
  rw [passes, ofName_listName hdigest hsize, Bool.and_eq_true, met_listName hne]
  generalize (copyPath dir (listName base digest size)).text = path
  cases hread : t.read path with
  | error e => simp [HasDigest, HasSize, hread]
  | ok data =>
    have hexists : t.exists? path = true := by
      rw [Tree.exists?, Tree.read_eq_ok_iff_find?.mp hread]
      rfl
    cases hof : Whole.ofText? size with
    | none => simp [HasDigest, HasSize, hread, hof, hexists]
    | some n =>
      have hlength : (n ≠ 0 ∧ (data.length : Int) = n) ↔ data ≠ [] ∧ n = data.length := by
        rw [← List.length_pos_iff]
        omega
      simpa [HasDigest, HasSize, hread, hof, hexists] using or_congr_right hlength

/-! ## Packages -/

def packageDirectory (package : String) : Path :=
  (Path.ofString "downloads/version_index").child package

lemma updatePackage_run {o : Options} {package : String} {names : List String}
    (hdownload : o.download.isTruthy = true) (hfilter : o.filter.isTruthy = false)
    (hstop : w.stop = none) (hshort : ∀ name ∈ names,
      w.tree.place (copyPath (packageDirectory package) name).text ≠ .error .nameTooLong) :
    ∃ console log, (updatePackage o (.str package) (.arr (names.map .str))).run w =
      (do
        fetchLists o (indexAddress game package) (packageDirectory package)
          ((names.filter fun name => !passes w.tree (packageDirectory package) name).map .str)
        afterLists o (.str package) (packageDirectory package) : Job Unit).run { w with console, log } := by
  obtain ⟨console, log, hlog⟩ := Job.Speaks.log .info ("Using fixed HOTFIX URL:\n  " ++
    indexAddress game (Doc.str package).display) w
  obtain ⟨console', log', hscan⟩ := missingLists_run (w := { w with console, log }) hstop hshort
  have hdirectory (u : Workspace) : (listsDirectory (.str package)).run u =
    .ok (packageDirectory package) u := rfl
  have hparts (u : Workspace) : (shape (Doc.arr (names.map .str)).parts).run u =
    .ok (names.map .str) u := rfl
  refine ⟨console', log', ?_⟩
  rw [updatePackage, Job.note, bind_ok hlog, bind_ok (hdirectory _), bind_ok (hparts _)]
  simp only [filteredLists, hfilter, Bool.not_false, if_true, pure_bind, hdownload]
  exact bind_ok hscan

/-- **A list is left out of the download by its digest, but for copies of its size**: the lists of a
package that are downloaded are some of their names, and one whose name announces a digest and a size
is left out exactly if its copy has the digest or the size. So it is left out only if its copy has the
digest, unless there is a copy of the right size with another digest. -/
theorem left_out_by_digest_iff (o : Options) (w : Workspace) (package base digest size : String)
    (names : List String) (hdownload : o.download.isTruthy = true)
    (hfilter : o.filter.isTruthy = false) (hstop : w.stop = none)
    (hname : listName base digest size ∈ names) (hne : digest ≠ "") (hdigest : '_' ∉ digest.toList)
    (hsize : '_' ∉ size.toList) (hshort : ∀ name ∈ names,
      w.tree.place (copyPath (packageDirectory package) name).text ≠ .error .nameTooLong) :
    let name := listName base digest size
    let copy := (copyPath (packageDirectory package) name).text
    ∃ fetched : List String, ∃ console log,
      (updatePackage o (.str package) (.arr (names.map .str))).run w =
        (do
          fetchLists o (indexAddress game package) (packageDirectory package) (fetched.map .str)
          afterLists o (.str package) (packageDirectory package) : Job Unit).run
          { w with console, log } ∧
      fetched.Sublist names ∧
      (name ∉ fetched ↔ HasDigest w.tree copy digest ∨ HasSize w.tree copy size) ∧
      ((name ∉ fetched → HasDigest w.tree copy digest) ↔
        ¬ (HasSize w.tree copy size ∧ ¬ HasDigest w.tree copy digest)) := by
  intro name copy
  obtain ⟨console, log, hrun⟩ := updatePackage_run hdownload hfilter hstop hshort
  have hout : name ∉ (names.filter fun n => !passes w.tree (packageDirectory package) n) ↔
      HasDigest w.tree copy digest ∨ HasSize w.tree copy size := by
    rw [← passes_listName hne hdigest hsize, List.mem_filter]
    simp [name, hname]
  refine ⟨_, console, log, hrun, List.filter_sublist, hout,
    fun hlaw hs => hs.2 (hlaw (hout.mpr (.inr hs.1))), fun hnot hleft => ?_⟩
  exact (hout.mp hleft).elim id fun hs => by_contra fun hd => hnot ⟨hs, hd⟩

def letterList : String :=
  listName "a.json" "0CC175B9C0F1B6A831C399E269772661" "1"

def copyWorkspace (copy : Bytes) : Workspace where
  tree := { entries := [⟨["tmp", "work", "downloads"], .directory, 0⟩,
    ⟨["tmp", "work", "downloads", "version_index"], .directory, 0⟩,
    ⟨["tmp", "work", "downloads", "version_index", "p"], .directory, 0⟩,
    ⟨["tmp", "work", "downloads", "version_index", "p", letterList], .file copy, 0⟩] }

/-- Another letter is downloaded again if there is more than one of it. -/
theorem left_out_by_digest_iff_letters :
    ∃ fetched : List String, ∃ console log,
      (updatePackage { } (.str "p") (.arr [.str letterList])).run (copyWorkspace [0x62, 0x62]) =
        (do
          fetchLists { } (indexAddress game "p") (packageDirectory "p") (fetched.map .str)
          afterLists { } (.str "p") (packageDirectory "p") : Job Unit).run
          { copyWorkspace [0x62, 0x62] with console, log } ∧
      letterList ∈ fetched := by
  have hvalues : (copyWorkspace [0x62, 0x62]).tree.read
        (copyPath (packageDirectory "p") letterList).text = .ok [0x62, 0x62] ∧
      Hex.encode (Md5.digest [0x62, 0x62]) ≠ Text.lower "0CC175B9C0F1B6A831C399E269772661" ∧
      Whole.ofText? "1" = some 1 := by
    decide +kernel
  obtain ⟨hread, hdigest, hsize⟩ := hvalues
  obtain ⟨fetched, console, log, hrun, -, hout, -⟩ := left_out_by_digest_iff { }
    (copyWorkspace [0x62, 0x62]) "p" "a.json" "0CC175B9C0F1B6A831C399E269772661" "1" [letterList] rfl
    rfl rfl List.mem_cons_self (by decide) (by decide) (by decide) fun name hname => by
      obtain rfl := List.mem_singleton.mp hname
      exact fun hlong => nomatch (Tree.read_eq_ok_iff.mp hread).1.symm.trans hlong
  refine ⟨fetched, console, log, hrun, by_contra fun hleft => ?_⟩
  obtain ⟨data, hdata, hsame⟩ | ⟨data, hdata, -, hlength⟩ := hout.mp hleft
  · obtain rfl := Except.ok.inj (hdata.symm.trans hread)
    exact hdigest hsame
  · obtain rfl := Except.ok.inj (hdata.symm.trans hread)
    exact absurd (hsize.symm.trans hlength) (by decide)

/-- A copy with the size and another digest is left out. -/
theorem same_size_is_left_out :
    (missingLists (packageDirectory "p") [.str letterList]).run' (copyWorkspace [0x62]) = some [] ∧
    ¬ HasDigest (copyWorkspace [0x62]).tree (copyPath (packageDirectory "p") letterList).text
      "0CC175B9C0F1B6A831C399E269772661" := by
  have hvalues : (copyWorkspace [0x62]).tree.read
        (copyPath (packageDirectory "p") letterList).text = .ok [0x62] ∧
      Hex.encode (Md5.digest [0x62]) ≠ Text.lower "0CC175B9C0F1B6A831C399E269772661" ∧
      ((missingLists (packageDirectory "p") [.str letterList]).run' (copyWorkspace [0x62])).map
        List.isEmpty = some true := by
    decide +kernel
  obtain ⟨hread, hdigest, hrun⟩ := hvalues
  obtain ⟨missing, hmissing, hempty⟩ := Option.map_eq_some_iff.mp hrun
  refine ⟨by rw [hmissing, List.isEmpty_iff.mp hempty], ?_⟩
  rintro ⟨data, hdata, hsame⟩
  obtain rfl := Except.ok.inj (hdata.symm.trans hread)
  exact hdigest hsame

end Salvage.Update
