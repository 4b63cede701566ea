import Mathlib.Data.List.Infix
import Salvage.Proofs.Job
import Salvage.Proofs.Workspace.Files
import Salvage.Update.Asset

/-!
# Verified downloads

A download is written beside its place, moved there when it is complete, and removed again when its
digest is wrong. Whatever the servers answer and whenever the stop sign is raised, what stands at the
place afterwards is a whole answer with the right digest, what stood there before, or nothing.
-/

namespace Salvage

/-! ## Answers -/

namespace Network

def answersTo (n : Network) (url : String) : List Answer :=
  (n.downloads.lookup url).getD []

lemma lookup_replace (downloads : List (String × List Answer)) (url : String) (answers : List Answer) :
    (downloads.map fun d => if d.1 = url then (url, answers) else d).lookup url =
      (downloads.lookup url).map fun _ => answers := by
  induction downloads with
  | nil => rfl
  | cons d r ih =>
    obtain ⟨address, old⟩ := d
    by_cases h : address = url
    · simp [h]
    · have hne : (url == address) = false := by simpa using Ne.symm h
      simp only [List.map_cons, if_neg h, List.lookup_cons, hne]
      exact ih

lemma fetch_subset (n : Network) (url : String) (range : Option String) :
    (∀ a, (n.fetch url range).1 = some a → a ∈ n.answersTo url) ∧
      (n.fetch url range).2.answersTo url ⊆ n.answersTo url := by
  unfold fetch answersTo
  cases h : n.downloads.lookup url with
  | none => simp [h]
  | some answers =>
    cases answers with
    | nil => simp [h]
    | cons a r =>
      simp only [lookup_replace, h]
      cases r <;> simp [advance]

end Network

namespace Update

/-! ## Between the steps -/

structure Download where
  url : String
  dest : Path
  tree : Tree
  network : Network
  proper : dest.Proper
  notPartial : dest.extension ≠ ".part"

namespace Download

variable (d : Download)

def place : Place :=
  Tree.pathPlace d.tree.home d.dest.text

/-- What stands at the place is nothing, or what stood there before. A path with double dots may
lead through its own place, and so have a directory made there. -/
structure Kept (t : Tree) : Prop where
  home_eq : t.home = d.tree.home
  node_cases : t.node? d.place = none ∨ t.node? d.place = d.tree.node? d.place ∨
    ".." ∈ d.dest.parts ∧ t.node? d.place = some .directory

structure Steady (t : Tree) (n : Network) : Prop extends Kept d t where
  answers_subset : n.answersTo d.url ⊆ d.network.answersTo d.url

structure Delivered (data : Bytes) (t : Tree) (n : Network) : Prop where
  home_eq : t.home = d.tree.home
  answers_subset : n.answersTo d.url ⊆ d.network.answersTo d.url
  read_eq : t.read d.dest.text = .ok data
  answer : ∃ a ∈ d.network.answersTo d.url, a.isRefusal = false ∧ a.chunks.flatten = data

/-- What holds after a download that says whether the file is in its place. -/
def After : Bool → Tree → Network → Prop
  | true => fun t n => ∃ data, d.Delivered data t n
  | false => d.Steady

lemma steady_start : d.Steady d.tree d.network where
  home_eq := rfl
  node_cases := .inr (.inl rfl)
  answers_subset := List.Subset.refl _

variable {d}

variable {F P : Tree → Network → Prop} {data : Bytes} {t : Tree}

lemma Kept.of_node_eq {u : Tree} (h : d.Kept t) (hhome : u.home = t.home)
    (hnode : u.node? d.place = t.node? d.place) : d.Kept u where
  home_eq := hhome.trans h.home_eq
  node_cases := by
    rw [hnode]
    exact h.node_cases

/-! ## One try -/

lemma fetch_meets (range : Option String) :
    Job.Meets d.Steady (fetch d.url range)
      (fun a t n => d.Steady t n ∧ a ∈ d.network.answersTo d.url ∧ a.isRefusal = false) d.Steady := by
  intro w hw
  obtain ⟨hgiven, hsubset⟩ := Network.fetch_subset w.network d.url range
  have hrun : (fetch d.url range).run w =
      (Job.ofExcept .network (Network.accept (w.network.fetch d.url range).1)).run
        { w with network := (w.network.fetch d.url range).2 } := rfl
  have hsteady : d.Steady w.tree (w.network.fetch d.url range).2 :=
    ⟨hw.toKept, List.Subset.trans hsubset hw.answers_subset⟩
  rw [hrun]
  cases hanswer : (w.network.fetch d.url range).1 with
  | none => exact Job.ended_error hsteady
  | some a =>
    rw [Network.accept]
    cases hrefusal : a.isRefusal with
    | true => exact Job.ended_error hsteady
    | false => exact Job.ended_ok ⟨hsteady, hw.answers_subset (hgiven a hanswer), hrefusal⟩

/-- A directory on the way to the place stands at the place only if the path has double dots, or has
no names at all. -/
lemma place_ne_of_prefix (hdots : ".." ∉ d.dest.parts) (hparts : d.dest.parts ≠ [])
    {names : List String} (hnames : names <+: d.dest.parts.dropLast) :
    Tree.pathPlace d.tree.home ({ d.dest with parts := names } : Path).text ≠ d.place := by
  have hlength : d.dest.parts.dropLast.length < d.dest.parts.length := by
    rw [List.length_dropLast]
    exact Nat.sub_lt (List.length_pos_iff.mpr hparts) Nat.one_pos
  have htake : names = d.dest.parts.take names.length :=
    List.prefix_iff_eq_take.mp (hnames.trans (List.dropLast_prefix _))
  rw [htake, place, Path.pathPlace_text (d.proper.take _), Path.pathPlace_text d.proper]
  exact Path.place_take_ne d.proper hdots (Nat.lt_of_le_of_lt hnames.length_le hlength) _

lemma Kept.makePath {u : Tree} (ht : d.Kept t) (hu : t.makePath d.dest.parent = .ok u) :
    d.Kept u := by
  have hbuilt : Tree.Built t (d.dest.parts.dropLast.inits.map fun names =>
      Tree.pathPlace t.home ({ d.dest with parts := names } : Path).text) [] u :=
    Tree.built_makePath hu fun n =>
      List.mem_map.mpr ⟨_, (List.mem_inits _ _).mpr (List.take_prefix n _), rfl⟩
  obtain hsame | ⟨hnone, hmade, hmem⟩ | ⟨-, -, hmem⟩ := hbuilt.node_cases d.place
  · exact ht.of_node_eq hbuilt.home_eq hsame
  · refine ⟨hbuilt.home_eq.trans ht.home_eq, .inr (.inr ⟨?_, hmade⟩)⟩
    obtain ⟨names, hnames, heq⟩ := List.mem_map.mp hmem
    rw [ht.home_eq] at heq
    by_contra hdots
    refine place_ne_of_prefix hdots (fun hparts => ?_) ((List.mem_inits _ _).mp hnames) heq
    have hdirectory := Path.node?_of_parts_eq_nil d.proper hparts t
    rw [ht.home_eq] at hdirectory
    exact nomatch hdirectory.symm.trans hnone
  · cases hmem

lemma makePath_meets :
    Job.Meets d.Steady (Job.makePath d.dest.parent) (fun _ => d.Steady) d.Steady :=
  Job.Meets.change (fun _ _ _ ht hu => ⟨ht.toKept.makePath hu, ht.answers_subset⟩)
    fun _ _ _ ht _ => ht

lemma receiveParts_meets (chunks : List Bytes) :
    Job.Meets P (receiveParts chunks)
      (fun r t n => P t n ∧ (r.2 = true → r.1 = chunks.flatten)) F := by
  induction chunks with
  | nil => exact .pure fun t n h => ⟨h, fun _ => rfl⟩
  | cons c r ih =>
    refine (Job.Meets.quiet Job.quiet_stopped).bind fun stop => ?_
    refine Job.Meets.ite (fun _ => .pure fun t n h => ⟨h, fun h => nomatch h⟩) fun _ => ?_
    refine ih.bind fun taken => .pure fun t n h => ⟨h.1, fun hwhole => ?_⟩
    rw [h.2 hwhole, List.flatten_cons]

variable {part : Path}

lemma place_part_ne (hpart : d.dest.withExtension? ".part" = some part) :
    Tree.pathPlace d.tree.home part.text ≠ d.place := by
  have hproper : part.Proper := by
    obtain ⟨-, rfl⟩ := Path.withExtension?_eq_some hpart
    exact .withExtension d.proper.parent d.proper.slash_notMem_name (by decide) (by decide)
  rw [place, Path.pathPlace_text hproper, Path.pathPlace_text d.proper]
  exact Path.place_withExtension_ne hpart d.notPartial _

lemma writePart_meets (hpart : d.dest.withExtension? ".part" = some part) (data : Bytes) :
    Job.Meets d.Steady (Job.writeFile part.text data)
      (fun _ t n => d.Steady t n ∧ t.read part.text = .ok data) d.Steady := by
  refine Job.Meets.change (fun t n u ht hu => ?_) fun t n e ht _ => ht
  obtain ⟨hwritable, rfl⟩ := Tree.write_eq_ok_iff.mp hu
  refine ⟨⟨ht.toKept.of_node_eq (Tree.home_put ..) ?_, ht.answers_subset⟩, hwritable.read_put data⟩
  rw [Tree.node?_put hwritable.notDirectory, if_neg]
  rw [ht.home_eq]
  exact Ne.symm (place_part_ne hpart)

lemma receive_meets (hpart : d.dest.withExtension? ".part" = some part) (a : Answer) :
    Job.Meets d.Steady (receive a part.text)
      (fun whole t n => d.Steady t n ∧ (whole = true → t.read part.text = .ok a.chunks.flatten))
      d.Steady := by
  have hempty : Job.Meets d.Steady (Job.writeFile part.text []) (fun _ => d.Steady) d.Steady :=
    (writePart_meets hpart []).mono (fun _ _ h => h) (fun _ _ _ h => h.1) fun _ _ h => h
  refine hempty.bind fun _ => (receiveParts_meets a.chunks).bind fun taken => .assume fun htaken => ?_
  refine (writePart_meets hpart taken.1).bind fun _ => .pure fun t n h => ⟨h.1, fun hwhole => ?_⟩
  rw [h.2, htaken hwhole]

lemma withExtension_meets {p : Path} {extension : String} :
    Job.Meets P (withExtension p extension)
      (fun q t n => P t n ∧ p.withExtension? extension = some q) P := by
  unfold withExtension
  cases p.withExtension? extension with
  | none => exact .throw fun t n h => h
  | some q => exact .pure fun t n h => ⟨h, rfl⟩

lemma replaceFile_meets (hpart : d.dest.withExtension? ".part" = some part) {a : Answer}
    (ha : a ∈ d.network.answersTo d.url) (hrefusal : a.isRefusal = false) :
    Job.Meets (fun t n => d.Steady t n ∧ t.read part.text = .ok a.chunks.flatten)
      (replaceFile part.text d.dest.text) (fun _ => d.Delivered a.chunks.flatten) d.Steady := by
  refine Job.Meets.change (fun t n u ht hu => ?_) fun t n e ht _ => ht.1
  have hne : Tree.pathPlace t.home part.text ≠ Tree.pathPlace t.home d.dest.text := by
    rw [ht.1.home_eq]
    exact place_part_ne hpart
  obtain ⟨hhome, hread⟩ := Tree.read_rename hu hne ht.2
  exact ⟨hhome.trans ht.1.home_eq, ht.1.answers_subset, hread, a, ha, hrefusal, rfl⟩

def AfterTry (d : Download) : Try → Tree → Network → Prop
  | .done => d.After true
  | .stopped => d.Steady
  | .failed _ => d.Steady

lemma tryDownload_meets (range : Option String) :
    Job.Meets d.Steady (tryDownload d.url d.dest range) d.AfterTry d.Steady := by
  refine (fetch_meets range).attempt.bind fun r => ?_
  cases r with
  | error f =>
    refine Job.Meets.pre (P := d.Steady) ?_ fun t n h => h.2 f rfl
    cases f with
    | network f => exact .pure fun t n h => h
    | _ => exact .throw fun t n h => h
  | ok a =>
    refine Job.Meets.pre (P := fun t n => d.Steady t n ∧
      a ∈ d.network.answersTo d.url ∧ a.isRefusal = false) ?_ fun t n h => h.1 a rfl
    refine .assume fun ⟨ha, hrefusal⟩ => ?_
    refine withExtension_meets.bind fun part => .assume fun hpart => ?_
    refine makePath_meets.bind fun _ => (receive_meets hpart a).bind fun whole => .ite
      (fun hwhole => ?_) fun _ => ?_
    · refine ((replaceFile_meets hpart ha hrefusal).pre fun t n h => ⟨h.1, h.2 hwhole⟩).bind fun _ => ?_
      exact .pure fun t n h => ⟨_, h⟩
    · refine (Job.Meets.quiet (Job.quiet_log _ _)).bind fun _ => .pure fun t n h => h.1

/-- **The tries of a download** put an answer at the place, or keep the place. -/
lemma downloadFrom_meets (range : Option String) (n : Int) (left i : Nat) :
    Job.Meets d.Steady (downloadFrom d.url d.dest range n left i) d.After d.Steady := by
  induction left generalizing i with
  | zero => exact .pure fun t n h => h
  | succ left ih =>
    refine (Job.Meets.quiet Job.quiet_stopped).bind fun stop => .ite (fun _ => ?_) fun _ => ?_
    · exact (Job.Meets.quiet (Job.quiet_log _ _)).bind fun _ => .pure fun t n h => h
    · refine (tryDownload_meets range).bind fun r => ?_
      cases r with
      | done => exact (Job.Meets.quiet (Job.quiet_log _ _)).bind fun _ => .pure fun t n h => h
      | stopped => exact .pure fun t n h => h
      | failed f => exact (Job.Meets.quiet (Job.quiet_log _ _)).bind fun _ => ih (i + 1)

lemma downloadFile_meets (tries : Int) (range : Option String) :
    Job.Meets d.Steady (downloadFile d.url d.dest tries range) d.After d.Steady :=
  downloadFrom_meets range tries _ 0

/-! ## Checks -/

variable {asset : Asset}

def Verified (d : Download) (asset : Asset) (t : Tree) (n : Network) : Prop :=
  ∃ data, d.Delivered data t n ∧ Hex.encode (Md5.digest data) = asset.digest

def AfterAll (d : Download) (asset : Asset) : Bool → Tree → Network → Prop
  | true => d.Verified asset
  | false => d.Steady

lemma Delivered.steady_erase {n : Network} (h : d.Delivered data t n) :
    d.Steady (t.erase d.place) n := by
  refine ⟨⟨h.home_eq, .inl ?_⟩, h.answers_subset⟩
  have hnode : t.node? d.place = some (.file data) := by
    rw [place, ← h.home_eq]
    exact (Tree.read_eq_ok_iff.mp h.read_eq).2
  exact (Tree.node?_erase (by simp [hnode]) _).trans (if_pos rfl)

lemma fileDigest_meets :
    Job.Meets (d.Delivered data) (fileDigest d.dest.text)
      (fun found t n => d.Delivered data t n ∧ found = Hex.encode (Md5.digest data)) F := by
  have hread : Job.Meets (d.Delivered data) (Job.readFile d.dest.text)
      (fun found t n => d.Delivered data t n ∧ found = data) F := by
    refine .look (fun t n found h hfound => ⟨h, ?_⟩) fun t n e h he => ?_
    · exact Except.ok.inj (hfound.symm.trans h.read_eq)
    · exact nomatch he.symm.trans h.read_eq
  refine hread.bind fun found => .assume fun hfound => .pure fun t n h => ⟨h, ?_⟩
  rw [hfound]
  rfl

lemma removeFile_meets :
    Job.Meets (d.Delivered data) (Job.removeFile d.dest.text) (fun _ => d.Steady) F := by
  refine .change (fun t n u h hu => ?_) fun t n e h he => ?_
  · rw [Tree.remove_eq_ok h.read_eq, h.home_eq] at hu
    exact Except.ok.inj hu ▸ h.steady_erase
  · rw [Tree.remove_eq_ok h.read_eq] at he
    cases he

/-- **The check of a delivered file** finds the right digest, or takes the file away. -/
lemma verify_meets (hdigest : asset.digest ≠ "") :
    Job.Meets (d.Delivered data) (asset.verify d.dest)
      (d.AfterAll asset) F := by
  refine .ite (fun hempty => absurd (String.isEmpty_iff.mp hempty) hdigest) fun _ => ?_
  refine fileDigest_meets.bind fun found => .assume fun hfound => .ite (fun hright => ?_) fun _ => ?_
  · exact .pure fun t n h => ⟨data, h, hfound.symm.trans hright⟩
  · refine (Job.Meets.quiet (Job.quiet_log _ _)).bind fun _ => ?_
    -- there is no fault to recover from
    have hremove : Job.Meets (d.Delivered data)
        (Job.recover (Job.removeFile d.dest.text) fun _ => return) (fun _ => d.Steady) F :=
      .recover (removeFile_meets (F := fun _ _ => False)) (fun f w hw => hw.elim) fun t n h => h.elim
    exact hremove.bind fun _ => .pure fun t n h => h

lemma fixed_sizeNumber (asset : Asset) : Job.Fixed asset.sizeNumber := by
  unfold Asset.sizeNumber
  cases asset.size with
  | int i => exact .pure i
  | bool b => exact .pure _
  | real x =>
    cases h : x.truncate? with
    | none => simpa only [h] using .throw _
    | some i => simpa only [h] using .pure i
  | str s =>
    cases h : Whole.ofText? s with
    | none => simpa only [h] using .throw _
    | some i => simpa only [h] using .pure i
  | _ => exact .throw _

lemma checkSize_meets : Job.Meets P (asset.checkSize d.dest) (fun _ => P) P := by
  refine (Job.Meets.quiet (Job.quiet_pathExists _)).bind fun there => .ite (fun _ => ?_) fun _ => ?_
  · have hsize : Job.Meets P (Job.fileSize d.dest.text) (fun _ => P) P :=
      .look (fun t n a h _ => h) fun t n e h _ => h
    refine hsize.bind fun found => (fixed_sizeNumber asset).meets.bind fun expected => .ite
      (fun _ => .quiet (Job.quiet_log _ _)) fun _ => .pure fun t n h => h
  · exact .pure fun t n h => h

def Failed (d : Download) (asset : Asset) (t : Tree) (n : Network) : Prop :=
  d.Steady t n ∨ d.Verified asset t n

/-- **The tries with their checks** put a right answer at the place, or keep the place. -/
lemma verifiedFrom_meets (hdigest : asset.digest ≠ "") (haddress : asset.address = d.url)
    (left : Nat) :
    Job.Meets d.Steady (asset.downloadFrom d.dest left) (d.AfterAll asset) (d.Failed asset) := by
  induction left with
  | zero => exact .pure fun t n h => h
  | succ left ih =>
    rw [Asset.downloadFrom, haddress]
    refine (Job.Meets.quiet Job.quiet_stopped).bind fun stop => .ite (fun _ => ?_) fun _ => ?_
    · exact .pure fun t n h => h
    have hfile : Job.Meets d.Steady (downloadFile d.url d.dest 3 assetRange) d.After
        (d.Failed asset) :=
      (downloadFile_meets 3 assetRange).mono (fun _ _ h => h) (fun _ _ _ h => h) fun _ _ h => .inl h
    refine hfile.bind fun there => ?_
    cases there with
    | false => exact ih
    | true =>
      refine .ite (fun h => nomatch h) fun _ => .choose fun data => ?_
      refine (verify_meets hdigest).bind fun right => ?_
      cases right with
      | false => exact ih
      | true =>
        refine .ite (fun h => nomatch h) fun _ => ?_
        have hsize : Job.Meets (d.Verified asset) (asset.checkSize d.dest)
            (fun _ => d.Verified asset) (d.Failed asset) :=
          checkSize_meets.mono (fun _ _ h => h) (fun _ _ _ h => h) fun _ _ h => .inr h
        exact hsize.bind fun _ => .pure fun t n h => h

lemma download_meets (hdigest : asset.digest ≠ "") (haddress : asset.address = d.url)
    {root : Path} (hdest : root.append asset.localPath = d.dest) :
    Job.Meets d.Steady (asset.download root) (d.AfterAll asset) (d.Failed asset) := by
  rw [Asset.download, hdest]
  have hmake : Job.Meets d.Steady (Job.makePath d.dest.parent) (fun _ => d.Steady) (d.Failed asset) :=
    makePath_meets.mono (fun _ _ h => h) (fun _ _ _ h => h) fun _ _ h => .inl h
  exact hmake.bind fun _ => verifiedFrom_meets hdigest haddress 3

end Download

/-! ## Entries -/

lemma fixed_optionalText (operation : String) (d : Doc) : Job.Fixed (optionalText operation d) := by
  unfold optionalText
  cases d with
  | str s => exact .pure s
  | _ =>
    dsimp only
    split_ifs
    · exact .throw _
    · exact .pure _

lemma fixed_ofEntry (entry : Doc) : Job.Fixed (Asset.ofEntry entry) :=
  .bind (.ofExcept _) fun _ => .bind (.ofExcept _) fun _ => .bind (fixed_optionalText _ _) fun _ =>
    .bind (.ofExcept _) fun _ => .bind (fixed_optionalText _ _) fun _ => .pure _

lemma proper_localPath {entry : Doc} {asset : Asset} {w v : Workspace}
    (h : (Asset.ofEntry entry).run w = .ok asset v) : asset.localPath.Proper := by
  have hpath : Job.Meets (fun _ _ => True) (Asset.ofEntry entry) (fun a _ _ => a.path.Proper)
      fun _ _ => True :=
    .bind (Job.Fixed.ofExcept _).meets fun _ => .bind (Job.Fixed.ofExcept _).meets fun _ =>
      .bind (fixed_optionalText _ _).meets fun _ => .bind (Job.Fixed.ofExcept _).meets fun _ =>
        .bind (fixed_optionalText _ _).meets fun _ => .pure fun _ _ _ => Path.proper_ofString _
  have hproper := (hpath w trivial).1 asset v h
  unfold Asset.localPath
  split_ifs
  · exact ⟨.inl rfl, fun n hn => nomatch hn⟩
  · exact hproper

def Asset.InPlace (asset : Asset) (dest : Path) (servers : Network) (after : Tree) : Prop :=
  ∃ answer ∈ servers.answersTo asset.address, answer.isRefusal = false ∧
    after.read dest.text = .ok answer.chunks.flatten ∧
    Hex.encode (Md5.digest answer.chunks.flatten) = asset.digest

structure PlaceKept (dest : Path) (before after : Tree) : Prop where
  home_eq : after.home = before.home
  file_kept : ∀ data, after.node? (Tree.pathPlace before.home dest.text) = some (.file data) →
    before.node? (Tree.pathPlace before.home dest.text) = some (.file data)
  node_kept : ".." ∉ dest.parts → after.node? (Tree.pathPlace before.home dest.text) = none ∨
    after.node? (Tree.pathPlace before.home dest.text) =
      before.node? (Tree.pathPlace before.home dest.text)

lemma Download.Steady.placeKept {d : Download} {t : Tree} {n : Network} (h : d.Steady t n) :
    PlaceKept d.dest d.tree t where
  home_eq := h.home_eq
  file_kept data hdata := by
    obtain hnone | hsame | ⟨-, hdirectory⟩ := h.node_cases
    · exact nomatch hnone.symm.trans hdata
    · exact hsame.symm.trans hdata
    · exact nomatch hdirectory.symm.trans hdata
  node_kept hdots := by
    obtain hnone | hsame | ⟨hmem, -⟩ := h.node_cases
    · exact .inl hnone
    · exact .inr hsame
    · exact absurd hmem hdots

lemma Download.Verified.inPlace {d : Download} {asset : Asset} {t : Tree} {n : Network}
    (h : d.Verified asset t n) (haddress : asset.address = d.url) :
    asset.InPlace d.dest d.network t := by
  obtain ⟨data, hdelivered, hdigest⟩ := h
  obtain ⟨answer, hmem, hrefusal, rfl⟩ := hdelivered.answer
  exact ⟨answer, haddress ▸ hmem, hrefusal, hdelivered.read_eq, hdigest⟩

/-- **A verified download puts a right answer in its place, or keeps the place**: whatever the entry,
the files, the answers of the servers and the moment at which the stop sign is raised. If it says
that the asset is in its place, then what is read there is a whole answer with the digest of the
asset. If it says that it is not, then there is no other file than before. With a fault, it is one
or the other. -/
theorem verified_or_kept (dir : String) (entry : Doc) (asset : Asset) (w : Workspace)
    (hentry : (Asset.ofEntry entry).run w = .ok asset w) (hdigest : asset.digest ≠ "")
    (hpart : ((Path.ofString dir).append asset.localPath).extension ≠ ".part") :
    let dest := (Path.ofString dir).append asset.localPath
    (∀ v, (downloadEntry (Path.ofString dir) entry).run w = .ok true v →
      asset.InPlace dest w.network v.tree) ∧
    (∀ v, (downloadEntry (Path.ofString dir) entry).run w = .ok false v →
      PlaceKept dest w.tree v.tree) ∧
    ∀ f v, (downloadEntry (Path.ofString dir) entry).run w = .error f v →
      PlaceKept dest w.tree v.tree ∨ asset.InPlace dest w.network v.tree := by
  intro dest
  let d : Download :=
    { url := asset.address, dest, tree := w.tree, network := w.network
      proper := (Path.proper_ofString dir).append (proper_localPath hentry), notPartial := hpart }
  have hasset : Job.Meets d.Steady (Asset.ofEntry entry)
      (fun found t n => d.Steady t n ∧ found = asset) (d.Failed asset) := by
    intro v hv
    rw [(fixed_ofEntry entry).run_eq hentry v]
    exact Job.ended_ok ⟨hv, rfl⟩
  have hmeets : Job.Meets d.Steady (downloadEntry (Path.ofString dir) entry) (d.AfterAll asset)
      (d.Failed asset) := by
    refine (Job.Meets.quiet Job.quiet_stopped).bind fun stop => .ite (fun _ => ?_) fun _ => ?_
    · exact .pure fun t n h => h
    · refine hasset.bind fun found => .assume fun hfound => ?_
      rw [hfound]
      exact Download.download_meets hdigest rfl rfl
  obtain ⟨hok, herror⟩ := hmeets w d.steady_start
  refine ⟨fun v hv => (hok true v hv).inPlace rfl, fun v hv => (hok false v hv).placeKept,
    fun f v hv => ?_⟩
  exact (herror f v hv).imp (·.placeKept) (·.inPlace rfl)

def letterEntry : Doc :=
  .obj [("filePath", .str "a\\b.bin"), ("md5", .str "0CC175B9C0F1B6A831C399E269772661"),
    ("size", .int 1)]

def letterAsset : Asset where
  path := { parts := ["a", "b.bin"] }
  digest := "0cc175b9c0f1b6a831c399e269772661"
  size := .int 1

/-- A server that gives another letter first, then refuses, and then gives the letter behind an empty
part. -/
def letterWorkspace : Workspace where
  network := { downloads := [(letterAsset.address,
    [{ chunks := [[0x62]] }, { status := 503 }, { chunks := [[], [0x61]] }])] }

/-- The letter is in its place in the end. -/
theorem verified_or_kept_letter :
    (Asset.ofEntry letterEntry).run letterWorkspace = .ok letterAsset letterWorkspace ∧
    letterAsset.digest ≠ "" ∧
    ((Path.ofString "out").append letterAsset.localPath).extension ≠ ".part" ∧
    ∃ v, (downloadEntry (Path.ofString "out") letterEntry).run letterWorkspace = .ok true v ∧
      letterAsset.InPlace ((Path.ofString "out").append letterAsset.localPath)
        letterWorkspace.network v.tree := by
  have hentry : (Asset.ofEntry letterEntry).run letterWorkspace = .ok letterAsset letterWorkspace :=
    rfl
  have hdigest : letterAsset.digest ≠ "" := by decide
  have hpart : ((Path.ofString "out").append letterAsset.localPath).extension ≠ ".part" := by
    decide
  have hrun : (downloadEntry (Path.ofString "out") letterEntry).run' letterWorkspace = some true := by
    decide +kernel
  obtain ⟨v, hv⟩ := Run.exists_of_run' hrun
  exact ⟨hentry, hdigest, hpart, v, hv,
    (verified_or_kept "out" letterEntry letterAsset letterWorkspace hentry hdigest hpart).1 v hv⟩

end Update

end Salvage
