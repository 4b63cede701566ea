import Salvage.Proofs.Job
import Salvage.Proofs.Workspace.Stations
import Salvage.Update.Download

/-!
# Deliveries side by side

The workers of a pool open the partial files of their answers, write the parts of the answers to them
and move them to their places, and their turns may come in any order. A partial file has the name of
its place with another extension, so that two places in one directory whose names differ in their
extensions only share it. Exactly then some order of the turns leaves a place without its answer.
-/

namespace Salvage

/-! ## Names of partial files -/

namespace Path

variable {p q : Path}

lemma stem_ne_empty (hname : p.name ≠ "") : p.stem ≠ "" := by
  rw [stem]
  split
  · exact hname
  · rename_i n hdot
    intro hempty
    have hlength := congrArg String.length hempty
    simp only [dotPlace] at hdot
    split at hdot
    · cases hdot
    · obtain rfl := Option.some.inj hdot
      simp only [String.length_ofList, List.length_take, String.length_empty] at hlength
      omega

lemma dotPlace_append_part {s : String} (hs : s ≠ "") : dotPlace (s ++ ".part") = some s.length := by
  have hpart : ".part".toList = ['.', 'p', 'a', 'r', 't'] := rfl
  simp [dotPlace, hpart, hs, String.length]

/-- **A name that ends like a partial file** has the rest of it as its stem. -/
lemma stem_of_name_eq (hname : p.name ≠ "") (h : q.name = p.stem ++ ".part") :
    q.stem = p.stem ∧ q.extension = ".part" := by
  have hdot := dotPlace_append_part (stem_ne_empty hname)
  rw [← h] at hdot
  have hlength : p.stem.length = p.stem.toList.length := rfl
  constructor
  · rw [stem, hdot, h, String.toList_append, hlength]
    simp
  · rw [extension, hdot, h, String.toList_append, hlength]
    simp

lemma place_withName {n : String} (hn : n ≠ "" ∧ n ≠ "." ∧ n ≠ "..") (home : Place) :
    (p.withName n).place home = p.parent.place home ++ [n] := by
  rw [place, place, withName, namesFrom_append, parent, Tree.namesFrom,
    if_neg (not_or.mpr ⟨hn.1, hn.2.1⟩), if_neg hn.2.2, Tree.namesFrom]

end Path

/-! ## Files that are moved -/

namespace Tree

variable {t u : Tree} {source target path : String} {p q : Place} {data : Bytes}

lemma Writable.of_directories (h : t.Writable path) (hhome : u.home = t.home)
    (hdir : ∀ q, u.node? q = some .directory ↔ t.node? q = some .directory) : u.Writable path := by
  refine ⟨?_, ?_, h.noSlash⟩
  · rw [hhome]
    exact place_of_directories hhome (fun q => (hdir q).mpr) h.place_eq h.noSlash
  · rw [hhome]
    exact mt (hdir _).mp h.notDirectory

structure Alters (t : Tree) (p q : Place) (u : Tree) : Prop where
  home_eq : u.home = t.home
  directory_iff : ∀ r, u.node? r = some .directory ↔ t.node? r = some .directory
  node_eq : ∀ r, r ≠ p → r ≠ q → u.node? r = t.node? r

namespace Alters

lemma refl (t : Tree) (p q : Place) : Alters t p q t :=
  ⟨rfl, fun _ => Iff.rfl, fun _ _ _ => rfl⟩

lemma trans {v : Tree} (h : Alters t p q u) (h' : Alters u p q v) : Alters t p q v :=
  ⟨h'.home_eq.trans h.home_eq, fun r => (h'.directory_iff r).trans (h.directory_iff r),
    fun r hp hq => (h'.node_eq r hp hq).trans (h.node_eq r hp hq)⟩

lemma put (hp : t.node? p ≠ some .directory) (data : Bytes) (q : Place) :
    Alters t p q (t.put p (.file data)) := by
  have hnode := node?_put hp (.file data)
  refine ⟨home_put .., fun r => ?_, fun r hr _ => by rw [hnode, if_neg hr]⟩
  by_cases hr : r = p
  · simp [hnode, hr, hp]
  · simp [hnode, hr]

end Alters

lemma read_of_writable (h : t.Writable path) (hnode : t.node? (pathPlace t.home path) = some (.file data)) :
    t.read path = .ok data :=
  read_eq_ok_iff.mpr ⟨h.place_eq, hnode⟩

/-- **A file that is moved where a file can be written** is put there, and its old place is emptied. -/
lemma exists_rename (hread : t.read source = .ok data) (hw : t.Writable target) :
    ∃ u, t.rename source target = .ok u ∧ u.home = t.home ∧ ∀ q, u.node? q =
      if q = pathPlace t.home target then some (.file data)
      else if q = pathPlace t.home source then none else t.node? q := by
  obtain ⟨hsource, hnode⟩ := read_eq_ok_iff.mp hread
  by_cases hsame : pathPlace t.home source = pathPlace t.home target
  · refine ⟨t, ?_, rfl, fun q => ?_⟩
    · simp [rename, hread, resolve, hsource, hw.place_eq, hsame, Except.mapError, bind, Except.bind,
        pure, Except.pure]
    · by_cases hq : q = pathPlace t.home target
      · rw [if_pos hq, hq, ← hsame, hnode]
      · rw [if_neg hq, hsame, if_neg hq]
  · refine ⟨(t.put (pathPlace t.home target) (.file data)).erase (pathPlace t.home source), ?_,
      home_put .., fun q => ?_⟩
    · simp [rename, hread, resolve, hsource, hw.place_eq, hw.write_eq, hsame, Except.mapError, bind,
        Except.bind, pure, Except.pure]
    · rw [node?_moved hread hw]
      by_cases hq : q = pathPlace t.home source
      · rw [if_pos hq, if_neg (hq ▸ hsame), if_pos hq]
      · rw [if_neg hq, if_neg hq]

end Tree

namespace Update

/-! ## Deliveries -/

structure Delivery where
  dest : Path
  chunks : List Bytes
  proper : dest.Proper
  named : dest.name ≠ "" ∧ dest.name ≠ ".."

namespace Delivery

variable (d e : Delivery) (home : Place)

def part : Path :=
  d.dest.withName (d.dest.stem ++ ".part")

def octets : Bytes :=
  d.chunks.flatten

def place : Place :=
  d.dest.place home

def partPlace : Place :=
  d.part.place home

/-- The turns that a worker takes: it opens the file, writes the parts, and moves the file. -/
def turns : Nat :=
  d.chunks.length + 2

/-- Two deliveries go to one directory, to names that differ in their extensions only. -/
def SameStem : Prop :=
  d.dest.parent.place home = e.dest.parent.place home ∧ d.dest.stem = e.dest.stem

/-- The partial files of two deliveries stand apart from each other and from both of their places. -/
def Separate : Prop :=
  d.partPlace home ≠ e.partPlace home ∧
    (d.partPlace home ≠ d.place home ∧ d.partPlace home ≠ e.place home) ∧
    (e.partPlace home ≠ d.place home ∧ e.partPlace home ≠ e.place home)

/-- The directory is there, and no directories stand where the answer and its partial file go. -/
structure Ready (t : Tree) : Prop where
  dest : t.Writable d.dest.text
  part : t.Writable d.part.text

variable {d e home}

lemma withExtension?_eq : d.dest.withExtension? ".part" = some d.part := by
  rw [Path.withExtension?, if_neg (by simpa using d.named.1), part]

lemma part_proper : d.part.Proper :=
  .withExtension d.proper.parent d.proper.slash_notMem_name (by decide) (by decide)

lemma pathPlace_dest : Tree.pathPlace home d.dest.text = d.place home :=
  Path.pathPlace_text d.proper home

lemma pathPlace_part : Tree.pathPlace home d.part.text = d.partPlace home :=
  Path.pathPlace_text d.part_proper home

lemma parts_ne_nil : d.dest.parts ≠ [] := by
  intro hparts
  exact d.named.1 (by simp [Path.name, hparts])

lemma place_eq : d.place home = d.dest.parent.place home ++ [d.dest.name] := by
  have hparts := Path.parts_eq d.parts_ne_nil
  have hname : d.dest.withName d.dest.name = d.dest := by
    rw [Path.parent] at hparts
    rw [Path.withName, ← hparts]
  have hdot := d.proper.names d.dest.name (by simp [hparts])
  rw [place, ← Path.place_withName ⟨d.named.1, hdot.2.1, d.named.2⟩, hname]

lemma partPlace_eq : d.partPlace home = d.dest.parent.place home ++ [d.dest.stem ++ ".part"] :=
  Path.place_withName (Path.append_ne_dots _ (by decide)) home

lemma partPlace_eq_iff : d.partPlace home = e.partPlace home ↔ d.SameStem e home := by
  rw [partPlace_eq, partPlace_eq, SameStem]
  constructor
  · intro h
    obtain ⟨hparent, hname⟩ := List.append_inj' h rfl
    exact ⟨hparent, (String.append_left_inj _).mp (List.singleton_inj.mp hname)⟩
  · rintro ⟨hparent, hstem⟩
    rw [hparent, hstem]

lemma sameStem_of_partPlace_eq (h : d.partPlace home = e.place home) :
    d.SameStem e home ∧ e.dest.extension = ".part" := by
  rw [partPlace_eq, place_eq] at h
  obtain ⟨hparent, hname⟩ := List.append_inj' h rfl
  obtain ⟨hstem, hextension⟩ := Path.stem_of_name_eq d.named.1 (List.singleton_inj.mp hname).symm
  exact ⟨⟨hparent, hstem.symm⟩, hextension⟩

lemma partPlace_eq_place_iff : d.partPlace home = d.place home ↔ d.dest.extension = ".part" := by
  refine ⟨fun h => (sameStem_of_partPlace_eq h).2, fun h => ?_⟩
  rw [partPlace_eq, place_eq, ← h, Path.stem_append_extension]

/-- **Partial files stand apart** exactly if the places differ in more than the extension, and none
has the extension of partial files. -/
lemma separate_iff : d.Separate e home ↔
    ¬ d.SameStem e home ∧ d.dest.extension ≠ ".part" ∧ e.dest.extension ≠ ".part" := by
  constructor
  · rintro ⟨hparts, ⟨hown, -⟩, -, hown'⟩
    exact ⟨mt partPlace_eq_iff.mpr hparts, mt partPlace_eq_place_iff.mpr hown,
      mt partPlace_eq_place_iff.mpr hown'⟩
  · rintro ⟨hstem, hd, he⟩
    exact ⟨mt partPlace_eq_iff.mp hstem,
      ⟨mt partPlace_eq_place_iff.mp hd, fun h => hstem (sameStem_of_partPlace_eq h).1⟩,
      fun h => hd (sameStem_of_partPlace_eq h).2, mt partPlace_eq_place_iff.mp he⟩

end Delivery

/-! ## Workers and their turns -/

/-- How far a worker has come. One that writes has a file open, which is lost to it when another file
is moved over it, and goes on behind the octets that it has written. -/
inductive Phase where
  | waiting
  | writing (file : Option Place) (written : Nat) (rest : List Bytes)
  | done
  | failed

def Phase.moved (p q : Place) : Phase → Phase
  | .writing (some r) n rest =>
    .writing (if p = q then some r else if r = p then some q else if r = q then none else some r) n rest
  | phase => phase

structure Pool (ι : Type) where
  tree : Tree
  phase : ι → Phase

/-- Octets with others written over them from a position on; zeros fill a gap. -/
def overwrite (data : Bytes) (n : Nat) (c : Bytes) : Bytes :=
  data.take n ++ List.replicate (n - data.length) 0 ++ c ++ data.drop (n + c.length)

def writeOpen (t : Tree) (file : Option Place) (n : Nat) (c : Bytes) : Tree :=
  match file with
  | none => t
  | some p =>
    match t.node? p with
    | some (.file data) => t.put p (.file (overwrite data n c))
    | _ => t

section

variable {ι : Type} [DecidableEq ι]

def Pool.set (s : Pool ι) (i : ι) (t : Tree) (phase : Phase) : Pool ι :=
  { tree := t, phase := Function.update s.phase i phase }

def turn (d : ι → Delivery) (s : Pool ι) (i : ι) : Pool ι :=
  match s.phase i with
  | .waiting =>
    match s.tree.write (d i).part.text [] with
    | .ok t => s.set i t (.writing (some ((d i).partPlace s.tree.home)) 0 (d i).chunks)
    | .error _ => s.set i s.tree .failed
  | .writing file n (c :: rest) =>
    s.set i (writeOpen s.tree file n c) (.writing file (n + c.length) rest)
  | .writing _ _ [] =>
    match s.tree.rename (d i).part.text (d i).dest.text with
    | .ok t =>
      let moved := Phase.moved ((d i).partPlace s.tree.home) ((d i).place s.tree.home)
      Pool.set { s with phase := fun j => moved (s.phase j) } i t .done
    | .error _ => s.set i s.tree .failed
  | .done => s
  | .failed => s

def runTurns (d : ι → Delivery) (t : Tree) (order : List ι) : Pool ι :=
  order.foldl (turn d) { tree := t, phase := fun _ => .waiting }

def Arrived (d : ι → Delivery) (s : Pool ι) (i : ι) : Prop :=
  s.phase i = .done ∧ s.tree.read (d i).dest.text = .ok (d i).octets

/-! ## One worker -/

open Delivery Salvage.Tree

def Delivery.OnWay (d : Delivery) (t : Tree) (k : Nat) : Phase → Prop
  | .waiting => k = 0
  | .writing file n rest => file = some (d.partPlace t.home) ∧ k + rest.length + 1 = d.turns ∧
      ∃ data, t.node? (d.partPlace t.home) = some (.file data) ∧ data.length = n ∧
        data ++ rest.flatten = d.octets
  | .done => d.turns ≤ k ∧ t.node? (d.place t.home) = some (.file d.octets) ∧
      (d.partPlace t.home ≠ d.place t.home → t.node? (d.partPlace t.home) = none)
  | .failed => False

variable {d : ι → Delivery} {s : Pool ι} {t : Tree} {i j : ι} {k : Nat}

lemma overwrite_end (data c : Bytes) : overwrite data data.length c = data ++ c := by
  simp [overwrite]

variable {e : Delivery} {phase : Phase} {w : Workspace}

lemma Delivery.Ready.alters {u : Tree} {p q : Place} (h : e.Ready t)
    (hu : t.Alters p q u) : e.Ready u :=
  ⟨h.dest.of_directories hu.home_eq hu.directory_iff, h.part.of_directories hu.home_eq hu.directory_iff⟩

/-- **A turn of a worker** takes it on its way, and changes nothing but its own two files. -/
lemma onWay_turn (hready : (d i).Ready s.tree) (h : (d i).OnWay s.tree k (s.phase i)) :
    s.tree.Alters ((d i).partPlace s.tree.home) ((d i).place s.tree.home) (turn d s i).tree ∧
      (d i).OnWay (turn d s i).tree (k + 1) ((turn d s i).phase i) := by
  have hpart : s.tree.node? ((d i).partPlace s.tree.home) ≠ some .directory := by
    rw [← pathPlace_part]
    exact hready.part.notDirectory
  have hdest : s.tree.node? ((d i).place s.tree.home) ≠ some .directory := by
    rw [← pathPlace_dest]
    exact hready.dest.notDirectory
  cases hphase : s.phase i with
  | waiting =>
    rw [hphase] at h
    obtain rfl : k = 0 := h
    have hturn : turn d s i = s.set i (s.tree.put ((d i).partPlace s.tree.home) (.file []))
        (.writing (some ((d i).partPlace s.tree.home)) 0 (d i).chunks) := by
      rw [turn, hphase]
      simp only [hready.part.write_eq, pathPlace_part]
    rw [hturn]
    refine ⟨.put hpart _ _, ?_⟩
    simp only [Pool.set, Function.update_self, Delivery.OnWay, home_put]
    refine ⟨trivial, by rw [turns]; omega, [], ?_, rfl, rfl⟩
    rw [node?_put hpart, if_pos rfl]
  | writing file n rest =>
    rw [hphase] at h
    obtain ⟨rfl, hk, data, hnode, rfl, hdata⟩ := h
    cases rest with
    | cons c rest =>
      have hturn : turn d s i = s.set i
          (s.tree.put ((d i).partPlace s.tree.home) (.file (data ++ c)))
          (.writing (some ((d i).partPlace s.tree.home)) (data.length + c.length) rest) := by
        rw [turn, hphase]
        simp only [writeOpen, hnode, overwrite_end]
      rw [hturn]
      refine ⟨.put hpart _ _, ?_⟩
      simp only [Pool.set, Function.update_self, Delivery.OnWay, home_put]
      rw [List.length_cons] at hk
      refine ⟨trivial, by omega, data ++ c, ?_, by simp, by simpa using hdata⟩
      rw [node?_put hpart, if_pos rfl]
    | nil =>
      obtain rfl : data = (d i).octets := by simpa using hdata
      have hread : s.tree.read (d i).part.text = .ok (d i).octets :=
        read_of_writable hready.part (by rw [pathPlace_part, hnode])
      obtain ⟨u, hrename, hhome, hu⟩ := exists_rename hread hready.dest
      simp only [pathPlace_part, pathPlace_dest] at hu
      have hturn : (turn d s i).tree = u ∧ (turn d s i).phase i = .done := by
        rw [turn, hphase]
        simp [hrename, Pool.set]
      rw [hturn.1, hturn.2]
      refine ⟨⟨hhome, fun q => ?_, fun q hp hq => by rw [hu, if_neg hq, if_neg hp]⟩, ?_⟩
      · rw [hu]
        split_ifs with hq hp
        · simp [hq, hdest]
        · simp [hp, hpart]
        · rfl
      · simp only [List.length_nil] at hk
        refine ⟨by omega, by rw [hhome, hu, if_pos rfl], fun hne => ?_⟩
        rw [hhome] at hne ⊢
        rw [hu, if_neg hne, if_pos rfl]
  | done =>
    have hturn : turn d s i = s := by rw [turn, hphase]
    rw [hphase] at h
    rw [hturn, hphase]
    exact ⟨.refl .., Nat.le_succ_of_le h.1, h.2⟩
  | failed =>
    rw [hphase] at h
    exact h.elim

/-- **The turns of others** move the file that a worker has open at most. -/
lemma phase_turn_of_ne (hne : j ≠ i) : (turn d s i).phase j = s.phase j ∨
    (turn d s i).phase j =
      (s.phase j).moved ((d i).partPlace s.tree.home) ((d i).place s.tree.home) := by
  have hset (t : Tree) (phase : Phase) : (s.set i t phase).phase j = s.phase j :=
    Function.update_of_ne hne _ _
  rw [turn]
  split
  · split <;> exact .inl (hset _ _)
  · exact .inl (hset _ _)
  · split
    · exact .inr (Function.update_of_ne hne _ _)
    · exact .inl (hset _ _)
  · exact .inl rfl
  · exact .inl rfl

/-! ## Partial files that stand apart -/

structure Orderly (d : ι → Delivery) (t : Tree) (turns : ι → Nat) (s : Pool ι) : Prop where
  home_eq : s.tree.home = t.home
  directory_iff : ∀ q, s.tree.node? q = some .directory ↔ t.node? q = some .directory
  onWay : ∀ i, (d i).OnWay s.tree (turns i) (s.phase i)

lemma Delivery.OnWay.alters {u : Tree} {p q : Place} (h : e.OnWay t k phase) (hu : t.Alters p q u)
    (hpart : e.partPlace t.home ≠ p ∧ e.partPlace t.home ≠ q)
    (hdest : e.place t.home ≠ p ∧ e.place t.home ≠ q) :
    e.OnWay u k phase ∧ e.OnWay u k (phase.moved p q) := by
  have hmoved : phase.moved p q = phase := by
    cases phase with
    | writing file n rest =>
      obtain ⟨rfl, -⟩ := h
      simp [Phase.moved, hpart]
    | _ => rfl
  rw [hmoved, and_self]
  have hpartNode := hu.node_eq _ hpart.1 hpart.2
  have hdestNode := hu.node_eq _ hdest.1 hdest.2
  cases phase with
  | waiting => exact h
  | writing file n rest => rwa [OnWay, hu.home_eq, hpartNode]
  | done => rwa [OnWay, hu.home_eq, hpartNode, hdestNode]
  | failed => exact h

variable {turns : ι → Nat}

/-- **A turn keeps the order** where partial files stand apart. -/
lemma Orderly.turn (hready : ∀ i, (d i).Ready t)
    (hplaces : ∀ i j, i ≠ j → (d i).place t.home ≠ (d j).place t.home)
    (hapart : ∀ i j, i ≠ j → ¬ (d i).SameStem (d j) t.home) (h : Orderly d t turns s) (i : ι) :
    Orderly d t (Function.update turns i (turns i + 1)) (Update.turn d s i) := by
  have hreadyNow : (d i).Ready s.tree :=
    ⟨(hready i).dest.of_directories h.home_eq h.directory_iff,
      (hready i).part.of_directories h.home_eq h.directory_iff⟩
  obtain ⟨halters, hway⟩ := onWay_turn hreadyNow (h.onWay i)
  refine ⟨halters.home_eq.trans h.home_eq,
    fun q => (halters.directory_iff q).trans (h.directory_iff q), fun j => ?_⟩
  by_cases hj : j = i
  · subst hj
    rwa [Function.update_self]
  · rw [Function.update_of_ne hj]
    have hkept := (h.onWay j).alters halters
      ⟨fun hp => hapart j i hj (partPlace_eq_iff.mp (h.home_eq ▸ hp)),
        fun hp => hapart j i hj (sameStem_of_partPlace_eq (h.home_eq ▸ hp)).1⟩
      ⟨fun hp => hapart i j (Ne.symm hj) (sameStem_of_partPlace_eq (h.home_eq ▸ hp.symm)).1,
        h.home_eq ▸ hplaces j i hj⟩
    obtain hphase | hphase := phase_turn_of_ne (d := d) (s := s) hj
    · exact hphase ▸ hkept.1
    · exact hphase ▸ hkept.2

/-- **Turns in any order** take every worker on its way where partial files stand apart. -/
lemma orderly_runTurns (hready : ∀ i, (d i).Ready t)
    (hplaces : ∀ i j, i ≠ j → (d i).place t.home ≠ (d j).place t.home)
    (hapart : ∀ i j, i ≠ j → ¬ (d i).SameStem (d j) t.home) (order : List ι) :
    Orderly d t (fun i => order.count i) (runTurns d t order) := by
  induction order using List.reverseRecOn with
  | nil => exact ⟨rfl, fun _ => Iff.rfl, fun i => rfl⟩
  | append_singleton order i ih =>
    have hcount : (fun j => (order ++ [i]).count j) =
        Function.update (fun j => order.count j) i (order.count i + 1) := by
      funext j
      by_cases hj : j = i
      · subst hj
        simp
      · simp [hj, Ne.symm hj]
    rw [hcount, runTurns, List.foldl_append]
    exact ih.turn hready hplaces hapart i

/-! ## Partial files that are shared -/

/-- **Turns of one worker** take it on its way, and leave it to the others what they do next. -/
lemma lone_turns (hready : (d i).Ready s.tree) (hphase : s.phase i = .waiting) (k : Nat) :
    let u := (List.replicate k i).foldl (turn d) s
    s.tree.Alters ((d i).partPlace s.tree.home) ((d i).place s.tree.home) u.tree ∧
      (d i).OnWay u.tree k (u.phase i) ∧
      ∀ j, j ≠ i → (s.phase j = .waiting → u.phase j = .waiting) ∧
        ((∃ file n, s.phase j = .writing file n []) → ∃ file n, u.phase j = .writing file n []) := by
  induction k with
  | zero =>
    have hway : (d i).OnWay s.tree 0 (s.phase i) := by rw [hphase]; rfl
    exact ⟨.refl .., hway, fun j _ => ⟨id, id⟩⟩
  | succ k ih =>
    obtain ⟨halters, hway, hothers⟩ := ih
    rw [List.replicate_succ', List.foldl_append, List.foldl_cons, List.foldl_nil]
    generalize (List.replicate k i).foldl (turn d) s = u at halters hway hothers
    obtain ⟨hstep, hnext⟩ := onWay_turn (hready.alters halters) hway
    rw [halters.home_eq] at hstep
    refine ⟨halters.trans hstep, hnext, fun j hj => ⟨fun hw => ?_, fun hw => ?_⟩⟩
    · obtain hsame | hmoved := phase_turn_of_ne (d := d) (s := u) hj
      · rw [hsame, (hothers j hj).1 hw]
      · rw [hmoved, (hothers j hj).1 hw]
        rfl
    · obtain ⟨file, n, hrest⟩ := (hothers j hj).2 hw
      obtain hsame | hmoved := phase_turn_of_ne (d := d) (s := u) hj
      · exact ⟨file, n, hsame.trans hrest⟩
      · rw [hmoved, hrest]
        cases file <;> exact ⟨_, _, rfl⟩

lemma Delivery.OnWay.last (h : e.OnWay t (e.chunks.length + 1) phase) :
    (∃ file n, phase = .writing file n []) ∧
      t.node? (e.partPlace t.home) = some (.file e.octets) := by
  cases phase with
  | waiting => exact nomatch h
  | writing file n rest =>
    obtain ⟨-, hk, data, hnode, -, hdata⟩ := h
    obtain rfl : rest = [] := by
      rw [turns] at hk
      exact List.length_eq_zero_iff.mp (by omega)
    obtain rfl : data = e.octets := by simpa using hdata
    exact ⟨⟨file, n, rfl⟩, hnode⟩
  | done => exact absurd h.1 (by simp [turns])
  | failed => exact h.elim

lemma rename_of_none {source : String} (target : String)
    (h : t.node? (pathPlace t.home source) = none) : ∃ e, t.rename source target = .error e := by
  cases hread : t.read source with
  | error e => exact ⟨_, by simp only [rename, hread]; rfl⟩
  | ok data => simp [(read_eq_ok_iff.mp hread).2] at h

/-- **Turns that clash**: the second worker opens the partial file that the first one has written, and
finds it gone after the first one has moved it. -/
lemma exists_clash (hready : ∀ i, (d i).Ready t) (hne : i ≠ j) (hstem : (d i).SameStem (d j) t.home)
    (hplace : (d i).partPlace t.home ≠ (d i).place t.home) :
    ∃ order : List ι, (d i).turns ≤ order.count i ∧ (d j).turns ≤ order.count j ∧
      (runTurns d t order).phase j = .failed := by
  refine ⟨List.replicate ((d i).chunks.length + 1) i ++
    (List.replicate ((d j).chunks.length + 1) j ++ [i, j]), ?_, ?_, ?_⟩
  · simp [turns, List.count_replicate, Ne.symm hne]
  · simp [turns, List.count_replicate, hne]
  rw [runTurns, List.foldl_append, List.foldl_append]
  -- the first worker writes all of its answer
  obtain ⟨halters, hway, hothers⟩ := lone_turns (d := d) (i := i)
    (s := { tree := t, phase := fun _ => .waiting }) (hready i) rfl ((d i).chunks.length + 1)
  generalize (List.replicate ((d i).chunks.length + 1) i).foldl (turn d) _ = u at halters hway hothers ⊢
  -- then the second one does
  obtain ⟨halters', hway', hothers'⟩ := lone_turns (s := u) ((hready j).alters halters)
    ((hothers j (Ne.symm hne)).1 rfl) ((d j).chunks.length + 1)
  generalize (List.replicate ((d j).chunks.length + 1) j).foldl (turn d) u = v at halters' hway' hothers' ⊢
  have hhome : v.tree.home = t.home := halters'.home_eq.trans halters.home_eq
  have hpart := partPlace_eq_iff.mpr hstem
  obtain ⟨file, n, hi⟩ := (hothers' i hne).2 hway.last.1
  obtain ⟨⟨file', n', hj⟩, hnode⟩ := hway'.last
  have hready' : (d i).Ready v.tree := ((hready i).alters halters).alters halters'
  have hread : v.tree.read (d i).part.text = .ok (d j).octets := by
    refine read_of_writable hready'.part ?_
    rw [pathPlace_part, hhome, hpart, ← hhome, hnode]
  -- the first one moves the file, and the second one does not find it
  obtain ⟨x, hrename, hxhome, hx⟩ := exists_rename hread hready'.dest
  have hmoved : (turn d v i).tree = x ∧ ∃ file n, (turn d v i).phase j = .writing file n [] := by
    rw [turn, hi]
    simp only [hrename, Pool.set, true_and]
    rw [Function.update_of_ne (Ne.symm hne), hj]
    cases file' <;> exact ⟨_, _, rfl⟩
  obtain ⟨htree, file'', n'', hphase⟩ := hmoved
  have hnone : x.node? (pathPlace x.home (d j).part.text) = none := by
    rw [hx, pathPlace_part, pathPlace_part, pathPlace_dest, hxhome, hhome,
      ← hpart, if_neg hplace, if_pos rfl]
  obtain ⟨e, herror⟩ := rename_of_none (d j).dest.text hnone
  rw [List.foldl_cons, List.foldl_cons, List.foldl_nil, turn, hphase]
  simp [htree, herror, Pool.set]

/-! ## The delivery of a single answer -/

lemma receiveParts_run (hstop : w.stop = none) (chunks : List Bytes) :
    (receiveParts chunks).run w = .ok (chunks.flatten, true) w := by
  induction chunks with
  | nil => rfl
  | cons c r ih =>
    have hstopped : Job.stopped.run w = .ok false w := by
      simp only [EStateM.run, Job.stopped, hstop]
    rw [receiveParts, Run.bind_ok hstopped]
    simp only [Bool.false_eq_true, if_false]
    rw [Run.bind_ok ih]
    rfl

lemma receive_run {path : String} (hwritable : w.tree.Writable path)
    (hstop : w.stop = none) (answer : Answer) :
    ∃ u, (receive answer path).run w = .ok true { w with tree := u } ∧
      (∀ p, w.tree.Alters (pathPlace w.tree.home path) p u) ∧
      u.read path = .ok answer.chunks.flatten := by
  have hempty := Tree.Alters.put hwritable.notDirectory []
  have hagain := hwritable.of_directories (hempty []).home_eq (hempty []).directory_iff
  have hfull := Tree.Alters.put hagain.notDirectory answer.chunks.flatten
  rw [home_put] at hfull
  have hfirst : (Job.writeFile path []).run w = .ok () _ := Job.change_ok (hwritable.write_eq [])
  have hsecond := hagain.write_eq answer.chunks.flatten
  refine ⟨_, ?_, fun p => (hempty p).trans (hfull p), ?_⟩
  · have hparts (t : Tree) := receiveParts_run (w := { w with tree := t }) hstop answer.chunks
    rw [receive, Run.bind_ok hfirst, Run.bind_ok (hparts _)]
    rw [home_put] at hsecond
    exact Run.bind_ok (Job.change_ok hsecond)
  · have hread := hagain.read_put answer.chunks.flatten
    rwa [home_put] at hread

lemma deliver_run {answer : Answer} (hready : e.Ready w.tree)
    (hstop : w.stop = none) (hchunks : answer.chunks = e.chunks) :
    ∃ u, (deliver answer e.dest).run w = .ok .done { w with tree := u } ∧ ∀ q, u.node? q =
      if q = e.place w.tree.home then some (.file e.octets)
      else if q = e.partPlace w.tree.home then none else w.tree.node? q := by
  have hplace := hready.dest.place_eq
  rw [pathPlace_dest] at hplace
  obtain ⟨hnames, hdirs⟩ := (place_text_eq_ok_iff e.proper e.parts_ne_nil).mp hplace
  obtain ⟨t, ht, hpaved⟩ := exists_makePath e.proper.parent (t := w.tree)
    ⟨fun n hn => hnames n (List.dropLast_subset _ hn), fun q hq data => by simp [hdirs q hq]⟩
  have hnode (q : Place) : t.node? q = w.tree.node? q := by
    rw [hpaved.node_eq, if_neg]
    rintro ⟨hnone, hq⟩
    exact nomatch hnone.symm.trans (hdirs q hq)
  have hsame : w.tree.Alters [] [] t := ⟨hpaved.home_eq, fun q => by rw [hnode], fun q _ _ => hnode q⟩
  obtain ⟨v, hreceive, hv, hread⟩ :=
    receive_run (w := { w with tree := t }) (hready.alters hsame).part hstop answer
  have hhome : v.home = w.tree.home := (hv []).home_eq.trans hpaved.home_eq
  obtain ⟨u, hrename, -, hu⟩ := exists_rename hread ((hready.alters hsame).alters (hv [])).dest
  refine ⟨u, ?_, fun q => ?_⟩
  · have hwith : (withExtension e.dest ".part").run w = .ok e.part w := by
      rw [withExtension, withExtension?_eq]
      rfl
    have hmake : (Job.makePath e.dest.parent).run w = .ok () { w with tree := t } := Job.change_ok ht
    rw [deliver, Run.bind_ok hwith, Run.bind_ok hmake, Run.bind_ok hreceive]
    exact Run.bind_ok (Job.change_ok hrename)
  · rw [hu, hhome, pathPlace_dest, pathPlace_part, hchunks, octets]
    split_ifs with hq hp
    · rfl
    · rfl
    · have hpart : q ≠ pathPlace t.home e.part.text := by
        rwa [hpaved.home_eq, pathPlace_part]
      rw [(hv _).node_eq q hpart hpart, hnode]

lemma Delivery.OnWay.done (h : e.OnWay t k phase) (hk : e.turns ≤ k) : phase = .done := by
  cases phase with
  | waiting =>
    simp only [OnWay, turns] at h hk
    omega
  | writing file n rest =>
    have hleft := h.2.1
    omega
  | done => rfl
  | failed => exact h.elim

/-- **Answers arrive in whatever order the workers take their turns** exactly if their places differ
in more than the extension. Then partial files stand apart, from each other and from the places, unless
a place has the extension of partial files itself. A worker alone does what a delivery does. -/
theorem parallel_deliveries_iff (d : ι → Delivery) (w : Workspace) (hstop : w.stop = none)
    (hready : ∀ i, (d i).Ready w.tree)
    (hplaces : ∀ i j, i ≠ j → (d i).place w.tree.home ≠ (d j).place w.tree.home) :
    (∀ i j, (d i).Separate (d j) w.tree.home ↔ ¬ (d i).SameStem (d j) w.tree.home ∧
      (d i).dest.extension ≠ ".part" ∧ (d j).dest.extension ≠ ".part") ∧
    ((∀ (order : List ι) i, (d i).turns ≤ order.count i → Arrived d (runTurns d w.tree order) i) ↔
      ∀ i j, i ≠ j → ¬ (d i).SameStem (d j) w.tree.home) ∧
    ∀ i (answer : Answer), answer.chunks = (d i).chunks → ∃ u,
      (deliver answer (d i).dest).run w = .ok .done { w with tree := u } ∧
      ∀ q, u.node? q = (runTurns d w.tree (List.replicate (d i).turns i)).tree.node? q := by
  refine ⟨fun i j => Delivery.separate_iff, ⟨fun harrive i j hne hstem => ?_, fun hapart order i hall => ?_⟩,
    fun i answer hchunks => ?_⟩
  · -- the place of one of the two is not that of the partial file, and its worker comes first
    by_cases hplace : (d i).partPlace w.tree.home = (d i).place w.tree.home
    · have hpart := Delivery.partPlace_eq_iff.mpr hstem
      obtain ⟨order, -, hall, hfailed⟩ := exists_clash hready (Ne.symm hne) ⟨hstem.1.symm, hstem.2.symm⟩
        (by rw [← hpart, hplace]; exact hplaces i j hne)
      exact nomatch hfailed.symm.trans (harrive order i hall).1
    · obtain ⟨order, -, hall, hfailed⟩ := exists_clash hready hne hstem hplace
      exact nomatch hfailed.symm.trans (harrive order j hall).1
  · have horderly := orderly_runTurns hready hplaces hapart order
    have hway := horderly.onWay i
    generalize runTurns d w.tree order = s at horderly hway ⊢
    have hdone := hway.done hall
    rw [hdone] at hway
    refine ⟨hdone, Tree.read_of_writable
      ((hready i).dest.of_directories horderly.home_eq horderly.directory_iff) ?_⟩
    rw [Delivery.pathPlace_dest]
    exact hway.2.1
  · obtain ⟨u, hrun, hu⟩ := deliver_run (hready i) hstop hchunks
    obtain ⟨halters, hway, -⟩ := lone_turns (d := d) (i := i)
      (s := { tree := w.tree, phase := fun _ => .waiting }) (hready i) rfl (d i).turns
    rw [← runTurns] at halters hway
    generalize runTurns d w.tree (List.replicate (d i).turns i) = s at halters hway ⊢
    rw [hway.done (Nat.le_refl _), Delivery.OnWay, halters.home_eq] at hway
    refine ⟨u, hrun, fun q => ?_⟩
    rw [hu]
    split_ifs with hq hp
    · rw [hq, hway.2.1]
    · rw [hp, hway.2.2 (hp ▸ hq)]
    · rw [halters.node_eq q hp hq]

end

def inLists (name : String) (chunks : List Bytes)
    (hname : name ≠ "" ∧ name ≠ "." ∧ '/' ∉ name.toList) (hup : name ≠ "..") : Delivery where
  dest := (Path.ofString "lists/name").withName name
  chunks := chunks
  proper := .withName (Path.proper_ofString _).parent hname
  named := by
    rw [Path.name_withName]
    exact ⟨hname.1, hup⟩

def apartLists : Bool → Delivery
  | false => inLists "a.json" [[0x61]] (by decide) (by decide)
  | true => inLists "b.json" [[0x62], [0x63]] (by decide) (by decide)

def clashingLists : Bool → Delivery
  | false => inLists "a.part" [[0x61]] (by decide) (by decide)
  | true => inLists "a.json" [[0x62], [0x63]] (by decide) (by decide)

def listsWorkspace : Workspace where
  tree := { entries := [⟨["tmp", "work", "lists"], .directory, 0⟩] }

/-- Answers to different names arrive in whatever order they are written. -/
theorem parallel_deliveries_iff_two :
    ¬ (apartLists false).SameStem (apartLists true) listsWorkspace.tree.home ∧
      ∀ order : List Bool, 3 ≤ order.count false → 4 ≤ order.count true →
        Arrived apartLists (runTurns apartLists listsWorkspace.tree order) false ∧
          Arrived apartLists (runTurns apartLists listsWorkspace.tree order) true := by
  let d := apartLists
  have hvalues : (∀ i j, i ≠ j → (d i).dest.stem ≠ (d j).dest.stem) ∧
      (∀ i, listsWorkspace.tree.Writable (d i).dest.text) ∧
      (∀ i, listsWorkspace.tree.Writable (d i).part.text) ∧
      ∀ i j, i ≠ j →
        (d i).place listsWorkspace.tree.home ≠ (d j).place listsWorkspace.tree.home := by
    decide
  obtain ⟨hstem, hdest, hpart, hplaces⟩ := hvalues
  have harrive := (parallel_deliveries_iff d listsWorkspace rfl (fun i => ⟨hdest i, hpart i⟩)
    hplaces).2.1.mpr fun i j hne hsame => hstem i j hne hsame.2
  refine ⟨fun hsame => hstem false true Bool.false_ne_true hsame.2, fun order hfirst hsecond => ?_⟩
  exact ⟨harrive order false hfirst, harrive order true hsecond⟩

/-- An answer to a name with the extension of partial files is lost when one to another name with the
same stem is delivered after it. -/
theorem partial_name_is_lost :
    let d := clashingLists
    let order := List.replicate 3 false ++ List.replicate 4 true
    (∀ i, (d i).turns ≤ order.count i) ∧
      (d false).place listsWorkspace.tree.home ≠ (d true).place listsWorkspace.tree.home ∧
      ¬ (d false).Separate (d true) listsWorkspace.tree.home ∧
      ¬ Arrived d (runTurns d listsWorkspace.tree order) false := by
  intro d order
  have hvalues : (∀ i, (d i).turns ≤ order.count i) ∧
      (d false).place listsWorkspace.tree.home ≠ (d true).place listsWorkspace.tree.home ∧
      (d false).partPlace listsWorkspace.tree.home = (d true).partPlace listsWorkspace.tree.home ∧
      ((runTurns d listsWorkspace.tree order).tree.read (d false).dest.text).toOption = none := by
    decide +kernel
  obtain ⟨hturns, hplace, hpart, hread⟩ := hvalues
  refine ⟨hturns, hplace, fun hseparate => hseparate.1 hpart, fun harrived => ?_⟩
  rw [harrived.2] at hread
  cases hread

end Update

end Salvage
