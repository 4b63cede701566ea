import Salvage.Proofs.Pak.Part

/-!
# The ledger of an extraction

What an extraction does when nobody raises the stop sign is written down without the sign, the words
and the faults: the pak files that could be loaded, and the resources that were handled one after the
other, with the files and the counts after each of them. A run that ends by itself ends with the counts
and the files of its ledger. A run that is ended early has counts that do not exceed the total, and has
written to no other places.
-/

namespace Salvage.Extraction

open PathText

/-! ## Resources -/

/-- A resource: its path, whether it is an entry of a pak file, and the octets that were read, if they
could be. -/
structure Resource where
  path : String
  inPak : Bool
  data : Option Bytes

namespace Resource

def ofEntry (pak : Pak) (x : String × Pak.Entry) : Resource :=
  ⟨x.1, true, some (pak.contents x.2)⟩

def hash (r : Resource) : UInt32 :=
  PolyHash.ofString r.path

def content (r : Resource) : Option Bytes :=
  (r.data.bind fun d => Sealed.decrypt d (resourceName r.path)).filter (!·.isEmpty)

def name (r : Resource) (kind : FileType) : String :=
  if r.inPak then r.path ++ kind.extension else extraPath r.path kind

def isBound (r : Resource) : Bool :=
  r.inPak || r.content.isSome

def targets (plan : Plan) (r : Resource) : List String :=
  r.content.toList.flatMap fun b =>
    [placePath plan (r.name (.ofBytes b)), hashPath plan r.hash (.ofBytes b)]

def save (plan : Plan) (r : Resource) (b : Bytes) : Tree.Change :=
  (Tree.save (placePath plan (r.name (.ofBytes b))) b).seq
    (Tree.save (hashPath plan r.hash (.ofBytes b)) b)

end Resource

/-! ## The ledger -/

/-- What has been handled: the files and the counts, the pak files that were loaded, and the resources,
each with whether it was kept. -/
structure Ledger where
  tree : Tree
  progress : Progress := {}
  paks : List Pak := []
  handled : List (Resource × Bool) := []

namespace Ledger

/-- The counts before a resource is written: a resource outside the pak files is met only now. -/
def announce (p : Progress) (r : Resource) : Progress :=
  let p := if r.inPak then p else p.meet 1
  if r.isBound then p.bind r.hash r.path else p

def handle (plan : Plan) (L : Ledger) (r : Resource) : Ledger :=
  let p := announce L.progress r
  match r.content with
  | none => { L with progress := p.fail, handled := L.handled ++ [(r, false)] }
  | some b =>
    let p := p.count (.ofBytes b)
    let saved := r.save plan b L.tree
    { L with
      tree := saved.1
      progress := if saved.2 then p.succeed else p.fail
      handled := L.handled ++ [(r, saved.2)] }

def load (L : Ledger) (pak : Pak) : Ledger :=
  { L with progress := L.progress.meet pak.entries.length, paks := L.paks ++ [pak] }

def pakFile (plan : Plan) (store : Store) (L : Ledger) (path : String) : Ledger :=
  match (loadPak store path).on L.tree with
  | none => L
  | some pak => (pak.entries.map (.ofEntry pak)).foldl (handle plan) (L.load pak)

def extra (plan : Plan) (store : Store) (L : Ledger) (path : String) : Ledger :=
  L.handle plan ⟨path, false, (store.read path).on L.tree⟩

def fresh (L : Ledger) (found : List String) : List String :=
  found.filter fun f => !(L.progress.mapping.map Prod.snd).contains f

def recursivePass (plan : Plan) (store : Store) (L : Ledger) : Ledger :=
  match (store.findSealed plan.search).on L.tree with
  | none => L
  | some found => (L.fresh found).foldl (extra plan store) L

def pakFiles (plan : Plan) (store : Store) (t : Tree) (paks : List String) : Ledger :=
  paks.foldl (pakFile plan store) { tree := t }

def passes (plan : Plan) (store : Store) (t : Tree) (paks : List String) : Ledger :=
  let L := pakFiles plan store t paks
  if plan.recursive then L.recursivePass plan store else L

end Ledger

def ledger (plan : Plan) (store : Store) (t : Tree) : Ledger :=
  .passes plan store t (((store.findPaks plan.search plan.index).on t).getD [])

namespace Ledger

variable {plan : Plan} {store : Store} {L : Ledger}

/-! ## One resource -/

variable {r : Resource} {I : Ledger → Prop} {t : Tree}

lemma announce_of_inPak (h : r.inPak = true) (p : Progress) :
    announce p r = p.bind r.hash r.path := by
  rw [announce, Resource.isBound, h]
  rfl

lemma handle_of_none (h : r.content = none) :
    L.handle plan r =
      { L with progress := (announce L.progress r).fail, handled := L.handled ++ [(r, false)] } := by
  unfold handle
  rw [h]

lemma handle_of_some {b : Bytes} (h : r.content = some b) :
    L.handle plan r =
      { L with
        tree := (r.save plan b L.tree).1
        progress := if (r.save plan b L.tree).2 then ((announce L.progress r).count (.ofBytes b)).succeed
          else ((announce L.progress r).count (.ofBytes b)).fail
        handled := L.handled ++ [(r, (r.save plan b L.tree).2)] } := by
  unfold handle
  rw [h]

lemma handle_spec (plan : Plan) (L : Ledger) (r : Resource) :
    ∃ kept, (L.handle plan r).handled = L.handled ++ [(r, kept)] ∧ (L.handle plan r).paks = L.paks ∧
      (L.handle plan r).progress.success = L.progress.success + (if kept then 1 else 0) ∧
      (L.handle plan r).progress.failed = L.progress.failed + (if !kept then 1 else 0) ∧
      (L.handle plan r).progress.total = L.progress.total + (if !r.inPak then 1 else 0) := by
  have hcounts : (announce L.progress r).success = L.progress.success ∧
      (announce L.progress r).failed = L.progress.failed ∧
      (announce L.progress r).total = L.progress.total + (if !r.inPak then 1 else 0) := by
    unfold announce
    cases r.inPak <;> cases r.isBound <;> exact ⟨rfl, rfl, rfl⟩
  obtain ⟨hsuccess, hfailed, htotal⟩ := hcounts
  cases hcontent : r.content with
  | none =>
    rw [handle_of_none hcontent]
    exact ⟨false, rfl, rfl, hsuccess, congrArg (· + 1) hfailed, htotal⟩
  | some b =>
    rw [handle_of_some hcontent]
    refine ⟨(r.save plan b L.tree).2, rfl, rfl, ?_⟩
    cases (r.save plan b L.tree).2 with
    | true => exact ⟨congrArg (· + 1) hsuccess, hfailed, htotal⟩
    | false => exact ⟨hsuccess, congrArg (· + 1) hfailed, htotal⟩

lemma kept_cases {s : Resource} (h : (s, true) ∈ (L.handle plan r).handled) :
    (s, true) ∈ L.handled ∨ s = r ∧ ∃ b, r.content = some b ∧ (r.save plan b L.tree).2 = true ∧
      (L.handle plan r).tree = (r.save plan b L.tree).1 := by
  cases hcontent : r.content with
  | none =>
    have hhandled : (L.handle plan r).handled = L.handled ++ [(r, false)] := by
      rw [handle_of_none hcontent]
    rw [hhandled, List.mem_append, List.mem_singleton, Prod.mk.injEq] at h
    exact h.imp_right fun hfalse => nomatch hfalse.2
  | some b =>
    have hhandled : (L.handle plan r).handled = L.handled ++ [(r, (r.save plan b L.tree).2)] := by
      rw [handle_of_some hcontent]
    rw [hhandled, List.mem_append, List.mem_singleton, Prod.mk.injEq] at h
    exact h.imp_right fun ⟨hs, hsaved⟩ => ⟨hs, b, rfl, hsaved.symm, by rw [handle_of_some hcontent]⟩

/-! ## What every ledger has -/

lemma foldl_keeps {γ : Type} {f : Ledger → γ → Ledger}
    (hf : ∀ L x, I L → I (f L x)) (h : I L) (xs : List γ) : I (xs.foldl f L) := by
  induction xs generalizing L with
  | nil => exact h
  | cons x r ih => exact ih (hf L x h)

/-- **What loading a pak file and handling a resource keep** holds of the pak files of a run. -/
lemma pakFiles_keeps (hstart : I { tree := t })
    (hload : ∀ L pak, I L → I (L.load pak)) (hhandle : ∀ L r, I L → I (L.handle plan r))
    (paks : List String) : I (pakFiles plan store t paks) := by
  refine foldl_keeps (fun L path hL => ?_) hstart paks
  unfold pakFile
  split
  · exact hL
  · exact foldl_keeps hhandle (hload L _ hL) _

/-- **What loading a pak file and handling a resource keep** holds of the ledger of a run. -/
lemma ledger_keeps (hstart : I { tree := t })
    (hload : ∀ L pak, I L → I (L.load pak)) (hhandle : ∀ L r, I L → I (L.handle plan r)) :
    I (ledger plan store t) := by
  have hpaks (paks : List String) : I (pakFiles plan store t paks) :=
    pakFiles_keeps hstart hload hhandle paks
  rw [ledger, passes]
  split
  · rw [recursivePass]
    split
    · exact hpaks _
    · exact foldl_keeps (fun L _ => hhandle L _) (hpaks _) _
  · exact hpaks _

/-! ## Resources stay handled -/

lemma handled_handle (plan : Plan) (L : Ledger) (r : Resource) :
    L.handled <+: (L.handle plan r).handled := by
  obtain ⟨kept, hhandled, -⟩ := handle_spec plan L r
  rw [hhandled]
  exact List.prefix_append ..

lemma fst_handled_foldl (plan : Plan) (L : Ledger) (rs : List Resource) :
    (rs.foldl (handle plan) L).handled.map Prod.fst = L.handled.map Prod.fst ++ rs := by
  induction rs generalizing L with
  | nil => exact (List.append_nil _).symm
  | cons r rs ih =>
    obtain ⟨kept, hhandled, -⟩ := handle_spec plan L r
    rw [List.foldl_cons, ih, hhandled, List.map_append, List.append_assoc, List.map_singleton,
      List.singleton_append]

lemma handled_foldl {γ : Type} {f : Ledger → γ → Ledger}
    (hf : ∀ L x, L.handled <+: (f L x).handled) (L : Ledger) (xs : List γ) :
    L.handled <+: (xs.foldl f L).handled :=
  foldl_keeps (I := fun L' => L.handled <+: L'.handled) (fun L' x h => h.trans (hf L' x))
    (List.prefix_refl _) xs

lemma handled_pakFile (plan : Plan) (store : Store) (L : Ledger) (path : String) :
    L.handled <+: (L.pakFile plan store path).handled := by
  unfold pakFile
  split
  · exact List.prefix_refl _
  · exact handled_foldl (handled_handle plan) (L.load _) _

lemma handled_extra (plan : Plan) (store : Store) (L : Ledger) (path : String) :
    L.handled <+: (L.extra plan store path).handled :=
  handled_handle plan L _

lemma handled_recursivePass (plan : Plan) (store : Store) (L : Ledger) :
    L.handled <+: (L.recursivePass plan store).handled := by
  unfold recursivePass
  split
  · exact List.prefix_refl _
  · exact handled_foldl (handled_extra plan store) L _

/-! ## Sound ledgers -/

variable {t₀ : Tree} {P : Place → Prop} {left : Nat}

def Covered (plan : Plan) (home : Place) (P : Place → Prop) (L : Ledger) : Prop :=
  ∀ x ∈ L.handled, ∀ path ∈ x.1.targets plan, P (Tree.pathPlace home path)

lemma Covered.of_prefix {home : Place} {L' : Ledger} (h : L'.Covered plan home P)
    (hL : L.handled <+: L'.handled) : L.Covered plan home P :=
  fun x hx => h x (hL.subset hx)

lemma Covered.targets {home : Place} {rs : List Resource}
    (h : (rs.foldl (handle plan) L).Covered plan home P) :
    ∀ r ∈ rs, ∀ path ∈ r.targets plan, P (Tree.pathPlace home path) := by
  intro r hr
  have hmem : r ∈ (rs.foldl (handle plan) L).handled.map Prod.fst := by
    rw [fst_handled_foldl]
    exact List.mem_append_right _ hr
  obtain ⟨x, hx, rfl⟩ := List.mem_map.mp hmem
  exact h x hx

/-- The counts add up when `left` resources have been met but not handled, and since the start files
were written at places of `P` only. -/
structure Sound (t₀ : Tree) (P : Place → Prop) (left : Nat) (L : Ledger) : Prop where
  balance : L.progress.success + L.progress.failed + left = L.progress.total
  written : t₀.Written P L.tree

lemma written_save {b : Bytes} (h : t₀.Written P t)
    (hcontent : r.content = some b) (hP : ∀ path ∈ r.targets plan, P (Tree.pathPlace t₀.home path)) :
    t₀.Written P (r.save plan b t).1 := by
  have hplace := hP (placePath plan (r.name (.ofBytes b))) (by simp [Resource.targets, hcontent])
  have hhash := hP (hashPath plan r.hash (.ofBytes b)) (by simp [Resource.targets, hcontent])
  exact (h.save hplace).seq ((h.save hplace).save hhash)

lemma written_handle (h : t₀.Written P L.tree)
    (hP : ∀ path ∈ r.targets plan, P (Tree.pathPlace t₀.home path)) :
    t₀.Written P (L.handle plan r).tree := by
  cases hcontent : r.content with
  | none =>
    rw [handle_of_none hcontent]
    exact h
  | some b =>
    rw [handle_of_some hcontent]
    exact written_save h hcontent hP

lemma Sound.handle (h : L.Sound t₀ P (left + if r.inPak then 1 else 0))
    (hP : ∀ path ∈ r.targets plan, P (Tree.pathPlace t₀.home path)) :
    (L.handle plan r).Sound t₀ P left := by
  obtain ⟨kept, -, -, hsuccess, hfailed, htotal⟩ := handle_spec plan L r
  have hbalance := h.balance
  refine ⟨?_, written_handle h.written hP⟩
  cases kept <;> cases hpak : r.inPak <;> simp [hpak] at hsuccess hfailed htotal hbalance <;> omega

lemma Sound.load (h : L.Sound t₀ P 0) (pak : Pak) : (L.load pak).Sound t₀ P pak.entries.length := by
  have hbalance := h.balance
  refine ⟨?_, h.written⟩
  change L.progress.success + L.progress.failed + pak.entries.length =
    L.progress.total + pak.entries.length
  omega

end Ledger

/-! ## Parts of a run -/

variable {plan : Plan} {store : Store} {L : Ledger} {t₀ : Tree} {P : Place → Prop} {left : Nat}

def Ledger.Reached (L : Ledger) (p : Progress) (t : Tree) : Prop :=
  p = L.progress ∧ t = L.tree

/-- What holds when a run is ended early: the counts do not exceed the total, and since the start files
were written at places of `P` only. -/
structure Halted (t₀ : Tree) (P : Place → Prop) (p : Progress) (t : Tree) : Prop where
  counts : p.success + p.failed ≤ p.total
  written : t₀.Written P t

lemma Ledger.Sound.halted (h : L.Sound t₀ P left) : Halted t₀ P L.progress L.tree :=
  ⟨h.balance ▸ Nat.le_add_right _ left, h.written⟩

/-- A part of a run takes one ledger to another, and may be ended early or with a fault. -/
def Follows (t₀ : Tree) (P : Place → Prop) (x : Run Progress) (L L' : Ledger) : Prop :=
  Gives L.tree x L'.Reached (Halted t₀ P) (t₀.Written P)

variable {r : Resource} {n i : Nat} {pak : Pak} {path : String} {t : Tree}

lemma follows_writeEntry {b : Bytes} {e : Pak.Entry} (hpak : r.inPak = true)
    (hcontent : r.content = some b) (he : e.hash = r.hash) (h : L.Sound t₀ P (left + 1))
    (hP : ∀ path ∈ r.targets plan, P (Tree.pathPlace t₀.home path)) :
    Follows t₀ P (writeEntry plan r.path e b (L.progress.bind r.hash r.path)) L
      (L.handle plan r) := by
  have hname : r.path ++ (FileType.ofBytes b).extension = r.name (.ofBytes b) := by
    rw [Resource.name, hpak, if_pos rfl]
  have hplace := hP (placePath plan (r.name (.ofBytes b))) (by simp [Resource.targets, hcontent])
  rw [Ledger.handle_of_some hcontent, Ledger.announce_of_inPak hpak, Resource.save, Tree.Change.seq]
  unfold writeEntry
  dsimp only
  rw [hname, he]
  refine .attemptChange (changes_write _ _) (fun hsaved => .checkStop (.log _ _) ?_ ?_)
    fun e hsaved => .words (.log _ _) (.pure ?_)
  · exact ⟨h.halted.counts, h.written.save hplace⟩
  · rw [hsaved, if_pos rfl]
    refine .attemptChange (changes_write _ _) (fun hsaved => .pure ?_)
      fun e hsaved => .words (.log _ _) (.pure ?_)
    · rw [hsaved, if_pos rfl]
      exact ⟨rfl, rfl⟩
    · rw [hsaved, if_neg Bool.false_ne_true]
      exact ⟨rfl, rfl⟩
  · rw [hsaved, if_neg Bool.false_ne_true, hsaved, if_neg Bool.false_ne_true]
    exact ⟨rfl, rfl⟩

lemma content_eq_none {d : Bytes} (hdata : r.data = some d)
    (h : ∀ x xs, Sealed.decrypt d (resourceName r.path) ≠ some (x :: xs)) : r.content = none := by
  rw [Resource.content, hdata, Option.bind_some, Option.filter_eq_none_iff]
  intro b hb
  cases b with
  | nil => simp
  | cons x xs => exact absurd hb (h x xs)

lemma content_eq_some {d : Bytes} {x : UInt8} {xs : Bytes} (hdata : r.data = some d)
    (h : Sealed.decrypt d (resourceName r.path) = some (x :: xs)) : r.content = some (x :: xs) := by
  rw [Resource.content, hdata, Option.bind_some, h]
  rfl

lemma follows_entry {pakName name : String} {e : Pak.Entry}
    (he : e.hash = PolyHash.ofString name) (h : L.Sound t₀ P (left + 1))
    (hP : ∀ path ∈ (Resource.ofEntry pak (name, e)).targets plan, P (Tree.pathPlace t₀.home path)) :
    Follows t₀ P (entry plan pak pakName n i name e L.progress) L
      (L.handle plan (.ofEntry pak (name, e))) := by
  have hbound : Halted t₀ P (L.progress.bind e.hash name) L.tree := ⟨h.halted.counts, h.written⟩
  refine .checkStop (.bind (.log _ _) (.log _ _)) h.halted ?_
  refine .wordsIf (.log _ _) (.checkStop (.log _ _) hbound (.checkStop (.log _ _) hbound ?_))
  generalize hdecrypt : Sealed.decrypt (pak.contents e) (resourceName name) = content
  rw [he]
  split
  · exact follows_writeEntry (r := .ofEntry pak (name, e)) rfl (content_eq_some rfl hdecrypt) he h hP
  · rename_i hne
    have hnone := content_eq_none (r := .ofEntry pak (name, e)) rfl
      fun x xs hx => hne x xs (hdecrypt.symm.trans hx)
    rw [Ledger.handle_of_none hnone, Ledger.announce_of_inPak rfl]
    exact .pure ⟨rfl, rfl⟩

/-- **A part that is done for one thing after the other** does what the ledger says, if each of its
steps does and keeps an invariant of the ledger and of what is still to come. -/
lemma Follows.loop {γ : Type} (t₀ : Tree) (P : Place → Prop)
    (part : Nat → γ → Progress → Run Progress) (parts : Nat → List γ → Progress → Run Progress)
    (f : Ledger → γ → Ledger) (I : List γ → Ledger → Prop) (hnil : ∀ i p, parts i [] p = Pure.pure p)
    (hcons : ∀ i x r p, parts i (x :: r) p = part i x p >>= parts (i + 1) r)
    (hstep : ∀ i x r L, I (x :: r) L →
      I r (f L x) ∧ Follows t₀ P (part i x L.progress) L (f L x))
    (xs : List γ) (i : Nat) (L : Ledger) (hI : I xs L) :
    I [] (xs.foldl f L) ∧ Follows t₀ P (parts i xs L.progress) L (xs.foldl f L) := by
  induction xs generalizing i L with
  | nil =>
    rw [hnil]
    exact ⟨hI, .pure ⟨rfl, rfl⟩⟩
  | cons x r ih =>
    obtain ⟨hnext, hgives⟩ := hstep i x r L hI
    obtain ⟨hlast, hrest⟩ := ih (i + 1) (f L x) hnext
    rw [hcons]
    refine ⟨hlast, hgives.bind ?_⟩
    rintro p t ⟨rfl, rfl⟩
    exact hrest

lemma follows_entries (pakName : String) (n : Nat)
    (hhash : ∀ x ∈ pak.entries, x.2.hash = PolyHash.ofString x.1)
    (h : L.Sound t₀ P pak.entries.length)
    (hP : ∀ x ∈ pak.entries, ∀ path ∈ (Resource.ofEntry pak x).targets plan,
      P (Tree.pathPlace t₀.home path)) :
    let L' := (pak.entries.map (.ofEntry pak)).foldl (Ledger.handle plan) L
    L'.Sound t₀ P 0 ∧ Follows t₀ P (entries plan pak pakName n 1 pak.entries L.progress) L L' := by
  -- what is still to come has been met already, and is a part of the pak file
  have hloop := Follows.loop t₀ P (fun i x p => entry plan pak pakName n i x.1 x.2 p)
    (entries plan pak pakName n) (fun L x => L.handle plan (.ofEntry pak x))
    (fun rest L => rest ⊆ pak.entries ∧ L.Sound t₀ P rest.length) (fun i p => by rw [entries])
    (fun i x r p => by rw [entries]) ?_ pak.entries 1 L ⟨List.Subset.refl _, h⟩
  · rw [List.foldl_map]
    exact ⟨hloop.1.2, hloop.2⟩
  · rintro i x rest L ⟨hsub, hsound⟩
    have hx : x ∈ pak.entries := hsub List.mem_cons_self
    exact ⟨⟨fun y hy => hsub (List.mem_cons_of_mem _ hy), Ledger.Sound.handle hsound (hP x hx)⟩,
      follows_entry (hhash x hx) hsound (hP x hx)⟩

lemma follows_pakFile (h : L.Sound t₀ P 0)
    (hP : (L.pakFile plan store path).Covered plan t₀.home P) :
    (L.pakFile plan store path).Sound t₀ P 0 ∧
      Follows t₀ P (pakFile plan store n i path L.progress) L (L.pakFile plan store path) := by
  have hlooks := looks_loadPak store path
  unfold Ledger.pakFile at hP ⊢
  cases hload : (loadPak store path).on L.tree with
  | none =>
    refine ⟨h, .checkStop (.bind (.log _ _) (.log _ _)) h.halted (.words (.heading _ _) ?_)⟩
    refine .attemptLook hlooks (fun pak hpak => ?_) fun e _ => .words (.log _ _) (.pure ⟨rfl, rfl⟩)
    rw [hload] at hpak
    cases hpak
  | some pak =>
    rw [hload] at hP
    obtain ⟨hsound, hentries⟩ := follows_entries (base path) pak.entries.length
      (hash_of_loadPak hload) (h.load pak) fun x hx => hP.targets _ (List.mem_map_of_mem hx)
    refine ⟨hsound, .checkStop (.bind (.log _ _) (.log _ _)) h.halted (.words (.heading _ _) ?_)⟩
    refine .attemptLook hlooks (fun pak' hpak => ?_) fun e hnone => ?_
    · rw [hload] at hpak
      obtain rfl := Option.some.inj hpak
      exact .words (.log _ _) (.words (.log _ _) (.words (.log _ _) hentries))
    · rw [hload] at hnone
      cases hnone

lemma follows_pakFiles (n i : Nat) (paths : List String) (h : L.Sound t₀ P 0)
    (hP : (paths.foldl (Ledger.pakFile plan store) L).Covered plan t₀.home P) :
    let L' := paths.foldl (Ledger.pakFile plan store) L
    L'.Sound t₀ P 0 ∧ Follows t₀ P (pakFiles plan store n i paths L.progress) L L' := by
  have hloop := Follows.loop t₀ P (pakFile plan store n) (pakFiles plan store n)
    (Ledger.pakFile plan store)
    (fun rest L => L.Sound t₀ P 0 ∧
      (rest.foldl (Ledger.pakFile plan store) L).Covered plan t₀.home P)
    (fun i p => by rw [pakFiles]) (fun i x r p => by rw [pakFiles]) ?_ paths i L ⟨h, hP⟩
  · exact ⟨hloop.1.1, hloop.2⟩
  · rintro i path rest L ⟨hsound, hcovered⟩
    have hpak := follows_pakFile (n := n) (i := i) hsound
      (hcovered.of_prefix (Ledger.handled_foldl (Ledger.handled_pakFile plan store) _ rest))
    exact ⟨⟨hpak.1, hcovered⟩, hpak.2⟩

/-! ## Sealed resources outside the pak files -/

lemma Ledger.handle_extra_of_none (hpak : r.inPak = false) (h : r.content = none) :
    (L.handle plan r).Reached (L.progress.meet 1).fail L.tree := by
  rw [Ledger.handle_of_none h, Ledger.announce, Resource.isBound, hpak, h]
  exact ⟨rfl, rfl⟩

lemma Ledger.handle_extra_of_some {b : Bytes} (hpak : r.inPak = false) (h : r.content = some b) :
    (L.handle plan r).Reached
      (let p := ((L.progress.bind r.hash r.path).count (.ofBytes b)).meet 1
        if (r.save plan b L.tree).2 then p.succeed else p.fail)
      (r.save plan b L.tree).1 := by
  rw [Ledger.handle_of_some h, Ledger.announce, Resource.isBound, hpak, h]
  exact ⟨rfl, rfl⟩

lemma changes_extra (plan : Plan) (path : String) (data : Option Bytes) (b : Bytes) :
    Job.Changes
      (do
        write (placePath plan (extraPath path (.ofBytes b))) b
        write (hashPath plan (PolyHash.ofString path) (.ofBytes b)) b)
      (Resource.save plan ⟨path, false, data⟩ b) :=
  .seq (changes_write _ _) (changes_write _ _)

lemma follows_extra (h : L.Sound t₀ P 0) :
    Follows t₀ P (extra plan store n i path L.progress) L (L.extra plan store path) := by
  refine .checkStop (.bind (.log _ _) (.log _ _)) h.halted ?_
  refine .attemptLook (Store.looks_read store path) (fun data hdata => .checkStop (.log _ _) h.halted ?_)
    fun e hnone => .words (.log _ _) (.pure ?_)
  · generalize hdecrypt : Sealed.decrypt data (resourceName path) = content
    split
    · rename_i x xs
      have hcontent := content_eq_some (r := ⟨path, false, (store.read path).on L.tree⟩) hdata hdecrypt
      have hreached : (L.handle plan ⟨path, false, (store.read path).on L.tree⟩).Reached _ _ :=
        Ledger.handle_extra_of_some rfl hcontent
      refine .attemptChange (changes_extra plan path ((store.read path).on L.tree) (x :: xs))
        (fun hsaved => .words (.log _ _) (.pure ?_)) fun e hsaved => .words (.log _ _) (.pure ?_)
      · rw [hsaved, if_pos rfl] at hreached
        exact hreached
      · rw [hsaved, if_neg Bool.false_ne_true] at hreached
        exact hreached
    · rename_i hne
      have hnone := content_eq_none (r := ⟨path, false, (store.read path).on L.tree⟩) hdata
        fun x xs hx => hne x xs (hdecrypt.symm.trans hx)
      exact .words (.log _ _) (.pure (Ledger.handle_extra_of_none rfl hnone))
  · refine Ledger.handle_extra_of_none rfl ?_
    rw [Resource.content, hnone]
    rfl

lemma follows_extras (n i : Nat) (paths : List String) (h : L.Sound t₀ P 0)
    (hP : (paths.foldl (Ledger.extra plan store) L).Covered plan t₀.home P) :
    let L' := paths.foldl (Ledger.extra plan store) L
    L'.Sound t₀ P 0 ∧ Follows t₀ P (extras plan store n i paths L.progress) L L' := by
  have hloop := Follows.loop t₀ P (extra plan store n) (extras plan store n)
    (Ledger.extra plan store)
    (fun rest L => L.Sound t₀ P 0 ∧
      (rest.foldl (Ledger.extra plan store) L).Covered plan t₀.home P)
    (fun i p => by rw [extras]) (fun i x r p => by rw [extras]) ?_ paths i L ⟨h, hP⟩
  · exact ⟨hloop.1.1, hloop.2⟩
  · rintro i path rest L ⟨hsound, hcovered⟩
    have hstep : ([⟨path, false, (store.read path).on L.tree⟩].foldl (Ledger.handle plan)
        L).Covered plan t₀.home P :=
      hcovered.of_prefix (Ledger.handled_foldl (Ledger.handled_extra plan store) _ rest)
    exact ⟨⟨Ledger.Sound.handle hsound (hstep.targets _ List.mem_cons_self), hcovered⟩,
      follows_extra hsound⟩

lemma follows_recursivePass (h : L.Sound t₀ P 0)
    (hP : (L.recursivePass plan store).Covered plan t₀.home P) :
    (L.recursivePass plan store).Sound t₀ P 0 ∧
      Follows t₀ P (recursivePass plan store L.progress) L (L.recursivePass plan store) := by
  have hlooks := Store.looks_findSealed store plan.search
  unfold Ledger.recursivePass at hP ⊢
  cases hfound : (store.findSealed plan.search).on L.tree with
  | none =>
    refine ⟨h, .words (.heading _ _) (.look hlooks (fun found hsome => ?_) h.written)⟩
    rw [hfound] at hsome
    cases hsome
  | some found =>
    rw [hfound] at hP
    obtain ⟨hsound, hextras⟩ := follows_extras (L.fresh found).length 1 (L.fresh found) h hP
    refine ⟨hsound, .words (.heading _ _) (.look hlooks (fun found' hsome => ?_) h.written)⟩
    rw [hfound] at hsome
    obtain rfl := Option.some.inj hsome
    dsimp only
    split
    · rename_i hempty
      have hfresh : L.fresh found = [] := List.isEmpty_iff.mp hempty
      rw [hfresh]
      exact .words (.log _ _) (.pure ⟨rfl, rfl⟩)
    · exact .words (.heading _ _) hextras

/-! ## The summary -/

def summary (plan : Plan) (n : Nat) (p : Progress) : Tree.Change :=
  .seq (.of (·.write (join plan.output "all_hashes.json")
      (Utf8.encode (p.hashes.render .report))))
    (.of (·.write (join plan.output "extraction_info.json")
      (Utf8.encode ((p.info n).render .report))))

lemma changes_summarize (plan : Plan) (n : Nat) (p : Progress) :
    Job.Changes (summarize plan n p) (summary plan n p) := by
  refine .seq (.change _) (.words (.change _) (.bind (.heading _ _) (.bind (.log _ _)
    (.bind (.log _ _) (.bind (.log _ _) (.bind (.log _ _) ?_))))))
  have hend : Job.Speaks (do
      Job.note ("\n✓ Complete hash mapping: " ++ join plan.output "all_hashes.json")
      Job.note ("✓ Extraction info: " ++ join plan.output "extraction_info.json")
      Job.note ("✓ Output directory: " ++ plan.output ++ "/")) :=
    .bind (.log _ _) (.bind (.log _ _) (.log _ _))
  refine .ifThen (.log _ _) (.ite (.bind (.log _ _) (.bind (.forIn _ fun x w => ?_) hend)) hend)
  obtain ⟨console, log, hlog⟩ := Job.Speaks.log .info ("  " ++ x.1.name ++ ": " ++ Decimal.nat x.2) w
  exact ⟨console, log, Run.bind_ok hlog⟩

def summaryPaths (plan : Plan) : List String :=
  [join plan.output "all_hashes.json", join plan.output "extraction_info.json"]

lemma written_summary (n : Nat) (p : Progress) (h : t₀.Written P t)
    (hP : ∀ path ∈ summaryPaths plan, P (Tree.pathPlace t₀.home path)) :
    t₀.Written P (summary plan n p t).1 := by
  have hhashes := hP (join plan.output "all_hashes.json") (by simp [summaryPaths])
  have hinfo := hP (join plan.output "extraction_info.json") (by simp [summaryPaths])
  exact (h.ofWrite hhashes).seq ((h.ofWrite hhashes).ofWrite hinfo)

lemma grows_of_summary {u : Tree} {p : Progress} (h : summary plan n p t = (u, true)) :
    t.Grows u := by
  have hwritten : t.Written (fun _ => True) (summary plan n p t).1 :=
    written_summary n p (.refl t _) fun _ _ => trivial
  rw [h] at hwritten
  exact hwritten.grows

/-! ## Whole runs -/

lemma gives_end (n : Nat) (h : L.Sound t₀ P 0)
    (hP : ∀ path ∈ summaryPaths plan, P (Tree.pathPlace t₀.home path)) :
    Gives L.tree
      (do
        checkStop L.progress (Job.warn "Extraction stopped before writing summary files.")
        liftM (summarize plan n L.progress)
        return L.progress)
      (fun p t => p = L.progress ∧ summary plan n L.progress L.tree = (t, true)) (Halted t₀ P)
      (t₀.Written P) := by
  refine .checkStop (.log _ _) h.halted (.change (changes_summarize plan n L.progress)
    (fun hdone => .pure ⟨rfl, ?_⟩) (written_summary n _ h.written hP))
  rw [← hdone]

lemma gives_passes {paks : List String}
    (hP : (Ledger.passes plan store t₀ paks).Covered plan t₀.home P)
    (hsummary : ∀ path ∈ summaryPaths plan, P (Tree.pathPlace t₀.home path)) :
    let L := Ledger.passes plan store t₀ paks
    L.Sound t₀ P 0 ∧ Gives t₀ (passes plan store paks)
      (fun p t => p = L.progress ∧ summary plan paks.length L.progress L.tree = (t, true))
      (Halted t₀ P) (t₀.Written P) := by
  unfold Ledger.passes Ledger.pakFiles at hP ⊢
  unfold passes
  have hstart : ({ tree := t₀ } : Ledger).Sound t₀ P 0 := ⟨rfl, .refl t₀ P⟩
  by_cases hrecursive : plan.recursive = true
  · rw [if_pos hrecursive] at hP
    simp only [if_pos hrecursive]
    obtain ⟨hsound, hpaks⟩ := follows_pakFiles paks.length 1 paks hstart
      (hP.of_prefix (Ledger.handled_recursivePass plan store _))
    obtain ⟨hsound', hsealed⟩ := follows_recursivePass hsound hP
    refine ⟨hsound', .words (.heading _ _) (hpaks.bind ?_)⟩
    rintro p t ⟨rfl, rfl⟩
    refine .unlessStopped (.log _ _) hsound.halted (hsealed.bind ?_)
    rintro p t ⟨rfl, rfl⟩
    exact gives_end paks.length hsound' hsummary
  · rw [if_neg hrecursive] at hP
    simp only [if_neg hrecursive]
    obtain ⟨hsound, hpaks⟩ := follows_pakFiles paks.length 1 paks hstart hP
    refine ⟨hsound, .words (.heading _ _) (hpaks.bind ?_)⟩
    rintro p t ⟨rfl, rfl⟩
    exact gives_end paks.length hsound hsummary

/-- How a run ends: it is not started, it is ended early, it comes to its end with its ledger and its
summary, or it has a fault. -/
inductive Outcome (plan : Plan) (store : Store) (t : Tree) (P : Place → Prop) :
    EStateM.Result Fault Workspace (Option Progress) → Prop
  | unstarted {v} (htree : v.tree = t) : Outcome plan store t P (.ok none v)
  | early {p v} (hstop : v.isStopped = true) (h : Halted t P p v.tree) :
      Outcome plan store t P (.ok (some p) v)
  | done {v} (n : Nat) (hsound : (ledger plan store t).Sound t P 0)
      (hsummary : summary plan n (ledger plan store t).progress (ledger plan store t).tree =
        (v.tree, true)) :
      Outcome plan store t P (.ok (some (ledger plan store t).progress) v)
  | fault {f v} (h : t.Written P v.tree) : Outcome plan store t P (.error f v)

lemma outcome_run (plan : Plan) (store : Store) (w : Workspace)
    (hP : (ledger plan store w.tree).Covered plan w.tree.home P)
    (hsummary : ∀ path ∈ summaryPaths plan, P (Tree.pathPlace w.tree.home path)) :
    Outcome plan store w.tree P ((run plan store).run w) := by
  obtain ⟨v, hstopped, htree, -⟩ := Job.stopped_run w
  rw [run, Run.bind_ok hstopped]
  cases hstop : v.isStopped with
  | true =>
    obtain ⟨console, log, hlog⟩ := Job.Speaks.log .warning "Extraction aborted before start." v
    rw [if_pos rfl, Job.warn, Run.bind_ok hlog]
    exact .unstarted htree
  | false =>
    rw [if_neg Bool.false_ne_true, ← htree]
    rw [← htree] at hP hsummary
    obtain ⟨paks, u, hon, hpaks, hu⟩ | ⟨f, u, -, -, hpaks, hu⟩ :=
      (Store.looks_findPaks store plan.search plan.index).cases v
    · have hledger : ledger plan store v.tree = Ledger.passes plan store v.tree paks := by
        rw [ledger, hon]
        rfl
      rw [hledger] at hP
      obtain ⟨hsound, hpasses⟩ := gives_passes hP hsummary
      have hend := hpasses u hu
      rw [Run.bind_ok hpaks]
      cases hrun : (passes plan store paks).run.run u with
      | ok r x =>
        rw [hrun] at hend
        rw [Run.bind_ok hrun]
        cases hend with
        | value h =>
          obtain ⟨rfl, hsummary⟩ := h
          rw [← hledger] at hsound hsummary ⊢
          exact .done paks.length hsound hsummary
        | early hstop h => exact .early hstop h
      | error f x =>
        rw [hrun] at hend
        rw [Run.bind_error hrun]
        cases hend with
        | fault h => exact .fault h
    · rw [Run.bind_error hpaks]
      exact .fault (hu ▸ .refl _ P)

lemma progress_eq_of_run {w v : Workspace} {p : Progress}
    (hrun : (run plan store).run w = .ok (some p) v) (hnever : v.isStopped = false) :
    p = (ledger plan store w.tree).progress := by
  have houtcome := outcome_run (P := fun _ => True) plan store w (fun _ _ _ _ => trivial)
    fun _ _ => trivial
  rw [hrun] at houtcome
  cases houtcome with
  | early hstop _ =>
    rw [hstop] at hnever
    cases hnever
  | done => rfl

/-! ## A small game -/

def onePak (entries : List (String × Nat × Nat)) (contents : Bytes) : Workspace where
  tree := { entries := [
    ⟨["tmp", "work", "index.json"], .file (Bytes.ofString "\x7b\"a.pak\": 1\x7d"), 0⟩,
    ⟨["tmp", "work", "a.pak"], .file (Pak.encode 1 (List.replicate 16 0) entries ++ contents), 0⟩,
    ⟨["tmp", "work", "out"], .directory, 0⟩] }

def sealedOctets : Bytes :=
  [0x22, 0x4A, 0x67, 0] ++ List.replicate 16 0

def onePakPlan : Plan where
  index := "index.json"
  output := "out"
  recursive := false

lemma ledger_onePak
    (hpaths : (Store.findPaks {} onePakPlan.search onePakPlan.index).on t = some [path])
    (hpak : (loadPak {} path).on t = some pak) :
    ledger onePakPlan {} t =
      (pak.entries.map (.ofEntry pak)).foldl (Ledger.handle onePakPlan)
        (Ledger.load { tree := t } pak) := by
  have hpass : onePakPlan.recursive = false := rfl
  rw [ledger, hpaths, Option.getD_some, Ledger.passes, hpass, if_neg Bool.false_ne_true,
    Ledger.pakFiles, List.foldl_cons, List.foldl_nil, Ledger.pakFile, hpak]

end Salvage.Extraction
