import Salvage.Proofs.Pak.Containment

/-!
# Resources under their hashes

The mapping has a path under its hash, and a resource is also written under its hash. Different paths
may have the same hash. Then the last one counts: the mapping has the path that was bound last, and the
file holds the content that was kept last among those of the same kind.
-/

namespace Salvage.Extraction

open Salvage.Tree

variable {plan : Plan} {store : Store} {L : Ledger}

/-! ## Mappings -/

namespace Progress

lemma keys_put (key value : String) (m : List (String × String)) :
    (bind.put key value m).map Prod.fst =
      if key ∈ m.map Prod.fst then m.map Prod.fst else m.map Prod.fst ++ [key] := by
  induction m with
  | nil => rfl
  | cons x r ih =>
    rw [bind.put, List.map_cons]
    by_cases hx : x.1 = key
    · simp [hx]
    · rw [if_neg hx, List.map_cons, ih]
      by_cases hmem : key ∈ r.map Prod.fst
      · rw [if_pos hmem, if_pos (List.mem_cons_of_mem _ hmem)]
      · rw [if_neg hmem, if_neg, List.cons_append]
        exact fun h => (List.mem_cons.mp h).elim (fun h => hx h.symm) hmem

lemma nodup_put {key : String} (value : String) {m : List (String × String)}
    (h : (m.map Prod.fst).Nodup) : ((bind.put key value m).map Prod.fst).Nodup := by
  rw [keys_put]
  split
  · exact h
  · rename_i hmem
    exact h.append (List.nodup_singleton key) (List.disjoint_singleton.mpr hmem)

lemma mem_put {key value : String} {m : List (String × String)} (h : (m.map Prod.fst).Nodup)
    {x : String × String} : x ∈ bind.put key value m ↔ x = (key, value) ∨ x.1 ≠ key ∧ x ∈ m := by
  induction m with
  | nil => simp [bind.put]
  | cons y r ih =>
    rw [List.map_cons, List.nodup_cons] at h
    rw [bind.put]
    by_cases hy : y.1 = key
    · have hr : x ∈ r → x.1 ≠ key := fun hx heq => h.1 (hy ▸ heq ▸ List.mem_map_of_mem hx)
      rw [if_pos hy, List.mem_cons, List.mem_cons, hy]
      grind
    · rw [if_neg hy, List.mem_cons, List.mem_cons, ih h.2]
      grind

end Progress

lemma getLast?_filter_concat {α : Type} (p : α → Bool) (xs : List α) (x : α) :
    ((xs ++ [x]).filter p).getLast? = if p x then some x else (xs.filter p).getLast? := by
  rw [List.filter_append]
  by_cases hx : p x = true
  · rw [if_pos hx, List.filter_cons_of_pos hx, List.filter_nil, List.getLast?_concat]
  · rw [if_neg hx, List.filter_cons_of_neg hx, List.filter_nil, List.append_nil]

namespace Ledger

def key (path : String) : String :=
  Decimal.nat (PolyHash.ofString path).toNat

variable {x : String}

lemma key_eq_key_iff {y : String} : key x = key y ↔ PolyHash.ofString x = PolyHash.ofString y := by
  rw [key, key, Decimal.nat_injective.eq_iff, UInt32.toNat_inj]

def bound (L : Ledger) : List String :=
  (L.handled.filter (·.1.isBound)).map (·.1.path)

lemma bound_handle (plan : Plan) (L : Ledger) (r : Resource) :
    (L.handle plan r).bound = if r.isBound then L.bound ++ [r.path] else L.bound := by
  obtain ⟨kept, hhandled, -⟩ := handle_spec plan L r
  rw [bound, hhandled, List.filter_append, List.map_append]
  by_cases hr : r.isBound = true <;> simp [hr, bound]

lemma mapping_handle (plan : Plan) (L : Ledger) (r : Resource) :
    (L.handle plan r).progress.mapping =
      if r.isBound then Progress.bind.put (key r.path) r.path L.progress.mapping
      else L.progress.mapping := by
  have hannounce : (announce L.progress r).mapping =
      if r.isBound then Progress.bind.put (key r.path) r.path L.progress.mapping
      else L.progress.mapping := by
    unfold announce
    cases r.inPak <;> cases r.isBound <;> rfl
  cases hcontent : r.content with
  | none =>
    rw [handle_of_none hcontent]
    exact hannounce
  | some b =>
    rw [handle_of_some hcontent]
    cases (r.save plan b L.tree).2 <;> exact hannounce

structure Mapped (L : Ledger) : Prop where
  nodup : (L.progress.mapping.map Prod.fst).Nodup
  mem_iff : ∀ k v, (k, v) ∈ L.progress.mapping ↔
    (L.bound.filter fun x => key x = k).getLast? = some v

lemma Mapped.handle (h : L.Mapped) (plan : Plan) (r : Resource) : (L.handle plan r).Mapped := by
  by_cases hr : r.isBound = true
  · have hmapping := mapping_handle plan L r
    have hbound := bound_handle plan L r
    rw [if_pos hr] at hmapping hbound
    refine ⟨hmapping ▸ Progress.nodup_put _ h.nodup, fun k v => ?_⟩
    rw [hmapping, hbound, Progress.mem_put h.nodup, getLast?_filter_concat, h.mem_iff]
    by_cases hk : key r.path = k
    · simp [hk, eq_comm]
    · simp [hk, Ne.symm hk]
  · have hmapping := mapping_handle plan L r
    have hbound := bound_handle plan L r
    rw [if_neg hr] at hmapping hbound
    refine ⟨hmapping ▸ h.nodup, fun k v => ?_⟩
    rw [hmapping, hbound, h.mem_iff]

lemma mapped_ledger (plan : Plan) (store : Store) (t : Tree) : (ledger plan store t).Mapped :=
  ledger_keeps ⟨List.nodup_nil, fun k v => by simp [bound]⟩ (fun _ _ h => ⟨h.nodup, h.mem_iff⟩)
    fun _ r h => h.handle plan r

/-! ## Entries and further resources -/

def entryPaths (L : Ledger) : List String :=
  L.paks.flatMap fun pak => pak.entries.map Prod.fst

lemma entryPaths_foldl {γ : Type} (plan : Plan) (f : γ → Ledger → Resource) (L : Ledger)
    (xs : List γ) : (xs.foldl (fun L x => L.handle plan (f x L)) L).entryPaths = L.entryPaths := by
  refine foldl_keeps (I := fun L' => L'.entryPaths = L.entryPaths) (fun L' x h => ?_) rfl xs
  obtain ⟨kept, -, hpaks, -⟩ := handle_spec plan L' (f x L')
  rw [entryPaths, hpaks]
  exact h

lemma bound_foldl_ofEntry (plan : Plan) (pak : Pak) (L : Ledger) (es : List (String × Pak.Entry)) :
    ((es.map (.ofEntry pak)).foldl (handle plan) L).bound = L.bound ++ es.map Prod.fst := by
  induction es generalizing L with
  | nil => exact (List.append_nil _).symm
  | cons e r ih =>
    have hbound : (Resource.ofEntry pak e).isBound = true := rfl
    rw [List.map_cons, List.foldl_cons, ih, bound_handle, if_pos hbound, List.append_assoc]
    rfl

/-- **The pak files of a run** put the paths of their entries into the mapping, and nothing else. -/
lemma bound_pakFiles (plan : Plan) (store : Store) (t : Tree) (paks : List String) :
    (pakFiles plan store t paks).bound = (pakFiles plan store t paks).entryPaths := by
  refine foldl_keeps (I := fun L => L.bound = L.entryPaths) (fun L path h => ?_) rfl paks
  unfold pakFile
  split
  · exact h
  · rename_i pak hpak
    have hload : (L.load pak).entryPaths = L.entryPaths ++ pak.entries.map Prod.fst := by
      rw [entryPaths, load, List.flatMap_append, List.flatMap_singleton]
      rfl
    have hfold := entryPaths_foldl plan (fun r _ => r) (L.load pak) (pak.entries.map (.ofEntry pak))
    rw [bound_foldl_ofEntry]
    exact (congrArg (· ++ pak.entries.map Prod.fst) h).trans (hload.symm.trans hfold.symm)

lemma bound_foldl_extra (plan : Plan) (store : Store) (L : Ledger) (paths : List String) :
    ∃ more, (paths.foldl (extra plan store) L).bound = L.bound ++ more ∧ more ⊆ paths := by
  induction paths generalizing L with
  | nil => exact ⟨[], (List.append_nil _).symm, List.Subset.refl _⟩
  | cons path r ih =>
    obtain ⟨more, hmore, hsub⟩ := ih (L.extra plan store path)
    rw [List.foldl_cons, hmore, extra, bound_handle]
    split
    · exact ⟨path :: more, by simp, List.cons_subset_cons path hsub⟩
    · exact ⟨more, rfl, fun x hx => List.mem_cons_of_mem _ (hsub hx)⟩

/-- **A run puts the paths of its entries into the mapping first**, and then some that are not in it. -/
lemma bound_ledger (plan : Plan) (store : Store) (t : Tree) :
    ∃ (L : Ledger) (more : List String), L.Mapped ∧ L.bound = (ledger plan store t).entryPaths ∧
      (ledger plan store t).bound = L.bound ++ more ∧
      ∀ x ∈ more, x ∉ L.progress.mapping.map Prod.snd := by
  have hmapped (paks : List String) : (pakFiles plan store t paks).Mapped :=
    pakFiles_keeps ⟨List.nodup_nil, fun k v => by simp [bound]⟩ (fun _ _ h => ⟨h.nodup, h.mem_iff⟩)
      (fun _ r h => h.handle plan r) paks
  rw [ledger, passes]
  generalize ((store.findPaks plan.search plan.index).on t).getD [] = paks
  have hbound := bound_pakFiles plan store t paks
  split
  · rw [recursivePass]
    split
    · exact ⟨_, [], hmapped paks, hbound, (List.append_nil _).symm, fun _ h => absurd h List.not_mem_nil⟩
    · rename_i found hfound
      obtain ⟨more, hmore, hsub⟩ := bound_foldl_extra plan store (pakFiles plan store t paks)
        ((pakFiles plan store t paks).fresh found)
      have hfold := entryPaths_foldl plan
        (fun path L => ⟨path, false, (store.read path).on L.tree⟩) (pakFiles plan store t paks)
        ((pakFiles plan store t paks).fresh found)
      refine ⟨_, more, hmapped paks, hbound.trans hfold.symm, hmore, fun x hx => ?_⟩
      have hfresh := (List.mem_filter.mp (hsub hx)).2
      simpa using hfresh
  · exact ⟨_, [], hmapped paks, hbound, (List.append_nil _).symm, fun _ h => absurd h List.not_mem_nil⟩

lemma Mapped.mem_values_iff (h : L.Mapped) (x : String) :
    x ∈ L.progress.mapping.map Prod.snd ↔ (L.bound.filter fun y => key y = key x).getLast? = some x := by
  constructor
  · intro hx
    obtain ⟨⟨k, v⟩, hmem, rfl⟩ := List.mem_map.mp hx
    have hlast := (h.mem_iff k v).mp hmem
    have hk : key v = k := by
      simpa using (List.mem_filter.mp (List.mem_of_getLast? hlast)).2
    rw [hk]
    exact hlast
  · intro hlast
    exact List.mem_map.mpr ⟨(key x, x), (h.mem_iff (key x) x).mpr hlast, rfl⟩

lemma Mapped.exists_last (h : L.Mapped) (hx : x ∈ L.bound) :
    ∃ z ∈ L.bound, key z = key x ∧ z ∈ L.progress.mapping.map Prod.snd := by
  have hmem : x ∈ L.bound.filter fun y => key y = key x := by simp [hx]
  obtain ⟨z, hz⟩ := Option.isSome_iff_exists.mp
    (List.getLast?_isSome.mpr (List.ne_nil_of_mem hmem))
  obtain ⟨hbound, hkey⟩ := List.mem_filter.mp (List.mem_of_getLast? hz)
  have hkey : key z = key x := of_decide_eq_true hkey
  refine ⟨z, hbound, hkey, (h.mem_values_iff z).mpr ?_⟩
  rw [hkey]
  exact hz

lemma Mapped.eq_of_key_eq (h : L.Mapped) {y : String} (hx : x ∈ L.progress.mapping.map Prod.snd)
    (hy : y ∈ L.progress.mapping.map Prod.snd) (hkey : key x = key y) : x = y := by
  rw [h.mem_values_iff] at hx hy
  rw [hkey, hy] at hx
  exact (Option.some.inj hx).symm

lemma entryPaths_subset_iff (plan : Plan) (store : Store) (t : Tree) :
    let L := ledger plan store t
    (∀ x ∈ L.entryPaths, x ∈ L.progress.mapping.map Prod.snd) ↔
      ∀ x ∈ L.entryPaths, ∀ y ∈ L.bound, PolyHash.ofString y = PolyHash.ofString x → y = x := by
  intro L
  obtain ⟨L₁, more, hmapped₁, hentries, hbound, hmore⟩ := bound_ledger plan store t
  have hmapped : L.Mapped := mapped_ledger plan store t
  constructor
  · intro hall x hx y hy hhash
    rw [hbound, hentries, List.mem_append] at hy
    rcases hy with hy | hy
    · exact hmapped.eq_of_key_eq (hall y hy) (hall x hx) (key_eq_key_iff.mpr hhash)
    · -- what was in the mapping for this hash before would have been lost to a further resource
      exfalso
      obtain ⟨e, he, hkey, hvalue⟩ := hmapped₁.exists_last (hentries ▸ hx)
      have hlast := (hmapped.mem_values_iff e).mp (hall e (hentries ▸ he))
      have hmem : y ∈ more.filter fun z => key z = key e := by
        simp [hy, hkey, key_eq_key_iff.mpr hhash]
      obtain ⟨z, hz⟩ := Option.isSome_iff_exists.mp
        (List.getLast?_isSome.mpr (List.ne_nil_of_mem hmem))
      rw [hbound, List.filter_append, List.getLast?_append, hz, Option.some_or] at hlast
      obtain rfl := Option.some.inj hlast
      exact hmore z (List.mem_filter.mp (List.mem_of_getLast? hz)).1 hvalue
  · intro hfree x hx
    have hx' : x ∈ L.bound := by
      rw [hbound, hentries]
      exact List.mem_append_left _ hx
    obtain ⟨z, hz, hkey, hvalue⟩ := hmapped.exists_last hx'
    rwa [hfree x hx z hz (key_eq_key_iff.mp hkey)] at hvalue

end Ledger

/-! ## Files under their hashes -/

lemma takeWhile_isDigit (n : Nat) (kind : FileType) :
    (Decimal.nat n ++ kind.extension).toList.takeWhile Char.isDigit = (Decimal.nat n).toList := by
  have hdigits : ∀ c ∈ (Decimal.nat n).toList, c.isDigit = true := fun c =>
    Decimal.isDigit_of_mem_nat
  have hrest : kind.extension.toList.takeWhile Char.isDigit = [] := by
    cases kind <;> decide
  rw [String.toList_append, List.takeWhile_append_of_pos hdigits, hrest, List.append_nil]

lemma hashPath_place_inj {home : Place} {h h' : UInt32} {k k' : FileType}
    (heq : pathPlace home (hashPath plan h k) = pathPlace home (hashPath plan h' k')) :
    h = h' ∧ k = k' := by
  rw [pathPlace_hashPath, pathPlace_hashPath] at heq
  have hname : Decimal.nat h.toNat ++ k.extension = Decimal.nat h'.toNat ++ k'.extension := by
    simpa using List.append_cancel_left heq
  have hhash : Decimal.nat h.toNat = Decimal.nat h'.toNat := by
    have htake := congrArg (fun s : String => s.toList.takeWhile Char.isDigit) hname
    simp only [takeWhile_isDigit] at htake
    exact String.toList_inj.mp htake
  rw [hhash, String.append_right_inj] at hname
  refine ⟨UInt32.toNat_inj.mp (Decimal.nat_injective hhash), ?_⟩
  revert hname
  cases k <;> cases k' <;> decide

lemma Resource.written_save_of_not {r : Resource} {b : Bytes} {t : Tree}
    (h : (r.save plan b t).2 = false) :
    t.Written (· = pathPlace t.home (placePath plan (r.name (.ofBytes b))))
      (r.save plan b t).1 := by
  have hfirst := written_save t (placePath plan (r.name (.ofBytes b))) b
  rw [Resource.save, Tree.Change.seq] at h ⊢
  split at h
  · rename_i hdone
    rw [if_pos hdone]
    obtain ⟨u, hu, ⟨htrue, -⟩ | hsave⟩ := save_cases
      (Tree.save (placePath plan (r.name (.ofBytes b))) b t).1 (hashPath plan r.hash (.ofBytes b)) b
    · rw [h] at htrue
      cases htrue
    · rw [hsave]
      exact hfirst.trans (hu.mono fun _ hfalse => hfalse.elim)
  · rename_i hdone
    rw [if_neg hdone]
    exact hfirst

namespace Ledger

def kept (L : Ledger) : List (Resource × Bytes) :=
  (L.handled.filter (·.2)).filterMap fun x => x.1.content.map (x.1, ·)

variable {r : Resource}

lemma kept_handle_of_some {b : Bytes} (h : r.content = some b) :
    (L.handle plan r).kept =
      if (r.save plan b L.tree).2 then L.kept ++ [(r, b)] else L.kept := by
  rw [handle_of_some h, kept]
  cases (r.save plan b L.tree).2 <;> simp [kept, h]

lemma kept_handle_of_none (h : r.content = none) : (L.handle plan r).kept = L.kept := by
  rw [handle_of_none h, kept]
  simp [kept]

def Clear (plan : Plan) (L : Ledger) : Prop :=
  ∀ x ∈ L.handled, ∀ b, x.1.content = some b → ∀ hash kind,
    pathPlace L.tree.home (hashPath plan hash kind) ≠
      pathPlace L.tree.home (placePath plan (x.1.name (.ofBytes b)))

def lastKept (L : Ledger) (hash : UInt32) (kind : FileType) : Option (Resource × Bytes) :=
  (L.kept.filter fun x => x.1.hash = hash ∧ FileType.ofBytes x.2 = kind).getLast?

def Filed (plan : Plan) (L : Ledger) : Prop :=
  ∀ hash kind s c, L.lastKept hash kind = some (s, c) →
    L.tree.node? (pathPlace L.tree.home (hashPath plan hash kind)) = some (.file c)

lemma Filed.handle (h : L.Filed plan) (hclear : (L.handle plan r).Clear plan) :
    (L.handle plan r).Filed plan := by
  intro hash kind s c hlast
  have hgrows := grows_handle plan L r
  rw [hgrows.home_eq]
  cases hcontent : r.content with
  | none =>
    rw [lastKept, kept_handle_of_none hcontent] at hlast
    rw [handle_of_none hcontent]
    exact h hash kind s c hlast
  | some b =>
    have htree : (L.handle plan r).tree = (r.save plan b L.tree).1 := by rw [handle_of_some hcontent]
    have hplace : pathPlace L.tree.home (hashPath plan hash kind) ≠
        pathPlace L.tree.home (placePath plan (r.name (.ofBytes b))) := by
      obtain ⟨saved, hhandled, -⟩ := handle_spec plan L r
      rw [← hgrows.home_eq]
      exact hclear (r, saved) (hhandled ▸ List.mem_append_right _ List.mem_cons_self) b hcontent hash kind
    rw [lastKept, kept_handle_of_some hcontent] at hlast
    rw [htree]
    cases hsaved : (r.save plan b L.tree).2 with
    | false =>
      rw [hsaved, if_neg Bool.false_ne_true] at hlast
      exact (Resource.written_save_of_not hsaved).node?_eq (h hash kind s c hlast) hplace
    | true =>
      rw [hsaved, if_pos rfl, getLast?_filter_concat] at hlast
      by_cases hkey : r.hash = hash ∧ FileType.ofBytes b = kind
      · rw [if_pos (decide_eq_true hkey)] at hlast
        obtain ⟨rfl, rfl⟩ := Prod.mk.inj (Option.some.inj hlast)
        obtain ⟨rfl, rfl⟩ := hkey
        exact (Resource.node?_save hsaved).2
      · rw [if_neg (by simpa using hkey)] at hlast
        have hwritten : L.tree.Written (fun q =>
            q = pathPlace L.tree.home (placePath plan (r.name (.ofBytes b))) ∨
            q = pathPlace L.tree.home (hashPath plan r.hash (.ofBytes b)))
            (r.save plan b L.tree).1 := by
          refine written_save (.refl L.tree _) hcontent fun path hpath => ?_
          rcases (by simpa [Resource.targets, hcontent] using hpath : path = _ ∨ path = _) with rfl | rfl
          · exact .inl rfl
          · exact .inr rfl
        refine hwritten.node?_eq (h hash kind s c hlast) (not_or.mpr ⟨hplace, fun heq => ?_⟩)
        obtain ⟨hhash, hkind⟩ := hashPath_place_inj heq
        exact hkey ⟨hhash.symm, hkind.symm⟩

lemma Clear.of_handle (h : (L.handle plan r).Clear plan) : L.Clear plan := by
  intro x hx b hb hash kind
  rw [← (grows_handle plan L r).home_eq]
  exact h x ((handled_handle plan L r).subset hx) b hb hash kind

lemma filed_ledger (plan : Plan) (store : Store) (t : Tree) (hclear : (ledger plan store t).Clear plan) :
    (ledger plan store t).Filed plan :=
  ledger_keeps (I := fun L => L.Clear plan → L.Filed plan)
    (fun _ hash kind s c h => by simp [lastKept, kept] at h) (fun _ _ h => h)
    (fun _ _ h hclear => (h hclear.of_handle).handle hclear) hclear

lemma clear_of_not_astray
    (h : ∀ x ∈ L.handled, ∀ b, x.1.content = some b → isAstray (x.1.name (.ofBytes b)) = false) :
    L.Clear plan := by
  intro x hx b hb hash kind heq
  have hprefix := prefix_placePath plan L.tree.home (h x hx b hb)
  rw [← heq, pathPlace_hashPath, List.prefix_append_right_inj] at hprefix
  simp at hprefix

end Ledger

/-! ## Runs -/

lemma hashPath_place_ne_summary (plan : Plan) (home : Place) (hash : UInt32) (kind : FileType) :
    ∀ path ∈ summaryPaths plan,
      pathPlace home (hashPath plan hash kind) ≠ pathPlace home path := by
  intro path hpath heq
  simp only [summaryPaths, List.mem_cons, List.not_mem_nil, or_false] at hpath
  rcases hpath with rfl | rfl <;>
  · rw [pathPlace_hashPath, Path.pathPlace_join_name home plan.output (by decide) (by decide)] at heq
    simpa using congrArg List.length heq

/-- **What is found under the hashes** after a run that was not stopped. The path of every entry is in
the mapping exactly if no other path that was put into it has the hash of one. And if no resource is
written under its path where the hashes are, then the file under the hash of a resource that was kept
holds its content exactly if the last resource of this hash and kind had the same. -/
theorem last_of_each_hash (plan : Plan) (store : Store) (w v : Workspace) (p : Progress)
    (hrun : (run plan store).run w = .ok (some p) v) (hnever : v.isStopped = false) :
    let L := ledger plan store w.tree
    ((∀ x ∈ L.entryPaths, x ∈ p.mapping.map Prod.snd) ↔
      ∀ x ∈ L.entryPaths, ∀ y ∈ L.bound, PolyHash.ofString y = PolyHash.ofString x → y = x) ∧
    (L.Clear plan → ∀ r b, (r, b) ∈ L.kept →
      (v.tree.node? (Tree.pathPlace w.tree.home (hashPath plan r.hash (.ofBytes b))) = some (.file b) ↔
        (L.lastKept r.hash (.ofBytes b)).map Prod.snd = some b)) := by
  intro L
  have houtcome := outcome_run (P := fun _ => True) plan store w (fun _ _ _ _ => trivial)
    fun _ _ => trivial
  rw [hrun] at houtcome
  cases houtcome with
  | early hstop _ =>
    rw [hstop] at hnever
    cases hnever
  | done n hsound hdone =>
    refine ⟨Ledger.entryPaths_subset_iff plan store w.tree, fun hclear r b hkept => ?_⟩
    have hmem : (r, b) ∈ L.kept.filter fun x => x.1.hash = r.hash ∧
        FileType.ofBytes x.2 = FileType.ofBytes b := by
      simp [hkept]
    obtain ⟨⟨s, c⟩, hlast⟩ := Option.isSome_iff_exists.mp
      (List.getLast?_isSome.mpr (List.ne_nil_of_mem hmem))
    have hlast : L.lastKept r.hash (.ofBytes b) = some (s, c) := hlast
    have hnode := Ledger.filed_ledger plan store w.tree hclear r.hash (.ofBytes b) s c hlast
    have hsummary : L.tree.Written (fun q => ∃ path ∈ summaryPaths plan,
        q = Tree.pathPlace L.tree.home path) (summary plan n L.progress L.tree).1 :=
      written_summary n L.progress (.refl L.tree _) fun path hpath => ⟨path, hpath, rfl⟩
    rw [hdone] at hsummary
    have hafter := hsummary.node?_eq hnode fun ⟨path, hpath, heq⟩ =>
      hashPath_place_ne_summary plan _ _ _ path hpath heq
    rw [hsound.written.grows.home_eq] at hafter
    rw [hafter, hlast]
    simp

/-! ## Two entries of one hash -/

def collidingGame : Workspace :=
  onePak [("Aa", 46, 20), ("BB", 46, 20)] sealedOctets

lemma run_collidingGame : ∃ p v, (run onePakPlan {}).run collidingGame = .ok (some p) v ∧
    v.isStopped = false ∧ p.success = 2 ∧ p.mapping = [("2112", "BB")] ∧
    v.tree.node? ["tmp", "work", "out", "by_hash", "2112.bin"] =
      some (.file [196, 28, 211, 56, 18, 134, 44, 230, 60, 123, 247, 99, 26, 107, 90, 20]) := by
  let g (v : Workspace) : Bool × Option Node :=
    (v.isStopped, v.tree.node? ["tmp", "work", "out", "by_hash", "2112.bin"])
  have hdecide : (do let r ← run onePakPlan {}; return (r, g (← get))).run' collidingGame =
      some (some {
        total := 2, success := 2, failed := 0, mapping := [("2112", "BB")]
        kinds := [(.other, 2)] }, false,
        some (.file [196, 28, 211, 56, 18, 134, 44, 230, 60, 123, 247, 99, 26, 107, 90, 20])) := by
    decide +kernel
  obtain ⟨v, hrun, hend⟩ := Run.exists_of_run'_get hdecide
  exact ⟨_, v, hrun, (Prod.mk.inj hend).1, rfl, rfl, (Prod.mk.inj hend).2⟩

lemma ledger_collidingGame :
    (ledger onePakPlan {} collidingGame.tree).entryPaths = ["Aa", "BB"] ∧
      (ledger onePakPlan {} collidingGame.tree).handled.map (fun x => (x.1.path, x.1.inPak)) =
        [("Aa", true), ("BB", true)] := by
  have hpaths : (Store.findPaks {} onePakPlan.search onePakPlan.index).on collidingGame.tree =
      some ["a.pak"] := by
    decide +kernel
  have hload : ((loadPak {} "a.pak").on collidingGame.tree).map
      (fun pak => pak.entries.map Prod.fst) = some ["Aa", "BB"] := by
    decide +kernel
  obtain ⟨pak, hpak, hentries⟩ := Option.map_eq_some_iff.mp hload
  rw [ledger_onePak hpaths hpak]
  constructor
  · rw [Ledger.entryPaths_foldl onePakPlan (fun r _ => r), Ledger.entryPaths, Ledger.load]
    simpa using hentries
  · let g (r : Resource) : String × Bool := (r.path, r.inPak)
    have hfst := Ledger.fst_handled_foldl onePakPlan (Ledger.load { tree := collidingGame.tree } pak)
      (pak.entries.map (.ofEntry pak))
    calc _ = (List.map Prod.fst _).map g := List.map_map.symm
      _ = (pak.entries.map (.ofEntry pak)).map g := congrArg (List.map g) hfst
      _ = (pak.entries.map Prod.fst).map (·, true) := by simp only [List.map_map]; rfl
      _ = [("Aa", true), ("BB", true)] := by rw [hentries]; rfl

/-- Both entries are written under names that lead to other places than the hashes. -/
theorem last_of_each_hash_of_two_entries :
    let L := ledger onePakPlan {} collidingGame.tree
    L.Clear onePakPlan ∧
    ∃ p v, (run onePakPlan {}).run collidingGame = .ok (some p) v ∧ v.isStopped = false ∧
      p.success = 2 ∧
      ((∀ x ∈ L.entryPaths, x ∈ p.mapping.map Prod.snd) ↔
        ∀ x ∈ L.entryPaths, ∀ y ∈ L.bound, PolyHash.ofString y = PolyHash.ofString x → y = x) ∧
      ∀ r b, (r, b) ∈ L.kept →
        (v.tree.node? (Tree.pathPlace collidingGame.tree.home
            (hashPath onePakPlan r.hash (.ofBytes b))) = some (.file b) ↔
          (L.lastKept r.hash (.ofBytes b)).map Prod.snd = some b) := by
  have hnames (kind : FileType) : isAstray ("Aa" ++ kind.extension) = false ∧
      isAstray ("BB" ++ kind.extension) = false := by
    cases kind <;> decide
  have hclear : (ledger onePakPlan {} collidingGame.tree).Clear onePakPlan := by
    refine Ledger.clear_of_not_astray fun x hx b hb => ?_
    have hmem := List.mem_map_of_mem (f := fun x => (x.1.path, x.1.inPak)) hx
    rw [ledger_collidingGame.2] at hmem
    simp only [List.mem_cons, List.not_mem_nil, or_false, Prod.mk.injEq] at hmem
    rw [Resource.name]
    rcases hmem with ⟨hpath, hpak⟩ | ⟨hpath, hpak⟩
    · rw [hpak, if_pos rfl, hpath]
      exact (hnames _).1
    · rw [hpak, if_pos rfl, hpath]
      exact (hnames _).2
  obtain ⟨p, v, hrun, hnever, hsuccess, -⟩ := run_collidingGame
  obtain ⟨hmapping, hfiles⟩ := last_of_each_hash onePakPlan {} collidingGame v p hrun hnever
  exact ⟨hclear, p, v, hrun, hnever, hsuccess, hmapping, hfiles hclear⟩

/-- **Two entries of one hash**: both are counted as written, but the first one is not in the mapping,
and the file under its hash does not hold its content. -/
theorem hashes_collide :
    (ledger onePakPlan {} collidingGame.tree).entryPaths = ["Aa", "BB"] ∧
    ∃ p v b, (run onePakPlan {}).run collidingGame = .ok (some p) v ∧ v.isStopped = false ∧
      p.success = 2 ∧ "Aa" ∉ p.mapping.map Prod.snd ∧
      Sealed.decrypt sealedOctets (resourceName "Aa") = some b ∧
      v.tree.node? (Tree.pathPlace collidingGame.tree.home
        (hashPath onePakPlan (PolyHash.ofString "Aa") (.ofBytes b))) ≠ some (.file b) := by
  obtain ⟨p, v, hrun, hnever, hsuccess, hmapping, hnode⟩ := run_collidingGame
  have hcontent : Sealed.decrypt sealedOctets (resourceName "Aa") =
      some [25, 15, 15, 244, 150, 132, 214, 140, 50, 7, 214, 88, 100, 46, 34, 166] := by
    decide +kernel
  have hplace : Tree.pathPlace collidingGame.tree.home (hashPath onePakPlan (PolyHash.ofString "Aa")
      (.ofBytes [25, 15, 15, 244, 150, 132, 214, 140, 50, 7, 214, 88, 100, 46, 34, 166])) =
      ["tmp", "work", "out", "by_hash", "2112.bin"] := by
    decide +kernel
  refine ⟨ledger_collidingGame.1, p, v, _, hrun, hnever, hsuccess,
    by rw [hmapping]; decide, hcontent, ?_⟩
  rw [hplace, hnode]
  decide

end Salvage.Extraction
