import Salvage.Pak.Extract
import Salvage.Proofs.Job

/-!
# Searches and pak files

Whether resources are read from archives or from the disk, reading them and searching for them only
looks at the files. What a pak file logs about an entry comes with the hash of its name.
-/

namespace Salvage

namespace Store

/-! ## Reading -/

lemma looks_readMember (z : Zip) (name : String) : Job.Looks (readMember z name) := by
  refine .ofExcept (fun e h => ?_) _
  cases h

lemma looks_readLayers (name : String) (layers : List Zip) : Job.Looks (readLayers name layers) := by
  induction layers with
  | nil => exact .pure none
  | cons z r ih =>
    rw [readLayers]
    exact .ite ((looks_readMember z name).bind fun _ => .pure _) ih

lemma looks_read (s : Store) (path : String) : Job.Looks (s.read path) := by
  refine (looks_readLayers _ s.layers).bind fun found => ?_
  cases found with
  | some b => exact .pure b
  | none => exact .look _

/-! ## The index -/

lemma looks_fieldNames (d : Doc) : Job.Looks (fieldNames d) := by
  refine .bind (.ofExcept (fun e h => ?_) _) fun _ => .pure _
  cases h

lemma looks_documentOf (b : Bytes) : Job.Looks (documentOf b) := by
  refine .bind (.ofExcept (fun e h => ?_) _) fun _ => .ofExcept (fun e h => ?_) _
  · cases h
  · cases h

lemma looks_layerIndex (z : Zip) (names : List String) : Job.Looks (layerIndex z names) := by
  induction names with
  | nil => exact .pure none
  | cons name r ih =>
    rw [layerIndex]
    refine .ite ih (.bind (.ofExcept (fun e h => ?_) _) fun located => .words (.log _ _) ?_)
    · cases h
    · refine .bind (.ofExcept (fun e h => ?_) _) fun body =>
        (looks_documentOf body).bind fun d => (looks_fieldNames d).bind fun _ => .pure _
      cases h

lemma looks_layersIndex (names : List String) (layers : List Zip) :
    Job.Looks (layersIndex names layers) := by
  induction layers with
  | nil => exact .pure none
  | cons z r ih =>
    refine (looks_layerIndex z names).bind fun found => ?_
    cases found with
    | some found => exact .pure _
    | none => exact ih

lemma looks_readText (path : String) : Job.Looks (Job.readText path) := by
  refine .bind (.look _) fun data => .bind (.ofExcept (fun e h => ?_) _) fun _ => .pure _
  cases h

lemma looks_indexNames (s : Store) (path : String) : Job.Looks (s.indexNames path) := by
  refine (looks_layersIndex _ s.layers).bind fun found => ?_
  cases found with
  | some found => exact .pure found
  | none =>
    refine .bind (.bind .tree fun _ => .pure _) fun there => .ite ?_ ?_
    · exact .words (.log _ _) (.pure _)
    · refine .bind (looks_readText path) fun text =>
        .bind (.ofExcept (fun e h => ?_) _) fun d => looks_fieldNames d
      cases h

/-! ## Searches -/

lemma looks_findEach {look : String → Job (Option String)} (hlook : ∀ name, Job.Looks (look name))
    (words : String) (names : List String) : Job.Looks (findEach look words names) := by
  induction names with
  | nil => exact .pure []
  | cons name r ih =>
    refine (hlook name).bind fun found => ?_
    cases found with
    | some place => exact .words (.log _ _) (ih.bind fun _ => .pure _)
    | none => exact .words (.log _ _) ih

lemma looks_findPaks (s : Store) (dir index : String) : Job.Looks (s.findPaks dir index) := by
  refine .words (.heading _ _) ((looks_indexNames s index).bind fun expected => .words (.log _ _) ?_)
  refine .ite (.bind ?_ fun found => .words (.log _ _) (.pure found))
    (.bind ?_ fun found => .words (.log _ _) (.pure found))
  · exact looks_findEach (fun _ => .bind .tree fun _ => .pure _) _ expected
  · exact looks_findEach (fun _ => .pure _) _ expected

lemma looks_isSealed {read : Job Bytes} (hread : Job.Looks read) : Job.Looks (isSealed read) :=
  .recover (hread.bind fun _ => .pure _) fun _ => .pure false

lemma looks_findSealedAmong {read : String → Job Bytes} (hread : ∀ name, Job.Looks (read name))
    (names : List String) : Job.Looks (findSealedAmong read names) := by
  induction names with
  | nil => exact .pure []
  | cons name r ih =>
    refine (looks_isSealed (hread name)).bind fun found => .ite ?_ ih
    exact .words (.log _ _) (ih.bind fun _ => .pure _)

lemma looks_findSealed (s : Store) (dir : String) : Job.Looks (s.findSealed dir) := by
  refine .words (.heading _ _) (.ite (.bind .tree fun t => .bind ?_ fun found =>
    .words (.log _ _) (.pure found)) (.bind ?_ fun found => .words (.log _ _) (.pure found)))
  · exact looks_findSealedAmong (fun _ => .look _) _
  · exact looks_findSealedAmong (looks_read s) _

end Store

lemma Extraction.looks_loadPak (store : Store) (path : String) :
    Job.Looks (Extraction.loadPak store path) := by
  refine (Store.looks_read store path).bind fun b => .ofExcept (fun e h => ?_) (Pak.load b)
  cases h

/-! ## Entries -/

namespace Pak

lemma mem_insert {name : String} {e : Entry} {es : List (String × Entry)} {x : String × Entry}
    (h : x ∈ insert name e es) : x = (name, e) ∨ x ∈ es := by
  induction es with
  | nil => exact .inl (List.mem_singleton.mp h)
  | cons y r ih =>
    obtain ⟨n, f⟩ := y
    rw [insert] at h
    split at h
    · rename_i hn
      rcases List.mem_cons.mp h with rfl | h
      · exact .inl (by rw [hn])
      · exact .inr (List.mem_cons_of_mem _ h)
    · rcases List.mem_cons.mp h with rfl | h
      · exact .inr List.mem_cons_self
      · exact (ih h).imp_right (List.mem_cons_of_mem _)

lemma hash_of_mem_entriesFrom {b : Bytes} {n i : Nat} {es es' : List (String × Entry)}
    (h : entriesFrom b n i es = .ok es') (hes : ∀ x ∈ es, x.2.hash = PolyHash.ofString x.1) :
    ∀ x ∈ es', x.2.hash = PolyHash.ofString x.1 := by
  induction n generalizing i es with
  | zero =>
    obtain rfl := Except.ok.inj h
    exact hes
  | succ n ih =>
    rw [entriesFrom] at h
    cases hname : nameAt b i with
    | error f =>
      rw [hname] at h
      cases h
    | ok found =>
      obtain ⟨name, j⟩ := found
      rw [hname] at h
      cases hoffset : numberAt b j.toNat with
      | error f => simp [bind, Except.bind, hoffset] at h
      | ok offset =>
        cases hsize : numberAt b (j.toNat + 4) with
        | error f => simp [bind, Except.bind, hoffset, hsize] at h
        | ok size =>
          simp only [bind, Except.bind, hoffset, hsize] at h
          refine ih h fun x hx => ?_
          rcases mem_insert hx with rfl | hx
          · rfl
          · exact hes x hx

lemma hash_of_mem_entries {b : Bytes} {p : Pak} (h : load b = .ok p) :
    ∀ x ∈ p.entries, x.2.hash = PolyHash.ofString x.1 := by
  rw [load] at h
  cases hversion : numberAt b 0 with
  | error f =>
    rw [hversion] at h
    cases h
  | ok version =>
    cases hcount : numberAt b 20 with
    | error f => simp [bind, Except.bind, hversion, hcount] at h
    | ok count =>
      cases hentries : entriesFrom b count 24 [] with
      | error f => simp [bind, Except.bind, hversion, hcount, hentries] at h
      | ok es =>
        simp only [bind, Except.bind, hversion, hcount, hentries, pure, Except.pure] at h
        obtain rfl := Except.ok.inj h
        exact hash_of_mem_entriesFrom hentries fun x hx => nomatch hx

end Pak

lemma Extraction.hash_of_loadPak {store : Store} {path : String} {t : Tree} {p : Pak}
    (h : (Extraction.loadPak store path).on t = some p) :
    ∀ x ∈ p.entries, x.2.hash = PolyHash.ofString x.1 := by
  obtain ⟨v, hv⟩ := Run.exists_of_run' h
  obtain ⟨b, u, -, hb⟩ := Run.exists_of_bind_ok hv
  cases hload : Pak.load b with
  | error f =>
    rw [hload] at hb
    cases hb
  | ok q =>
    rw [hload] at hb
    cases hb
    exact Pak.hash_of_mem_entries hload

end Salvage
