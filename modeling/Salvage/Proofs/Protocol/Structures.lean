import Salvage.Proofs.Protocol.Messages
import Salvage.Proofs.Protocol.Source
import Salvage.Proofs.Workspace.Path

/-!
# Structures of the generated code

The names of the structures that are defined are collected before any code is made, as they are
written; the code then has a structure for each name that can stand in it, with its white space
folded. The types of fields that are not among the names are collected while that code is made, and
get placeholders behind it. The code is a text: a structure is declared in it by a line that opens it,
so that all other lines have to be known not to begin like one.
-/

namespace Salvage.Protocol

namespace Code

variable {s t name type : String} {cs : List Char} {ls ls' : List String}

/-! ## Lines of a text -/

def IsLine (s : String) : Prop := '\n' ∉ s.toList

instance (s : String) : Decidable (IsLine s) := inferInstanceAs (Decidable (_ ∉ _))

def linesOf (code : String) : List String :=
  (code.toList.splitOn '\n').map String.ofList

def declared (code : String) : List String :=
  (linesOf code).filterMap (Wire.between? "pub struct " " \x7b")

lemma IsLine.ofList (h : cs.contains '\n' = false) : IsLine (String.ofList cs) := by
  rw [IsLine, String.toList_ofList, ← List.contains_iff_mem, h]
  exact Bool.false_ne_true

lemma IsLine.append (hs : IsLine s) (ht : IsLine t) : IsLine (s ++ t) := by
  rw [IsLine, String.toList_append, List.mem_append]
  exact not_or.mpr ⟨hs, ht⟩

lemma IsLine.linesOf_eq (h : IsLine s) : linesOf s = [s] := by
  have hsplit : (['\n'].intercalate [s.toList]).splitOn '\n' = [s.toList] :=
    List.splitOn_intercalate '\n' (List.forall_mem_singleton.mpr h) (List.cons_ne_nil _ _)
  rw [List.intercalate_singleton] at hsplit
  simp [linesOf, hsplit]

lemma linesOf_intercalate (h : ls ≠ []) : linesOf ("\n".intercalate ls) = ls.flatMap linesOf := by
  have hend : "\n".toList = ['\n'] := rfl
  induction ls with
  | nil => exact absurd rfl h
  | cons a r ih =>
    cases r with
    | nil => simp [linesOf]
    | cons b r =>
      have hr := ih (List.cons_ne_nil b r)
      rw [linesOf, String.toList_intercalate, hend] at hr
      rw [linesOf, String.toList_intercalate, hend, List.map_cons, List.map_cons,
        List.intercalate_cons_cons, List.append_assoc, List.singleton_append,
        List.splitOn_append_cons_self, List.map_append, ← List.map_cons, hr, List.flatMap_cons]
      rfl

lemma declared_intercalate (h : ls ≠ []) :
    declared ("\n".intercalate ls) = ls.flatMap declared := by
  rw [declared, linesOf_intercalate h, List.filterMap_flatMap]
  rfl

lemma declared_head (h : IsLine name) : declared ("pub struct " ++ name ++ " \x7b") = [name] := by
  have hline : IsLine ("pub struct " ++ name ++ " \x7b") :=
    .append (.append (.ofList rfl) h) (.ofList rfl)
  rw [declared, hline.linesOf_eq, List.filterMap_cons_some (Wire.between?_append _ _ name)]
  rfl

/-! ## Texts that declare nothing -/

/-- Walks over a text, up to the first line that begins with a `p`: whether a line begins behind it,
given whether one begins before it. -/
def walk (start : Bool) : List Char → Option Bool
  | [] => some start
  | c :: r => if start && c == 'p' then none else walk (c == '\n') r

def Calm (start : Bool) (s : String) (done : Bool) : Prop := walk start s.toList = some done

lemma walk_append (start : Bool) (cs ds : List Char) :
    walk start (cs ++ ds) = (walk start cs).bind (walk · ds) := by
  induction cs generalizing start with
  | nil => rfl
  | cons c r ih =>
    rw [List.cons_append, walk, walk]
    split_ifs
    · rfl
    · exact ih _

lemma walk_eq_some (h : '\n' ∉ cs) : walk false cs = some false := by
  induction cs with
  | nil => rfl
  | cons c r ih =>
    have h := List.ne_and_not_mem_of_not_mem_cons h
    have hc : (c == '\n') = false := beq_eq_false_iff_ne.mpr h.1.symm
    rw [walk, hc]
    exact ih h.2

namespace Calm

variable {start between done : Bool}

lemma ofList (h : walk start cs = some done) : Calm start (String.ofList cs) done := by
  rw [Calm, String.toList_ofList, h]

lemma append (hs : Calm start s between) (ht : Calm between t done) : Calm start (s ++ t) done := by
  rw [Calm, String.toList_append, walk_append, hs]
  exact ht

lemma of_isLine (h : IsLine s) : Calm false s false :=
  walk_eq_some h

/-- The first line may go on with one before the text, unless a line begins there. -/
lemma head?_ne (cs : List Char) {start done : Bool} (h : walk start cs = some done) :
    ∀ line ∈ (cs.splitOn '\n').drop (if start then 0 else 1), line.head? ≠ some 'p' := by
  induction cs generalizing start with
  | nil => cases start <;> simp
  | cons c r ih =>
    rw [walk] at h
    split_ifs at h with hstop
    have hrest := ih h
    rw [List.splitOn_cons_eq_if_modifyHead]
    by_cases hc : c = '\n'
    · subst hc
      cases start <;> simpa using hrest
    · have hc' : (c == '\n') = false := beq_eq_false_iff_ne.mpr hc
      rw [hc'] at hrest ⊢
      cases hlines : r.splitOn '\n' with
      | nil => simp
      | cons line lines =>
        rw [hlines] at hrest
        cases start with
        | false => simpa using hrest
        | true =>
          have hp : c ≠ 'p' := by simpa using hstop
          simpa [hp] using hrest

lemma declared_eq_nil (h : Calm true s done) : declared s = [] := by
  rw [declared, List.filterMap_eq_nil_iff]
  intro line hline
  obtain ⟨cs, hcs, rfl⟩ := List.mem_map.mp hline
  have hhead := head?_ne s.toList h cs hcs
  have hfront : Text.startsWith (String.ofList cs) "pub struct " = false := by
    rw [Text.startsWith, Bool.eq_false_iff, ne_eq, List.isPrefixOf_iff_prefix]
    rintro ⟨r, hr⟩
    rw [← String.toList_ofList (l := cs), ← hr] at hhead
    exact hhead rfl
  simp only [Wire.between?, hfront, Bool.false_and]
  rfl

end Calm

def Quiet (ls : List String) : Prop := ∀ s ∈ ls, (walk true s.toList).isSome = true

namespace Quiet

lemma nil : Quiet [] :=
  fun _ hs => absurd hs List.not_mem_nil

lemma cons {done : Bool} (h : walk true cs = some done) (hls : Quiet ls) :
    Quiet (String.ofList cs :: ls) := by
  refine List.forall_mem_cons.mpr ⟨?_, hls⟩
  rw [String.toList_ofList, h]
  rfl

lemma append (h : Quiet ls) (h' : Quiet ls') : Quiet (ls ++ ls') :=
  List.forall_mem_append.mpr ⟨h, h'⟩

lemma map {α : Type} {f : α → String} {xs : List α} (h : ∀ x ∈ xs, Calm true (f x) false) :
    Quiet (xs.map f) := by
  intro s hs
  obtain ⟨x, hx, rfl⟩ := List.mem_map.mp hs
  exact Option.isSome_of_eq_some (h x hx)

lemma line (hs : IsLine s) (hhead : s.toList.head? ≠ some 'p') (hls : Quiet ls) :
    Quiet (s :: ls) := by
  refine List.forall_mem_cons.mpr ⟨?_, hls⟩
  rw [IsLine] at hs
  cases hcs : s.toList with
  | nil => rfl
  | cons c r =>
    rw [hcs] at hs hhead
    have hs := List.ne_and_not_mem_of_not_mem_cons hs
    have hp : (c == 'p') = false := beq_eq_false_iff_ne.mpr fun hc => hhead (congrArg some hc)
    have hend : (c == '\n') = false := beq_eq_false_iff_ne.mpr hs.1.symm
    rw [walk, hp, hend, Bool.and_false, if_neg Bool.false_ne_true, walk_eq_some hs.2]
    rfl

lemma flatMap_declared (h : Quiet ls) : ls.flatMap declared = [] := by
  rw [List.flatMap_eq_nil_iff]
  intro s hs
  obtain ⟨done, hdone⟩ := Option.isSome_iff_exists.mp (h s hs)
  exact Calm.declared_eq_nil hdone

end Quiet

/-! ## Lines for fields -/

lemma isLine_clean (s : String) : IsLine (clean s) := by
  have hfold (inside : Bool) (cs : List Char) : '\n' ∉ fold inside cs := by
    induction cs generalizing inside with
    | nil => exact List.not_mem_nil
    | cons c r ih =>
      rw [fold]
      split_ifs with hc
      · exact ih true
      · simpa using ih true
      · refine List.not_mem_cons_of_ne_of_not_mem ?_ (ih false)
        rintro rfl
        exact hc rfl
  rw [IsLine, clean, Text.strip, String.toList_ofList, String.toList_ofList, Text.stripWhere]
  intro h
  have h := (List.dropWhile_sublist _).subset (List.mem_reverse.mp h)
  exact hfold false _ ((List.dropWhile_sublist _).subset (List.mem_reverse.mp h))

lemma isLine_cleanComment (s : String) : IsLine (cleanComment s) := by
  rw [IsLine, cleanComment, String.toList_ofList]
  exact fun h => isLine_clean s (List.mem_of_mem_filter (List.mem_of_mem_take h))

lemma isLine_getD_lookup {texts : List (String × String)} (htexts : ∀ t ∈ texts, IsLine t.2)
    (hs : IsLine s) : IsLine ((texts.lookup s).getD s) := by
  cases h : texts.lookup s with
  | none => exact hs
  | some t =>
    obtain ⟨l₁, l₂, rfl, -⟩ := List.lookup_eq_some_iff.mp h
    exact htexts (s, t) (List.mem_append_right l₁ List.mem_cons_self)

lemma isLine_safeName (h : IsLine name) : IsLine (safeName name) :=
  isLine_getD_lookup (by decide) h

lemma isLine_fieldType (h : IsLine type) (repeated : Bool) : IsLine (fieldType type repeated) := by
  have hname : IsLine (typeName type) := isLine_getD_lookup (by decide) h
  rw [fieldType]
  split_ifs
  · exact .append (.append (.ofList rfl) hname) (.ofList rfl)
  · exact hname

lemma isLine_innerType (h : IsLine type) : IsLine (innerType type) := by
  have hreplace {s p : String} (hp : p.isEmpty = false) (hs : IsLine s) :
      IsLine (Text.replaceAll s p "") := by
    rw [IsLine, Text.replaceAll, hp, if_neg Bool.false_ne_true, String.toList_ofList]
    exact fun h => (Text.mem_replaceFrom h).elim hs List.not_mem_nil
  exact hreplace (by decide) (hreplace (by decide) h)

lemma isLine_name (p : Primitive) : IsLine p.name := by
  cases p <;> exact .ofList rfl

lemma isLine_read (h : IsLine type) (other : String) (owned : Bool) :
    IsLine ((element type other).read owned) := by
  cases he : element type other with
  | primitive p => exact .append (.append (.ofList rfl) (isLine_name p)) (.ofList rfl)
  | record name =>
    have hname : name = type := by
      rw [element] at he
      cases hp : Primitive.ofName? type with
      | some p => rw [hp] at he; cases he
      | none =>
        rw [hp] at he
        split_ifs at he
        exact (Element.record.inj he).symm
    rw [hname]
    have hreader : IsLine (if owned then "&mut reader" else "reader") := by
      cases owned <;> exact .ofList rfl
    exact .append (.append (.append h (.ofList rfl)) hreader) (.ofList rfl)
  | _ => exact .ofList rfl

lemma isLine_writeField (e : Element) (h : IsLine name) : IsLine (e.writeField name) := by
  cases e with
  | primitive p =>
    have hcall : IsLine ("buf.write_" ++ p.name ++ "(self.") :=
      .append (.append (.ofList rfl) (isLine_name p)) (.ofList rfl)
    exact .append (.append hcall h) (.ofList rfl)
  | _ => exact .append (.append (.ofList rfl) h) (.ofList rfl)

lemma isLine_writeItem (e : Element) : IsLine e.writeItem := by
  cases e with
  | primitive p => exact .append (.append (.ofList rfl) (isLine_name p)) (.ofList rfl)
  | record name =>
    show IsLine "buf.write_raw_bytes(&v.encode());"
    exact .ofList rfl
  | _ => exact .ofList rfl

lemma calm_readExpression {codeType : String} (h : IsLine codeType) (type : String)
    (repeated owned : Bool) : Calm false (readExpression codeType type repeated owned) false := by
  rw [readExpression]
  split_ifs
  · have hread := Calm.of_isLine (isLine_read (isLine_innerType h) type owned)
    exact .append (.append (.append (.append (.append (.append (.append (.append (.append (.ofList rfl)
      (.ofList rfl)) (.ofList rfl)) (.ofList rfl)) (.ofList rfl)) hread) (.ofList rfl)) (.ofList rfl))
      (.ofList rfl)) (.ofList rfl)
  · exact .of_isLine (isLine_read h type owned)

lemma calm_writeStatement (h : IsLine name) (codeType type : String)
    (repeated : Bool) : Calm true (writeStatement name codeType type repeated) false := by
  have hname := Calm.of_isLine h
  rw [writeStatement]
  split_ifs
  · have hitem := Calm.of_isLine (isLine_writeItem (repeatedElement (innerType codeType)))
    exact .append (.append (.append (.append (.append (.append (.append (.append (.append (.ofList rfl)
      hname) (.ofList rfl)) (.ofList rfl)) hname) (.ofList rfl)) (.ofList rfl)) hitem) (.ofList rfl))
      (.ofList rfl)
  · exact .append (.ofList rfl) (.of_isLine (isLine_writeField _ h))

end Code

namespace Generator

open Code (IsLine Calm Quiet)

variable {α β : Type} {g g' : Generator} {name type s : String} {d field definition : Doc}
  {f : FieldCode} {fs : List FieldCode} {items : List Doc} {lines : List String}
  {entries : List (String × Doc)} {ms : List (String × List FieldCode)}

/-! ## Collected types -/

structure Sound (g : Generator) : Prop where
  nodup : g.unknown.Nodup
  fresh : ∀ t ∈ g.unknown, g.isKnown t = false ∧ IsLine t

structure Grows (g g' : Generator) : Prop where
  definitions_eq : g'.definitions = g.definitions
  known_eq : g'.known = g.known
  unknown_subset : g.unknown ⊆ g'.unknown
  sound : Sound g → Sound g'

def Covered (g : Generator) (type : String) : Prop :=
  IsLine type ∧ (Code.typeNames.lookup type = none → Code.isIdentifier type = true →
    g.isKnown type = true ∨ type ∈ g.unknown)

lemma Grows.refl (g : Generator) : Grows g g :=
  ⟨rfl, rfl, List.Subset.refl _, id⟩

lemma Grows.trans {g'' : Generator} (h : Grows g g') (h' : Grows g' g'') : Grows g g'' :=
  ⟨h'.definitions_eq.trans h.definitions_eq, h'.known_eq.trans h.known_eq,
    List.Subset.trans h.unknown_subset h'.unknown_subset, h'.sound ∘ h.sound⟩

lemma Grows.of_sameNotes (h : g.SameNotes g') : Grows g g' := by
  obtain ⟨hdefinitions, hknown, hunknown⟩ := h
  refine ⟨hdefinitions, hknown, hunknown ▸ List.Subset.refl _, fun hg => ⟨hunknown ▸ hg.nodup, ?_⟩⟩
  intro t ht
  rw [isKnown, hknown]
  exact hg.fresh t (hunknown ▸ ht)

lemma Grows.covered (h : Grows g g') (hc : Covered g type) : Covered g' type := by
  refine ⟨hc.1, fun hlookup hid => (hc.2 hlookup hid).imp (fun hknown => ?_) fun hmem =>
    h.unknown_subset hmem⟩
  rw [isKnown, h.known_eq]
  exact hknown

lemma noteUnknown_run (htype : IsLine type) (h : (noteUnknown type).run g = .ok () g') :
    Grows g g' ∧ Covered g' type := by
  have hg' := (EStateM.Result.ok.inj h).2
  dsimp only at hg'
  split_ifs at hg' with hold
  · subst hg'
    refine ⟨.refl g, htype, fun hlookup hid => ?_⟩
    simp only [Bool.or_eq_true, hlookup, List.contains_iff_mem] at hold
    rcases hold with ((hempty | hsome) | hknown) | hmem
    · rw [String.isEmpty_iff.mp hempty] at hid
      exact absurd hid (by decide)
    · cases hsome
    · exact .inl hknown
    · exact .inr hmem
  · simp only [Bool.or_eq_true, not_or, List.contains_iff_mem] at hold
    subst hg'
    refine ⟨⟨rfl, rfl, List.subset_append_left _ _, fun hg => ⟨?_, ?_⟩⟩, htype,
      fun _ _ => .inr (by simp)⟩
    · exact List.nodup_append.mpr ⟨hg.nodup, List.nodup_singleton _, by
        rintro t ht _ hmem rfl
        exact hold.2 (List.mem_singleton.mp hmem ▸ ht)⟩
    · refine List.forall_mem_append.mpr ⟨hg.fresh, List.forall_mem_singleton.mpr ⟨?_, htype⟩⟩
      exact Bool.eq_false_iff.mpr hold.1.2

lemma exists_of_look_bind {r : Except Doc.ShapeFault α} {next : α → Generate β} {b : β}
    (h : (look r >>= next).run g = .ok b g') : ∃ a, r = .ok a ∧ (next a).run g = .ok b g' := by
  cases r with
  | error f => cases h
  | ok a => exact ⟨a, rfl, h⟩

def Keeps (step : Generate α) (P : α → Prop) : Prop :=
  ∀ ⦃g a g'⦄, step.run g = .ok a g' → Grows g g' ∧ P a

namespace Keeps

variable {P : α → Prop} {Q : β → Prop}

lemma pure {a : α} (h : P a) : Keeps (Pure.pure a) P := by
  rintro g _ _ ⟨⟩
  exact ⟨.refl g, h⟩

lemma look {r : Except Doc.ShapeFault α} (h : ∀ a, r = .ok a → P a) : Keeps (Generator.look r) P := by
  intro g a g' hrun
  cases r with
  | error f => cases hrun
  | ok b =>
    cases hrun
    exact ⟨.refl g, h a rfl⟩

lemma bind {step : Generate α} {next : α → Generate β} (hstep : Keeps step P)
    (hnext : ∀ a, P a → Keeps (next a) Q) : Keeps (step >>= next) Q := by
  intro g b g' hrun
  obtain ⟨a, g₁, ha, hb⟩ := Run.exists_of_bind_ok hrun
  have hfirst := hstep ha
  have hrest := hnext a hfirst.2 hb
  exact ⟨hfirst.1.trans hrest.1, hrest.2⟩

lemma say (line : String) : Keeps (say line) fun _ => True := by
  rintro g _ _ ⟨⟩
  exact ⟨⟨rfl, rfl, List.Subset.refl _, fun hg => ⟨hg.nodup, hg.fresh⟩⟩, trivial⟩

lemma of_gives {step : Generate α} {r : Except Doc.ShapeFault α} (h : Gives step r) :
    Keeps step fun a => r = .ok a :=
  fun _ _ _ hrun => ⟨.of_sameNotes (h.run_eq hrun).2, h.eq_ok hrun⟩

lemma eachLines {f : Doc → Generate (List String)} {P : Doc → List String → Prop}
    (hf : ∀ d, Keeps (f d) (P d)) (items : List Doc) :
    Keeps (Generator.eachLines f items) fun lines =>
      (∀ s ∈ lines, ∃ d part, P d part ∧ s ∈ part) ∧ ∀ d ∈ items, ∃ part, P d part ∧ part ⊆ lines := by
  induction items with
  | nil => exact .pure ⟨by simp, by simp⟩
  | cons d r ih =>
    refine .bind (hf d) fun part hpart => .bind ih fun rest hrest => .pure ⟨?_, ?_⟩
    · exact List.forall_mem_append.mpr ⟨fun s hs => ⟨d, part, hpart, hs⟩, hrest.1⟩
    · refine List.forall_mem_cons.mpr ⟨⟨part, hpart, List.subset_append_left _ _⟩, fun e he => ?_⟩
      obtain ⟨other, hother, hsub⟩ := hrest.2 e he
      exact ⟨other, hother, List.Subset.trans hsub (List.subset_append_right _ _)⟩

end Keeps

/-! ## Fields -/

lemma exists_of_bind_eq_ok {x : Except Doc.ShapeFault α} {f : α → Except Doc.ShapeFault β} {b : β}
    (h : (x >>= f) = .ok b) : ∃ a, x = .ok a ∧ f a = .ok b := by
  cases x with
  | error e => cases h
  | ok a => exact ⟨a, rfl, h⟩

lemma cleanText_ok (h : cleanText d = .ok s) : (∃ t, d = .str t ∧ Code.clean t = s) ∨ s = "" := by
  unfold cleanText at h
  split at h
  · exact .inl ⟨_, rfl, Except.ok.inj h⟩
  · split_ifs at h
    exact .inr (Except.ok.inj h).symm

lemma isLine_cleanText (h : cleanText d = .ok s) : IsLine s := by
  obtain ⟨t, -, rfl⟩ | rfl := cleanText_ok h
  · exact Code.isLine_clean t
  · exact .ofList rfl

lemma isLine_cleanCommentText (h : cleanCommentText d = .ok s) : IsLine s := by
  unfold cleanCommentText at h
  split at h
  · exact Except.ok.inj h ▸ Code.isLine_cleanComment _
  · split_ifs at h
    exact Except.ok.inj h ▸ .ofList rfl

lemma fieldOf_some (h : fieldOf field = .ok (some f)) :
    IsLine f.name ∧ ∃ d, field.getOr "type" (.str "") = .ok d ∧ cleanText d = .ok f.type := by
  obtain ⟨u, -, h⟩ := exists_of_bind_eq_ok h
  obtain ⟨name, hname, h⟩ := exists_of_bind_eq_ok h
  obtain ⟨d, hd, h⟩ := exists_of_bind_eq_ok h
  obtain ⟨type, htype, h⟩ := exists_of_bind_eq_ok h
  split_ifs at h
  · cases h
  · obtain ⟨v, -, h⟩ := exists_of_bind_eq_ok h
    obtain rfl := Option.some.inj (Except.ok.inj h)
    exact ⟨isLine_cleanText hname, d, hd, htype⟩

lemma mem_fieldsOf (h : fieldsOf items = .ok fs)
    (hf : f ∈ fs) : ∃ d ∈ items, fieldOf d = .ok (some f) := by
  induction items generalizing fs with
  | nil =>
    cases h
    cases hf
  | cons d r ih =>
    obtain ⟨o, ho, h⟩ := exists_of_bind_eq_ok h
    obtain ⟨rest, hrest, h⟩ := exists_of_bind_eq_ok h
    obtain rfl := Except.ok.inj h
    rcases List.mem_append.mp hf with hf | hf
    · rw [Option.mem_toList.mp hf] at ho
      exact ⟨d, List.mem_cons_self, ho⟩
    · obtain ⟨e, he, hfe⟩ := ih hrest hf
      exact ⟨e, List.mem_cons_of_mem d he, hfe⟩

def memberLine (f : FieldCode) (type : String) : String :=
  "    pub " ++ Code.safeName f.name ++ ": " ++ Code.fieldType type f.repeated ++ ","

lemma isLine_memberLine (hname : IsLine f.name) (type : String) :
    IsLine (memberLine f (Code.clean type)) :=
  .append (.append (.append (.append (.ofList rfl) (Code.isLine_safeName hname)) (.ofList rfl))
    (Code.isLine_fieldType (Code.isLine_clean type) f.repeated)) (.ofList rfl)

lemma keeps_memberLines (owner : String) (field : Doc) :
    Keeps (memberLines owner field) fun lines =>
      Quiet lines ∧ ∀ f, fieldOf field = .ok (some f) → memberLine f (Code.clean f.type) ∈ lines := by
  refine .bind (.of_gives (gives_fieldCode? field)) fun o ho => ?_
  cases o with
  | none =>
    refine .bind (.say _) fun _ _ => .pure ⟨.nil, fun f hf => ?_⟩
    rw [ho] at hf
    cases hf
  | some f =>
    have hname := (fieldOf_some ho).1
    have hline : Quiet [memberLine f (Code.clean f.type)] :=
      .line (isLine_memberLine hname f.type) (by simp [memberLine]) .nil
    have hrename : Quiet ["    #[serde(rename = \"" ++ f.name ++ "\")]"] :=
      .line (.append (.append (.ofList rfl) hname) (.ofList rfl)) (by simp) .nil
    have htype : Keeps (codeType (.str f.type) f.repeated) fun type =>
        Except.ok (Code.fieldType (Code.clean f.type) f.repeated) = .ok type :=
      .of_gives (gives_codeType (.str f.type) f.repeated)
    refine .bind htype fun type htype => .bind (P := fun _ => True)
      (.look fun _ _ => trivial) fun d _ => .bind (.look fun _ h => isLine_cleanCommentText h)
        fun comment hcomment => .pure ⟨?_, fun f' hf' => ?_⟩
    · have hnote : Quiet ["    /// " ++ comment] :=
        .line (.append (.ofList rfl) hcomment) (by simp) .nil
      obtain rfl := Except.ok.inj htype
      refine (Quiet.append ?_ ?_).append hline
      · split_ifs
        · exact .nil
        · exact hnote
      · split_ifs
        · exact .nil
        · exact hrename
    · obtain rfl : f = f' := Option.some.inj (Except.ok.inj (ho.symm.trans hf'))
      obtain rfl := Except.ok.inj htype
      exact List.mem_append_right _ List.mem_cons_self

lemma noteUnknowns_run (h : (noteUnknowns items).run g = .ok () g') :
    Grows g g' ∧ ∀ d ∈ items, ∀ f, fieldOf d = .ok (some f) → Covered g' f.type := by
  induction items generalizing g with
  | nil =>
    cases h
    exact ⟨.refl _, fun d hd => absurd hd List.not_mem_nil⟩
  | cons d r ih =>
    obtain ⟨v, hvalue, h⟩ := exists_of_look_bind h
    obtain ⟨type, hclean, h⟩ := exists_of_look_bind h
    obtain ⟨⟨⟩, g₁, hnote, h⟩ := Run.exists_of_bind_ok h
    obtain ⟨hgrows, hcovered⟩ := noteUnknown_run (isLine_cleanText hclean) hnote
    obtain ⟨hrest, hr⟩ := ih h
    refine ⟨hgrows.trans hrest, List.forall_mem_cons.mpr ⟨fun f hf => hrest.covered ?_, hr⟩⟩
    obtain ⟨-, v', hv', htype'⟩ := fieldOf_some hf
    obtain rfl := Except.ok.inj (hvalue.symm.trans hv')
    obtain rfl := Except.ok.inj (hclean.symm.trans htype')
    exact hcovered

/-! ## Names -/

def writtenName? (definition : Doc) : Option String :=
  match definition.field? "msg_name" with
  | some (.str s) => some s
  | _ => none

def writtenNames (entries : List (String × Doc)) : List String :=
  entries.filterMap fun e => writtenName? e.2

lemma writtenName?_eq_some : writtenName? d = some s ↔ d.field? "msg_name" = some (.str s) := by
  rw [writtenName?]
  split
  · rename_i t ht
    simp [ht]
  · rename_i hne
    simpa using hne s

lemma writtenName?_iff {o : Option Doc} (h : definedName? d = .ok o) (s : String) :
    writtenName? d = some s ↔ o = some (.str s) := by
  rw [writtenName?_eq_some]
  cases d with
  | obj fs =>
    rw [definedName?] at h
    rw [Doc.field?]
    cases hv : Doc.lookup "msg_name" fs with
    | none =>
      rw [hv] at h
      cases h
      simp
    | some v =>
      rw [hv] at h
      cases v <;> cases h <;> simp
  | arr | str =>
    rw [definedName?] at h
    split_ifs at h
    cases h
    simp [Doc.field?]
  | _ => cases h

lemma any_sameValue_iff {ds names : List Doc} (h : definedNames ds = .ok names) :
    names.any (sameValue (.str s)) = true ↔ ∃ d ∈ ds, writtenName? d = some s := by
  have hsame (n : Doc) : sameValue (.str s) n = true ↔ n = .str s := by
    cases n with
    | str t => rw [sameValue, beq_iff_eq, Doc.str.injEq, eq_comm]
    | _ => simp [sameValue]
  induction ds generalizing names with
  | nil =>
    cases h
    simp
  | cons d r ih =>
    obtain ⟨o, ho, h⟩ := exists_of_bind_eq_ok h
    obtain ⟨rest, hrest, h⟩ := exists_of_bind_eq_ok h
    have hr := ih hrest
    rw [List.exists_mem_cons_iff, writtenName?_iff ho s, ← propext hr]
    cases o with
    | none =>
      cases h
      simp
    | some n =>
      obtain rfl := Except.ok.inj h
      split_ifs with hmet
      · refine ⟨.inr, fun hs => hs.elim (fun hn => ?_) id⟩
        rwa [Option.some.inj hn] at hmet
      · rw [List.any_cons, Bool.or_eq_true, hsame, Option.some_inj]

lemma nameOf_iff :
    nameOf d = .ok (some name) ↔
      ∃ s, writtenName? d = some s ∧ Code.clean s = name ∧ Code.isIdentifier name = true := by
  constructor
  · intro h
    obtain ⟨v, hv, h⟩ := exists_of_bind_eq_ok h
    obtain ⟨t, ht, h⟩ := exists_of_bind_eq_ok h
    have h := Except.ok.inj h
    split_ifs at h with hid
    obtain rfl := Option.some.inj h
    obtain ⟨s, rfl, rfl⟩ | rfl := cleanText_ok ht
    · refine ⟨s, writtenName?_eq_some.mpr ?_, rfl, hid⟩
      cases d with
      | obj fs =>
        have hv : (Doc.lookup "msg_name" fs).getD (.str "") = .str s := Except.ok.inj hv
        cases hfound : Doc.lookup "msg_name" fs with
        | none =>
          rw [hfound] at hv
          cases hv
          exact absurd hid (by decide)
        | some v =>
          rw [hfound] at hv
          rw [Doc.field?, hfound]
          exact congrArg some hv
      | _ => cases hv
    · exact absurd hid (by decide)
  · rintro ⟨s, hs, rfl, hid⟩
    have hs := writtenName?_eq_some.mp hs
    cases d with
    | obj fs =>
      have hv : (Doc.obj fs).getOr "msg_name" (.str "") = .ok (.str s) :=
        congrArg (fun o : Option Doc => Except.ok (o.getD (.str ""))) hs
      simp only [nameOf, hv, cleanText, bind, Except.bind, if_pos hid, pure, Except.pure]
    | _ => cases hs

lemma mem_messagesOf
    (h : messagesOf entries = .ok ms) :
    name ∈ ms.map (·.1) ↔ ∃ e ∈ entries, nameOf e.2 = .ok (some name) := by
  induction entries generalizing ms with
  | nil =>
    cases h
    simp
  | cons e r ih =>
    obtain ⟨o, ho, h⟩ := exists_of_bind_eq_ok h
    rw [List.exists_mem_cons_iff, ho]
    cases o with
    | none => simpa using ih h
    | some n =>
      obtain ⟨fs, -, h⟩ := exists_of_bind_eq_ok h
      obtain ⟨rest, hrest, h⟩ := exists_of_bind_eq_ok h
      obtain rfl := Except.ok.inj h
      rw [List.map_cons, List.mem_cons, ih hrest, Except.ok.injEq, Option.some_inj, eq_comm]

lemma messagesOf_sublist
    (h : messagesOf entries = .ok ms)
    (hnormal : ∀ s ∈ writtenNames entries, Code.clean s = s) :
    (ms.map (·.1)).Sublist (writtenNames entries) := by
  induction entries generalizing ms with
  | nil =>
    cases h
    exact .slnil
  | cons e r ih =>
    obtain ⟨o, ho, h⟩ := exists_of_bind_eq_ok h
    have hcons : (writtenNames r).Sublist (writtenNames (e :: r)) :=
      (List.sublist_cons_self e r).filterMap _
    have hr : ∀ s ∈ writtenNames r, Code.clean s = s :=
      fun s hs => hnormal s (hcons.subset hs)
    cases o with
    | none => exact (ih h hr).trans hcons
    | some n =>
      obtain ⟨fs, -, h⟩ := exists_of_bind_eq_ok h
      obtain ⟨rest, hrest, h⟩ := exists_of_bind_eq_ok h
      obtain rfl := Except.ok.inj h
      obtain ⟨s, hs, rfl, -⟩ := nameOf_iff.mp ho
      have hself := hnormal s (List.mem_filterMap.mpr ⟨e, List.mem_cons_self, hs⟩)
      rw [List.map_cons, writtenNames, List.filterMap_cons_some
        (f := fun e : String × Doc => writtenName? e.2) hs, hself]
      exact (ih hrest hr).cons_cons s

/-! ## Structures -/

lemma quiet_implHead (h : IsLine name) {ls : List String} (hls : Quiet ls) :
    Quiet (("impl " ++ name ++ " \x7b") :: ls) :=
  .line (.append (.append (.ofList rfl) h) (.ofList rfl)) (by simp) hls

lemma quiet_implementation (hname : IsLine name) (hfs : ∀ f ∈ fs, IsLine f.name) (owned : Bool) :
    Quiet (implementation name (fs.map (readLine owned)) (fs.map writeLine)) := by
  have hread : Quiet (fs.map (readLine owned)) := by
    refine .map fun f hf => ?_
    have hsafe := Calm.of_isLine (Code.isLine_safeName (hfs f hf))
    have hvalue := Code.calm_readExpression
      (Code.isLine_fieldType (Code.isLine_clean f.type) f.repeated) f.type f.repeated owned
    exact .append (.append (.append (.append (.ofList rfl) hsafe) (.ofList rfl)) hvalue) (.ofList rfl)
  have hwrite : Quiet (fs.map writeLine) :=
    .map fun f hf => Code.calm_writeStatement (Code.isLine_safeName (hfs f hf)) _ _ _
  have hhead : Quiet (readHead name) := by
    rw [readHead]
    split_ifs
    · exact .cons rfl .nil
    · refine .cons rfl (.cons rfl (.line ?_ (by simp) .nil))
      exact .append (.append (.ofList rfl) hname) (.ofList rfl)
  refine .append (.append (.append (.append (.append (.append ?_ hhead) ?_) hread) ?_) hwrite) ?_
  · exact quiet_implHead hname .nil
  · exact .cons rfl .nil
  · exact .cons rfl (.cons rfl (.cons rfl (.cons rfl .nil)))
  · exact .cons rfl (.cons rfl (.cons rfl .nil))

lemma declared_structureHead (h : IsLine name) :
    (structureHead name).flatMap Code.declared = [name] := by
  have hfront : Quiet ((structureHead name).take 2) := .cons rfl (.cons rfl .nil)
  have hsplit : structureHead name =
    (structureHead name).take 2 ++ ["pub struct " ++ name ++ " \x7b"] := rfl
  rw [hsplit, List.flatMap_append, hfront.flatMap_declared, List.flatMap_singleton,
    Code.declared_head h, List.nil_append]

def Placed (g : Generator) (lines : List String) (f : FieldCode) : Prop :=
  Covered g f.type ∧ IsLine f.name ∧ memberLine f (Code.clean f.type) ∈ lines

lemma structureLines_grows (hname : IsLine name)
    (h : (structureLines name definition).run g = .ok lines g') :
    Grows g g' ∧ lines.flatMap Code.declared = [name] ∧ ∃ fs, definedFields definition = .ok fs ∧
      ∀ f ∈ fs, Placed g' lines f := by
  obtain ⟨fields, hfields, h⟩ := exists_of_look_bind h
  obtain ⟨items, hparts, h⟩ := exists_of_look_bind h
  obtain ⟨⟨⟩, g₁, hnotes, h⟩ := Run.exists_of_bind_ok h
  obtain ⟨hnoted, hcovered⟩ := noteUnknowns_run hnotes
  obtain ⟨members, g₂, hgrown, hquiet, hmembers, h⟩ : ∃ members g₂, Grows g₁ g₂ ∧ Quiet members ∧
      (∀ d ∈ items, ∀ f, fieldOf d = .ok (some f) → memberLine f (Code.clean f.type) ∈ members) ∧
      (implementationLines name fields >>= fun functions =>
        pure (structureHead name ++ members ++ ["\x7d\n"] ++ functions ++ [""])).run g₂ =
          .ok lines g' := by
    split_ifs at h with hempty
    · refine ⟨_, g₁, .refl g₁, .cons rfl .nil, ?_, h⟩
      rw [List.isEmpty_iff.mp hempty]
      exact fun d hd => absurd hd List.not_mem_nil
    · obtain ⟨members, g₂, hrun, h⟩ := Run.exists_of_bind_ok h
      obtain ⟨hgrows, hlines, hall⟩ := Keeps.eachLines (keeps_memberLines name) items hrun
      refine ⟨members, g₂, hgrows, fun s hs => ?_, fun d hd f hf => ?_, h⟩
      · obtain ⟨d, part, hpart, hs⟩ := hlines s hs
        exact hpart.1 s hs
      · obtain ⟨part, hpart, hsub⟩ := hall d hd
        exact hsub (hpart.2 f hf)
  obtain ⟨functions, g₃, hrun, h⟩ := Run.exists_of_bind_ok h
  have hrest := hgrown.trans (.of_sameNotes ((gives_implementationLines name fields).run_eq hrun).2)
  obtain ⟨items', fs, hparts', hfs, rfl⟩ := implementationLines_run hrun
  obtain rfl := Except.ok.inj (hparts.symm.trans hparts')
  cases h
  have hnames : ∀ f ∈ fs, IsLine f.name := by
    intro f hf
    obtain ⟨d, -, hd⟩ := mem_fieldsOf hfs hf
    exact (fieldOf_some hd).1
  have hfunctions := quiet_implementation hname hnames (!isPart name)
  have hfixed : Quiet ["\x7d\n"] ∧ Quiet [""] := ⟨.cons rfl .nil, .cons rfl .nil⟩
  refine ⟨hnoted.trans hrest, ?_, fs, ?_, fun f hf => ?_⟩
  · simp only [List.flatMap_append, declared_structureHead hname, hquiet.flatMap_declared,
      hfixed.1.flatMap_declared, hfixed.2.flatMap_declared, hfunctions.flatMap_declared, List.append_nil]
  · simp only [definedFields, hfields, hparts, bind, Except.bind]
    exact hfs
  · obtain ⟨d, hd, hfd⟩ := mem_fieldsOf hfs hf
    refine ⟨hrest.covered (hcovered d hd f hfd), (fieldOf_some hfd).1, ?_⟩
    simp only [List.mem_append]
    exact .inl (.inl (.inl (.inr (hmembers d hd f hfd))))

/-- **The code of all messages** declares them; their fields are there, and their types are known. -/
lemma structures_grow
    (h : (structures entries).run g = .ok lines g') :
    Grows g g' ∧ ∃ ms, messagesOf entries = .ok ms ∧ lines.flatMap Code.declared = ms.map (·.1) ∧
      ∀ m ∈ ms, ∀ f ∈ m.2, Placed g' lines f := by
  induction entries generalizing g g' lines with
  | nil =>
    cases h
    exact ⟨.refl _, [], rfl, rfl, fun m hm => absurd hm List.not_mem_nil⟩
  | cons e r ih =>
    obtain ⟨key, d⟩ := e
    obtain ⟨o, g₁, ho, h⟩ := Run.exists_of_bind_ok h
    obtain ⟨hgrows, hname⟩ := Keeps.of_gives (gives_messageName? d) ho
    cases o with
    | none =>
      obtain ⟨rest, g₂, hrest, h⟩ := Run.exists_of_bind_ok (x := structures r) h
      obtain ⟨hgrown, ms, hms, hdeclared, hplaced⟩ := ih hrest
      cases h
      refine ⟨hgrows.trans hgrown, ms, ?_, hdeclared, hplaced⟩
      simp only [messagesOf, hname, bind, Except.bind, hms]
    | some name =>
      obtain ⟨first, g₂, hfirst, h⟩ := Run.exists_of_bind_ok h
      obtain ⟨rest, g₃, hrest, h⟩ := Run.exists_of_bind_ok h
      have hline : IsLine name := by
        obtain ⟨s, -, rfl, -⟩ := nameOf_iff.mp hname
        exact Code.isLine_clean s
      obtain ⟨hfirst, hhead, fs, hfs, hfields⟩ := structureLines_grows hline hfirst
      obtain ⟨hgrown, ms, hms, hdeclared, hplaced⟩ := ih hrest
      cases h
      refine ⟨hgrows.trans (hfirst.trans hgrown), (name, fs) :: ms, ?_, ?_, ?_⟩
      · simp only [messagesOf, hname, bind, Except.bind, hfs, hms, pure, Except.pure]
      · rw [List.flatMap_append, hhead, hdeclared]
        rfl
      · refine List.forall_mem_cons.mpr ⟨fun f hf => ?_, fun m hm f hf => ?_⟩
        · obtain ⟨hcover, hline, hmem⟩ := hfields f hf
          exact ⟨hgrown.covered hcover, hline, List.mem_append_left _ hmem⟩
        · obtain ⟨hcover, hline, hmem⟩ := hplaced m hm f hf
          exact ⟨hcover, hline, List.mem_append_right _ hmem⟩

lemma declared_placeholder (h : IsLine name) :
    (placeholder name).flatMap Code.declared = [name] := by
  rw [placeholder, List.flatMap_append, declared_structureHead h, Quiet.flatMap_declared,
    List.append_nil]
  refine .cons rfl (.cons rfl (quiet_implHead h ?_))
  exact .cons rfl (.cons rfl (.cons rfl (.cons rfl (.cons rfl (.cons rfl (.cons rfl (.cons rfl
    (.cons rfl (.cons rfl (.cons rfl .nil))))))))))

def placeholderNames (g : Generator) : List String :=
  (g.unknown.mergeSort fun a b => decide (a ≤ b)).filter Code.isIdentifier

lemma mem_placeholderNames :
    name ∈ g.placeholderNames ↔ name ∈ g.unknown ∧ Code.isIdentifier name = true := by
  rw [placeholderNames, List.mem_filter, List.mem_mergeSort]

lemma declared_placeholders (h : Sound g) :
    g.placeholders.flatMap Code.declared = g.placeholderNames := by
  have hall (names : List String) (hnames : ∀ name ∈ names, IsLine name) :
      (names.flatMap placeholder).flatMap Code.declared = names := by
    induction names with
    | nil => rfl
    | cons name r ih =>
      have hnames := List.forall_mem_cons.mp hnames
      rw [List.flatMap_cons, List.flatMap_append, declared_placeholder hnames.1, ih hnames.2]
      rfl
  have hlines : ∀ name ∈ g.placeholderNames, IsLine name :=
    fun name hname => (h.fresh name (mem_placeholderNames.mp hname).1).2
  rw [placeholders]
  split_ifs with hempty
  · rw [placeholderNames, List.isEmpty_iff.mp hempty]
    simp
  · have hhead : Quiet ["// Placeholder structs for unknown types"] := .cons rfl .nil
    rw [← List.singleton_append, List.flatMap_append, hhead.flatMap_declared]
    exact hall _ hlines

/-! ## All structures of the code -/

lemma clean_of_isIdentifier (hid : Code.isIdentifier s = true) (hline : IsLine s) :
    Code.clean s = s := by
  have htail (cs : List Char) (hcs : '\n' ∉ cs) (h : Code.isIdentifierTail cs = true) :
      ∀ c ∈ cs, isNameChar c = true := by
    induction cs with
    | nil => exact fun c hc => absurd hc List.not_mem_nil
    | cons c r ih =>
      have hcs := List.ne_and_not_mem_of_not_mem_cons hcs
      rw [Code.isIdentifierTail, Bool.and_eq_true] at h
      · exact List.forall_mem_cons.mpr ⟨h.1, ih hcs.2 h.2⟩
      · exact fun hc _ => hcs.1 hc.symm
  have hall : ∀ c ∈ s.toList, isNameChar c = true := by
    rw [Code.isIdentifier] at hid
    rw [IsLine] at hline
    cases hs : s.toList with
    | nil => exact fun c hc => absurd hc List.not_mem_nil
    | cons x r =>
      rw [hs] at hid hline
      have hid := Bool.and_eq_true_iff.mp hid
      refine List.forall_mem_cons.mpr ⟨?_, htail r (List.not_mem_of_not_mem_cons hline) hid.2⟩
      show ((x.isAlpha || x.isDigit) || x == '_') = true
      rw [Bool.or_right_comm, hid.1, Bool.true_or]
  refine Code.clean_eq_self fun c hc => Bool.eq_false_iff.mpr fun hblank => ?_
  exact Bool.false_ne_true ((isNameChar_of_isBlank hblank).symm.trans (hall c hc))

lemma load_run {definitions : Doc} (h : (load definitions).run g = .ok () g') :
    ∃ entries, g'.definitions.fields "items" = .ok entries ∧ definitions.fields "items" = .ok entries ∧
      g'.unknown = g.unknown ∧
      ∀ s, g'.isKnown s = true ↔ ∃ e ∈ entries, writtenName? e.2 = some s := by
  change (look (definitions.fields "values") >>= fun fields => look (definedNames (fields.map (·.2))) >>=
    fun known => modify fun g => { g with known := known }).run { g with definitions := definitions } =
      .ok () g' at h
  obtain ⟨entries, hentries, h⟩ := exists_of_look_bind h
  obtain ⟨known, hknown, hend⟩ := exists_of_look_bind h
  cases definitions with
  | obj fs =>
    obtain rfl : fs = entries := Except.ok.inj hentries
    cases hend
    refine ⟨fs, rfl, rfl, rfl, fun s => ?_⟩
    rw [isKnown, any_sameValue_iff hknown]
    simp only [List.mem_map, exists_exists_and_eq_and]
  | _ => cases hentries

lemma messages_declared (hg : Sound g) {code : String} (h : messages.run g = .ok code g') :
    Grows g g' ∧ ∃ entries ms, g.definitions.fields "items" = .ok entries ∧
      messagesOf entries = .ok ms ∧ Code.declared code = ms.map (·.1) ++ g'.placeholderNames ∧
      ∀ m ∈ ms, ∀ f ∈ m.2, Placed g' (Code.linesOf code) f := by
  change (look (g.definitions.fields "items") >>= fun items => structures items >>= fun lines =>
    get >>= fun g => pure ("\n".intercalate (messagesHead ++ lines ++ g.placeholders))).run g =
      .ok code g' at h
  obtain ⟨entries, hentries, h⟩ := exists_of_look_bind h
  obtain ⟨lines, g₁, hlines, hend⟩ := Run.exists_of_bind_ok h
  obtain ⟨hgrows, ms, hms, hdeclared, hplaced⟩ := structures_grow hlines
  cases hend
  have hne : messagesHead ++ lines ++ g'.placeholders ≠ [] := by simp [messagesHead]
  have hhead : Quiet messagesHead :=
    .cons rfl (.cons rfl (.cons rfl (.cons rfl (.cons rfl (.cons rfl (.cons rfl .nil))))))
  refine ⟨hgrows, entries, ms, hentries, hms, ?_, fun m hm f hf => ?_⟩
  · rw [Code.declared_intercalate hne, List.flatMap_append, List.flatMap_append, hhead.flatMap_declared,
      hdeclared, declared_placeholders (hgrows.sound hg), List.nil_append]
  · obtain ⟨hcovered, hname, hmem⟩ := hplaced m hm f hf
    refine ⟨hcovered, hname, ?_⟩
    rw [Code.linesOf_intercalate hne, List.mem_flatMap]
    refine ⟨_, List.mem_append_left _ (List.mem_append_right _ hmem), ?_⟩
    rw [(isLine_memberLine hname f.type).linesOf_eq]
    exact List.mem_cons_self

/-- **Every structure that is used is declared, and none twice.** Code is made for all definitions of
the expected shape. Whatever the definitions are, the code that is made declares each message. A field
of a message has a line in the code, and if its type is not one of those that are no structures and can
stand in the code, the code declares it. If the names in the definitions have no white space to be
folded and are all different, no structure is declared twice. -/
theorem generated_structures :
    (∀ ds : Definitions, ∃ g code g', (load ds.toDoc).run {} = .ok () g ∧
      messages.run g = .ok code g') ∧
    ∀ definitions g code g', (load definitions).run {} = .ok () g → messages.run g = .ok code g' →
      ∃ entries ms, definitions.fields "items" = .ok entries ∧ messagesOf entries = .ok ms ∧
        (∀ m ∈ ms, m.1 ∈ Code.declared code ∧ ∀ f ∈ m.2, Code.typeNames.lookup f.type = none →
          Code.isIdentifier f.type = true →
            memberLine f f.type ∈ Code.linesOf code ∧ f.type ∈ Code.declared code) ∧
        ((∀ s ∈ writtenNames entries, Code.clean s = s) → (writtenNames entries).Nodup →
          (Code.declared code).Nodup) := by
  refine ⟨fun ds => ?_, fun definitions g code g' hload hrun => ?_⟩
  · obtain ⟨g, hload, hg⟩ := exists_load_run ds {}
    obtain ⟨code, g', hrun⟩ := exists_messages_run hg
    exact ⟨g, code, g', hload, hrun⟩
  obtain ⟨entries, hg, hentries, hunknown, hknown⟩ := load_run hload
  have hsound : Sound g := by
    constructor
    · simp [hunknown]
    · simp [hunknown]
  obtain ⟨hgrows, entries', ms, hitems, hms, hdeclared, hfields⟩ := messages_declared hsound hrun
  obtain rfl := Except.ok.inj (hg.symm.trans hitems)
  have hknown' (s : String) : g'.isKnown s = true ↔ ∃ e ∈ entries, writtenName? e.2 = some s := by
    rw [← hknown s, isKnown, isKnown, hgrows.known_eq]
  refine ⟨entries, ms, hentries, hms, fun m hm => ⟨?_, fun f hf hlookup hid => ?_⟩, ?_⟩
  · rw [hdeclared]
    exact List.mem_append_left _ (List.mem_map_of_mem hm)
  · obtain ⟨⟨hline, hcovered⟩, -, hmember⟩ := hfields m hm f hf
    have hclean := clean_of_isIdentifier hid hline
    rw [hclean] at hmember
    refine ⟨hmember, ?_⟩
    rw [hdeclared, List.mem_append]
    rcases hcovered hlookup hid with hdefined | hcollected
    · obtain ⟨e, he, hs⟩ := (hknown' f.type).mp hdefined
      exact .inl ((mem_messagesOf hms).mpr ⟨e, he, nameOf_iff.mpr ⟨f.type, hs, hclean, hid⟩⟩)
    · exact .inr (mem_placeholderNames.mpr ⟨hcollected, hid⟩)
  · intro hnormal hdistinct
    rw [hdeclared, List.nodup_append]
    refine ⟨(messagesOf_sublist hms hnormal).nodup hdistinct, ?_, fun a ha b hb hab => ?_⟩
    · exact ((List.mergeSort_perm _ _).nodup_iff.mpr (hgrows.sound hsound).nodup).filter _
    · -- the names of messages are known, those of placeholders are not
      obtain ⟨e, he, hs⟩ := List.mem_filterMap.mp ((messagesOf_sublist hms hnormal).subset ha)
      have hfresh := ((hgrows.sound hsound).fresh b (mem_placeholderNames.mp hb).1).1
      rw [← hab, (hknown' a).mpr ⟨e, he, hs⟩] at hfresh
      cases hfresh

def party : Definitions :=
  [(.number 7, { name := "pt_party"
                 fields := [⟨"members", "pt_member", "", true⟩, ⟨"place", "pt_place", "", false⟩] }),
   (.name "pt_member", { name := "pt_member", fields := [⟨"id", "int32", "", false⟩] })]

/-- Both structures that the message uses are declared, and none twice. -/
theorem generated_structures_party :
    ∃ g code g', (load party.toDoc).run {} = .ok () g ∧ messages.run g = .ok code g' ∧
      "    pub members: Vec<pt_member>," ∈ Code.linesOf code ∧ "pt_member" ∈ Code.declared code ∧
      "    pub place: pt_place," ∈ Code.linesOf code ∧ "pt_place" ∈ Code.declared code ∧
      (Code.declared code).Nodup := by
  obtain ⟨g, code, g', hload, hrun⟩ := generated_structures.1 party
  obtain ⟨entries, ms, hentries, hms, hfields, hnodup⟩ :=
    generated_structures.2 party.toDoc g code g' hload hrun
  have hvalues : writtenNames entries = ["pt_party", "pt_member"] ∧
      messagesOf entries = .ok [("pt_party", [⟨"members", "pt_member", true⟩,
        ⟨"place", "pt_place", false⟩]), ("pt_member", [⟨"id", "int32", false⟩])] := by
    obtain rfl := Except.ok.inj hentries
    with_unfolding_all exact ⟨rfl, rfl⟩
  obtain ⟨hnames, hmessages⟩ := hvalues
  obtain rfl := Except.ok.inj (hms.symm.trans hmessages)
  have htexts : (Code.clean "pt_party" = "pt_party" ∧ Code.clean "pt_member" = "pt_member") ∧
      (Code.typeNames.lookup "pt_member" = none ∧ Code.isIdentifier "pt_member" = true) ∧
      Code.typeNames.lookup "pt_place" = none ∧ Code.isIdentifier "pt_place" = true := by
    decide
  obtain ⟨hclean, hmember, hplace⟩ := htexts
  rw [hnames] at hnodup
  have hparty := (hfields _ List.mem_cons_self).2
  have hmember := hparty ⟨"members", "pt_member", true⟩ List.mem_cons_self hmember.1 hmember.2
  have hplace := hparty ⟨"place", "pt_place", false⟩ (by simp) hplace.1 hplace.2
  refine ⟨g, code, g', hload, hrun, hmember.1, hmember.2, hplace.1, hplace.2, hnodup ?_ (by simp)⟩
  simpa using hclean

end Generator

end Salvage.Protocol
