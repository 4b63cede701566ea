import Mathlib.Data.List.Infix
import Salvage.Descriptor.Printer

/-!
# What the type of a field means where it is written

A name without a dot at its front is looked up from the place where it stands: in the innermost
message first, then in the messages around it, then in the package and in what the package is in.
The text of a file names a type by the last part of its name only. So the name that is written
means the type that was meant exactly if this type is the one that is seen from there: it stands
directly in something around the field, and no other type of its last name stands further in.

Where a field stands is read off the text: a line that ends in a brace opens or closes a block. The
lines of a declaration end in the scope in which they start, so the scope at the line of a field is
that of the messages that hold it, and the lines of a file declare the types of the file.
-/

namespace Salvage

/-! ## Parts of names -/

namespace Text

lemma splitFrom_cons (c x : Char) (piece r : List Char) :
    splitFrom [c] 0 piece (x :: r) =
      if c = x then piece.reverse :: splitFrom [c] 0 [] r else splitFrom [c] 0 (x :: piece) r := by
  by_cases h : c = x
  · simp [splitFrom, h]
  · simp [splitFrom, h]

lemma notMem_of_mem_splitFrom {c : Char} {piece cs p : List Char} (hpiece : c ∉ piece)
    (h : p ∈ splitFrom [c] 0 piece cs) : c ∉ p := by
  induction cs generalizing piece with
  | nil =>
    obtain rfl := List.mem_singleton.mp h
    simpa using hpiece
  | cons x r ih =>
    rw [splitFrom_cons] at h
    by_cases hx : c = x
    · rw [if_pos hx, List.mem_cons] at h
      rcases h with rfl | h
      · simpa using hpiece
      · exact ih List.not_mem_nil h
    · rw [if_neg hx] at h
      exact ih (by simp [hx, hpiece]) h

lemma splitFrom_of_notMem {c : Char} {cs : List Char} (h : c ∉ cs) (piece : List Char) :
    splitFrom [c] 0 piece cs = [piece.reverse ++ cs] := by
  induction cs generalizing piece with
  | nil => simp [splitFrom]
  | cons x r ih =>
    rw [List.mem_cons, not_or] at h
    rw [splitFrom_cons, if_neg h.1, ih h.2]
    simp

lemma splitFrom_ne_nil (c : Char) (piece cs : List Char) : splitFrom [c] 0 piece cs ≠ [] := by
  induction cs generalizing piece with
  | nil => simp [splitFrom]
  | cons x r ih =>
    rw [splitFrom_cons]
    by_cases hx : c = x
    · simp [hx]
    · simpa [hx] using ih (x :: piece)

lemma splitOn_dot_of_notMem {s : String} (h : '.' ∉ s.toList) : splitOn s "." = [s] := by
  have hdot : ".".toList = ['.'] := rfl
  rw [splitOn, hdot, splitFrom_of_notMem h]
  simp

lemma exists_last_part (s : String) :
    ∃ last, (splitOn s ".").getLast? = some last ∧ '.' ∉ last.toList := by
  have hdot : ".".toList = ['.'] := rfl
  obtain ⟨chars, hchars⟩ : ∃ chars, (splitFrom ['.'] 0 [] s.toList).getLast? = some chars :=
    ⟨_, List.getLast?_eq_some_getLast (splitFrom_ne_nil '.' [] s.toList)⟩
  refine ⟨String.ofList chars, ?_, ?_⟩
  · rw [splitOn, hdot, List.getLast?_map, hchars]
    rfl
  · rw [String.toList_ofList]
    exact notMem_of_mem_splitFrom List.not_mem_nil (List.mem_of_getLast? hchars)

end Text

namespace Descriptor

/-! ## Meaning of names -/

/-- The full name of a type or a package: its parts, the outermost first. -/
abbrev FullName := List String

def outward (scope : FullName) : Nat → List FullName
  | 0 => [[]]
  | k + 1 => scope.take (k + 1) :: outward scope k

structure Reach where
  types : List FullName
  packages : List FullName

namespace Reach

def type? (r : Reach) (name : FullName) : Option FullName :=
  if name ∈ r.types then some name else none

/-- Whether a scope settles what a name means: it has a type that is called as the first part says
or, if there are further parts, a package. -/
def settles (r : Reach) (first : String) (rest : List String) (here : FullName) : Bool :=
  r.types.contains (here ++ [first]) || !rest.isEmpty && r.packages.contains (here ++ [first])

/-- The type that a name means in a scope, by its first part and the rest of its parts: the innermost
scope that knows the first part settles it. -/
def lookup? (r : Reach) (scope : FullName) (first : String) (rest : List String) :
    Option FullName :=
  ((outward scope scope.length).find? (r.settles first rest)).bind fun here =>
    r.type? (here ++ first :: rest)

def denote? (r : Reach) (scope : FullName) (name : String) : Option FullName :=
  match Text.splitOn name "." with
  | [] => none
  | [part] => r.lookup? scope part []
  | first :: second :: rest =>
    if first = "" then r.type? (second :: rest) else r.lookup? scope first (second :: rest)

/-- A type is seen from a scope by its last name: it stands directly in the scope or in something
that the scope is in, and no type of that name stands further in. -/
structure Sees (r : Reach) (scope name : FullName) : Prop where
  mem : name ∈ r.types
  around : name.dropLast <+: scope
  nearest : ∀ inner, inner <+: scope → name.length ≤ inner.length →
    ∀ last ∈ name.getLast?, inner ++ [last] ∉ r.types

end Reach

lemma find?_outward_eq_some_iff {scope here : FullName} {p : FullName → Bool} {k : Nat}
    (hk : k ≤ scope.length) :
    (outward scope k).find? p = some here ↔
      here <+: scope ∧ here.length ≤ k ∧ p here = true ∧
        ∀ inner, inner <+: scope → here.length < inner.length → inner.length ≤ k →
          p inner = false := by
  induction k with
  | zero =>
    rw [outward]
    constructor
    · intro h
      obtain rfl : [] = here := List.mem_singleton.mp (List.mem_of_find?_eq_some h) |>.symm
      exact ⟨List.nil_prefix, Nat.le_refl 0, List.find?_some h, fun inner _ hlt hle =>
        absurd hle (by simpa using Nat.ne_of_gt hlt)⟩
    · rintro ⟨-, hlen, hp, -⟩
      obtain rfl : here = [] := List.length_eq_zero_iff.mp (Nat.le_zero.mp hlen)
      simp [hp]
  | succ k ih =>
    have hlen : (scope.take (k + 1)).length = k + 1 := by
      rw [List.length_take]
      omega
    rw [outward, List.find?_cons]
    cases hp : p (scope.take (k + 1)) with
    | true =>
      constructor
      · intro h
        obtain rfl := Option.some.inj h
        refine ⟨List.take_prefix _ _, by omega, hp, ?_⟩
        intro inner _ hlt hle
        omega
      · rintro ⟨hpre, hle, -, hfirst⟩
        -- A shorter scope would not be the first: the one here has the property.
        by_cases hlt : here.length < k + 1
        · have := hfirst _ (List.take_prefix (k + 1) scope) (by omega) (by omega)
          rw [hp] at this
          exact absurd this (by decide)
        · rw [List.prefix_iff_eq_take.mp hpre, show here.length = k + 1 by omega]
    | false =>
      rw [ih (by omega)]
      constructor
      · rintro ⟨hpre, hle, hhere, hfirst⟩
        refine ⟨hpre, by omega, hhere, ?_⟩
        intro inner hinner hlt hle'
        by_cases heq : inner.length = k + 1
        · rw [List.prefix_iff_eq_take.mp hinner, heq]
          exact hp
        · exact hfirst inner hinner hlt (by omega)
      · rintro ⟨hpre, hle, hhere, hfirst⟩
        have hne : here.length ≠ k + 1 := by
          intro heq
          rw [List.prefix_iff_eq_take.mp hpre, heq, hp] at hhere
          exact absurd hhere (by decide)
        exact ⟨hpre, by omega, hhere, fun inner hinner hlt hle' =>
          hfirst inner hinner hlt (by omega)⟩

namespace Reach

variable {r : Reach} {found scope : FullName}

lemma type?_eq_some_iff {name : FullName} :
    r.type? name = some found ↔ name = found ∧ name ∈ r.types := by
  unfold type?
  by_cases h : name ∈ r.types
  · simp [h]
  · simp [h]

@[simp]
lemma settles_nil (r : Reach) (first : String) (here : FullName) :
    r.settles first [] here = r.types.contains (here ++ [first]) := by
  simp [settles]

lemma getLast?_of_lookup? {first : String}
    {rest : List String} (h : r.lookup? scope first rest = some found) :
    found.getLast? = (first :: rest).getLast? := by
  obtain ⟨here, -, htype⟩ := Option.bind_eq_some_iff.mp h
  obtain ⟨rfl, -⟩ := type?_eq_some_iff.mp htype
  rw [List.getLast?_append, List.getLast?_cons, Option.some_or]

lemma getLast?_of_denote? {name : String} (h : r.denote? scope name = some found) :
    found.getLast? = (Text.splitOn name ".").getLast? := by
  unfold denote? at h
  split at h
  case h_1 hparts => cases h
  case h_2 part hparts =>
    rw [hparts]
    exact getLast?_of_lookup? h
  case h_3 first second rest hparts =>
    rw [hparts]
    by_cases hfirst : first = ""
    · rw [if_pos hfirst] at h
      obtain ⟨rfl, -⟩ := type?_eq_some_iff.mp h
      simp
    · rw [if_neg hfirst] at h
      exact getLast?_of_lookup? h

theorem denote?_eq_some_iff {name : String} (hname : '.' ∉ name.toList) :
    r.denote? scope name = some found ↔ found.getLast? = some name ∧ r.Sees scope found := by
  have hdenote : r.denote? scope name = r.lookup? scope name [] := by
    unfold denote?
    rw [Text.splitOn_dot_of_notMem hname]
  rw [hdenote, lookup?, Option.bind_eq_some_iff]
  constructor
  · rintro ⟨here, hfind, htype⟩
    obtain ⟨rfl, hmem⟩ := type?_eq_some_iff.mp htype
    obtain ⟨hpre, -, -, hfirst⟩ := (find?_outward_eq_some_iff (Nat.le_refl _)).mp hfind
    refine ⟨by simp, hmem, by simpa using hpre, ?_⟩
    intro inner hinner hlen last hlast
    obtain rfl : name = last := by simpa using hlast
    have hlt : here.length < inner.length := by
      rw [List.length_append, List.length_singleton] at hlen
      omega
    have hno := hfirst inner hinner hlt hinner.length_le
    simpa using hno
  · rintro ⟨hlast, hsees⟩
    have hfound : found = found.dropLast ++ [name] :=
      (List.dropLast_append_getLast? name hlast).symm
    have hlen : found.length = found.dropLast.length + 1 := by
      conv_lhs => rw [hfound]
      simp
    refine ⟨found.dropLast, ?_, ?_⟩
    · rw [find?_outward_eq_some_iff (Nat.le_refl _)]
      refine ⟨hsees.around, hsees.around.length_le, ?_, ?_⟩
      · rw [settles_nil, ← hfound]
        simpa using hsees.mem
      · intro inner hinner hlt _
        have hno := hsees.nearest inner hinner (by omega) name hlast
        simpa using hno
    · exact type?_eq_some_iff.mpr ⟨hfound.symm, by rw [← hfound]; exact hsees.mem⟩

end Reach

/-! ## Types of files -/

mutual

def Message.types (scope : FullName) : Message → List FullName
  | .mk name enumerations nested _ =>
    let here := scope ++ [Wire.shown name]
    here :: (enumerations.map fun e => here ++ [Wire.shown e.name]) ++
      Message.typesOfAll here nested

def Message.typesOfAll (scope : FullName) : List Message → List FullName
  | [] => []
  | m :: r => Message.types scope m ++ Message.typesOfAll scope r

end

def File.scope (F : File) : FullName :=
  if F.package.isEmpty then [] else Text.splitOn (Wire.shown F.package) "."

def File.types (F : File) : List FullName :=
  (F.enumerations.map fun e => F.scope ++ [Wire.shown e.name]) ++
    Message.typesOfAll F.scope F.messages

def Reach.ofFiles (files : List File) : Reach :=
  { types := files.flatMap File.types
    packages := files.flatMap fun F => outward F.scope F.scope.length }

def File.reach (F : File) (files : List File) : Reach :=
  Reach.ofFiles (F :: files.filter fun G => F.imports.contains G.name)

inductive Message.Holds : Message → FullName → Field → Prop
  | own {name : Bytes} {enumerations : List Enumeration} {nested : List Message}
      {fields : List Field} {f : Field} (hf : f ∈ fields) :
      Holds (.mk name enumerations nested fields) [Wire.shown name] f
  | inside {name : Bytes} {enumerations : List Enumeration} {nested : List Message}
      {fields : List Field} {m : Message} {path : FullName} {f : Field} (hm : m ∈ nested)
      (hf : Holds m path f) :
      Holds (.mk name enumerations nested fields) (Wire.shown name :: path) f

def File.Holds (F : File) (path : FullName) (f : Field) : Prop :=
  ∃ m ∈ F.messages, m.Holds path f

/-! ## Reading a text -/

def opens (line : String) : Bool :=
  line.toList.getLast? == some '\x7b'

def closes (line : String) : Bool :=
  line.toList.getLast? == some '\x7d'

def blockName (line : String) : String :=
  let words := line.toList.dropWhile (· == ' ')
  String.ofList (words.dropWhile (· != ' ')).tail.dropLast.dropLast

def readLine (scope : FullName) (line : String) : FullName :=
  if opens line then scope ++ [blockName line]
  else if closes line then scope.dropLast
  else scope

def scopeAfter (scope : FullName) (lines : List String) : FullName :=
  lines.foldl readLine scope

def declared (scope : FullName) : List String → List FullName
  | [] => []
  | line :: r =>
    (if opens line then [readLine scope line] else []) ++ declared (readLine scope line) r

/-- The text of a file writes a type for a field inside the messages of a path. The lines of the text
declare the types of the file. On one of them there is the type between the label and the name of
the field, and the scope before this line is that of the messages. -/
def File.Shows (F : File) (text : String) (path : FullName) (f : Field) (type : String) : Prop :=
  ∃ before line after, text = "\n".intercalate (before ++ line :: after) ∧
    declared F.scope (before ++ line :: after) = F.types ∧
    scopeAfter F.scope before = F.scope ++ path ∧
    ∃ label ∈ ["", "repeated "], line = indent path.length ++ label ++ type ++ " " ++
      Wire.shown f.name ++ " = " ++ Decimal.int f.number ++ ";"

lemma scopeAfter_cons (scope : FullName) (l : String) (ls : List String) :
    scopeAfter scope (l :: ls) = scopeAfter (readLine scope l) ls :=
  rfl

lemma scopeAfter_append (scope : FullName) (ls ks : List String) :
    scopeAfter scope (ls ++ ks) = scopeAfter (scopeAfter scope ls) ks :=
  List.foldl_append

lemma declared_append (scope : FullName) (ls ks : List String) :
    declared scope (ls ++ ks) = declared scope ls ++ declared (scopeAfter scope ls) ks := by
  induction ls generalizing scope with
  | nil => rfl
  | cons l r ih => simp [declared, ih, scopeAfter_cons]

structure Declares (lines : List String) (types : FullName → List FullName) : Prop where
  scope : ∀ scope, scopeAfter scope lines = scope
  types : ∀ scope, declared scope lines = types scope

namespace Declares

lemma nil : Declares [] fun _ => [] :=
  ⟨fun _ => rfl, fun _ => rfl⟩

variable {ls : List String} {ts : FullName → List FullName}

lemma append {ks : List String} {us : FullName → List FullName} (hl : Declares ls ts)
    (hk : Declares ks us) : Declares (ls ++ ks) fun scope => ts scope ++ us scope where
  scope scope := by rw [scopeAfter_append, hl.scope, hk.scope]
  types scope := by rw [declared_append, hl.scope, hl.types, hk.types]

lemma cons {l : String}
    (hopens : opens l = false) (hcloses : closes l = false) (hls : Declares ls ts) :
    Declares (l :: ls) ts := by
  have hread (scope : FullName) : readLine scope l = scope := by simp [readLine, hopens, hcloses]
  constructor
  · intro scope
    rw [scopeAfter_cons, hread, hls.scope]
  · intro scope
    simp [declared, hopens, hread, hls.types]

lemma cons_semicolon (l : String) (hls : Declares ls ts) : Declares ((l ++ ";") :: ls) ts :=
  hls.cons (by simp [opens]) (by simp [closes])

lemma cons_empty (hls : Declares ls ts) : Declares ("" :: ls) ts :=
  hls.cons rfl rfl

lemma of_semicolons (h : ∀ l ∈ ls, ∃ k, l = k ++ ";") : Declares ls fun _ => [] := by
  induction ls with
  | nil => exact nil
  | cons l r ih =>
    obtain ⟨k, rfl⟩ := h l List.mem_cons_self
    exact (ih fun x hx => h x (List.mem_cons_of_mem _ hx)).cons_semicolon k

end Declares

variable {level : Nat} {f : Field} {ls : List String} {kind : String} {m : Message}

lemma blockName_header (hkind : kind ∈ ["message ", "enum "]) (level : Nat)
    (name : String) : blockName (indent level ++ kind ++ name ++ " \x7b") = name := by
  have hblanks : ∀ c ∈ (indent level).toList, (c == ' ') = true := by
    intro c hc
    rw [indent, Text.line, String.toList_ofList] at hc
    simp [List.eq_of_mem_replicate hc]
  have hend : " \x7b".toList = [' ', '\x7b'] := rfl
  unfold blockName
  rw [String.toList_append, String.toList_append, String.toList_append, List.append_assoc,
    List.append_assoc, List.dropWhile_append_of_pos hblanks, hend]
  rcases List.mem_pair.mp hkind with rfl | rfl
  · simp
  · simp

lemma opens_header (l : String) : opens (l ++ " \x7b") = true := by
  simp [opens]

lemma readLine_header (hkind : kind ∈ ["message ", "enum "]) (scope : FullName)
    (level : Nat) (name : String) :
    readLine scope (indent level ++ kind ++ name ++ " \x7b") = scope ++ [name] := by
  rw [readLine, if_pos (opens_header _), blockName_header hkind]

lemma Declares.block (hkind : kind ∈ ["message ", "enum "]) (level : Nat)
    (name : String) {body : List String} {ts : FullName → List FullName}
    (hbody : Declares body ts) :
    Declares ((indent level ++ kind ++ name ++ " \x7b") :: body ++ [indent level ++ "\x7d"])
      fun scope => (scope ++ [name]) :: ts (scope ++ [name]) := by
  have hopens : opens (indent level ++ "\x7d") = false := by simp [opens]
  have hcloses : closes (indent level ++ "\x7d") = true := by simp [closes]
  constructor
  · intro scope
    rw [List.cons_append, scopeAfter_cons, readLine_header hkind, scopeAfter_append, hbody.scope]
    simp [scopeAfter, readLine, hopens, hcloses]
  · intro scope
    rw [List.cons_append, declared, if_pos (opens_header _), readLine_header hkind,
      declared_append, hbody.types]
    simp [declared, hopens]

lemma Enumeration.declares_linesOfAll (level : Nat) (es : List Enumeration) :
    Declares (Enumeration.linesOfAll level es) fun scope =>
      es.map fun e => scope ++ [Wire.shown e.name] := by
  induction es with
  | nil => exact Declares.nil
  | cons e r ih =>
    rw [Enumeration.linesOfAll, List.flatMap_cons]
    refine (Declares.append (Declares.block (List.mem_cons_of_mem _ List.mem_cons_self) level
      (Wire.shown e.name) (Declares.of_semicolons ?_)) Declares.nil.cons_empty).append ih
    intro l hl
    obtain ⟨v, -, rfl⟩ := List.mem_map.mp hl
    exact ⟨_, rfl⟩

lemma indent_succ (level : Nat) : indent (level + 1) = indent level ++ "  " := by
  have hblanks : "  ".toList = List.replicate 2 ' ' := rfl
  apply String.toList_injective
  rw [String.toList_append, hblanks, indent, indent, Text.line, Text.line, String.toList_ofList,
    String.toList_ofList, ← List.replicate_add]
  rfl

lemma Field.exists_of_line {line : String} (h : f.line level = some line) :
    ∃ type, f.typeText = some type ∧ ∃ label ∈ ["", "repeated "],
      line = indent (level + 1) ++ label ++ type ++ " " ++ Wire.shown f.name ++ " = " ++
        Decimal.int f.number ++ ";" := by
  obtain ⟨type, htype, hl⟩ := Option.bind_eq_some_iff.mp h
  refine ⟨type, htype, if f.label = 3 then "repeated " else "", ?_, ?_⟩
  · by_cases hlabel : f.label = 3
    · simp [hlabel]
    · simp [hlabel]
  · rw [indent_succ]
    exact (Option.some.inj hl).symm

lemma Field.exists_of_lines_cons {r : List Field} (h : (f :: r).mapM (Field.line level) = some ls) :
    ∃ l ks, f.line level = some l ∧ r.mapM (Field.line level) = some ks ∧ ls = l :: ks := by
  rw [List.mapM_cons] at h
  obtain ⟨l, hl, h⟩ := Option.bind_eq_some_iff.mp h
  obtain ⟨ks, hks, h⟩ := Option.bind_eq_some_iff.mp h
  exact ⟨l, ks, hl, hks, (Option.some.inj h).symm⟩

lemma Field.declares_lines {fs : List Field}
    (h : fs.mapM (Field.line level) = some ls) : Declares ls fun _ => [] := by
  induction fs generalizing ls with
  | nil =>
    obtain rfl : [] = ls := Option.some.inj h
    exact Declares.nil
  | cons f r ih =>
    obtain ⟨l, ks, hl, hks, rfl⟩ := Field.exists_of_lines_cons h
    obtain ⟨type, -, label, -, rfl⟩ := Field.exists_of_line hl
    exact (ih hks).cons_semicolon _

open Message

lemma Message.exists_of_lines {name : Bytes} {enumerations : List Enumeration}
    {nested : List Message} {fields : List Field}
    (h : lines level (.mk name enumerations nested fields) = some ls) :
    ∃ ms fs, linesOfAll (level + 1) nested = some ms ∧
      fields.mapM (Field.line level) = some fs ∧
      ls = (indent level ++ "message " ++ Wire.shown name ++ " \x7b") ::
        (Enumeration.linesOfAll (level + 1) enumerations ++ ms ++ fs) ++
          [indent level ++ "\x7d"] := by
  rw [lines] at h
  obtain ⟨ms, hms, h⟩ := Option.bind_eq_some_iff.mp h
  obtain ⟨fs, hfs, h⟩ := Option.bind_eq_some_iff.mp h
  exact ⟨ms, fs, hms, hfs, by simpa using (Option.some.inj h).symm⟩

lemma Message.exists_of_linesOfAll_cons {r : List Message}
    (h : linesOfAll level (m :: r) = some ls) :
    ∃ ks rs, lines level m = some ks ∧ linesOfAll level r = some rs ∧
      ls = ks ++ "" :: rs := by
  rw [linesOfAll] at h
  obtain ⟨ks, hks, h⟩ := Option.bind_eq_some_iff.mp h
  obtain ⟨rs, hrs, h⟩ := Option.bind_eq_some_iff.mp h
  exact ⟨ks, rs, hks, hrs, by simpa using (Option.some.inj h).symm⟩

mutual

lemma Message.declares_lines {level : Nat} :
    ∀ {m : Message} {ls : List String}, lines level m = some ls →
      Declares ls fun scope => types scope m
  | .mk name enumerations nested fields, ls, h => by
    obtain ⟨ms, fs, hms, hfs, rfl⟩ := exists_of_lines h
    have hbody := ((Enumeration.declares_linesOfAll (level + 1) enumerations).append
      (declares_linesOfAll hms)).append (Field.declares_lines hfs)
    simpa [types] using hbody.block List.mem_cons_self level (Wire.shown name)

lemma Message.declares_linesOfAll {level : Nat} :
    ∀ {ms : List Message} {ls : List String}, linesOfAll level ms = some ls →
      Declares ls fun scope => typesOfAll scope ms
  | [], ls, h => by
    obtain rfl : [] = ls := Option.some.inj h
    exact Declares.nil
  | m :: r, ls, h => by
    obtain ⟨ks, rs, hks, hrs, rfl⟩ := exists_of_linesOfAll_cons h
    exact (declares_lines hks).append (declares_linesOfAll hrs).cons_empty

end

/-! ## Places of fields -/

lemma Field.exists_of_mem {fs : List Field}
    (h : fs.mapM (Field.line level) = some ls) (hf : f ∈ fs) :
    ∃ before line after, ls = before ++ line :: after ∧ f.line level = some line ∧
      Declares before fun _ => [] := by
  induction fs generalizing ls with
  | nil => exact absurd hf List.not_mem_nil
  | cons g r ih =>
    obtain ⟨l, ks, hl, hks, rfl⟩ := Field.exists_of_lines_cons h
    rcases List.mem_cons.mp hf with rfl | hf
    · exact ⟨[], l, ks, rfl, hl, Declares.nil⟩
    · obtain ⟨before, line, after, rfl, hline, hbefore⟩ := ih hks hf
      obtain ⟨type, -, label, -, rfl⟩ := Field.exists_of_line hl
      exact ⟨_ :: before, line, after, rfl, hline, hbefore.cons_semicolon _⟩

lemma Message.exists_of_mem {ms : List Message}
    (h : linesOfAll level ms = some ls) (hm : m ∈ ms) :
    ∃ before lines after ts, ls = before ++ lines ++ after ∧ Message.lines level m = some lines ∧
      Declares before ts := by
  induction ms generalizing ls with
  | nil => exact absurd hm List.not_mem_nil
  | cons n r ih =>
    obtain ⟨ks, rs, hks, hrs, rfl⟩ := exists_of_linesOfAll_cons h
    rcases List.mem_cons.mp hm with rfl | hm
    · exact ⟨[], ks, "" :: rs, _, rfl, hks, Declares.nil⟩
    · obtain ⟨before, lines, after, ts, rfl, hlines, hbefore⟩ := ih hrs hm
      exact ⟨ks ++ "" :: before, lines, after, _, by simp, hlines,
        (declares_lines hks).append hbefore.cons_empty⟩

lemma Message.exists_line {path : FullName} (hf : m.Holds path f) :
    ∀ {level : Nat} {ls : List String}, lines level m = some ls →
      ∃ inner before line after, inner + 1 = level + path.length ∧ f.line inner = some line ∧
        ls = before ++ line :: after ∧ ∀ scope, scopeAfter scope before = scope ++ path := by
  -- What stands between the first line of a message and the line of the field, or the message with
  -- this line, ends in the scope in which it starts.
  induction hf with
  | @own name enumerations nested fields f hf =>
    intro level ls h
    obtain ⟨ms, fs, hms, hfs, rfl⟩ := exists_of_lines h
    obtain ⟨before, line, after, rfl, hline, hbefore⟩ := Field.exists_of_mem hfs hf
    have hfront := ((Enumeration.declares_linesOfAll (level + 1) enumerations).append
      (declares_linesOfAll hms)).append hbefore
    refine ⟨level, (indent level ++ "message " ++ Wire.shown name ++ " \x7b") ::
      (Enumeration.linesOfAll (level + 1) enumerations ++ ms ++ before), line,
      after ++ [indent level ++ "\x7d"], rfl, hline, by simp, ?_⟩
    intro scope
    rw [scopeAfter_cons, readLine_header List.mem_cons_self, hfront.scope]
  | @inside name enumerations nested fields m path f hm hf ih =>
    intro level ls h
    obtain ⟨ms, fs, hms, hfs, rfl⟩ := exists_of_lines h
    obtain ⟨front, lines, back, ts, rfl, hlines, hfront⟩ := exists_of_mem hms hm
    obtain ⟨inner, before, line, after, hinner, hline, rfl, hscope⟩ := ih hlines
    have hfront := (Enumeration.declares_linesOfAll (level + 1) enumerations).append hfront
    refine ⟨inner, (indent level ++ "message " ++ Wire.shown name ++ " \x7b") ::
      (Enumeration.linesOfAll (level + 1) enumerations ++ front) ++ before, line,
      after ++ back ++ fs ++ [indent level ++ "\x7d"], ?_, hline, by simp, ?_⟩
    · rw [List.length_cons]
      omega
    · intro scope
      rw [scopeAfter_append, scopeAfter_cons, readLine_header List.mem_cons_self, hfront.scope,
        hscope, List.append_assoc, List.singleton_append]

lemma File.exists_of_text {F : File} {text : String} (h : F.text = some text) :
    ∃ front ls, linesOfAll 0 F.messages = some ls ∧
      (Declares front fun scope => F.enumerations.map fun e => scope ++ [Wire.shown e.name]) ∧
      text = "\n".intercalate (front ++ ls) := by
  obtain ⟨ls, hls, htext⟩ := Option.bind_eq_some_iff.mp h
  refine ⟨_, ls, hls, ?_, (Option.some.inj htext).symm⟩
  have hempty : Declares [""] fun _ => [] := Declares.nil.cons_empty
  have hfirst := hempty.cons_semicolon "syntax = \"proto3\""
  have hpackage : Declares (if F.package.isEmpty then []
      else ["package " ++ Wire.shown F.package ++ ";", ""]) fun _ => [] := by
    by_cases h : F.package.isEmpty
    · rw [if_pos h]
      exact Declares.nil
    · rw [if_neg h]
      exact hempty.cons_semicolon ("package " ++ Wire.shown F.package)
  have himports : Declares (F.imports.map fun i => "import \"" ++ Wire.shown i ++ "\";")
      fun _ => [] := by
    apply Declares.of_semicolons
    intro l hl
    obtain ⟨i, -, rfl⟩ := List.mem_map.mp hl
    have hend : "\";" = "\"" ++ ";" := rfl
    exact ⟨"import \"" ++ Wire.shown i ++ "\"", by rw [hend, ← String.append_assoc]⟩
  have hgap : Declares (if (F.imports.map fun i => "import \"" ++ Wire.shown i ++ "\";").isEmpty
      then [] else [""]) fun _ => [] := by
    cases F.imports with
    | nil => exact Declares.nil
    | cons i r => exact hempty
  exact (((hfirst.append hpackage).append himports).append hgap).append
    (Enumeration.declares_linesOfAll 0 F.enumerations)

lemma File.exists_shows {F : File} {text : String} (ht : F.text = some text) {path : FullName}
    (hf : F.Holds path f) : ∃ type, f.typeText = some type ∧ F.Shows text path f type := by
  obtain ⟨m, hm, hf⟩ := hf
  obtain ⟨head, ls, hls, hhead, rfl⟩ := File.exists_of_text ht
  have htypes := (hhead.append (declares_linesOfAll hls)).types F.scope
  obtain ⟨front, lines, back, ts, rfl, hlines, hfront⟩ := exists_of_mem hls hm
  obtain ⟨inner, before, line, after, hinner, hline, rfl, hscope⟩ := Message.exists_line hf hlines
  obtain ⟨type, htype, label, hlabel, rfl⟩ := Field.exists_of_line hline
  rw [hinner, Nat.zero_add] at htypes ⊢
  refine ⟨type, htype, head ++ front ++ before, _, after ++ back, ?_, ?_, ?_, label, hlabel, rfl⟩
  · simp
  · simpa [File.types] using htypes
  · rw [scopeAfter_append, (hhead.append hfront).scope, hscope]

/-! ## What is written and what is meant -/

lemma Field.exists_of_typeText (hf : f.type = 11 ∨ f.type = 14) {type : String}
    (h : f.typeText = some type) :
    ∃ name, Utf8.decode f.typeName = .ok name ∧
      (Text.splitOn name ".").getLast? = some type ∧ '.' ∉ type.toList := by
  rw [Field.typeText, if_pos hf] at h
  cases hname : Utf8.decode f.typeName with
  | error e =>
    rw [hname] at h
    cases h
  | ok name =>
    obtain ⟨last, hlast, hdots⟩ := Text.exists_last_part name
    rw [hname] at h
    obtain rfl : (Text.splitOn name ".").getLast?.getD "" = type := Option.some.inj h
    rw [hlast, Option.getD_some]
    exact ⟨name, rfl, hlast, hdots⟩

/-- The text of a file writes a name for the type of each field of a message or an enumeration, where
the field is held. Whatever type the name in the descriptor means, among whatever is known, the name
that is written means this type exactly if the type is seen from there: it is a type of the file or
of a file that it imports, it stands directly in the package, in what the package is in or in one of
the messages around the field, and no type of its last name stands further in. -/
theorem File.written_name_denotes_iff (known : Reach) (files : List File) {F : File} {text : String}
    (ht : F.text = some text) {path : FullName} {f : Field} (hf : F.Holds path f)
    (htype : f.type = 11 ∨ f.type = 14) :
    ∃ name written, Utf8.decode f.typeName = .ok name ∧ F.Shows text path f written ∧
      ∀ meant, known.denote? (F.scope ++ path) name = some meant →
        ((F.reach files).denote? (F.scope ++ path) written = some meant ↔
          (F.reach files).Sees (F.scope ++ path) meant) := by
  obtain ⟨written, hwritten, hshows⟩ := File.exists_shows ht hf
  obtain ⟨name, hname, hlast, hdots⟩ := Field.exists_of_typeText htype hwritten
  refine ⟨name, written, hname, hshows, ?_⟩
  intro meant hmeant
  rw [Reach.denote?_eq_some_iff hdots, Reach.getLast?_of_denote? hmeant, hlast]
  simp

def imported : File :=
  { name := Bytes.ofString "t.proto", package := Bytes.ofString "p", imports := []
    enumerations := [], messages := [.mk (Bytes.ofString "T") [] [] []] }

def rowOfImported : Field :=
  { name := Bytes.ofString "f", number := 1, label := 3, type := 11
    typeName := Bytes.ofString ".p.T" }

def importing : File :=
  { name := Bytes.ofString "m.proto", package := Bytes.ofString "p.q"
    imports := [Bytes.ofString "t.proto"], enumerations := []
    messages := [.mk (Bytes.ofString "M") []
      [.mk (Bytes.ofString "N") [] [] [rowOfImported]] []] }

/-- A type of an imported file, in a package around that of the field, is seen. -/
theorem File.imported_type_is_denoted :
    ∃ text, importing.text = some text ∧ importing.Holds ["M", "N"] rowOfImported ∧
      rowOfImported.type = 11 ∧
      (Reach.ofFiles [importing, imported]).denote? ["p", "q", "M", "N"] ".p.T" =
        some ["p", "T"] ∧
      (importing.reach [imported]).denote? ["p", "q", "M", "N"] "T" = some ["p", "T"] ∧
      ∃ name written, Utf8.decode rowOfImported.typeName = .ok name ∧
        importing.Shows text ["M", "N"] rowOfImported written ∧
        ∀ meant, (Reach.ofFiles [importing, imported]).denote?
            (importing.scope ++ ["M", "N"]) name = some meant →
          ((importing.reach [imported]).denote? (importing.scope ++ ["M", "N"]) written =
              some meant ↔
            (importing.reach [imported]).Sees (importing.scope ++ ["M", "N"]) meant) := by
  have htext : importing.text = some ("syntax = \"proto3\";\n\npackage p.q;\n\n" ++
      "import \"t.proto\";\n\nmessage M \x7b\n  message N \x7b\n    repeated T f = 1;\n" ++
      "  \x7d\n\n\x7d\n") := by
    with_unfolding_all decide
  have hN : Wire.shown (Bytes.ofString "N") = "N" := by with_unfolding_all decide
  have hM : Wire.shown (Bytes.ofString "M") = "M" := by with_unfolding_all decide
  have hholds : importing.Holds
      [Wire.shown (Bytes.ofString "M"), Wire.shown (Bytes.ofString "N")] rowOfImported :=
    ⟨_, List.mem_cons_self, .inside List.mem_cons_self (.own List.mem_cons_self)⟩
  rw [hM, hN] at hholds
  exact ⟨_, htext, hholds, rfl, by with_unfolding_all decide, by with_unfolding_all decide,
    File.written_name_denotes_iff _ _ htext hholds (Or.inl rfl)⟩

def fieldOfShadowed : Field :=
  { name := Bytes.ofString "f", number := 1, label := 1, type := 11
    typeName := Bytes.ofString ".A" }

def shadowing : File :=
  { name := Bytes.ofString "a.proto", package := [], imports := [], enumerations := []
    messages := [.mk (Bytes.ofString "A") [] [] [],
      .mk (Bytes.ofString "M") [] [.mk (Bytes.ofString "A") [] [] []] [fieldOfShadowed]] }

/-- The name that is written for a type means another type if one of the same last name stands
further in. -/
theorem File.written_name_means_inner_type :
    ∃ text, shadowing.text = some text ∧ shadowing.Shows text ["M"] fieldOfShadowed "A" ∧
      Utf8.decode fieldOfShadowed.typeName = .ok ".A" ∧
      (shadowing.reach []).denote? ["M"] ".A" = some ["A"] ∧
      (shadowing.reach []).denote? ["M"] "A" = some ["M", "A"] := by
  have htext : shadowing.text = some ("\n".intercalate (["syntax = \"proto3\";", "",
      "message A \x7b", "\x7d", "", "message M \x7b", "  message A \x7b", "  \x7d", ""] ++
      "  A f = 1;" :: ["\x7d", ""])) := by
    with_unfolding_all decide
  exact ⟨_, htext, ⟨_, _, _, rfl, by with_unfolding_all decide, by decide, "", List.mem_cons_self,
    by with_unfolding_all decide⟩,
    by with_unfolding_all decide, by with_unfolding_all decide, by with_unfolding_all decide⟩

end Descriptor

end Salvage
