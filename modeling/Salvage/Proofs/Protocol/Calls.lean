import Salvage.Proofs.Protocol.Structures

/-!
# Calls in the generated code

A structure is read by a function of its own, which takes a reader or octets. Which of them it takes
is decided by the name of the structure where its code is made. What is passed to it is decided
elsewhere: a field of a structure passes a reader, and the dispatcher passes octets. This module reads
both back from the code and says for which definitions they agree.
-/

namespace Salvage.Protocol

/-! ## Functions and calls in texts -/

namespace Wire

/-- What a function that reads a structure is given. -/
inductive Source where
  | octets
  | reader
deriving DecidableEq

/-- What the function that a line opens takes. -/
def takes? (line : String) : Option Source :=
  if (between? "    pub fn decode(" ": &mut ProtocolByteBuf) -> Self \x7b" line).isSome then some .reader
  else if (between? "    pub fn decode(" ": &[u8]) -> Self \x7b" line).isSome then some .octets
  else none

/-- The first structure that lines open functions for, and what the first of these takes. -/
def function? : List String → Option (String × Source)
  | [] => none
  | line :: r =>
    match between? "impl " " \x7b" line with
    | some name => (r.head?.bind takes?).map (name, ·)
    | none => function? r

/-- The structure that an expression reads by its function, and what is passed. -/
def call? (expression : String) : Option (String × Source) :=
  ((between? "" "::decode(reader)" expression).map (·, .reader)).or
    (((between? "" "::decode(&mut reader)" expression).map (·, .reader)).or
      ((between? "" "::decode(data)" expression).map (·, .octets)))

/-- The call in a line that reads a field, once or for each of several values. -/
def readCall? (name line : String) : Option (String × Source) :=
  (between? ("            " ++ name ++ ": ") "," line).bind fun expression =>
    call? ((between? countedReadFront countedReadBack expression).getD expression)

/-- The call in a line of the dispatcher. -/
def caseCall? (key line : String) : Option (String × Source) :=
  (between? ("        " ++ key ++ " => Some(serde_json::to_value(&") ").unwrap())," line).bind call?

/-- Every call passes what the functions of the structure take. -/
def Agree (functions calls : List (String × Source)) : Prop :=
  ∀ c ∈ calls, ∀ f ∈ functions, f.1 = c.1 → f.2 = c.2

lemma call?_reader (name : String) : call? (name ++ "::decode(reader)") = some (name, .reader) := by
  have h := between?_append "" "::decode(reader)" name
  rw [String.empty_append] at h
  rw [call?, h]
  rfl

lemma call?_mut_reader (name : String) :
    call? (name ++ "::decode(&mut reader)") = some (name, .reader) := by
  have h := between?_append "" "::decode(&mut reader)" name
  rw [String.empty_append] at h
  have hfirst : between? "" "::decode(reader)" (name ++ "::decode(&mut reader)") = none :=
    between?_eq_none_of_back (u := "::decode".toList) (v := name.toList ++ "::decode(&mut".toList)
      (w := "reader)".toList) rfl (by simp) (by decide : '(' ≠ ' ')
  rw [call?, hfirst, h]
  rfl

lemma call?_data (name : String) : call? (name ++ "::decode(data)") = some (name, .octets) := by
  have h := between?_append "" "::decode(data)" name
  rw [String.empty_append] at h
  have hother (back : String) (u : List Char) (hback : back.toList = u ++ ['r', ')']) :
      between? "" back (name ++ "::decode(data)") = none :=
    between?_eq_none_of_back (v := name.toList ++ "::decode(dat".toList) hback (by simp)
      (by decide : 'r' ≠ 'a')
  rw [call?, hother _ "::decode(reade".toList rfl, hother _ "::decode(&mut reade".toList rfl, h]
  rfl

lemma call?_eq_none {s : String} {v : List Char} (hs : s.toList = v ++ ['(', ')']) :
    call? s = none := by
  have hother (back : String) (u : List Char) (c : Char) (hback : back.toList = u ++ [c, ')'])
      (hc : c ≠ '(') : between? "" back s = none :=
    between?_eq_none_of_back hback hs hc
  rw [call?, hother _ "::decode(reade".toList 'r' rfl (by decide),
    hother _ "::decode(&mut reade".toList 'r' rfl (by decide),
    hother _ "::decode(dat".toList 'a' rfl (by decide)]
  rfl

end Wire

/-- The structure that a value is, if it is one. -/
def Code.Element.structure? : Code.Element → Option String
  | record name => some name
  | _ => none

namespace Wire

/-- **The call in an expression** that reads a value. -/
lemma call?_read (e : Code.Element) (owned : Bool) :
    call? (e.read owned) = e.structure?.map (·, .reader) := by
  cases e with
  | primitive p =>
    refine call?_eq_none (v := ("reader.read_" ++ p.name ++ "_padded").toList) ?_
    simp [Code.Element.read]
  | numberText =>
    exact call?_eq_none (v := "reader.read_i64_padded().to_string".toList) (by simp [Code.Element.read])
  | text =>
    exact call?_eq_none (v := "reader.read_string_padded".toList) (by simp [Code.Element.read])
  | record name =>
    cases owned with
    | false =>
      have htext : (Code.Element.record name).read false = name ++ "::decode(reader)" := by
        simp [Code.Element.read, String.append_assoc]
      rw [htext, call?_reader]
      rfl
    | true =>
      have htext : (Code.Element.record name).read true = name ++ "::decode(&mut reader)" := by
        simp [Code.Element.read, String.append_assoc]
      rw [htext, call?_mut_reader]
      rfl

lemma readCall?_readExpression (name codeType type : String) (repeated owned : Bool) :
    readCall? name ("            " ++ name ++ ": " ++
        Code.readExpression codeType type repeated owned ++ ",") =
      (Code.element (if repeated then Code.innerType codeType else codeType) type).structure?.map
        (·, .reader) := by
  rw [readCall?, between?_append, Option.bind_some]
  cases repeated with
  | true =>
    simp only [Code.readExpression, if_true, readSeveral_eq, between?_append, Option.getD_some,
      call?_read]
  | false =>
    simp only [Code.readExpression, Bool.false_eq_true, if_false, between?_read, Option.getD_none,
      call?_read]

end Wire

namespace Generator

open Protocol.Wire

variable {g g' g'' : Generator} {name : String} {entries : List (String × Doc)}

/-- The structure that the values of a field are, if they are one. -/
def FieldCode.structure? (f : FieldCode) : Option String :=
  let codeType := Code.fieldType (Code.clean f.type) f.repeated
  (Code.element (if f.repeated then Code.innerType codeType else codeType) f.type).structure?

/-- What the functions of a structure take that is made for a definition. -/
def sourceOf (name : String) : Source := if isPart name then .reader else .octets

lemma readCall?_readLine (owned : Bool) (f : FieldCode) :
    readCall? (Code.safeName f.name) (readLine owned f) = f.structure?.map (·, .reader) :=
  readCall?_readExpression _ _ _ _ owned

lemma takes?_heads :
    takes? "    pub fn decode(reader: &mut ProtocolByteBuf) -> Self \x7b" = some .reader ∧
      takes? "    pub fn decode(_reader: &mut ProtocolByteBuf) -> Self \x7b" = some .reader ∧
      takes? "    pub fn decode(data: &[u8]) -> Self \x7b" = some .octets := by
  decide

lemma function?_implementation (name : String) (reads writes : List String) :
    function? (implementation name reads writes) = some (name, sourceOf name) := by
  rw [implementation, readHead, sourceOf]
  split_ifs
  · simp [function?, between?_append, takes?_heads]
  · simp [function?, between?_append, takes?_heads]

lemma function?_placeholder (name : String) :
    function? (placeholder name) = some (name, .reader) := by
  have hother (s : String) (h : Text.startsWith s "impl " = false) :
      between? "impl " " \x7b" s = none := by
    simp only [between?, h, Bool.false_and]
    rfl
  have hstruct : Text.startsWith ("pub struct " ++ name ++ " \x7b") "impl " = false := by
    rw [Text.startsWith, String.toList_append, String.toList_append]
    rfl
  simp only [placeholder, structureHead, List.cons_append, List.nil_append, function?,
    hother _ hstruct, hother "#[allow(non_camel_case_types)]" (by decide),
    hother "#[derive(Debug, Clone, Serialize, Deserialize)]" (by decide),
    hother "    // TODO: Define proper fields for this struct" (by decide),
    hother "\x7d\n" (by decide), between?_append, List.head?_cons, Option.bind_some, takes?_heads]
  rfl

/-! ## The dispatcher -/

/-- The messages that the dispatcher reads, each with its number. -/
def casesOf : List (String × Doc) → Except Doc.ShapeFault (List (String × String))
  | [] => .ok []
  | (key, d) :: r => do
    let name ← nameOf d
    return (if isNumber key then name.toList else []).map (key, ·) ++ (← casesOf r)

/-- The line of the dispatcher for a message. -/
def caseLine (c : String × String) : String :=
  "        " ++ c.1 ++ " => Some(serde_json::to_value(&" ++ c.2 ++ "::decode(data)).unwrap()),"

def dispatchHead : List String :=
  ["// Auto-generated dispatcher", "use serde_json::Value;", "use crate::messages::*;", "",
   "pub fn dispatch_cmd(cmd: u32, data: &[u8]) -> Option<Value> \x7b", "    match cmd \x7b"]

def dispatchBack : List String :=
  ["        _ => None,", "    \x7d", "\x7d"]

lemma caseCall?_caseLine (c : String × String) :
    caseCall? c.1 (caseLine c) = some (c.2, .octets) := by
  have htext : caseLine c = "        " ++ c.1 ++ " => Some(serde_json::to_value(&" ++
      (c.2 ++ "::decode(data)") ++ ").unwrap())," := by
    simp [caseLine, String.append_assoc]
  rw [caseCall?, htext, between?_append, Option.bind_some, call?_data]

lemma cases_run {lines : List String} (h : (cases entries).run g = .ok lines g') :
    ∃ cs, casesOf entries = .ok cs ∧ lines = cs.map caseLine := by
  induction entries generalizing g g' lines with
  | nil =>
    cases h
    exact ⟨[], rfl, rfl⟩
  | cons e r ih =>
    obtain ⟨key, d⟩ := e
    obtain ⟨o, g₁, ho, h⟩ := Run.exists_of_bind_ok h
    have hname := (gives_messageName? d).eq_ok ho
    obtain ⟨rest, g₂, hrest, rfl⟩ : ∃ rest g₂, (cases r).run g₂ = .ok rest g' ∧
        lines = ((if isNumber key then o.toList else []).map (key, ·)).map caseLine ++ rest := by
      cases o with
      | none =>
        obtain ⟨rest, g₂, hrest, h⟩ := Run.exists_of_bind_ok (x := cases r) h
        cases h
        exact ⟨rest, g₁, hrest, by simp⟩
      | some name =>
        split_ifs at h ⊢
        · obtain ⟨rest, g₂, hrest, h⟩ := Run.exists_of_bind_ok (x := cases r) h
          cases h
          exact ⟨rest, _, hrest, rfl⟩
        · obtain ⟨rest, g₂, hrest, h⟩ := Run.exists_of_bind_ok (x := cases r) h
          cases h
          exact ⟨rest, _, hrest, rfl⟩
    obtain ⟨cs, hcs, rfl⟩ := ih hrest
    refine ⟨_, ?_, List.map_append.symm⟩
    simp only [casesOf, hname, hcs, bind, Except.bind]
    rfl

variable {code : String} {definitions : Doc}

/-- **The code of the dispatcher** has a line for each message with a number. -/
lemma dispatch_run (h : dispatch.run g = .ok code g') :
    ∃ entries cs, g.definitions.fields "items" = .ok entries ∧ casesOf entries = .ok cs ∧
      code = "\n".intercalate (dispatchHead ++ cs.map caseLine ++ dispatchBack) := by
  obtain ⟨entries, hentries, h⟩ := exists_of_look_bind (r := g.definitions.fields "items") h
  obtain ⟨lines, g₁, hlines, h⟩ := Run.exists_of_bind_ok h
  obtain ⟨cs, hcs, rfl⟩ := cases_run hlines
  cases h
  exact ⟨entries, cs, hentries, hcs, rfl⟩

lemma ends_cases (ds : Definitions) : Ends (cases (ds.map fun (k, d) => (k.text, d.toDoc))) := by
  induction ds with
  | nil => exact .pure []
  | cons e r ih =>
    obtain ⟨k, d⟩ := e
    refine (ends_messageName? d).bind fun name => ?_
    cases name with
    | none => exact ih.bind fun _ => .pure _
    | some name =>
      split_ifs
      · exact ih.bind fun _ => .pure _
      · exact (Ends.change _).bind fun _ => ih.bind fun _ => .pure _

lemma exists_dispatch_run {ds : Definitions} (hg : g.definitions = ds.toDoc) :
    ∃ code g', dispatch.run g = .ok code g' := by
  obtain ⟨lines, g', hlines⟩ := ends_cases ds g
  rw [dispatch, Run.bind_ok (entries_run hg), Run.bind_ok hlines]
  exact ⟨_, g', rfl⟩

lemma mem_casesOf {cs : List (String × String)} (h : casesOf entries = .ok cs) {c : String × String}
    (hc : c ∈ cs) : ∃ e ∈ entries, nameOf e.2 = .ok (some c.2) := by
  induction entries generalizing cs with
  | nil =>
    cases h
    cases hc
  | cons e r ih =>
    obtain ⟨o, ho, h⟩ := exists_of_bind_eq_ok h
    obtain ⟨rest, hrest, h⟩ := exists_of_bind_eq_ok h
    obtain rfl := Except.ok.inj h
    rcases List.mem_append.mp hc with hc | hc
    · obtain ⟨name, hname, rfl⟩ := List.mem_map.mp hc
      split_ifs at hname
      · exact ⟨e, List.mem_cons_self, ho.trans (congrArg Except.ok (Option.mem_toList.mp hname))⟩
      · cases hname
    · obtain ⟨e', he', hname⟩ := ih hrest hc
      exact ⟨e', List.mem_cons_of_mem e he', hname⟩

lemma sound_of_load (h : (load definitions).run {} = .ok () g) : Sound g := by
  obtain ⟨entries, -, -, hunknown, -⟩ := load_run h
  constructor
  · simp [hunknown]
  · simp [hunknown]

lemma messages_grow (hload : (load definitions).run {} = .ok () g)
    (h : messages.run g = .ok code g') : Grows g g' :=
  (messages_declared (sound_of_load hload) h).1

/-- Names that are written in definitions get no placeholders. -/
lemma not_mem_placeholderNames {s : String}
    (hload : (load definitions).run {} = .ok () g) (h : messages.run g = .ok code g')
    (hentries : definitions.fields "items" = .ok entries)
    (hs : ∃ e ∈ entries, writtenName? e.2 = some s) : s ∉ g'.placeholderNames := by
  obtain ⟨entries', -, hentries', -, hknown⟩ := load_run hload
  obtain rfl := Except.ok.inj (hentries.symm.trans hentries')
  have hgrows := messages_grow hload h
  intro hmem
  have hfresh := ((hgrows.sound (sound_of_load hload)).fresh s (mem_placeholderNames.mp hmem).1).1
  rw [isKnown, hgrows.known_eq] at hfresh
  exact Bool.false_ne_true (hfresh.symm.trans ((hknown s).mpr hs))

/-! ## Agreement -/

/-- What the functions that read structures take: those of messages and those of placeholders. -/
def functions (ms : List MessageCode) (names : List String) : List (String × Source) :=
  ms.filterMap (fun m => function?
    (implementation m.name (m.rows.map (·.read)) (m.rows.map (·.write)))) ++
  names.filterMap fun name => function? (placeholder name)

/-- What is passed to functions that read structures: by the fields of messages and by the
dispatcher. -/
def calls (ms : List MessageCode) (cs : List (String × String)) : List (String × Source) :=
  ms.flatMap (fun m => m.rows.filterMap fun l => readCall? (Code.safeName l.field.name) l.read) ++
  cs.filterMap fun c => caseCall? c.1 (caseLine c)

variable {ms : List MessageCode} {names : List String} {cs : List (String × String)}

lemma functions_eq (ms : List MessageCode) (names : List String) :
    functions ms names =
      ms.map (fun m => (m.name, sourceOf m.name)) ++ names.map (·, .reader) := by
  simp only [functions, function?_implementation, function?_placeholder, List.filterMap_eq_map']

lemma calls_eq (hms : ∀ m ∈ ms, m.Generated) (cs : List (String × String)) :
    calls ms cs =
      ms.flatMap (fun m => m.rows.filterMap fun l => l.field.structure?.map (·, .reader)) ++
        cs.map fun c => (c.2, .octets) := by
  have hrows : ∀ m ∈ ms, (m.rows.filterMap fun l =>
      readCall? (Code.safeName l.field.name) l.read) =
        m.rows.filterMap fun l => l.field.structure?.map (·, .reader) := by
    intro m hm
    refine List.filterMap_congr fun l hl => ?_
    rw [(hms m hm l hl).1, readCall?_readLine]
  simp only [calls, caseCall?_caseLine, List.filterMap_eq_map', List.flatMap_congr hrows]

/-- What may be passed to the functions of a name. -/
lemma forall_functions_iff (c : String × Source) :
    (∀ f ∈ functions ms names, f.1 = c.1 → f.2 = c.2) ↔
      (c.1 ∈ ms.map (·.name) → sourceOf c.1 = c.2) ∧ (c.1 ∈ names → .reader = c.2) := by
  rw [functions_eq, List.forall_mem_append, List.forall_mem_map, List.forall_mem_map]
  refine and_congr ⟨fun h hmem => ?_, fun h m hm heq => ?_⟩ ⟨fun h hmem => h c.1 hmem rfl, ?_⟩
  · obtain ⟨m, hm, hname⟩ := List.mem_map.mp hmem
    rw [← hname]
    exact h m hm hname
  · dsimp only at heq ⊢
    rw [heq]
    exact h (heq ▸ List.mem_map_of_mem hm)
  · rintro h name hname rfl
    exact h hname

/-- **Which calls agree**: those for fields, if their structures are not messages or are parts, and
those of the dispatcher, if the messages are neither parts nor placeholders. -/
lemma agree_iff (hms : ∀ m ∈ ms, m.Generated) (hcs : ∀ c ∈ cs, c.2 ∈ ms.map (·.name)) :
    Wire.Agree (functions ms names) (calls ms cs) ↔
      (∀ m ∈ ms, ∀ l ∈ m.rows, ∀ type ∈ l.field.structure?, type ∈ ms.map (·.name) →
        isPart type = true) ∧
      ∀ c ∈ cs, isPart c.2 = false ∧ c.2 ∉ names := by
  have hsource (name : String) : sourceOf name = .reader ↔ isPart name = true := by
    cases h : isPart name <;> simp [sourceOf, h]
  have hoctets (name : String) : sourceOf name = .octets ↔ isPart name = false := by
    cases h : isPart name <;> simp [sourceOf, h]
  simp only [Wire.Agree, forall_functions_iff]
  rw [calls_eq hms, List.forall_mem_append, List.forall_mem_map]
  refine and_congr ⟨fun h m hm l hl type htype hmem => ?_, fun h c hc => ?_⟩
    (forall₂_congr fun c hc => and_congr ?_ ?_)
  · have hcall : (type, Source.reader) ∈
        ms.flatMap fun m => m.rows.filterMap fun l => l.field.structure?.map (·, Source.reader) := by
      refine List.mem_flatMap.mpr ⟨m, hm, List.mem_filterMap.mpr ⟨l, hl, ?_⟩⟩
      rw [Option.mem_def.mp htype]
      rfl
    exact (hsource type).mp ((h _ hcall).1 hmem)
  · obtain ⟨m, hm, hc⟩ := List.mem_flatMap.mp hc
    obtain ⟨l, hl, hc⟩ := List.mem_filterMap.mp hc
    obtain ⟨type, htype, rfl⟩ := Option.map_eq_some_iff.mp hc
    exact ⟨fun hmem => (hsource type).mpr (h m hm l hl type htype hmem), fun _ => rfl⟩
  · exact (forall_prop_of_true (hcs c hc)).trans (hoctets c.2)
  · simp

/-- **Calls pass what functions take**, for some definitions. Code is made for all definitions of the
expected shape. Whatever the definitions are, the calls in the code that is made for the messages and
the dispatcher agree with the functions in it if and only if each structure that is the type of a field
is not defined or a part of messages by its name, and no message with a number is a part by its name,
or has the name of a placeholder. -/
theorem generated_calls (definitions : Doc) :
    (∀ ds : Definitions, definitions = ds.toDoc → ∃ g code g' code' g'',
      (load definitions).run {} = .ok () g ∧ messages.run g = .ok code g' ∧
        dispatch.run g' = .ok code' g'') ∧
    ∀ g code g' code' g'', (load definitions).run {} = .ok () g → messages.run g = .ok code g' →
      dispatch.run g' = .ok code' g'' →
        ∃ entries, ∃ ms : List MessageCode, ∃ cs, definitions.fields "items" = .ok entries ∧
          messagesOf entries = .ok (ms.map MessageCode.message) ∧ casesOf entries = .ok cs ∧
          code = "\n".intercalate (messagesHead ++ ms.flatMap MessageCode.lines ++ g'.placeholders) ∧
          code' = "\n".intercalate (dispatchHead ++ cs.map caseLine ++ dispatchBack) ∧
          (Wire.Agree (functions ms g'.placeholderNames) (calls ms cs) ↔
            (∀ m ∈ ms, ∀ l ∈ m.rows, ∀ type ∈ l.field.structure?, type ∈ ms.map (·.name) →
              isPart type = true) ∧
            ∀ c ∈ cs, isPart c.2 = false ∧ c.2 ∉ g'.placeholderNames) := by
  refine ⟨?_, fun g code g' code' g'' hload hmessages hdispatch => ?_⟩
  · rintro ds rfl
    obtain ⟨g, hload, hg⟩ := exists_load_run ds {}
    obtain ⟨code, g', hmessages⟩ := exists_messages_run hg
    have hg' := (messages_grow hload hmessages).definitions_eq.trans hg
    obtain ⟨code', g'', hdispatch⟩ := exists_dispatch_run hg'
    exact ⟨g, code, g', code', g'', hload, hmessages, hdispatch⟩
  · obtain ⟨entries, hg, hentries, -, -⟩ := load_run hload
    obtain ⟨entries₁, ms, h₁, hms, hgenerated, hcode⟩ := messages_run hmessages
    obtain ⟨entries₂, cs, h₂, hcs, hcode'⟩ := dispatch_run hdispatch
    rw [(messages_grow hload hmessages).definitions_eq] at h₂
    obtain rfl := Except.ok.inj (hg.symm.trans h₁)
    obtain rfl := Except.ok.inj (hg.symm.trans h₂)
    refine ⟨entries, ms, cs, hentries, hms, hcs, hcode, hcode', agree_iff hgenerated fun c hc => ?_⟩
    have hname := (mem_messagesOf hms).mpr (mem_casesOf hcs hc)
    rw [List.map_map] at hname
    exact hname

/-- A message with a part that is defined and several structures that are not. -/
def guild : Definitions :=
  [(.number 7, { name := "guild"
                 fields := [⟨"owner", "pt_owner", "", false⟩, ⟨"places", "place", "", true⟩] }),
   (.name "pt_owner", { name := "pt_owner", fields := [⟨"id", "int32", "", false⟩] })]

/-- The calls for the fields of the message and the one of the dispatcher agree with the functions. -/
theorem generated_calls_guild :
    ∃ g code g' code' g'', (load guild.toDoc).run {} = .ok () g ∧ messages.run g = .ok code g' ∧
      dispatch.run g' = .ok code' g'' ∧ ∃ ms : List MessageCode,
        ms.map MessageCode.message =
          [("guild", [⟨"owner", "pt_owner", false⟩, ⟨"places", "place", true⟩]),
           ("pt_owner", [⟨"id", "int32", false⟩])] ∧
        code = "\n".intercalate (messagesHead ++ ms.flatMap MessageCode.lines ++ g'.placeholders) ∧
        code' = "\n".intercalate (dispatchHead ++ [caseLine ("7", "guild")] ++ dispatchBack) ∧
        Wire.Agree (functions ms g'.placeholderNames) (calls ms [("7", "guild")]) := by
  obtain ⟨g, code, g', code', g'', hload, hmessages, hdispatch⟩ := (generated_calls _).1 guild rfl
  obtain ⟨entries, ms, cs, hentries, hms, hcs, hcode, hcode', hagree⟩ :=
    (generated_calls guild.toDoc).2 g code g' code' g'' hload hmessages hdispatch
  have hplace := not_mem_placeholderNames hload hmessages hentries (s := "guild")
  have hfits : ∀ m ∈ messagesIn guild, ∀ f ∈ m.2, ∀ type ∈ f.structure?,
      type ∈ (messagesIn guild).map (·.1) → isPart type = true := by
    decide
  obtain rfl := Except.ok.inj hentries
  have hlist : messagesIn guild = ms.map MessageCode.message :=
    Except.ok.inj ((messagesOf_toDoc guild).symm.trans hms)
  have hcases : [("7", "guild")] = cs := Except.ok.inj ((by with_unfolding_all rfl : _ = _).trans hcs)
  subst hcases
  refine ⟨g, code, g', code', g'', hload, hmessages, hdispatch, ms, ?_, hcode, hcode', ?_⟩
  · rw [← hlist]
    with_unfolding_all rfl
  · refine hagree.mpr ⟨fun m hm l hl type htype hmem => ?_, ?_⟩
    · rw [hlist] at hfits
      refine hfits m.message (List.mem_map_of_mem hm) l.field (List.mem_map_of_mem hl) type htype ?_
      rw [List.map_map]
      exact hmem
    · exact List.forall_mem_singleton.mpr ⟨by decide, hplace ⟨_, List.mem_cons_self, rfl⟩⟩

/-- A message with a structure that is defined behind it, and is no part by its name. -/
def crew : Definitions :=
  [(.number 7, { name := "crew", fields := [⟨"leader", "leader", "", false⟩] }),
   (.name "leader", { name := "leader", fields := [] })]

/-- The field passes a reader to a function that takes octets. -/
theorem crew_calls_differ :
    ∃ g code g', (load crew.toDoc).run {} = .ok () g ∧ messages.run g = .ok code g' ∧
      ∃ ms : List MessageCode,
        code = "\n".intercalate (messagesHead ++ ms.flatMap MessageCode.lines ++ g'.placeholders) ∧
        ("leader", .reader) ∈ calls ms [] ∧ ("leader", .octets) ∈ functions ms g'.placeholderNames := by
  obtain ⟨g, hload, hg⟩ := exists_load_run crew {}
  obtain ⟨code, g', hmessages⟩ := exists_messages_run hg
  obtain ⟨entries, ms, hentries, hms, hgenerated, hcode⟩ := messages_run hmessages
  rw [hg] at hentries
  obtain rfl := Except.ok.inj hentries
  have hlist : messagesIn crew = ms.map MessageCode.message :=
    Except.ok.inj ((messagesOf_toDoc crew).symm.trans hms)
  have hvalues : ("crew", [⟨"leader", "leader", false⟩]) ∈ messagesIn crew ∧
      ("leader", []) ∈ messagesIn crew ∧
      FieldCode.structure? ⟨"leader", "leader", false⟩ = some "leader" := by
    with_unfolding_all exact ⟨.head _, .tail _ (.head _), rfl⟩
  rw [hlist] at hvalues
  obtain ⟨hcrew, hleader, hstructure⟩ := hvalues
  obtain ⟨m, hm, hmessage⟩ := List.mem_map.mp hcrew
  obtain ⟨m', hm', hmessage'⟩ := List.mem_map.mp hleader
  refine ⟨g, code, g', hload, hmessages, ms, hcode, ?_, ?_⟩
  · have hfield : (⟨"leader", "leader", false⟩ : FieldCode) ∈ m.rows.map (·.field) := by
      rw [show m.rows.map (·.field) = _ from congrArg Prod.snd hmessage]
      exact List.mem_cons_self
    obtain ⟨l, hl, hl'⟩ := List.mem_map.mp hfield
    rw [calls_eq hgenerated]
    refine List.mem_append_left _ (List.mem_flatMap.mpr ⟨m, hm, List.mem_filterMap.mpr ⟨l, hl, ?_⟩⟩)
    rw [hl', hstructure]
    rfl
  · rw [functions_eq]
    refine List.mem_append_left _ (List.mem_map.mpr ⟨m', hm', ?_⟩)
    rw [show m'.name = "leader" from congrArg Prod.fst hmessage']
    rfl

end Generator

end Salvage.Protocol
