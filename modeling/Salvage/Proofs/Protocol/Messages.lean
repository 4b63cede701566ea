import Salvage.Proofs.Protocol.Wire
import Salvage.Proofs.Run
import Salvage.Protocol.Definition
import Salvage.Protocol.Generate

/-!
# Generated readers and writers

What the generator writes for a field does not depend on what it has met before, so that the function
that reads a structure and the one that writes it go through the same fields in the same order. The
code of all messages is put together from such pairs of functions.
-/

namespace Salvage.Protocol.Generator

open Code Run

variable {α β : Type}

/-! ## Steps that do not depend on the generator -/

def SameNotes (g g' : Generator) : Prop :=
  g'.definitions = g.definitions ∧ g'.known = g.known ∧ g'.unknown = g.unknown

/-- The step gives `r` whatever the generator has met before, and adds at most to what is printed. -/
def Gives (step : Generate α) (r : Except Doc.ShapeFault α) : Prop :=
  ∀ g, (∀ a, r = .ok a → ∃ h, step.run g = .ok a h ∧ g.SameNotes h) ∧
    ∀ f, r = .error f → ∃ h, step.run g = .error f h

namespace Gives

variable {step : Generate α} {r s : Except Doc.ShapeFault α}

lemma pure (a : α) : Gives (Pure.pure a) (.ok a) := by
  refine fun g => ⟨fun b hb => ⟨g, ?_, rfl, rfl, rfl⟩, fun f hf => nomatch hf⟩
  cases hb
  rfl

lemma look (r : Except Doc.ShapeFault α) : Gives (Generator.look r) r := by
  refine fun g => ⟨fun a ha => ⟨g, ?_, rfl, rfl, rfl⟩, fun f hf => ⟨g, ?_⟩⟩
  · rw [ha]
    rfl
  · rw [hf]
    rfl

lemma bind {next : α → Generate β} {s : α → Except Doc.ShapeFault β} (hstep : Gives step r)
    (hnext : ∀ a, Gives (next a) (s a)) : Gives (step >>= next) (r >>= s) := by
  intro g
  cases r with
  | error e =>
    obtain ⟨h, hrun⟩ := (hstep g).2 e rfl
    refine ⟨fun b hb => (nomatch hb), fun f hf => ⟨h, ?_⟩⟩
    cases hf
    exact bind_error hrun
  | ok a =>
    obtain ⟨h, hrun, hdefinitions, hknown, hunknown⟩ := (hstep g).1 a rfl
    rw [bind_ok hrun]
    refine ⟨fun b hb => ?_, (hnext a h).2⟩
    obtain ⟨h', hrun', hdefinitions', hknown', hunknown'⟩ := (hnext a h).1 b hb
    exact ⟨h', hrun', hdefinitions'.trans hdefinitions, hknown'.trans hknown,
      hunknown'.trans hunknown⟩

lemma of_eq (h : Gives step r) (hrs : r = s) : Gives step s :=
  hrs ▸ h

lemma get_bind {next : Generator → Generate α} (hnext : ∀ g, Gives (next g) r) :
    Gives (get >>= next) r :=
  fun g => hnext g g

lemma say_bind (line : String) (h : Gives step r) : Gives (say line >>= fun _ => step) r :=
  fun _ => h _

lemma run_eq (h : Gives step r) {g g' : Generator} {a : α} (hrun : step.run g = .ok a g') :
    r = .ok a ∧ g.SameNotes g' := by
  cases r with
  | ok b =>
    obtain ⟨u, hu, hsame⟩ := (h g).1 b rfl
    rw [hrun] at hu
    cases hu
    exact ⟨rfl, hsame⟩
  | error f =>
    obtain ⟨u, hu⟩ := (h g).2 f rfl
    rw [hrun] at hu
    cases hu

lemma eq_ok (h : Gives step r) {g g' : Generator} {a : α} (hrun : step.run g = .ok a g') :
    r = .ok a :=
  (h.run_eq hrun).1

end Gives

/-! ## Fields -/

/-- What the code needs to know of a field; nothing when it has no name or no type. -/
def fieldOf (field : Doc) : Except Doc.ShapeFault (Option FieldCode) := do
  let name ← cleanText (← field.getOr "name" (.str ""))
  let type ← cleanText (← field.getOr "type" (.str ""))
  if name.isEmpty || type.isEmpty then return none
  let repeated ← field.getOr "repeated" (.bool false)
  return some { name, type, repeated := repeated.isTruthy }

def fieldsOf : List Doc → Except Doc.ShapeFault (List FieldCode)
  | [] => .ok []
  | d :: r => do return (← fieldOf d).toList ++ (← fieldsOf r)

lemma gives_fieldCode? (field : Doc) : Gives (fieldCode? field) (fieldOf field) := by
  refine .bind (.look _) fun d => .bind (.look _) fun name => .bind (.look _) fun d =>
    .bind (.look _) fun type => ?_
  split_ifs
  · exact .pure none
  · exact .bind (.look _) fun d => .pure _

lemma gives_codeType (type : Doc) (repeated : Bool) :
    Gives (codeType type repeated) (do return fieldType (← cleanText type) repeated) := by
  refine .bind (.look _) fun type => .get_bind fun g => ?_
  split_ifs
  · exact .say_bind _ (.pure _)
  · exact .pure _

/-! ## Lines for fields -/

def readLine (owned : Bool) (f : FieldCode) : String :=
  "            " ++ safeName f.name ++ ": " ++
    readExpression (fieldType (clean f.type) f.repeated) f.type f.repeated owned ++ ","

def writeLine (f : FieldCode) : String :=
  writeStatement (safeName f.name) (fieldType (clean f.type) f.repeated) f.type
    f.repeated

lemma gives_readLines (owned : Bool) (field : Doc) :
    Gives (readLines owned field) (do return (← fieldOf field).toList.map (readLine owned)) := by
  refine .bind (gives_fieldCode? field) fun f => ?_
  cases f with
  | none => exact .pure []
  | some f => exact .bind (gives_codeType (.str f.type) f.repeated) fun type => .pure _

lemma gives_writeLines (field : Doc) :
    Gives (writeLines field) (do return (← fieldOf field).toList.map writeLine) := by
  refine .bind (gives_fieldCode? field) fun f => ?_
  cases f with
  | none => exact .pure []
  | some f => exact .bind (gives_codeType (.str f.type) f.repeated) fun type => .pure _

lemma gives_eachLines {f : Doc → Generate (List String)} {line : FieldCode → String}
    (hf : ∀ d, Gives (f d) (do return (← fieldOf d).toList.map line)) (items : List Doc) :
    Gives (eachLines f items) (do return (← fieldsOf items).map line) := by
  induction items with
  | nil => exact .pure []
  | cons d r ih =>
    refine ((hf d).bind fun lines => ih.bind fun rest => .pure (lines ++ rest)).of_eq ?_
    rw [fieldsOf]
    cases fieldOf d with
    | error e => rfl
    | ok o =>
      cases fieldsOf r with
      | error e => rfl
      | ok fs => exact congrArg Except.ok List.map_append.symm

/-! ## Structures -/

def implementation (name : String) (reads writes : List String) : List String :=
  ["impl " ++ name ++ " \x7b"] ++ readHead name ++ ["        Self \x7b"] ++ reads ++
    ["        \x7d", "    \x7d", "    pub fn encode(&self) -> Vec<u8> \x7b",
     "        let mut buf = ProtocolByteBuf::new_write();"] ++ writes ++
    ["        buf.into_bytes()", "    \x7d", "\x7d"]

lemma gives_implementationLines (name : String) (fields : Doc) :
    Gives (implementationLines name fields) (do
      let fs ← fieldsOf (← fields.parts)
      return implementation name (fs.map (readLine (!isPart name))) (fs.map writeLine)) := by
  refine Gives.of_eq (.bind (.look fields.parts) fun items =>
    .bind (gives_eachLines (gives_readLines (!isPart name)) items) fun reads =>
      .bind (gives_eachLines gives_writeLines items) fun writes =>
        .pure (implementation name reads writes)) ?_
  cases fields.parts with
  | error e => rfl
  | ok items =>
    cases h : fieldsOf items with
    | error e => simp only [h, bind, Except.bind]
    | ok fs => simp only [h, bind, Except.bind, pure, Except.pure]

lemma implementationLines_run {name : String} {fields : Doc} {g g' : Generator} {lines : List String}
    (h : (implementationLines name fields).run g = .ok lines g') :
    ∃ items fs, fields.parts = .ok items ∧ fieldsOf items = .ok fs ∧
      lines = implementation name (fs.map (readLine (!isPart name))) (fs.map writeLine) := by
  have h := (gives_implementationLines name fields).eq_ok h
  cases hitems : fields.parts with
  | error e =>
    rw [hitems] at h
    cases h
  | ok items =>
    rw [hitems] at h
    cases hfs : fieldsOf items with
    | error e =>
      simp only [hfs, bind, Except.bind] at h
      cases h
    | ok fs =>
      simp only [hfs, bind, Except.bind, pure, Except.pure, Except.ok.injEq] at h
      exact ⟨items, fs, rfl, hfs, h.symm⟩

structure FieldLines where
  field : FieldCode
  read : String
  write : String

structure MessageCode where
  name : String
  members : List String
  rows : List FieldLines

def MessageCode.lines (m : MessageCode) : List String :=
  structureHead m.name ++ m.members ++ ["\x7d\n"] ++
    implementation m.name (m.rows.map (·.read)) (m.rows.map (·.write)) ++ [""]

def MessageCode.Generated (m : MessageCode) : Prop :=
  ∀ l ∈ m.rows, l.read = readLine (!isPart m.name) l.field ∧ l.write = writeLine l.field

def definedFields (definition : Doc) : Except Doc.ShapeFault (List FieldCode) := do
  fieldsOf (← (← definition.getOr "fields" (.arr [])).parts)

lemma structureLines_run {name : String} {definition : Doc} {g g' : Generator} {lines : List String}
    (h : (structureLines name definition).run g = .ok lines g') :
    ∃ m : MessageCode, m.name = name ∧ m.Generated ∧ lines = m.lines ∧
      definedFields definition = .ok (m.rows.map (·.field)) := by
  obtain ⟨fields, g₁, hget, h⟩ := exists_of_bind_ok h
  obtain ⟨items, g₂, -, h⟩ := exists_of_bind_ok h
  obtain ⟨-, g₃, -, h⟩ := exists_of_bind_ok h
  obtain ⟨members, g₄, h⟩ : ∃ members g₄, (implementationLines name fields >>= fun functions =>
      pure (structureHead name ++ members ++ ["\x7d\n"] ++ functions ++ [""])).run g₄ =
        .ok lines g' := by
    split_ifs at h
    · exact ⟨_, _, h⟩
    · obtain ⟨members, g₄, -, h⟩ := exists_of_bind_ok h
      exact ⟨members, g₄, h⟩
  obtain ⟨functions, g₅, hrun, h⟩ := exists_of_bind_ok h
  have hfields := (Gives.look _).eq_ok hget
  obtain ⟨parts, fs, hparts, hfs, rfl⟩ := implementationLines_run hrun
  cases h
  refine ⟨⟨name, members, fs.map fun f => ⟨f, readLine (!isPart name) f, writeLine f⟩⟩, rfl, ?_, ?_, ?_⟩
  · intro l hl
    obtain ⟨f, -, rfl⟩ := List.mem_map.mp hl
    exact ⟨rfl, rfl⟩
  · simp only [MessageCode.lines, List.map_map]
    rfl
  · simp only [definedFields, hfields, hparts, hfs, bind, Except.bind, List.map_map]
    exact congrArg Except.ok (List.map_id fs).symm

/-! ## All messages -/

def nameOf (definition : Doc) : Except Doc.ShapeFault (Option String) := do
  let name ← cleanText (← definition.getOr "msg_name" (.str ""))
  return if isIdentifier name then some name else none

lemma gives_messageName? (definition : Doc) : Gives (messageName? definition) (nameOf definition) :=
  .bind (.look _) fun _ => .bind (.look _) fun _ => .pure _

def messagesOf : List (String × Doc) → Except Doc.ShapeFault (List (String × List FieldCode))
  | [] => .ok []
  | (_, d) :: r => do
    match ← nameOf d with
    | none => messagesOf r
    | some name =>
      let fields ← definedFields d
      return (name, fields) :: (← messagesOf r)

def MessageCode.message (m : MessageCode) : String × List FieldCode :=
  (m.name, m.rows.map (·.field))

lemma structures_run {entries : List (String × Doc)} {g g' : Generator} {lines : List String}
    (h : (structures entries).run g = .ok lines g') :
    ∃ ms : List MessageCode, (∀ m ∈ ms, m.Generated) ∧ lines = ms.flatMap MessageCode.lines ∧
      messagesOf entries = .ok (ms.map MessageCode.message) := by
  induction entries generalizing g g' lines with
  | nil =>
    cases h
    exact ⟨[], fun m hm => (nomatch hm), rfl, rfl⟩
  | cons e r ih =>
    obtain ⟨key, d⟩ := e
    obtain ⟨name, g₁, hname, h⟩ := exists_of_bind_ok h
    have hname := (gives_messageName? d).eq_ok hname
    cases name with
    | none =>
      obtain ⟨rest, g₂, hrest, h⟩ := exists_of_bind_ok (x := structures r) h
      obtain ⟨ms, hms, hlines, hmessages⟩ := ih hrest
      cases h
      refine ⟨ms, hms, hlines, ?_⟩
      simp only [messagesOf, hname, bind, Except.bind, hmessages]
    | some name =>
      obtain ⟨first, g₂, hfirst, h⟩ := exists_of_bind_ok h
      obtain ⟨rest, g₃, hrest, h⟩ := exists_of_bind_ok h
      obtain ⟨m, hmname, hm, hmlines, hfields⟩ := structureLines_run hfirst
      obtain ⟨ms, hms, hlines, hmessages⟩ := ih hrest
      cases h
      refine ⟨m :: ms, List.forall_mem_cons.mpr ⟨hm, hms⟩, ?_, ?_⟩
      · rw [List.flatMap_cons, hmlines, hlines]
      · simp only [messagesOf, hname, bind, Except.bind, hfields, hmessages, pure, Except.pure,
          List.map_cons, MessageCode.message, hmname]

def messagesHead : List String :=
  ["// Auto-generated from messages.json", "", "#![allow(non_local_definitions)]",
   "use serde::\x7bSerialize, Deserialize\x7d;", "use crate::packet::ProtocolByteBuf;",
   "use tracing::info;", ""]

lemma messages_run {g g' : Generator} {code : String} (h : messages.run g = .ok code g') :
    ∃ entries, ∃ ms : List MessageCode, g.definitions.fields "items" = .ok entries ∧
      messagesOf entries = .ok (ms.map MessageCode.message) ∧ (∀ m ∈ ms, m.Generated) ∧
      code = "\n".intercalate (messagesHead ++ ms.flatMap MessageCode.lines ++ g'.placeholders) := by
  obtain ⟨items, g₁, hitems, h⟩ := exists_of_bind_ok h
  obtain ⟨lines, g₂, hlines, h⟩ := exists_of_bind_ok h
  obtain ⟨ms, hms, rfl, hmessages⟩ := structures_run hlines
  have hentries : g.definitions.fields "items" = .ok items :=
    (Gives.look (g.definitions.fields "items")).eq_ok (g := g) hitems
  cases h
  exact ⟨items, ms, hentries, hmessages, hms, rfl⟩

/-! ## Definitions of the expected shape -/

/-- What the code needs to know of a field; nothing when it has no name or no type. -/
def codeOf? (f : Field) : Option FieldCode :=
  if (clean f.name).isEmpty || (clean f.type).isEmpty then none
  else some { name := clean f.name, type := clean f.type, repeated := f.repeated }

def messagesIn (ds : Definitions) : List (String × List FieldCode) :=
  ds.filterMap fun (_, d) =>
    if isIdentifier (clean d.name) then some (clean d.name, d.fields.filterMap codeOf?)
    else none

lemma fieldOf_toDoc (f : Field) : fieldOf f.toDoc = .ok (codeOf? f) := by
  have hname : f.toDoc.getOr "name" (.str "") = .ok (.str f.name) := rfl
  have htype : f.toDoc.getOr "type" (.str "") = .ok (.str f.type) := rfl
  have hrepeated : f.toDoc.getOr "repeated" (.bool false) = .ok (.bool f.repeated) := rfl
  simp only [fieldOf, hname, htype, hrepeated, cleanText, bind, Except.bind, codeOf?]
  split_ifs <;> rfl

lemma fieldsOf_toDoc (fs : List Field) :
    fieldsOf (fs.map Field.toDoc) = .ok (fs.filterMap codeOf?) := by
  induction fs with
  | nil => rfl
  | cons f r ih =>
    simp only [List.map_cons, fieldsOf, fieldOf_toDoc, ih, bind, Except.bind, pure, Except.pure]
    cases h : codeOf? f with
    | none => rw [List.filterMap_cons_none h]; rfl
    | some c => rw [List.filterMap_cons_some h]; rfl

lemma messagesOf_toDoc (ds : Definitions) :
    messagesOf (ds.map fun (k, d) => (k.text, d.toDoc)) = .ok (messagesIn ds) := by
  induction ds with
  | nil => rfl
  | cons e r ih =>
    obtain ⟨k, d⟩ := e
    have hname : nameOf d.toDoc = .ok (if isIdentifier (clean d.name) then
        some (clean d.name) else none) := rfl
    have hfields : definedFields d.toDoc = .ok (d.fields.filterMap codeOf?) := fieldsOf_toDoc d.fields
    simp only [List.map_cons, messagesOf, hname, hfields, ih, bind, Except.bind, pure, Except.pure,
      messagesIn, List.filterMap_cons]
    by_cases hid : isIdentifier (clean d.name) = true
    · simp only [if_pos hid]
    · simp only [if_neg hid]

def Ends (step : Generate α) : Prop :=
  ∀ g, ∃ a g', step.run g = .ok a g'

namespace Ends

lemma pure (a : α) : Ends (Pure.pure a) :=
  fun g => ⟨a, g, rfl⟩

lemma bind {step : Generate α} {next : α → Generate β} (hstep : Ends step)
    (hnext : ∀ a, Ends (next a)) : Ends (step >>= next) := by
  intro g
  obtain ⟨a, g', hrun⟩ := hstep g
  rw [bind_ok hrun]
  exact hnext a g'

lemma change (f : Generator → Generator) : Ends (modify f) :=
  fun g => ⟨⟨⟩, f g, rfl⟩

lemma of_gives {step : Generate α} {a : α} (h : Gives step (.ok a)) : Ends step := by
  intro g
  obtain ⟨g', hrun, -⟩ := (h g).1 a rfl
  exact ⟨a, g', hrun⟩

lemma eachLines {f : Doc → Generate (List String)} {items : List Doc} (hf : ∀ d ∈ items, Ends (f d)) :
    Ends (Generator.eachLines f items) := by
  induction items with
  | nil => exact .pure []
  | cons d r ih =>
    have hf := List.forall_mem_cons.mp hf
    exact hf.1.bind fun _ => (ih hf.2).bind fun _ => .pure _

end Ends

lemma ends_memberLines (owner : String) (f : Field) : Ends (memberLines owner f.toDoc) := by
  refine (Ends.of_gives ((gives_fieldCode? f.toDoc).of_eq (fieldOf_toDoc f))).bind fun c => ?_
  cases c with
  | none => exact (Ends.change _).bind fun _ => .pure []
  | some c => exact (Ends.of_gives (gives_codeType (.str c.type) c.repeated)).bind fun _ => .pure _

lemma ends_noteUnknowns (fs : List Field) : Ends (noteUnknowns (fs.map Field.toDoc)) := by
  induction fs with
  | nil => exact .pure ()
  | cons f r ih => exact (Ends.change _).bind fun _ => ih

lemma ends_implementationLines (name : String) (fs : List Field) :
    Ends (implementationLines name (.arr (fs.map Field.toDoc))) := by
  have hgives := gives_implementationLines name (.arr (fs.map Field.toDoc))
  simp only [Doc.parts, bind, Except.bind, fieldsOf_toDoc, Pure.pure, Except.pure] at hgives
  exact .of_gives hgives

lemma ends_structureLines (name : String) (d : Definition) : Ends (structureLines name d.toDoc) := by
  have hmember : ∀ field ∈ d.fields.map Field.toDoc, Ends (memberLines name field) := by
    intro field hfield
    obtain ⟨f, -, rfl⟩ := List.mem_map.mp hfield
    exact ends_memberLines name f
  have hend (members : List String) := (ends_implementationLines name d.fields).bind fun functions =>
    .pure (structureHead name ++ members ++ ["\x7d\n"] ++ functions ++ [""])
  refine (ends_noteUnknowns d.fields).bind fun _ => ?_
  split_ifs
  · exact hend _
  · exact (Ends.eachLines hmember).bind hend

lemma ends_messageName? (d : Definition) : Ends (messageName? d.toDoc) :=
  .of_gives (a := if isIdentifier (clean d.name) then some (clean d.name) else none)
    (gives_messageName? d.toDoc)

lemma ends_structures (ds : Definitions) :
    Ends (structures (ds.map fun (k, d) => (k.text, d.toDoc))) := by
  induction ds with
  | nil => exact .pure []
  | cons e r ih =>
    obtain ⟨k, d⟩ := e
    refine (ends_messageName? d).bind fun name => ?_
    cases name with
    | none => exact ih.bind fun _ => .pure _
    | some name => exact (ends_structureLines name d).bind fun _ => ih.bind fun _ => .pure _

lemma definedNames_toDoc (ds : Definitions) :
    ∃ names, definedNames ((ds.map fun (k, d) => (k.text, d.toDoc)).map (·.2)) = .ok names := by
  induction ds with
  | nil => exact ⟨[], rfl⟩
  | cons e r ih =>
    obtain ⟨names, hnames⟩ := ih
    have hname : definedName? e.2.toDoc = .ok (some (.str e.2.name)) := rfl
    simp only [List.map_cons, definedNames, hname, hnames, bind, Except.bind, Pure.pure, Except.pure]
    exact ⟨_, rfl⟩

lemma exists_load_run (ds : Definitions) (g : Generator) :
    ∃ g', (load ds.toDoc).run g = .ok () g' ∧ g'.definitions = ds.toDoc := by
  obtain ⟨names, hnames⟩ := definedNames_toDoc ds
  refine ⟨{ g with definitions := ds.toDoc, known := names }, ?_, rfl⟩
  calc (load ds.toDoc).run g
      = (look (definedNames ((ds.map fun (k, d) => (k.text, d.toDoc)).map (·.2))) >>= fun known =>
          modify fun g => { g with known := known }).run { g with definitions := ds.toDoc } := rfl
    _ = .ok () { g with definitions := ds.toDoc, known := names } := by
      rw [hnames]
      rfl

lemma entries_run {ds : Definitions} {g : Generator} (hg : g.definitions = ds.toDoc) :
    entries.run g = .ok (ds.map fun (k, d) => (k.text, d.toDoc)) g := by
  change (look (g.definitions.fields "items")).run g = _
  rw [hg]
  rfl

lemma exists_messages_run {ds : Definitions} {g : Generator} (hg : g.definitions = ds.toDoc) :
    ∃ code g', messages.run g = .ok code g' := by
  obtain ⟨lines, g', hlines⟩ := ends_structures ds g
  rw [messages, bind_ok (entries_run hg), bind_ok hlines]
  exact ⟨_, g', rfl⟩

/-! ## Layouts -/

lemma readLayout?_readLine (owned : Bool) (f : FieldCode) :
    Wire.readLayout? (safeName f.name) (readLine owned f) =
      some { counted := f.repeated, kind := Wire.readKind f.type f.repeated } :=
  Wire.readLayout?_readExpression _ _ _ _ owned

lemma writeLayout?_writeLine (f : FieldCode) :
    Wire.writeLayout? (safeName f.name) (writeLine f) =
      some { counted := f.repeated, kind := Wire.writtenKind f.type f.repeated } :=
  Wire.writeLayout?_writeStatement _ _ _ _

/-- A message with a number as a text, a small number and several structures. -/
def bag : Definitions :=
  [(.number 7, { name := "pt_bag"
                 fields := [⟨"id", "int64str", "", false⟩, ⟨"type", "int8", "", false⟩,
                   ⟨"owners", "pt_owner", "", true⟩] })]

/-- A field with several numbers of 64 bits as texts. -/
def ids : Doc :=
  .obj [("name", .str "ids"), ("type", .str "int64str"), ("repeated", .bool true)]

end Salvage.Protocol.Generator
