import Mathlib.Data.List.Infix
import Salvage.Protocol.Code

/-!
# What generated code moves over the wire

The generated code is a text. To compare the function that reads a structure with the one that writes
it, the lines of both are read back: a line that reads a field, or lines that write one, are
recognised by their exact words, and give the kind of the values that are moved and whether a count
of 16 bits is moved before them. The recognisers know nothing of the generator. The names of fields
and structures may be any texts.
-/

namespace Salvage.Text

/-! ## Texts without a character -/

variable {cs : List Char}

lemma stripWhere_eq_self {p : Char → Bool} (h : ∀ c ∈ cs, p c = false) : stripWhere p cs = cs := by
  have hdrop (l : List Char) (hl : ∀ c ∈ l, p c = false) : l.dropWhile p = l := by
    cases l with
    | nil => rfl
    | cons c r => rw [List.dropWhile_cons_of_neg (by simp [hl c])]
  rw [stripWhere, hdrop cs h, hdrop _ fun c hc => h c (List.mem_reverse.mp hc), List.reverse_reverse]

lemma replaceFrom_eq_self {p : List Char} {c : Char} (hp : c ∈ p) (hc : c ∉ cs)
    (q : List Char) : replaceFrom p q 0 cs = cs := by
  induction cs with
  | nil => rfl
  | cons d r ih =>
    have hnot : ¬ p.isPrefixOf (d :: r) = true := fun h =>
      hc ((List.isPrefixOf_iff_prefix.mp h).subset hp)
    rw [replaceFrom, if_neg hnot, ih fun h => hc (List.mem_cons_of_mem d h)]

lemma replaceFrom_append_singleton {c : Char} (hc : c ∉ cs) :
    replaceFrom [c] [] 0 (cs ++ [c]) = cs := by
  induction cs with
  | nil => simp [replaceFrom]
  | cons d r ih =>
    have hne : c ≠ d := fun h => hc (h ▸ List.mem_cons_self)
    have hnot : ¬ [c].isPrefixOf (d :: (r ++ [c])) = true := by simp [List.isPrefixOf, hne]
    rw [List.cons_append, replaceFrom, if_neg hnot, ih fun h => hc (List.mem_cons_of_mem d h)]

end Salvage.Text

namespace Salvage.Protocol

namespace Wire

/-! ## Texts with a known front and back -/

def between? (front back s : String) : Option String :=
  let middle := s.toList.drop front.toList.length
  if Text.startsWith s front && back.toList.isSuffixOf middle then
    some (String.ofList (middle.take (middle.length - back.toList.length)))
  else none

lemma between?_append (front back s : String) : between? front back (front ++ s ++ back) = some s := by
  have hdrop : (front ++ s ++ back).toList.drop front.toList.length = s.toList ++ back.toList := by
    rw [String.toList_append, String.toList_append, List.append_assoc, List.drop_left]
  have hfront : Text.startsWith (front ++ s ++ back) front = true := by
    rw [Text.startsWith, List.isPrefixOf_iff_prefix, String.toList_append, String.toList_append,
      List.append_assoc]
    exact List.prefix_append _ _
  have hback : back.toList.isSuffixOf (s.toList ++ back.toList) = true :=
    List.isSuffixOf_iff_suffix.mpr (List.suffix_append _ _)
  simp only [between?, hdrop, hfront, hback, Bool.and_self, if_true, List.length_append,
    Nat.add_sub_cancel, List.take_left', String.ofList_toList]

lemma between?_eq_none_of_back {front back s : String} {u v w : List Char} {c d : Char}
    (hback : back.toList = u ++ c :: w) (hs : s.toList = v ++ d :: w) (hne : c ≠ d) :
    between? front back s = none := by
  have hsuffix : back.toList.isSuffixOf (s.toList.drop front.toList.length) = false := by
    rw [Bool.eq_false_iff, ne_eq, List.isSuffixOf_iff_suffix]
    intro h
    obtain ⟨r, hr⟩ := h.trans (List.drop_suffix _ _)
    rw [hback, hs, ← List.append_assoc] at hr
    exact hne (List.cons.inj (List.append_inj_right' hr rfl)).1
  simp only [between?, hsuffix, Bool.and_false]
  rfl

lemma between?_eq_none (front : String) {back s : String} {c d : Char}
    (hback : back.toList.getLast? = some c) (hs : s.toList.getLast? = some d) (hne : c ≠ d) :
    between? front back s = none := by
  obtain ⟨u, hu⟩ := List.getLast?_eq_some_iff.mp hback
  obtain ⟨v, hv⟩ := List.getLast?_eq_some_iff.mp hs
  exact between?_eq_none_of_back hu hv hne

/-! ## Kinds -/

inductive Kind where
  | i8 | i16 | i32 | i64 | u16 | u32 | u64 | bool
  | text
  | record
deriving DecidableEq

def Kind.callName : Kind → String
  | i8 => "i8"
  | i16 => "i16"
  | i32 => "i32"
  | i64 => "i64"
  | u16 => "u16"
  | u32 => "u32"
  | u64 => "u64"
  | bool => "bool"
  | text => "string"
  | record => "raw_bytes"

def Kind.all : List Kind :=
  [i8, i16, i32, i64, u16, u32, u64, bool, text, record]

/-- The kind that an expression reads: a call of the reader, perhaps turned into a text, or a call of
the function that reads a structure. -/
def readKind? (expression : String) : Option Kind :=
  if Text.endsWith expression "::decode(reader)" ||
      Text.endsWith expression "::decode(&mut reader)" then some .record
  else Kind.all.find? fun k =>
    expression = "reader.read_" ++ k.callName ++ "_padded()" ∨
      expression = "reader.read_" ++ k.callName ++ "_padded().to_string()"

def handedOver (value : String) : List String :=
  [value, "*" ++ value, "&" ++ value, value ++ ".parse::<i64>().unwrap()", "&" ++ value ++ ".encode()"]

def writeKind? (value statement : String) : Option Kind :=
  Kind.all.find? fun k => (handedOver value).any fun given =>
    statement = "buf.write_" ++ k.callName ++ "(" ++ given ++ ");"

lemma find?_eq_some_of_unique {α : Type} {xs : List α} {p : α → Bool} {a : α} (ha : a ∈ xs)
    (hp : p a = true) (hunique : ∀ b ∈ xs, p b = true → b = a) : xs.find? p = some a := by
  cases h : xs.find? p with
  | none => exact absurd hp (List.find?_eq_none.mp h a ha)
  | some b =>
    rw [hunique b (List.mem_of_find?_eq_some h) (List.find?_some h)]

lemma Kind.eq_of_call {k l : Kind} {a b : List Char}
    (h : k.callName.toList ++ '(' :: a = l.callName.toList ++ '(' :: b) : k = l := by
  have hname (m : Kind) (r : List Char) :
      (m.callName.toList ++ '(' :: r).takeWhile (· != '(') = m.callName.toList := by
    cases m <;> rfl
  have hnames : k.callName.toList = l.callName.toList := by
    rw [← hname k a, h, hname]
  revert hnames
  cases k <;> cases l <;> decide

lemma writeKind?_eq (k : Kind) {value statement : String} (given : String)
    (hgiven : given ∈ handedOver value)
    (htext : statement = "buf.write_" ++ k.callName ++ "(" ++ given ++ ");") :
    writeKind? value statement = some k := by
  refine find?_eq_some_of_unique (by cases k <;> decide) ?_ fun l _ hl => ?_
  · exact List.any_eq_true.mpr ⟨given, hgiven, decide_eq_true htext⟩
  · obtain ⟨other, -, heq⟩ := List.any_eq_true.mp hl
    have hcall := congrArg String.toList (htext.symm.trans (of_decide_eq_true heq))
    have hbracket : "(".toList = ['('] := rfl
    simp only [String.toList_append, List.append_assoc, hbracket] at hcall
    exact (Kind.eq_of_call (List.append_cancel_left hcall)).symm

end Wire

open Code

def Code.Element.kind : Code.Element → Wire.Kind
  | primitive .i8 => .i8
  | primitive .i16 => .i16
  | primitive .i32 => .i32
  | primitive .i64 => .i64
  | primitive .u16 => .u16
  | primitive .u32 => .u32
  | primitive .u64 => .u64
  | primitive .bool => .bool
  | numberText => .i64
  | text => .text
  | record _ => .record

lemma Code.element_eq_repeatedElement {type : String} (h : type ≠ "int64str") (codeType : String) :
    element codeType type = repeatedElement codeType := by
  have hempty : "" ≠ "int64str" := by decide
  rw [repeatedElement, element, element, if_neg h, if_neg hempty]

lemma Code.repeatedElement_ne (codeType : String) :
    repeatedElement codeType ≠ .numberText := by
  have hempty : "" ≠ "int64str" := by decide
  rw [repeatedElement, element, if_neg hempty]
  cases Code.Primitive.ofName? codeType with
  | some p => exact fun h => nomatch h
  | none =>
    split_ifs <;> exact fun h => nomatch h

lemma Code.clean_eq_self {s : String} (h : ∀ c ∈ s.toList, Text.isBlank c = false) :
    clean s = s := by
  have hfolded (c : Char) (hc : Text.isBlank c = false) : isFolded c = false := by
    rw [isFolded, Bool.eq_false_iff]
    intro hor
    simp only [Bool.or_eq_true, beq_iff_eq] at hor
    obtain ((rfl | rfl) | rfl) | rfl := hor <;> revert hc <;> decide
  have hfold (b : Bool) (cs : List Char) (hcs : ∀ c ∈ cs, Text.isBlank c = false) :
      fold b cs = cs := by
    induction cs generalizing b with
    | nil => rfl
    | cons c r ih =>
      have hcs := List.forall_mem_cons.mp hcs
      rw [fold, hfolded c hcs.1, if_neg Bool.false_ne_true, ih false hcs.2]
  rw [clean, hfold false _ h, String.ofList_toList, Text.strip, Text.stripWhere_eq_self h,
    String.ofList_toList]

lemma Code.innerType_several {type : String} (hopen : '<' ∉ type.toList) (hclose : '>' ∉ type.toList) :
    innerType ("Vec<" ++ type ++ ">") = type := by
  have hfirst : Text.replaceAll ("Vec<" ++ type ++ ">") "Vec<" "" = type ++ ">" := by
    have hlist : ("Vec<" ++ type ++ ">").toList =
        'V' :: 'e' :: 'c' :: '<' :: (type.toList ++ ['>']) := by simp
    have hrest : '<' ∉ type.toList ++ ['>'] := by simp [hopen]
    have hcut : Text.replaceFrom ['V', 'e', 'c', '<'] [] 0
        ('V' :: 'e' :: 'c' :: '<' :: (type.toList ++ ['>'])) = type.toList ++ ['>'] :=
      Text.replaceFrom_eq_self (c := '<') (by decide) hrest []
    calc Text.replaceAll ("Vec<" ++ type ++ ">") "Vec<" ""
        = String.ofList
            (Text.replaceFrom ['V', 'e', 'c', '<'] [] 0 ("Vec<" ++ type ++ ">").toList) := rfl
      _ = String.ofList (type.toList ++ ['>']) := by rw [hlist, hcut]
      _ = type ++ ">" := by rw [String.ofList_append, String.ofList_toList]
  have hlist : (type ++ ">").toList = type.toList ++ ['>'] := by simp
  calc innerType ("Vec<" ++ type ++ ">")
      = Text.replaceAll (type ++ ">") ">" "" := by rw [innerType, hfirst]
    _ = String.ofList (Text.replaceFrom ['>'] [] 0 (type ++ ">").toList) := rfl
    _ = type := by rw [hlist, Text.replaceFrom_append_singleton hclose, String.ofList_toList]

namespace Wire

lemma endsWith_append (s back : String) : Text.endsWith (s ++ back) back = true := by
  rw [Text.endsWith, String.toList_append]
  exact List.isSuffixOf_iff_suffix.mpr (List.suffix_append _ _)

lemma readKind?_read (e : Code.Element) (owned : Bool) : readKind? (e.read owned) = some e.kind := by
  cases e with
  | record name =>
    have hend : (Text.endsWith ((Code.Element.record name).read owned) "::decode(reader)" ||
        Text.endsWith ((Code.Element.record name).read owned) "::decode(&mut reader)") = true := by
      rw [Bool.or_eq_true]
      cases owned with
      | false =>
        have hback : "::decode(reader)" = "::decode(" ++ ("reader" ++ ")") := by simp
        have hend := endsWith_append name "::decode(reader)"
        nth_rw 1 [hback, ← String.append_assoc, ← String.append_assoc] at hend
        exact .inl hend
      | true =>
        have hback : "::decode(&mut reader)" = "::decode(" ++ ("&mut reader" ++ ")") := by simp
        have hend := endsWith_append name "::decode(&mut reader)"
        nth_rw 1 [hback, ← String.append_assoc, ← String.append_assoc] at hend
        exact .inr hend
    rw [readKind?, if_pos hend]
    rfl
  | primitive p =>
    have howned : (Code.Element.primitive p).read owned = (Code.Element.primitive p).read true := rfl
    rw [howned]
    cases p <;> decide
  | numberText =>
    have howned : Code.Element.numberText.read owned = Code.Element.numberText.read true := rfl
    rw [howned]
    decide
  | text =>
    have howned : Code.Element.text.read owned = Code.Element.text.read true := rfl
    rw [howned]
    decide

lemma callName_kind (p : Code.Primitive) : (Code.Element.primitive p).kind.callName = p.name := by
  cases p <;> rfl

lemma writeKind?_writeField (e : Code.Element) (name : String) :
    writeKind? ("self." ++ name) (e.writeField name) = some e.kind := by
  cases e with
  | primitive p =>
    have hfront : "(self." = "(" ++ "self." := by simp
    refine writeKind?_eq _ ("self." ++ name) (by simp [handedOver]) ?_
    calc (Code.Element.primitive p).writeField name
        = "buf.write_" ++ p.name ++ "(self." ++ name ++ ");" := rfl
      _ = "buf.write_" ++ (Code.Element.primitive p).kind.callName ++ "(" ++ ("self." ++ name) ++
            ");" := by
        rw [hfront, callName_kind]
        simp only [String.append_assoc]
  | numberText =>
    have hfront : "buf.write_i64(self." = "buf.write_" ++ "i64" ++ "(" ++ "self." := by simp
    have hback : ".parse::<i64>().unwrap());" = ".parse::<i64>().unwrap()" ++ ");" := by simp
    refine writeKind?_eq _ ("self." ++ name ++ ".parse::<i64>().unwrap()") (by simp [handedOver]) ?_
    calc Code.Element.numberText.writeField name
        = "buf.write_i64(self." ++ name ++ ".parse::<i64>().unwrap());" := rfl
      _ = "buf.write_" ++ "i64" ++ "(" ++ ("self." ++ name ++ ".parse::<i64>().unwrap()") ++ ");" := by
        rw [hfront, hback]
        simp only [String.append_assoc]
  | text =>
    have hfront : "buf.write_string(&self." = "buf.write_" ++ "string" ++ "(" ++ "&" ++ "self." := by
      simp
    refine writeKind?_eq _ ("&" ++ ("self." ++ name)) (by simp [handedOver]) ?_
    calc Code.Element.text.writeField name
        = "buf.write_string(&self." ++ name ++ ");" := rfl
      _ = "buf.write_" ++ "string" ++ "(" ++ ("&" ++ ("self." ++ name)) ++ ");" := by
        rw [hfront]
        simp only [String.append_assoc]
  | record r =>
    have hfront : "buf.write_raw_bytes(&self." =
        "buf.write_" ++ "raw_bytes" ++ "(" ++ "&" ++ "self." := by simp
    have hback : ".encode());" = ".encode()" ++ ");" := by simp
    refine writeKind?_eq _ ("&" ++ ("self." ++ name) ++ ".encode()") (by simp [handedOver]) ?_
    calc (Code.Element.record r).writeField name
        = "buf.write_raw_bytes(&self." ++ name ++ ".encode());" := rfl
      _ = "buf.write_" ++ "raw_bytes" ++ "(" ++ ("&" ++ ("self." ++ name) ++ ".encode()") ++ ");" := by
        rw [hfront, hback]
        simp only [String.append_assoc]

lemma writeKind?_writeItem {e : Code.Element} (he : e ≠ .numberText) :
    writeKind? "v" e.writeItem = some e.kind := by
  cases e with
  | primitive p =>
    have hfront : "(*v);" = "(" ++ "*v" ++ ");" := by simp
    refine writeKind?_eq _ "*v" (by simp [handedOver]) ?_
    calc (Code.Element.primitive p).writeItem
        = "buf.write_" ++ p.name ++ "(*v);" := rfl
      _ = "buf.write_" ++ (Code.Element.primitive p).kind.callName ++ "(" ++ "*v" ++ ");" := by
        rw [hfront, callName_kind]
        simp only [String.append_assoc]
  | numberText => exact absurd rfl he
  | text =>
    refine writeKind?_eq _ "v" (by simp [handedOver]) ?_
    calc Code.Element.text.writeItem = "buf.write_string(v);" := rfl
      _ = "buf.write_" ++ "string" ++ "(" ++ "v" ++ ");" := by simp
  | record r =>
    refine writeKind?_eq _ "&v.encode()" (by simp [handedOver]) ?_
    calc (Code.Element.record r).writeItem = "buf.write_raw_bytes(&v.encode());" := rfl
      _ = "buf.write_" ++ "raw_bytes" ++ "(" ++ "&v.encode()" ++ ");" := by simp

/-! ## Layouts -/

structure Layout where
  /-- Whether there are several values, and their count before them, as a number of 16 bits. -/
  counted : Bool
  kind : Kind

/-- What stands in front of the value in an expression that reads a count and as many values. -/
def countedReadFront : String :=
  "\x7b \n" ++
  "            let count = reader.read_i16_padded() as usize; \n" ++
  "            let mut v = Vec::with_capacity(count); \n" ++
  "            for _ in 0..count \x7b \n" ++
  "                v.push("

def countedReadBack : String :=
  "); \n" ++ "            \x7d \n" ++ "            v \n" ++ "        \x7d"

def readLayout? (name line : String) : Option Layout :=
  (between? ("            " ++ name ++ ": ") "," line).bind fun expression =>
    (between? countedReadFront countedReadBack expression).elim
      ((readKind? expression).map (Layout.mk false))
      fun value => (readKind? value).map (Layout.mk true)

/-- What stands in front of the statement that writes a value in lines that write the count of the
values of a field, and each of them. -/
def countedWriteFront (name : String) : String :=
  "        buf.write_i16(self." ++ name ++ ".len() as i16);\n" ++
  "        for v in &self." ++ name ++ " \x7b\n" ++
  "            "

def countedWriteBack : String :=
  "\n" ++ "        \x7d"

def writeLayout? (name lines : String) : Option Layout :=
  (between? (countedWriteFront name) countedWriteBack lines).elim
    ((between? "        " "" lines).bind fun statement =>
      (writeKind? ("self." ++ name) statement).map (Layout.mk false))
    fun statement => (writeKind? "v" statement).map (Layout.mk true)

lemma getLast?_append {t : String} {c : Char} (s : String) (h : t.toList.getLast? = some c) :
    (s ++ t).toList.getLast? = some c := by
  rw [String.toList_append, List.getLast?_append, h]
  rfl

lemma getLast?_read (e : Code.Element) (owned : Bool) :
    (e.read owned).toList.getLast? = some ')' := by
  cases e with
  | primitive p => exact getLast?_append ("reader.read_" ++ p.name) (by decide)
  | numberText => exact (by decide : "reader.read_i64_padded().to_string()".toList.getLast? = some ')')
  | text => exact (by decide : "reader.read_string_padded()".toList.getLast? = some ')')
  | record name =>
    exact getLast?_append (name ++ "::decode(" ++ (if owned then "&mut reader" else "reader"))
      (by decide)

lemma getLast?_writeField (e : Code.Element) (name : String) :
    ("        " ++ e.writeField name).toList.getLast? = some ';' := by
  refine getLast?_append _ ?_
  cases e with
  | primitive p => exact getLast?_append ("buf.write_" ++ p.name ++ "(self." ++ name) (by decide)
  | numberText => exact getLast?_append ("buf.write_i64(self." ++ name) (by decide)
  | text => exact getLast?_append ("buf.write_string(&self." ++ name) (by decide)
  | record r => exact getLast?_append ("buf.write_raw_bytes(&self." ++ name) (by decide)

lemma readSeveral_eq (single : String) :
    readSeveral single = countedReadFront ++ single ++ countedReadBack := by
  calc readSeveral single
      = countedReadFront ++ single ++ "); \n" ++ "            \x7d \n" ++ "            v \n" ++
          "        \x7d" := rfl
    _ = countedReadFront ++ single ++ ("); \n" ++ "            \x7d \n" ++ "            v \n" ++
          "        \x7d") := by
      simp only [String.append_assoc]

lemma between?_read (e : Code.Element) (owned : Bool) :
    between? countedReadFront countedReadBack (e.read owned) = none := by
  have hback : countedReadBack.toList.getLast? = some '\x7d' := getLast?_append _ (by decide)
  exact between?_eq_none _ hback (getLast?_read e owned) (by decide)

lemma readLayout?_readExpression (name codeType type : String) (repeated owned : Bool) :
    readLayout? name ("            " ++ name ++ ": " ++
        readExpression codeType type repeated owned ++ ",") =
      some {
        counted := repeated
        kind := (element (if repeated then innerType codeType else codeType) type).kind } := by
  rw [readLayout?, between?_append, Option.bind_some]
  cases repeated with
  | true =>
    simp only [readExpression, if_true, readSeveral_eq, between?_append, Option.elim_some,
      readKind?_read, Option.map_some]
  | false =>
    simp only [readExpression, Bool.false_eq_true, if_false, between?_read, Option.elim_none,
      readKind?_read, Option.map_some]

lemma writeLayout?_writeStatement (name codeType type : String) (repeated : Bool) :
    writeLayout? name (writeStatement name codeType type repeated) =
      some { counted := repeated
             kind := (if repeated then repeatedElement (innerType codeType)
               else element codeType type).kind } := by
  cases repeated with
  | true =>
    have hseveral (item : String) :
        writeSeveral name item = countedWriteFront name ++ item ++ countedWriteBack := by
      calc writeSeveral name item
          = countedWriteFront name ++ item ++ "\n" ++ "        \x7d" := rfl
        _ = countedWriteFront name ++ item ++ ("\n" ++ "        \x7d") := String.append_assoc
    have hitem := writeKind?_writeItem (repeatedElement_ne (innerType codeType))
    have hstatement : writeStatement name codeType type true =
        writeSeveral name (repeatedElement (innerType codeType)).writeItem := rfl
    rw [hstatement, hseveral]
    rw [writeLayout?, between?_append, Option.elim_some, hitem, Option.map_some, if_pos rfl]
  | false =>
    have hback : countedWriteBack.toList.getLast? = some '\x7d' := getLast?_append _ (by decide)
    have hnone := between?_eq_none (countedWriteFront name) hback
      (getLast?_writeField (element codeType type) name) (by decide)
    have hsingle := between?_append "        " "" ((element codeType type).writeField name)
    rw [String.append_empty] at hsingle
    have hstatement : writeStatement name codeType type false =
        "        " ++ (element codeType type).writeField name := rfl
    rw [hstatement]
    rw [writeLayout?, hnone, Option.elim_none, hsingle, Option.bind_some, writeKind?_writeField,
      Option.map_some, if_neg Bool.false_ne_true]

/-! ## Kinds of fields -/

def readKind (type : String) (repeated : Bool) : Kind :=
  let codeType := fieldType (clean type) repeated
  (element (if repeated then innerType codeType else codeType) type).kind

def writtenKind (type : String) (repeated : Bool) : Kind :=
  let codeType := fieldType (clean type) repeated
  (if repeated then repeatedElement (innerType codeType) else element codeType type).kind

/-- Values are written as they are read, unless there are several that are numbers of 64 bits as
texts: those are written as texts. -/
lemma writtenKind_eq (type : String) (repeated : Bool) :
    writtenKind type repeated =
      if repeated = true ∧ type = "int64str" then .text else readKind type repeated := by
  by_cases h : repeated = true ∧ type = "int64str"
  · obtain ⟨rfl, rfl⟩ := h
    decide
  · rw [if_neg h]
    cases repeated with
    | false => simp only [writtenKind, readKind, Bool.false_eq_true, if_false]
    | true =>
      have htype : type ≠ "int64str" := fun heq => h ⟨rfl, heq⟩
      simp only [writtenKind, readKind, if_true, element_eq_repeatedElement htype]

/-- The types of definitions that are not structures, with the kinds of their values. -/
def typeKinds : List (String × Kind) :=
  [("int8", .i8), ("int16", .i16), ("int32", .i32), ("int64str", .i64), ("string", .text)]

def Kind.ofType (type : String) : Kind :=
  (typeKinds.lookup type).getD .record

/-- Whether a type is not a structure, or the name of one: without white space and angle brackets,
and not that of a type of the generated code. -/
def isTypeName (type : String) : Bool :=
  (typeKinds.lookup type).isSome ||
    (type.toList.all (fun c => !Text.isBlank c && c != '<' && c != '>') &&
      (Code.Primitive.ofName? type).isNone && type != "String")

variable {type : String}

lemma readKind_of_mem {k : Kind} (h : (type, k) ∈ typeKinds) (repeated : Bool) :
    readKind type repeated = k := by
  simp only [typeKinds, List.mem_cons, Prod.mk.injEq, List.not_mem_nil, or_false] at h
  obtain ⟨rfl, rfl⟩ | ⟨rfl, rfl⟩ | ⟨rfl, rfl⟩ | ⟨rfl, rfl⟩ | ⟨rfl, rfl⟩ := h <;>
    cases repeated <;> decide

lemma writtenKind_eq_readKind_iff (type : String) (repeated : Bool) :
    writtenKind type repeated = readKind type repeated ↔ ¬ (repeated = true ∧ type = "int64str") := by
  rw [writtenKind_eq]
  refine ⟨fun heq h => ?_, fun h => if_neg h⟩
  obtain ⟨rfl, rfl⟩ := h
  have hnumber : readKind "int64str" true = .i64 := readKind_of_mem (by decide) true
  rw [if_pos ⟨rfl, rfl⟩, hnumber] at heq
  cases heq

lemma readKind_of_record (hlookup : typeKinds.lookup type = none)
    (hblank : ∀ c ∈ type.toList, Text.isBlank c = false) (hopen : '<' ∉ type.toList)
    (hclose : '>' ∉ type.toList) (hprimitive : Code.Primitive.ofName? type = none)
    (hstring : type ≠ "String") (repeated : Bool) : readKind type repeated = .record := by
  have hnames : typeNames.lookup type = none := by
    rw [List.lookup_eq_none_iff] at hlookup ⊢
    simpa [typeKinds, typeNames] using hlookup
  have hcode : (if repeated then innerType (fieldType (clean type) repeated)
      else fieldType (clean type) repeated) = type := by
    cases repeated <;>
      simp [fieldType, typeName, clean_eq_self hblank, hnames,
        innerType_several hopen hclose]
  rw [readKind, hcode, element, hprimitive, if_neg hstring]
  rfl

lemma readKind_eq_ofType (h : isTypeName type = true) (repeated : Bool) :
    readKind type repeated = Kind.ofType type := by
  cases hlookup : typeKinds.lookup type with
  | some k =>
    have hmem : (type, k) ∈ typeKinds := by
      obtain ⟨l₁, l₂, hl, -⟩ := List.lookup_eq_some_iff.mp hlookup
      simp [hl]
    rw [readKind_of_mem hmem, Kind.ofType, hlookup, Option.getD_some]
  | none =>
    simp only [isTypeName, hlookup, Option.isSome_none, Bool.false_or, Bool.and_eq_true,
      List.all_eq_true, Bool.not_eq_true', bne_iff_ne, ne_eq, Option.isNone_iff_eq_none] at h
    obtain ⟨⟨hchars, hprimitive⟩, hstring⟩ := h
    rw [readKind_of_record hlookup (fun c hc => (hchars c hc).1.1) (fun hc => (hchars _ hc).1.2 rfl)
      (fun hc => (hchars _ hc).2 rfl) hprimitive hstring, Kind.ofType, hlookup, Option.getD_none]

end Wire

end Salvage.Protocol
