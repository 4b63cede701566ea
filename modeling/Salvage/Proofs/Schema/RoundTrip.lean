import Salvage.Proofs.Text.Utf8
import Salvage.Schema.Packed

/-!
# Packed schemas are read back

A packed record is specified by the octets of its parts: a reader of a part takes exactly these
octets, whatever stands behind them. The slots of a record say which of its parts are there, so the
readers of the parts, one after the other, take the whole record.
-/

namespace Salvage.Schema

/-! ## Packed forms -/

def packSlot (v : Nat) : Bytes :=
  Bytes.ofLittleEndian 2 v

def packNumber (x : Int) : Bytes :=
  packSlot ((x + 1) * 2).toNat

def packOptional : Option Int → Bytes
  | none => packSlot 1
  | some x => packNumber x

def packBlob (b : Bytes) : Bytes :=
  Bytes.ofLittleEndian 4 b.length ++ b

def packText (s : String) : Bytes :=
  packBlob (Bytes.ofString s)

def packAll {α : Type} (one : α → Bytes) (xs : List α) : Bytes :=
  xs.flatMap fun x => packBlob (one x)

structure Packing where
  mapNumber : Field → Int
  spellsNoFields : Record → Bool
  spellsNoProtocols : Bool

def Field.slotCount (f : Field) : Nat :=
  if f.isMap then 7 else if f.keyTag.isSome then 6 else if f.repeated then 5 else 4

def Field.pack (p : Packing) (f : Field) : Bytes :=
  packSlot f.slotCount ++ (packSlot 0 ++ (packOptional f.builtin ++ (packOptional f.typeId ++
    (packNumber f.tag ++ ((if f.repeated then packNumber 1 else []) ++
      (f.keyTag.elim [] packNumber ++ ((if f.isMap then packNumber (p.mapNumber f) else []) ++
        packText f.name)))))))

def Record.pack (p : Packing) (t : Record) : Bytes :=
  if t.fields.isEmpty && !p.spellsNoFields t then
    packSlot 1 ++ (packSlot 0 ++ packText t.name)
  else
    packSlot 2 ++ (packSlot 0 ++ (packSlot 0 ++ (packText t.name ++
      packBlob (packAll (Field.pack p) t.fields))))

def Exchange.slotCount (e : Exchange) : Nat :=
  if e.confirm then 5 else if e.response.isSome then 4 else if e.request.isSome then 3 else 2

def Exchange.pack (e : Exchange) : Bytes :=
  packSlot e.slotCount ++ (packSlot 0 ++ (packNumber e.tag ++
    ((if 3 ≤ e.slotCount then packOptional e.request else []) ++
      ((if 4 ≤ e.slotCount then packOptional e.response else []) ++
        ((if e.confirm then packNumber 1 else []) ++ packText e.name)))))

def packedTypes (p : Packing) (s : Schema) : Bytes :=
  packAll (Record.pack p) s.types

def packedProtocols (s : Schema) : Bytes :=
  packAll Exchange.pack s.protocols

def pack (p : Packing) (s : Schema) : Bytes :=
  if s.protocols.isEmpty && !p.spellsNoProtocols then
    packSlot 1 ++ (packSlot 0 ++ packBlob (packedTypes p s))
  else
    packSlot 2 ++ (packSlot 0 ++ (packSlot 0 ++ (packBlob (packedTypes p s) ++
      packBlob (packedProtocols s))))

/-! ## What can be packed -/

def SlotHolds (x : Int) : Prop :=
  0 ≤ x ∧ x ≤ 32766

instance : DecidablePred SlotHolds := fun x => inferInstanceAs (Decidable (0 ≤ x ∧ x ≤ 32766))

def Field.Fits (f : Field) : Prop :=
  SlotHolds f.tag ∧ (∀ x ∈ f.builtin, SlotHolds x) ∧ (∀ x ∈ f.typeId, SlotHolds x) ∧
    (∀ x ∈ f.keyTag, SlotHolds x) ∧ (f.keyTag.isSome → f.repeated) ∧ (f.isMap → f.keyTag.isSome)

def Exchange.Fits (e : Exchange) : Prop :=
  SlotHolds e.tag ∧ (∀ x ∈ e.request, SlotHolds x) ∧ (∀ x ∈ e.response, SlotHolds x) ∧
    (e.confirm → e.response = none)

def Fits (s : Schema) : Prop :=
  (∀ t ∈ s.types, ∀ f ∈ t.fields, f.Fits) ∧ ∀ e ∈ s.protocols, e.Fits

/-! ## Readers -/

/-- The reader takes the octets `a` from the front, whatever stands behind them, and gives `v`. -/
def Takes {α : Type} (r : Read α) (a : Bytes) (v : α) : Prop :=
  ∀ rest, r (a ++ rest) = .ok (v, rest)

namespace Takes

variable {α β : Type} {r : Read α} {f : α → Read β} {a b : Bytes} {v : α} {w : β}

lemma pure (v : α) : Takes (Pure.pure v) [] v :=
  fun _ => rfl

lemma bind (h : Takes r a v) (h' : Takes (f v) b w) : Takes (r >>= f) (a ++ b) w := by
  intro rest
  rw [List.append_assoc]
  change (r (a ++ (b ++ rest)) >>= fun x => f x.1 x.2) = _
  rw [h]
  exact h' rest

lemma bind_last (h : Takes r a v) (h' : Takes (f v) [] w) : Takes (r >>= f) a w := by
  simpa using h.bind h'

lemma bind_pure (h : Takes r a v) (g : α → β) : Takes (r >>= fun x => Pure.pure (g x)) a (g v) :=
  h.bind_last (pure (g v))

lemma only {p q : Prop} [Decidable p] [Decidable q] {other : α} (hpq : p ↔ q)
    (h : q → Takes r a v) (hother : ¬ q → other = v) :
    Takes (Schema.only p other r) (if q then a else []) v := by
  by_cases hq : q
  · rw [Schema.only, if_pos (hpq.mpr hq), if_pos hq]
    exact h hq
  · rw [Schema.only, if_neg (mt hpq.mp hq), if_neg hq, hother hq]
    exact pure v

end Takes

lemma get_bind_run {α : Type} (f : Bytes → Read α) (b : Bytes) : (get >>= f : Read α) b = f b b :=
  rfl

/-! ## Slots and blobs -/

lemma numberOf_takes {n : Nat} {a : Bytes} (ha : a.length = n) :
    Takes (numberOf n) a (Bytes.littleEndian a) := by
  intro rest
  have hroom : ¬ (a ++ rest).length < n := by
    rw [List.length_append]
    omega
  rw [numberOf, if_neg hroom, List.take_left' ha, List.drop_left' ha]

lemma slot_takes {v : Nat} (hv : v < 65536) : Takes slot (packSlot v) v := by
  have h := numberOf_takes (Bytes.length_ofLittleEndian 2 v)
  rwa [Bytes.littleEndian_ofLittleEndian hv] at h

variable {f : Field} {x : Int} {t : Record} {s : Schema}

lemma slot_number_takes (hx : SlotHolds x) : Takes slot (packNumber x) ((x + 1) * 2).toNat := by
  obtain ⟨hlow, hhigh⟩ := hx
  exact slot_takes (by omega)

lemma unpacked_packed (hx : SlotHolds x) : unpacked ((x + 1) * 2).toNat = x := by
  obtain ⟨hlow, hhigh⟩ := hx
  have hcast : (((x + 1) * 2).toNat : Int) = (x + 1) * 2 := Int.toNat_of_nonneg (by omega)
  rw [unpacked, hcast, Int.fdiv_eq_ediv_of_nonneg _ (by decide)]
  omega

lemma value_takes (hx : SlotHolds x) : Takes value (packNumber x) x := by
  have h := (slot_number_takes hx).bind_pure fun v => unpacked v
  rwa [unpacked_packed hx] at h

lemma value?_takes {o : Option Int} (ho : ∀ x ∈ o, SlotHolds x) :
    Takes value? (packOptional o) o := by
  cases o with
  | none => exact (slot_takes (by decide)).bind_pure fun v : Nat =>
      if v = 1 then none else some (unpacked v)
  | some x =>
    have hx : SlotHolds x := ho x rfl
    have h := (slot_number_takes hx).bind_pure fun v : Nat =>
      if v = 1 then none else some (unpacked v)
    have hodd : ((x + 1) * 2).toNat ≠ 1 := by
      obtain ⟨hlow, -⟩ := hx
      omega
    rwa [if_neg hodd, unpacked_packed hx] at h

lemma marker_takes (subject : Subject) (place : Nat) :
    Takes (marker subject place) (packSlot 0) () :=
  (slot_takes (by decide)).bind_last (Takes.pure ())

lemma schemaMarker_takes : Takes schemaMarker (packSlot 0) () :=
  (slot_takes (by decide)).bind_last (Takes.pure ())

lemma blob_takes {b : Bytes} (hb : b.length < 2 ^ 32) : Takes blob (packBlob b) b := by
  have hsize := numberOf_takes (Bytes.length_ofLittleEndian 4 b.length)
  rw [Bytes.littleEndian_ofLittleEndian hb] at hsize
  refine hsize.bind fun rest => ?_
  have hroom : ¬ (b ++ rest).length < b.length := by
    rw [List.length_append]
    omega
  rw [get_bind_run, if_neg hroom, List.take_left, List.drop_left]
  rfl

lemma text_takes {s : String} (hs : (packText s).length < 2 ^ 32) : Takes text (packText s) s := by
  have hlen : (Bytes.ofString s).length < 2 ^ 32 := by
    rw [packText, packBlob, List.length_append] at hs
    omega
  have h := (blob_takes hlen).bind_pure Utf8.decodeSkipping
  rwa [Utf8.decodeSkipping_ofString] at h

/-! ## Fields -/

namespace Field

variable {f : Field}

/-- A field that can be packed has a fifth slot if it is repeated, a sixth one if it has a key, and
a seventh one if it is a map. -/
lemma slotCount_iff (hf : f.Fits) : (5 ≤ f.slotCount ↔ f.repeated = true) ∧
    (6 ≤ f.slotCount ↔ f.keyTag.isSome = true) ∧ (7 ≤ f.slotCount ↔ f.isMap = true) := by
  obtain ⟨-, -, -, -, hkey, hmap⟩ := hf
  grind [slotCount]

lemma slotCount_lt (f : Field) : f.slotCount < 65536 := by
  grind [slotCount]

end Field

lemma repeated_takes (hf : f.Fits) :
    Takes (only (5 ≤ f.slotCount) false (do return (← value) == 1))
      (if f.repeated then packNumber 1 else []) f.repeated := by
  refine Takes.only (Field.slotCount_iff hf).1 (fun h => ?_) fun h => ?_
  · rw [h]
    exact (value_takes (by decide)).bind_pure fun x => x == 1
  · exact (eq_false_of_ne_true h).symm

lemma keyTag_takes (hf : f.Fits) :
    Takes (only (6 ≤ f.slotCount) none (some <$> value)) (f.keyTag.elim [] packNumber)
      f.keyTag := by
  have hsix := (Field.slotCount_iff hf).2.1
  obtain ⟨-, -, -, hkeyTag, -, -⟩ := hf
  rw [only]
  cases hk : f.keyTag with
  | none =>
    rw [if_neg (by simp [hsix, hk])]
    exact Takes.pure none
  | some x =>
    rw [if_pos (by simp [hsix, hk])]
    exact (value_takes (hkeyTag x hk)).bind_pure some

lemma isMap_takes (hf : f.Fits) (x : Int) :
    Takes (only (7 ≤ f.slotCount) false (do let _ ← value; return true))
      (if f.isMap then packNumber x else []) f.isMap := by
  refine Takes.only (Field.slotCount_iff hf).2.2 (fun h => ?_) fun h => ?_
  · have hslot := (numberOf_takes (a := packNumber x) (Bytes.length_ofLittleEndian 2 _))
    rw [h]
    exact (hslot.bind_pure fun v => unpacked v).bind_pure fun _ => true
  · exact (eq_false_of_ne_true h).symm

/-- **A packed field is read back.**

**Proof sketch.** The readers take the slots in order. A reader behind the fourth slot runs if the
number of slots says so, and the field has this slot in exactly these cases. -/
lemma readField_takes (p : Packing) (hf : f.Fits)
    (hlen : (f.pack p).length < 2 ^ 32) : Takes readField (f.pack p) f := by
  have hname : (packText f.name).length < 2 ^ 32 := by
    simp only [Field.pack, List.length_append] at hlen
    omega
  have hrepeated := repeated_takes hf
  have hkeyTag := keyTag_takes hf
  have hisMap := isMap_takes hf (p.mapNumber f)
  obtain ⟨htag, hbuiltin, htypeId, -, -, -⟩ := hf
  refine (slot_takes f.slotCount_lt).bind ((marker_takes _ _).bind ?_)
  refine (value?_takes hbuiltin).bind ((value?_takes htypeId).bind ((value_takes htag).bind ?_))
  refine hrepeated.bind (hkeyTag.bind (hisMap.bind ?_))
  exact (text_takes hname).bind_pure fun name => { f with name := name }

/-! ## Records one after the other -/

section All

variable {α : Type} {read : Read α} {one : α → Bytes} {xs : List α}

lemma length_le_length_packAll {x : α} (hx : x ∈ xs) :
    (one x).length ≤ (packAll one xs).length := by
  obtain ⟨ys, zs, rfl⟩ := List.append_of_mem hx
  simp only [packAll, packBlob, List.flatMap_append, List.flatMap_cons, List.length_append]
  omega

lemma length_le_packAll (one : α → Bytes) (xs : List α) : xs.length ≤ (packAll one xs).length := by
  induction xs with
  | nil => exact Nat.le_refl 0
  | cons x xs ih =>
    simp only [packAll, packBlob, List.flatMap_cons, List.length_append, List.length_cons,
      Bytes.length_ofLittleEndian] at ih ⊢
    omega

/-- At most `n` records one after the other are read back, if each of them is.

**Proof sketch.** Induction on the records: the first blob is taken off, and its content is the
first record. -/
lemma eachUpTo_packAll {n : Nat} (hn : xs.length ≤ n)
    (hread : ∀ x ∈ xs, (one x).length < 2 ^ 32 ∧ Takes read (one x) x) :
    eachUpTo read n (packAll one xs) = .ok xs := by
  induction xs generalizing n with
  | nil => cases n <;> rfl
  | cons x xs ih =>
    obtain ⟨n, rfl⟩ : ∃ m, n = m + 1 := ⟨n - 1, by simp at hn; omega⟩
    obtain ⟨hlen, htakes⟩ := hread x List.mem_cons_self
    have hone : read (one x) = .ok (x, []) := by simpa using htakes []
    have hrest := ih (by simpa using hn) fun y hy => hread y (List.mem_cons_of_mem _ hy)
    have hcons : packAll one (x :: xs) = packBlob (one x) ++ packAll one xs := rfl
    have hne : (packBlob (one x) ++ packAll one xs).isEmpty = false := by
      simp [packBlob, Bytes.ofLittleEndian]
    rw [hcons, eachUpTo, hne, if_neg Bool.false_ne_true, blob_takes hlen]
    change (read (one x) >>= _) = _
    rw [hone]
    rw [hrest]
    rfl

/-- **Records one after the other are read back**, if each of them is: the number of octets bounds
the number of blobs. -/
lemma each_packAll (hlen : (packAll one xs).length < 2 ^ 32)
    (hread : ∀ x ∈ xs, (one x).length < 2 ^ 32 → Takes read (one x) x) :
    each read (packAll one xs) = .ok xs := by
  refine eachUpTo_packAll (length_le_packAll one xs) fun x hx => ?_
  have hshort := Nat.lt_of_le_of_lt (length_le_length_packAll hx) hlen
  exact ⟨hshort, hread x hx hshort⟩

end All

/-! ## Record types and protocols -/

lemma readRecord_takes (p : Packing) (ht : ∀ f ∈ t.fields, f.Fits)
    (hlen : (t.pack p).length < 2 ^ 32) : Takes readRecord (t.pack p) t := by
  by_cases hempty : (t.fields.isEmpty && !p.spellsNoFields t) = true
  · rw [Record.pack, if_pos hempty] at hlen ⊢
    have hname : (packText t.name).length < 2 ^ 32 := by
      simp only [List.length_append] at hlen
      omega
    have hrecord : ({ name := t.name, fields := [] } : Record) = t := by
      simp only [Bool.and_eq_true, List.isEmpty_iff] at hempty
      rw [← hempty.1]
    have h := (text_takes hname).bind_pure fun name => ({ name, fields := [] } : Record)
    rw [hrecord] at h
    exact (slot_takes (by decide)).bind ((marker_takes _ _).bind h)
  · rw [Record.pack, if_neg hempty] at hlen ⊢
    have hparts : (packText t.name).length < 2 ^ 32 ∧
        (packAll (Field.pack p) t.fields).length < 2 ^ 32 := by
      simp only [packBlob, List.length_append] at hlen
      omega
    have hfields := each_packAll hparts.2 fun f hf => readField_takes p (ht f hf)
    refine (slot_takes (by decide)).bind ((marker_takes _ _).bind ?_)
    refine (marker_takes _ _).bind ((text_takes hparts.1).bind ?_)
    refine (blob_takes hparts.2).bind_last ?_
    rw [hfields]
    exact Takes.pure t

namespace Exchange

lemma slotCount_lt (e : Exchange) : e.slotCount < 65536 := by
  grind [slotCount]

lemma request_eq_none {e : Exchange} (h : ¬ 3 ≤ e.slotCount) : e.request = none := by
  cases hr : e.request with
  | none => rfl
  | some id => grind [slotCount]

end Exchange

lemma response_takes {e : Exchange} (he : e.Fits) :
    Takes (only (4 ≤ e.slotCount) (none, false) (readResponse e.slotCount))
      ((if 4 ≤ e.slotCount then packOptional e.response else []) ++
        if e.confirm then packNumber 1 else [])
      (e.response, e.confirm) := by
  obtain ⟨-, -, hresponse, hconfirm⟩ := he
  cases hc : e.confirm with
  | true =>
    have hcount : e.slotCount = 5 := by simp [Exchange.slotCount, hc]
    have hmark := (value_takes (x := 1) (by decide)).bind_pure fun x => x == 1
    rw [hconfirm hc, hcount, only, if_pos (by decide), if_pos (by decide), if_pos rfl]
    exact (value?_takes (by simp)).bind (hmark.bind_pure fun b => (none, b))
  | false =>
    cases hr : e.response with
    | none =>
      have hcount : ¬ 4 ≤ e.slotCount := by
        grind [Exchange.slotCount]
      rw [only, if_neg hcount, if_neg hcount]
      exact Takes.pure (none, false)
    | some id =>
      have hcount : 4 ≤ e.slotCount := by simp [Exchange.slotCount, hc, hr]
      rw [only, if_pos hcount, if_pos hcount]
      exact (value?_takes (hr ▸ hresponse)).bind (Takes.pure (some id, false))

lemma readExchange_takes {e : Exchange} (he : e.Fits) (hlen : e.pack.length < 2 ^ 32) :
    Takes readExchange e.pack e := by
  have hname : (packText e.name).length < 2 ^ 32 := by
    simp only [Exchange.pack, List.length_append] at hlen
    omega
  have hanswer := response_takes he
  obtain ⟨htag, hrequest, -, -⟩ := he
  have hask := Takes.only Iff.rfl (fun _ : 3 ≤ e.slotCount => value?_takes hrequest)
    fun h => (Exchange.request_eq_none h).symm
  refine (slot_takes e.slotCount_lt).bind ((marker_takes _ _).bind ((value_takes htag).bind ?_))
  refine hask.bind ?_
  rw [← List.append_assoc]
  exact hanswer.bind ((text_takes hname).bind_pure fun name => { e with name := name })

/-! ## Schemas -/

lemma parts_pack (p : Packing) (htypes : (packedTypes p s).length < 2 ^ 32)
    (hprotocols : (packedProtocols s).length < 2 ^ 32) :
    Takes parts (pack p s) (packedTypes p s, packedProtocols s) := by
  by_cases hempty : (s.protocols.isEmpty && !p.spellsNoProtocols) = true
  · have hnil : packedProtocols s = [] := by
      simp only [Bool.and_eq_true, List.isEmpty_iff] at hempty
      rw [packedProtocols, hempty.1]
      rfl
    rw [pack, if_pos hempty, hnil]
    refine (slot_takes (by decide)).bind (schemaMarker_takes.bind ?_)
    exact (blob_takes htypes).bind_pure fun types => (types, [])
  · rw [pack, if_neg hempty]
    refine (slot_takes (by decide)).bind (schemaMarker_takes.bind (schemaMarker_takes.bind ?_))
    refine (blob_takes htypes).bind ((blob_takes hprotocols).bind_pure fun b => (_, b))

lemma lookup_entry (name other : String) (id : Nat) (ids : List (String × Nat)) :
    ((name, id) :: ids).lookup other = if other = name then some id else ids.lookup other := by
  by_cases h : other = name
  · subst h
    simp
  · rw [List.lookup_cons, beq_eq_false_iff_ne.mpr h, if_neg h]

lemma lookup_noteId (name other : String) (id : Nat) (ids : List (String × Nat)) :
    (noteId name id ids).lookup other = if other = name then some id else ids.lookup other := by
  induction ids with
  | nil => exact lookup_entry name other id []
  | cons entry ids ih =>
    obtain ⟨n, i⟩ := entry
    by_cases hn : n = name
    · subst hn
      rw [noteId, if_pos rfl, lookup_entry, lookup_entry]
      split <;> rfl
    · rw [noteId, if_neg hn, lookup_entry, lookup_entry, ih]
      grind

lemma lookup_foldl_noteId {name : String} {types : List (Record × Nat)}
    (h : ∀ t ∈ types, t.1.name ≠ name) (ids : List (String × Nat)) :
    (types.foldl (fun ids (t, i) => noteId t.name i ids) ids).lookup name = ids.lookup name := by
  induction types generalizing ids with
  | nil => rfl
  | cons t types ih =>
    rw [List.foldl_cons, ih (fun u hu => h u (List.mem_cons_of_mem _ hu)), lookup_noteId,
      if_neg (h t List.mem_cons_self).symm]

lemma lookup_typeIds {before after : List Record}
    (hs : s.types = before ++ t :: after) (hafter : ∀ u ∈ after, u.name ≠ t.name) :
    s.typeIds.lookup t.name = some before.length := by
  rw [typeIds, hs, List.zipIdx_append, List.foldl_append, List.zipIdx_cons, List.foldl_cons,
    lookup_foldl_noteId, lookup_noteId, if_pos rfl]
  · simp
  · intro u hu
    exact hafter u.1 (List.fst_mem_of_mem_zipIdx hu)

lemma lookup_typeIds_of_count {i : Nat} (hi : s.types[i]? = some t)
    (hone : (s.types.map Record.name).count t.name = 1) : s.typeIds.lookup t.name = some i := by
  obtain ⟨hlt, rfl⟩ := List.getElem?_eq_some_iff.mp hi
  have hs : s.types = s.types.take i ++ s.types[i] :: s.types.drop (i + 1) := by
    rw [← List.drop_eq_getElem_cons hlt, List.take_append_drop]
  have hafter : ∀ u ∈ s.types.drop (i + 1), u.name ≠ s.types[i].name := by
    intro u hu hname
    have hcount : 0 < ((s.types.drop (i + 1)).map Record.name).count s.types[i].name :=
      List.count_pos_iff.mpr (List.mem_map.mpr ⟨u, hu, hname⟩)
    have hsplit := congrArg (fun ts => (ts.map Record.name).count s.types[i].name) hs
    simp only [List.map_append, List.map_cons, List.count_append, List.count_cons_self] at hsplit
    omega
  have h := lookup_typeIds hs hafter
  rwa [List.length_take_of_le (Nat.le_of_lt hlt)] at h

/-- **Packed schemas are read back.** Let a schema have any number of record types, fields and
protocols whose numbers slots can hold, keys only on repeated fields, maps only with keys, and
confirmations only without responses; and let four octets hold the lengths of its two blobs. Its
packed form, in each of the spellings that are left open, is read as this schema, and the number
found under the name of a type is the place of the type, if no other type has this name. -/
theorem ofBytes_pack (p : Packing) (s : Schema) (hs : s.Fits)
    (htypes : (packedTypes p s).length < 2 ^ 32)
    (hprotocols : (packedProtocols s).length < 2 ^ 32) :
    ofBytes (pack p s) = .ok s ∧
      ∀ (i : Nat) (t : Record), s.types[i]? = some t →
        (s.types.map Record.name).count t.name = 1 → s.typeIds.lookup t.name = some i := by
  obtain ⟨hfields, hexchanges⟩ := hs
  have hparts := parts_pack p htypes hprotocols []
  rw [List.append_nil] at hparts
  have hrecords : records (packedTypes p s) = .ok s.types :=
    each_packAll htypes fun t ht => readRecord_takes p (hfields t ht)
  have hprotos : exchanges (packedProtocols s) = .ok s.protocols :=
    each_packAll hprotocols fun e he => readExchange_takes (hexchanges e he)
  refine ⟨?_, fun i t hi hone => lookup_typeIds_of_count hi hone⟩
  rw [ofBytes, hparts]
  change (records (packedTypes p s) >>= _) = _
  rw [hrecords]
  change (exchanges (packedProtocols s) >>= _) = _
  rw [hprotos]
  rfl

def guildSchema : Schema where
  types := [
    ⟨"guild", [⟨"name", 0, some 2, none, false, none, false⟩,
      ⟨"wealth", 1, some 0, some 2, false, none, false⟩,
      ⟨"ranks", 32766, none, some 1, true, none, false⟩,
      ⟨"members", 3, none, some 2, true, some 0, false⟩,
      ⟨"éclat", 4, none, some 2, true, some 1, true⟩]⟩,
    ⟨"rank", []⟩,
    ⟨"member", [⟨"id", 0, some 0, none, false, none, false⟩,
      ⟨"", 1, some 1, none, true, none, false⟩]⟩]
  protocols := [⟨"join", 1, some 2, some 0, false⟩, ⟨"leave", 2, some 2, none, true⟩,
    ⟨"poll", 3, none, some 1, false⟩, ⟨"ping", 4, some 1, none, false⟩,
    ⟨"quit", 5, none, none, false⟩, ⟨"ack", 6, none, none, true⟩]

def shortPacking : Packing where
  mapNumber := fun _ => 1
  spellsNoFields := fun _ => false
  spellsNoProtocols := false

/-- The schema of guilds is read back, and its types are found under their names. -/
theorem guildSchema_read_back :
    guildSchema.Fits ∧ ofBytes (pack shortPacking guildSchema) = .ok guildSchema ∧
      guildSchema.typeIds.lookup "member" = some 2 := by
  have hfits : guildSchema.Fits := by
    simp [Fits, guildSchema, Field.Fits, Exchange.Fits, SlotHolds]
  have h := ofBytes_pack shortPacking guildSchema hfits (by decide +kernel) (by decide +kernel)
  exact ⟨hfits, h.1, h.2 2 _ rfl (by decide)⟩

end Salvage.Schema
