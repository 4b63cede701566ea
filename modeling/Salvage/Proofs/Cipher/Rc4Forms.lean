import Mathlib.Logic.Function.Iterate
import Salvage.Container.Open
import Salvage.Proofs.Chunk.Function

/-!
# RC4 in three forms

Containers, the texts of chunks and the code of chunks are all under RC4, each under a form of its
own. Containers compute in whole numbers, with remainders and with the key written out to 256
octets, and read the octet of the stream behind the exchange. Texts compute in words of 32 bits that
are masked to octets, and repeat the key by a remainder. Code computes in octets that wrap around,
takes a key of eight octets by a mask, and leaves the first four octets as they are. All three go
through the same arrangements, step by step, and give the same stream.
-/

namespace Salvage

namespace Rc4

/-! ## The cipher step by step -/

def mixStep (key : Nat → UInt8) (s : Vector UInt8 256 × UInt8) (i : Nat) :
    Vector UInt8 256 × UInt8 :=
  let j := s.2 + read s.1 (UInt8.ofNat i) + key i
  (exchange s.1 (UInt8.ofNat i) j, j)

/-- The arrangement and the pointer after the first `n` steps of mixing in a key. -/
def mixedTo (key : Nat → UInt8) (n : Nat) : Vector UInt8 256 × UInt8 :=
  (List.range n).foldl (mixStep key) (identityBox, 0)

def IsArrangement (octets : List Nat) : Prop :=
  octets.Perm (List.range 256)

section Steps

variable {key key' : Nat → UInt8} {n : Nat} {box : Vector UInt8 256} {a b : UInt8}

lemma mixedTo_succ (key : Nat → UInt8) (n : Nat) :
    mixedTo key (n + 1) = mixStep key (mixedTo key n) n := by
  simp [mixedTo, List.range_succ]

lemma mixedTo_congr (h : ∀ i < n, key i = key' i) : mixedTo key n = mixedTo key' n := by
  induction n with
  | zero => rfl
  | succ n ih =>
    rw [mixedTo_succ, mixedTo_succ, ih fun i hi => h i (by omega), mixStep, mixStep,
      h n (by omega)]

lemma mix_mixedTo (key : Nat → UInt8) (hn : n ≤ 256) :
    mix key (256 - n) (mixedTo key n).2 (mixedTo key n).1 = mix key 256 0 identityBox := by
  induction n with
  | zero => rfl
  | succ n ih =>
    rw [← ih (by omega), mixedTo_succ]
    have hleft : 256 - n = 256 - (n + 1) + 1 := by omega
    have hindex : 255 - (256 - (n + 1)) = n := by omega
    rw [hleft, mix, hindex]
    rfl

lemma schedule_eq (key : Nat → UInt8) : schedule key = { box := (mixedTo key 256).1 } := by
  rw [schedule, ← mix_mixedTo key (Nat.le_refl 256)]
  rfl

lemma isArrangement_exchange (h : IsArrangement (box.toList.map UInt8.toNat)) :
    IsArrangement ((exchange box a b).toList.map UInt8.toNat) := by
  have hperm : (exchange box a b).toList.Perm box.toList :=
    (Vector.swap_perm a.toNat_lt b.toNat_lt).toList
  exact (hperm.map _).trans h

lemma isArrangement_identityBox : IsArrangement (identityBox.toList.map UInt8.toNat) := by
  have horder : identityBox.toList.map UInt8.toNat = List.range 256 := by
    decide +kernel
  rw [horder]
  exact .refl _

lemma isArrangement_mixedTo (key : Nat → UInt8) (n : Nat) :
    IsArrangement ((mixedTo key n).1.toList.map UInt8.toNat) := by
  induction n with
  | zero => exact isArrangement_identityBox
  | succ n ih =>
    rw [mixedTo_succ]
    exact isArrangement_exchange ih

lemma isArrangement_iterate_next {r : Rc4} (h : IsArrangement (r.box.toList.map UInt8.toNat))
    (n : Nat) : IsArrangement (((fun r : Rc4 => r.next.2)^[n] r).box.toList.map UInt8.toNat) := by
  induction n generalizing r with
  | zero => exact h
  | succ n ih => exact ih (isArrangement_exchange h)

end Steps

/-! ## Arrangements as lists -/

section Lists

variable (box : Vector UInt8 256) (a b d : UInt8)

lemma getD_toList : box.toList.getD a.toNat d = read box a := by
  have ha : a.toNat < box.toList.length := by
    rw [Vector.length_toList]
    exact a.toNat_lt
  rw [List.getD_eq_getElem?_getD, List.getElem?_eq_getElem ha]
  rfl

lemma set_set_toList :
    (box.toList.set a.toNat (read box b)).set b.toNat (read box a) =
      (exchange box a b).toList := by
  rw [exchange, Vector.toList_swap]
  rfl

lemma getD_map_toList : (box.toList.map UInt8.toNat).getD a.toNat 0 = (read box a).toNat := by
  have ha : a.toNat < box.toList.length := by
    rw [Vector.length_toList]
    exact a.toNat_lt
  rw [List.getD_eq_getElem?_getD, List.getElem?_map, List.getElem?_eq_getElem ha]
  rfl

lemma set_set_map_toList :
    ((box.toList.map UInt8.toNat).set a.toNat (read box b).toNat).set b.toNat (read box a).toNat =
      (exchange box a b).toList.map UInt8.toNat := by
  rw [← set_set_toList, List.map_set, List.map_set]

lemma foldl_range_eq {σ τ : Type} (form : σ → τ) {f : σ → Nat → σ} {g : τ → Nat → τ} {n : Nat}
    (h : ∀ s, ∀ i < n, g (form s) i = form (f s i)) (s : σ) :
    (List.range n).foldl g (form s) = form ((List.range n).foldl f s) := by
  induction n with
  | zero => rfl
  | succ n ih =>
    rw [List.range_succ, List.foldl_append, List.foldl_append, ih fun s i hi => h s i (by omega)]
    exact h _ n (by omega)

end Lists

/-! ## In whole numbers -/

structure Whole where
  box : List Nat
  /-- The pointer that goes through the arrangement. -/
  i : Nat
  j : Nat

namespace Whole

def table (key : Bytes) : List Nat :=
  (List.range 256).map fun i => (key.getD (i % key.length) 0).toNat

def mixStep (table : List Nat) (s : List Nat × Nat) (i : Nat) : List Nat × Nat :=
  let j := (s.2 + s.1.getD i 0 + table.getD i 0) % 256
  ((s.1.set i (s.1.getD j 0)).set j (s.1.getD i 0), j)

/-- The arrangement and the pointer after the first `n` steps of mixing in a key. -/
def mixed (key : Bytes) (n : Nat) : List Nat × Nat :=
  (List.range n).foldl (mixStep (table key)) (List.range 256, 0)

/-- One step: the two octets are exchanged, and then added to find the octet of the stream. -/
def next (s : Whole) : Nat × Whole :=
  let i := (s.i + 1) % 256
  let j := (s.j + s.box.getD i 0) % 256
  let box := (s.box.set i (s.box.getD j 0)).set j (s.box.getD i 0)
  (box.getD ((box.getD i 0 + box.getD j 0) % 256) 0 &&& 0xFF, ⟨box, i, j⟩)

def apply (s : Whole) : Bytes → Bytes
  | [] => []
  | b :: rest => UInt8.ofNat (b.toNat ^^^ s.next.1) :: apply s.next.2 rest

def start (key : Bytes) : Whole :=
  ⟨(mixed key 256).1, 0, 0⟩

def of (r : Rc4) : Whole :=
  ⟨r.box.toList.map UInt8.toNat, r.i.toNat, r.j.toNat⟩

/-- The octets of a key that is repeated as often as needed. -/
def keyAt (key : Bytes) (i : Nat) : UInt8 :=
  key.getD (i % key.length) 0

lemma mixStep_eq (key : Bytes) (s : Vector UInt8 256 × UInt8) {i : Nat} (hi : i < 256) :
    mixStep (table key) (s.1.toList.map UInt8.toNat, s.2.toNat) i =
      ((Rc4.mixStep (keyAt key) s i).1.toList.map UInt8.toNat,
        (Rc4.mixStep (keyAt key) s i).2.toNat) := by
  obtain ⟨a, rfl⟩ : ∃ a : UInt8, i = a.toNat := ⟨UInt8.ofNat i, by simp; omega⟩
  have htable : (table key).getD a.toNat 0 = (keyAt key a.toNat).toNat := by
    rw [table, List.getD_eq_getElem?_getD, List.getElem?_map, List.getElem?_range hi]
    rfl
  have hj : (s.2.toNat + (read s.1 a).toNat + (keyAt key a.toNat).toNat) % 256 =
      (s.2 + read s.1 a + keyAt key a.toNat).toNat := by
    simp only [UInt8.toNat_add]
    omega
  rw [mixStep, Rc4.mixStep, UInt8.ofNat_toNat]
  rw [getD_map_toList, htable, hj, getD_map_toList, set_set_map_toList]

lemma mixed_eq (key : Bytes) {n : Nat} (hn : n ≤ 256) :
    mixed key n =
      ((mixedTo (keyAt key) n).1.toList.map UInt8.toNat, (mixedTo (keyAt key) n).2.toNat) := by
  have horder : List.range 256 = identityBox.toList.map UInt8.toNat := by decide +kernel
  rw [mixed, horder]
  exact foldl_range_eq (fun s : Vector UInt8 256 × UInt8 => (s.1.toList.map UInt8.toNat, s.2.toNat))
    (fun s i hi => mixStep_eq key s (by omega)) (identityBox, 0)

/-- **One step of this form is one step of the cipher.** Behind the exchange the two octets have
changed places, and their sum is the same. -/
lemma next_of (r : Rc4) : (of r).next = (r.next.1.toNat, of r.next.2) := by
  obtain ⟨box, i, j⟩ := r
  -- each remainder and the mask is what an octet does by itself
  have hi : (i.toNat + 1) % 256 = (i + 1).toNat := by
    rw [UInt8.toNat_add]
    rfl
  have hj : (j.toNat + (read box (i + 1)).toNat) % 256 = (j + read box (i + 1)).toNat := by
    rw [UInt8.toNat_add]
  have hlow (x : UInt8) : x.toNat &&& 0xFF = x.toNat := by
    have hlt := x.toNat_lt
    rw [show 0xFF = 2 ^ 8 - 1 from rfl, Nat.and_two_pow_sub_one_eq_mod]
    omega
  have hsum (a b : UInt8) :
      ((read (exchange box a b) a).toNat + (read (exchange box a b) b).toNat) % 256 =
        (read box a + read box b).toNat := by
    have hb : read (exchange box a b) b = read box a := by
      rw [read_exchange]
      by_cases h : b = a
      · rw [if_pos h, h]
      · rw [if_neg h, if_pos rfl]
    rw [hb, read_exchange, if_pos rfl, UInt8.toNat_add, Nat.add_comm]
  simp only [next, of, Rc4.next, hi, getD_map_toList, hj, set_set_map_toList, hsum, hlow]

lemma apply_of (r : Rc4) (data : Bytes) : (of r).apply data = r.apply data := by
  induction data generalizing r with
  | nil => rfl
  | cons b rest ih =>
    rw [apply, next_of, ih, ← UInt8.toNat_xor, UInt8.ofNat_toNat]
    rfl

lemma start_eq (key : Bytes) : start key = of (ofKey key) := by
  have hkey : ofKey key = schedule (keyAt key) := rfl
  rw [start, mixed_eq key (Nat.le_refl _), hkey, schedule_eq]
  simp [of]

end Whole

/-! ## In masked words -/

structure Masked where
  box : List UInt8
  /-- The pointer that goes through the arrangement. -/
  i : UInt32
  j : UInt32

namespace Masked

/-- The octets of a key that is repeated as often as needed. -/
def keyAt (key : Bytes) (i : Nat) : UInt8 :=
  key.getD (UInt32.ofNat i % UInt32.ofNat key.length).toNat 0

def mixStep (key : Bytes) (s : List UInt8 × UInt32) (i : Nat) : List UInt8 × UInt32 :=
  let j := (s.2 + (s.1.getD i 0).toUInt32 + (keyAt key i).toUInt32) &&& 0xFF
  ((s.1.set i (s.1.getD j.toNat 0)).set j.toNat (s.1.getD i 0), j)

/-- The arrangement and the pointer after the first `n` steps of mixing in a key. -/
def mixed (key : Bytes) (n : Nat) : List UInt8 × UInt32 :=
  (List.range n).foldl (mixStep key) ((List.range 256).map UInt8.ofNat, 0)

/-- One step: the two octets are exchanged, and the sum they had before gives the octet of the
stream. -/
def next (s : Masked) : UInt8 × Masked :=
  let i := (s.i + 1) &&& 0xFF
  let si := s.box.getD i.toNat 0
  let j := (s.j + si.toUInt32) &&& 0xFF
  let sj := s.box.getD j.toNat 0
  let box := (s.box.set i.toNat sj).set j.toNat si
  (box.getD ((si.toUInt32 + sj.toUInt32) &&& 0xFF).toNat 0, ⟨box, i, j⟩)

def apply (s : Masked) : Bytes → Bytes
  | [] => []
  | b :: rest => (b ^^^ s.next.1) :: apply s.next.2 rest

def start (key : Bytes) : Masked :=
  ⟨(mixed key 256).1, 0, 0⟩

def of (r : Rc4) : Masked :=
  ⟨r.box.toList, r.i.toUInt32, r.j.toUInt32⟩

lemma and_mask (w : UInt32) : w &&& 0xFF = w.toUInt8.toUInt32 := by
  rw [← UInt32.toNat_inj, UInt32.toNat_and, UInt8.toNat_toUInt32, UInt32.toNat_toUInt8]
  exact Nat.and_two_pow_sub_one_eq_mod w.toNat 8

lemma mixStep_eq (key : Bytes) (s : Vector UInt8 256 × UInt8) {i : Nat} (hi : i < 256) :
    mixStep key (s.1.toList, s.2.toUInt32) i =
      ((Rc4.mixStep (keyAt key) s i).1.toList, (Rc4.mixStep (keyAt key) s i).2.toUInt32) := by
  obtain ⟨a, rfl⟩ : ∃ a : UInt8, i = a.toNat := ⟨UInt8.ofNat i, by simp; omega⟩
  have hj : (s.2.toUInt32 + (read s.1 a).toUInt32 + (keyAt key a.toNat).toUInt32) &&& 0xFF =
      (s.2 + read s.1 a + keyAt key a.toNat).toUInt32 := by
    rw [and_mask]
    simp
  rw [mixStep, Rc4.mixStep, UInt8.ofNat_toNat]
  rw [getD_toList, hj, UInt8.toNat_toUInt32, getD_toList, set_set_toList]

lemma mixed_eq (key : Bytes) {n : Nat} (hn : n ≤ 256) :
    mixed key n = ((mixedTo (keyAt key) n).1.toList, (mixedTo (keyAt key) n).2.toUInt32) := by
  have horder : (List.range 256).map UInt8.ofNat = identityBox.toList := by decide +kernel
  rw [mixed, horder]
  exact foldl_range_eq (fun s : Vector UInt8 256 × UInt8 => (s.1.toList, s.2.toUInt32))
    (fun s i hi => mixStep_eq key s (by omega)) (identityBox, 0)

lemma next_of (r : Rc4) : (of r).next = (r.next.1, of r.next.2) := by
  obtain ⟨box, i, j⟩ := r
  have hi : (i.toUInt32 + 1) &&& 0xFF = (i + 1).toUInt32 := by
    rw [and_mask]
    simp
  have hadd (a b : UInt8) : (a.toUInt32 + b.toUInt32) &&& 0xFF = (a + b).toUInt32 := by
    rw [and_mask]
    simp
  simp only [next, of, Rc4.next, hi, hadd, UInt8.toNat_toUInt32, getD_toList, set_set_toList]

lemma apply_of (r : Rc4) (data : Bytes) : (of r).apply data = r.apply data := by
  induction data generalizing r with
  | nil => rfl
  | cons b rest ih =>
    rw [apply, next_of, ih]
    rfl

lemma start_eq (key : Bytes) : start key = of (schedule (keyAt key)) := by
  rw [start, mixed_eq key (Nat.le_refl _), schedule_eq]
  simp [of]

lemma keyAt_eq {key : Bytes} (hkey : key.length < 2 ^ 32) {i : Nat} (hi : i < 256) :
    keyAt key i = Whole.keyAt key i := by
  rw [keyAt, Whole.keyAt, UInt32.toNat_mod, UInt32.toNat_ofNat_of_lt' hkey,
    UInt32.toNat_ofNat_of_lt' (show i < 2 ^ 32 by omega)]

end Masked

/-! ## In octets that wrap around -/

structure Wrapped where
  box : List UInt8
  /-- The pointer that goes through the arrangement. -/
  i : UInt8
  j : UInt8

namespace Wrapped

def storage (seed : UInt16) : Bytes :=
  [0, 0, 0, 0, 0, 0, (seed &&& 0xFF).toUInt8, ((seed >>> 8) &&& 0xFF).toUInt8]

def mixStep (seed : UInt16) (s : List UInt8 × UInt8) (i : Nat) : List UInt8 × UInt8 :=
  let j := s.2 + s.1.getD i 0 + (storage seed).getD (i &&& 7) 0
  ((s.1.set i (s.1.getD j.toNat 0)).set j.toNat (s.1.getD i 0), j)

def mixed (seed : UInt16) (n : Nat) : List UInt8 × UInt8 :=
  (List.range n).foldl (mixStep seed) ((List.range 256).map UInt8.ofNat, 0)

/-- One step: the two octets are exchanged, and the sum they had before gives the octet of the
stream. -/
def next (s : Wrapped) : UInt8 × Wrapped :=
  let i := s.i + 1
  let si := s.box.getD i.toNat 0
  let j := s.j + si
  let sj := s.box.getD j.toNat 0
  let box := (s.box.set i.toNat sj).set j.toNat si
  (box.getD (si + sj).toNat 0, ⟨box, i, j⟩)

def applyStep (s : Wrapped × Bytes) (offset : Nat) : Wrapped × Bytes :=
  (s.1.next.2, s.2.set offset (s.2.getD offset 0 ^^^ s.1.next.1))

def apply (s : Wrapped) (buffer : Bytes) : Bytes :=
  ((List.range' 4 (buffer.length - 4)).foldl applyStep (s, buffer)).2

def start (seed : UInt16) : Wrapped :=
  ⟨(mixed seed 256).1, 0, 0⟩

def of (r : Rc4) : Wrapped :=
  ⟨r.box.toList, r.i, r.j⟩

def keyAt (seed : UInt16) (i : Nat) : UInt8 :=
  (storage seed).getD (i &&& 7) 0

lemma mixStep_eq (seed : UInt16) (s : Vector UInt8 256 × UInt8) {i : Nat} (hi : i < 256) :
    mixStep seed (s.1.toList, s.2) i =
      ((Rc4.mixStep (keyAt seed) s i).1.toList, (Rc4.mixStep (keyAt seed) s i).2) := by
  obtain ⟨a, rfl⟩ : ∃ a : UInt8, i = a.toNat := ⟨UInt8.ofNat i, by simp; omega⟩
  rw [mixStep, Rc4.mixStep, UInt8.ofNat_toNat, keyAt]
  rw [getD_toList, getD_toList, set_set_toList]

lemma mixed_eq (seed : UInt16) {n : Nat} (hn : n ≤ 256) :
    mixed seed n = ((mixedTo (keyAt seed) n).1.toList, (mixedTo (keyAt seed) n).2) := by
  have horder : (List.range 256).map UInt8.ofNat = identityBox.toList := by decide +kernel
  rw [mixed, horder]
  exact foldl_range_eq (fun s : Vector UInt8 256 × UInt8 => (s.1.toList, s.2))
    (fun s i hi => mixStep_eq seed s (by omega)) (identityBox, 0)

lemma next_of (r : Rc4) : (of r).next = (r.next.1, of r.next.2) := by
  obtain ⟨box, i, j⟩ := r
  simp only [next, of, Rc4.next, getD_toList, set_set_toList]

lemma foldl_applyStep (r : Rc4) (pre rest : Bytes) :
    ((List.range' pre.length rest.length).foldl applyStep (of r, pre ++ rest)).2 =
      pre ++ r.apply rest := by
  induction rest generalizing r pre with
  | nil => rfl
  | cons b rest ih =>
    have hset : (pre ++ b :: rest).set pre.length (b ^^^ r.next.1) =
        (pre ++ [b ^^^ r.next.1]) ++ rest := by
      simp
    have hget : (pre ++ b :: rest).getD pre.length 0 = b := by simp
    have hih := ih r.next.2 (pre ++ [b ^^^ r.next.1])
    rw [List.length_append, List.length_singleton] at hih
    rw [List.length_cons, List.range'_succ, List.foldl_cons, applyStep, next_of, hget, hset, hih,
      List.append_assoc]
    rfl

lemma apply_of (r : Rc4) (buffer : Bytes) :
    (of r).apply buffer = buffer.take 4 ++ r.apply (buffer.drop 4) := by
  by_cases hshort : buffer.length ≤ 4
  · have hnone : buffer.length - 4 = 0 := by omega
    rw [apply, hnone, List.take_of_length_le hshort, List.drop_eq_nil_of_le hshort]
    simp [Rc4.apply]
  · have hfour : (buffer.take 4).length = 4 := by
      rw [List.length_take]
      omega
    have h := foldl_applyStep r (buffer.take 4) (buffer.drop 4)
    rwa [List.take_append_drop, hfour, List.length_drop] at h

lemma start_eq (seed : UInt16) : start seed = of (schedule (keyAt seed)) := by
  rw [start, mixed_eq seed (Nat.le_refl _), schedule_eq]
  simp [of]

end Wrapped

/-! ## One cipher -/

section Keys

variable {key key' : Nat → UInt8}

lemma schedule_congr (h : ∀ i < 256, key i = key' i) : schedule key = schedule key' := by
  rw [schedule_eq, schedule_eq, mixedTo_congr h]

lemma keyOf_eq_getD (a b : UInt8) (i : Nat) :
    Chunk.keyOf a b i = [0, 0, 0, 0, 0, 0, a, b].getD (i % 8) 0 := by
  rw [Chunk.keyOf]
  rcases i % 8 with _ | _ | _ | _ | _ | _ | _ | _ | r <;> rfl

lemma Wrapped.keyAt_eq (seed : UInt16) (i : Nat) :
    Wrapped.keyAt seed i = Chunk.keyOf seed.toUInt8 (seed >>> 8).toUInt8 i := by
  have hmask (w : UInt16) : (w &&& 0xFF).toUInt8 = w.toUInt8 := by
    rw [UInt16.toUInt8_and]
    exact UInt8.and_neg_one
  have hindex : i &&& 7 = i % 8 := Nat.and_two_pow_sub_one_eq_mod i 3
  rw [Wrapped.keyAt, Wrapped.storage, hmask, hmask, hindex, keyOf_eq_getD]

lemma Masked.keyAt_keyOf (a b : UInt8) {i : Nat} (hi : i < 256) :
    Masked.keyAt [0, 0, 0, 0, 0, 0, a, b] i = Chunk.keyOf a b i := by
  rw [Masked.keyAt_eq (by simp) hi, keyOf_eq_getD]
  rfl

lemma Masked.start_keyOf (a b : UInt8) :
    Masked.start [0, 0, 0, 0, 0, 0, a, b] = Masked.of (schedule (Chunk.keyOf a b)) := by
  rw [Masked.start_eq, schedule_congr fun i hi => Masked.keyAt_keyOf a b hi]

lemma Wrapped.start_keyOf (seed : UInt16) :
    Wrapped.start seed = Wrapped.of (schedule (Chunk.keyOf seed.toUInt8 (seed >>> 8).toUInt8)) := by
  rw [Wrapped.start_eq, schedule_congr fun i _ => Wrapped.keyAt_eq seed i]

end Keys

lemma apply_apply (r : Rc4) (data : Bytes) : r.apply (r.apply data) = data := by
  rw [apply_eq_xor_stream, apply_eq_xor_stream, Bytes.length_xor, length_stream, Nat.min_self]
  exact (Bytes.xor_xor_eq_iff (length_stream _ _) (length_stream _ _)).mpr rfl

end Rc4

/-! ## Changes in place -/

namespace Varint

section Windows

variable {data b : Bytes} {offset n : Nat}

-- a window over the end of the buffer holds what is left of it, and may be short
lemma window_overwrite (hb : b.length = (Bytes.window data offset n).length) :
    Bytes.window (overwrite data offset b) offset n = b := by
  simp only [Bytes.window, List.length_take, List.length_drop] at hb ⊢
  apply List.ext_getElem?
  intro i
  rw [List.getElem?_take, List.getElem?_drop, getElem?_overwrite]
  grind

lemma overwrite_overwrite_window (hb : b.length = (Bytes.window data offset n).length) :
    overwrite (overwrite data offset b) offset (Bytes.window data offset n) = data := by
  apply List.ext_getElem?
  intro i
  rw [getElem?_overwrite, getElem?_overwrite, length_overwrite, hb, Bytes.window,
    List.getElem?_take, List.getElem?_drop, List.length_take, List.length_drop]
  grind

end Windows

/-- A change of the octets in a window that keeps their number and undoes itself, made in place
twice, gives the buffer back. -/
lemma overwrite_window_twice {f : Bytes → Bytes} (hlen : ∀ b, (f b).length = b.length)
    (hinv : ∀ b, f (f b) = b) (data : Bytes) (offset n : Nat) :
    let once := overwrite data offset (f (Bytes.window data offset n))
    overwrite once offset (f (Bytes.window once offset n)) = data := by
  intro once
  rw [window_overwrite (hlen _), hinv, overwrite_overwrite_window (hlen _)]

end Varint

namespace Chunk

lemma decipherText_decipherText (text : Bytes) : decipherText (decipherText text) = text := by
  by_cases h : textMark text.length = 0
  · rw [decipherText, length_decipherText, if_pos h, decipherText, if_pos h]
  · rw [decipherText, length_decipherText, if_neg h, decipherText, if_neg h, Rc4.apply_apply]

lemma decipherCode_decipherCode (line : UInt32) (seed : UInt16) (code : Bytes) :
    decipherCode line seed (decipherCode line seed code) = code := by
  by_cases hshort : code.length ≤ 4
  · have hsame (b : Bytes) (hb : b.length ≤ 4) : decipherCode line seed b = b := by
      rw [decipherCode, List.take_of_length_le hb, List.drop_eq_nil_of_le hb, Rc4.apply,
        List.append_nil]
    rw [hsame code hshort, hsame code hshort]
  · have hfour : (code.take 4).length = 4 := List.length_take_of_le (by omega)
    rw [decipherCode, decipherCode, List.take_left' hfour, List.drop_left' hfour, Rc4.apply_apply,
      List.take_append_drop]

namespace Walk

lemma textAt_twice (offset length : Nat) (s : Session) :
    (do textAt offset length; textAt offset length : Walk Unit).run s = ((), s) := by
  have h := Varint.overwrite_window_twice length_decipherText decipherText_decipherText s.data
    offset length
  exact congrArg (fun data => ((), { s with data := data })) h

lemma codeUnder_twice (offset count : Nat) (line : UInt32) (seed : UInt16) (s : Session) :
    (do codeUnder offset count line seed; codeUnder offset count line seed : Walk Unit).run s =
      ((), s) := by
  have h := Varint.overwrite_window_twice (length_decipherCode line seed)
    (decipherCode_decipherCode line seed) s.data offset (4 * count)
  exact congrArg (fun data => ((), { s with data := data })) h

end Walk

end Chunk

namespace Rc4

/-! ## The forms are one cipher -/

lemma decipherText_eq (text : Bytes) :
    Chunk.decipherText text =
      if text.length % 254 = 0 then text
      else (Masked.start [0, 0, 0, 0, 0, 0, UInt8.ofNat (text.length % 254),
        UInt8.ofNat (text.length % 254) + 1]).apply text := by
  rw [Masked.start_keyOf, Masked.apply_of]
  rfl

lemma decipherCode_eq (line : UInt32) (seed : UInt16) (code : Bytes) :
    Chunk.decipherCode line seed code =
      (Wrapped.start (Chunk.innerSeed line seed)).apply code := by
  rw [Wrapped.start_keyOf, Wrapped.apply_of]
  rfl

lemma decrypt_eq {key : Bytes} (hkey : key ≠ []) (data : Bytes) :
    Container.decrypt key data = .ok ((Whole.start key).apply data) := by
  rw [Container.decrypt, if_neg (by simpa using hkey), Whole.start_eq, Whole.apply_of]

lemma apply_start_eq {key : Bytes} (hkey : key.length < 2 ^ 32) (data : Bytes) :
    (Whole.start key).apply data = (Masked.start key).apply data := by
  have hsame : ofKey key = schedule (Masked.keyAt key) :=
    schedule_congr fun i hi => (Masked.keyAt_eq hkey hi).symm
  rw [Whole.start_eq, Whole.apply_of, Masked.start_eq, Masked.apply_of, hsame]

lemma isArrangement_mixed (key : Bytes) (seed : UInt16) {n : Nat} (hn : n ≤ 256) :
    IsArrangement (Whole.mixed key n).1 ∧
      IsArrangement ((Masked.mixed key n).1.map UInt8.toNat) ∧
      IsArrangement ((Wrapped.mixed seed n).1.map UInt8.toNat) := by
  rw [Whole.mixed_eq key hn, Masked.mixed_eq key hn, Wrapped.mixed_eq seed hn]
  exact ⟨isArrangement_mixedTo _ n, isArrangement_mixedTo _ n, isArrangement_mixedTo _ n⟩

lemma iterate_of {τ : Type} {of : Rc4 → τ} {step : τ → τ} (h : ∀ r, step (of r) = of r.next.2)
    (n : Nat) (r : Rc4) : step^[n] (of r) = of ((fun r : Rc4 => r.next.2)^[n] r) := by
  induction n generalizing r with
  | zero => rfl
  | succ n ih =>
    rw [Function.iterate_succ_apply, h, ih]
    rfl

lemma isArrangement_stream (key : Nat → UInt8) (n : Nat) :
    IsArrangement (((fun r : Rc4 => r.next.2)^[n] (schedule key)).box.toList.map UInt8.toNat) := by
  apply isArrangement_iterate_next
  rw [schedule_eq]
  exact isArrangement_mixedTo key 256

lemma isArrangement_iterate_start (key : Bytes) (seed : UInt16) (n : Nat) :
    IsArrangement ((fun s : Whole => s.next.2)^[n] (Whole.start key)).box ∧
      IsArrangement
        (((fun s : Masked => s.next.2)^[n] (Masked.start key)).box.map UInt8.toNat) ∧
      IsArrangement
        (((fun s : Wrapped => s.next.2)^[n] (Wrapped.start seed)).box.map UInt8.toNat) := by
  rw [Whole.start_eq, Masked.start_eq, Wrapped.start_eq,
    iterate_of fun r => congrArg Prod.snd (Whole.next_of r),
    iterate_of fun r => congrArg Prod.snd (Masked.next_of r),
    iterate_of fun r => congrArg Prod.snd (Wrapped.next_of r)]
  exact ⟨isArrangement_stream _ n, isArrangement_stream _ n, isArrangement_stream _ n⟩

/-- **The three forms of RC4 are one cipher, and it undoes itself.**

* Containers, texts and code are deciphered in whole numbers, in masked words and in octets that
  wrap around.
* A key whose length is a word gives the same stream in whole numbers and in masked words. In octets
  that wrap around, the key of a seed gives the arrangement of the key that holds the low and the
  high octet of the seed behind six zeros; and from any arrangement the first four octets stay, and
  the others are under the same stream.
* In each form, the octets stand in an arrangement after every step of mixing and after every step
  of the stream.
* A container, a text and code that are deciphered twice are as they were. -/
theorem forms_agree_and_undo (key data : Bytes) (hkey : key ≠ []) (seed : UInt16) (line : UInt32)
    (box : Vector UInt8 256) (s : Chunk.Session) (offset length count : Nat) (flag : Bool) :
    (Container.decrypt key data = .ok ((Whole.start key).apply data) ∧
      Chunk.decipherText data =
        (if data.length % 254 = 0 then data
        else (Masked.start [0, 0, 0, 0, 0, 0, UInt8.ofNat (data.length % 254),
          UInt8.ofNat (data.length % 254) + 1]).apply data) ∧
      Chunk.decipherCode line seed data =
        (Wrapped.start (Chunk.innerSeed line seed)).apply data) ∧
    ((key.length < 2 ^ 32 → (Whole.start key).apply data = (Masked.start key).apply data) ∧
      (Wrapped.mixed seed 256).1 =
        (Masked.mixed [0, 0, 0, 0, 0, 0, seed.toUInt8, (seed >>> 8).toUInt8] 256).1 ∧
      (Wrapped.mk box.toList 0 0).apply data =
        data.take 4 ++ (Masked.mk box.toList 0 0).apply (data.drop 4)) ∧
    ((∀ n ≤ 256, IsArrangement (Whole.mixed key n).1 ∧
        IsArrangement ((Masked.mixed key n).1.map UInt8.toNat) ∧
        IsArrangement ((Wrapped.mixed seed n).1.map UInt8.toNat)) ∧
      ∀ n, IsArrangement ((fun s : Whole => s.next.2)^[n] (Whole.start key)).box ∧
        IsArrangement
          (((fun s : Masked => s.next.2)^[n] (Masked.start key)).box.map UInt8.toNat) ∧
        IsArrangement
          (((fun s : Wrapped => s.next.2)^[n] (Wrapped.start seed)).box.map UInt8.toNat)) ∧
    (Container.decrypt key data >>= Container.decrypt key) = .ok data ∧
    (do
      if flag then Chunk.Walk.textAt offset length
      if flag then Chunk.Walk.textAt offset length : Chunk.Walk Unit).run s = ((), s) ∧
    (do
      Chunk.Walk.codeUnder offset count line seed
      Chunk.Walk.codeUnder offset count line seed : Chunk.Walk Unit).run s = ((), s) := by
  refine ⟨⟨decrypt_eq hkey data, decipherText_eq data, decipherCode_eq line seed data⟩,
    ⟨fun hlen => apply_start_eq hlen data, ?_, ?_⟩,
    ⟨fun n hn => isArrangement_mixed key seed hn, isArrangement_iterate_start key seed⟩, ?_, ?_,
    Chunk.Walk.codeUnder_twice offset count line seed s⟩
  · have hkeys : ∀ i < 256, Wrapped.keyAt seed i =
        Masked.keyAt [0, 0, 0, 0, 0, 0, seed.toUInt8, (seed >>> 8).toUInt8] i :=
      fun i hi => (Wrapped.keyAt_eq seed i).trans (Masked.keyAt_keyOf _ _ hi).symm
    rw [Wrapped.mixed_eq seed (Nat.le_refl _), Masked.mixed_eq _ (Nat.le_refl _),
      mixedTo_congr hkeys]
  · have hwrapped := Wrapped.apply_of { box := box } data
    have hmasked := Masked.apply_of { box := box } (data.drop 4)
    exact hwrapped.trans (congrArg _ hmasked.symm)
  · rw [decrypt_eq hkey]
    change Container.decrypt key _ = _
    rw [decrypt_eq hkey, Whole.start_eq, Whole.apply_of, Whole.apply_of, apply_apply]
  · cases flag with
    | false => rfl
    | true => exact Chunk.Walk.textAt_twice offset length s

/-- A key of eight octets, a seed with two different octets, and six octets of data, a part of which
lies outside the buffer. -/
theorem forms_agree_and_undo_eight :
    let key : Bytes := [0x89, 0x74, 0xEA, 0x66, 0x38, 0xCF, 0xDB, 0xE0]
    let data : Bytes := [0x1B, 0x4C, 0x75, 0x61, 0x54, 0x00]
    let s : Chunk.Session := { data := data }
    key ≠ [] ∧ (Whole.start key).apply data = (Masked.start key).apply data ∧
      (Container.decrypt key data >>= Container.decrypt key) = .ok data ∧
      (do
        if true then Chunk.Walk.textAt 1 9
        if true then Chunk.Walk.textAt 1 9 : Chunk.Walk Unit).run s = ((), s) ∧
      (do
        Chunk.Walk.codeUnder 0 3 7 0x1234
        Chunk.Walk.codeUnder 0 3 7 0x1234 : Chunk.Walk Unit).run s = ((), s) := by
  intro key data s
  have hkey : key ≠ [] := List.cons_ne_nil _ _
  have h := forms_agree_and_undo key data hkey 0x1234 7 identityBox s
  exact ⟨hkey, (h 0 0 0 true).2.1.1 (by decide), (h 0 0 0 true).2.2.2.1,
    (h 1 9 0 true).2.2.2.2.1, (h 0 0 3 true).2.2.2.2.2⟩

end Rc4

end Salvage
