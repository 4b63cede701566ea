import Mathlib.Data.List.DropRight
import Mathlib.Data.List.Perm.Subperm
import Salvage.Chunk.Reach

/-!
# Reachable code

The positions that control can reach are found by a queue: the first position is put into it, and
each position taken out of it puts in those places behind it that are not marked yet. A position is
marked when it is put in, so none is put in twice, and a queue with room for all positions is never
full. When nothing is left in the queue, the marked positions are closed under the edges of the
code.
-/

namespace Salvage.Chunk

/-! ## Edges -/

/-- Control may go on with the next word: all operations allow this but jumps, the entries of loops
and returns. -/
def FallsThrough (op : UInt8) : Prop :=
  op ≠ 57 ∧ op ≠ 71 ∧ op ≠ 72 ∧ op ≠ 73 ∧ op ≠ 75 ∧ op ≠ 76

inductive Edge (code : Array Word) : Nat → Nat → Prop
  | fall {pc : Nat} {w : Word} (hw : code[pc]? = some w) (hop : FallsThrough (plainOpcode w))
      (hnext : pc + 1 < code.size) : Edge code pc (pc + 1)
  | skip {pc : Nat} {w : Word} (hw : code[pc]? = some w)
      (hop : plainOpcode w = 6 ∨ 58 ≤ plainOpcode w ∧ plainOpcode w ≤ 68)
      (hnext : pc + 2 < code.size) : Edge code pc (pc + 2)
  | extension {pc : Nat} {w e : Word} (hw : code[pc]? = some w)
      (hop : plainOpcode w = 20 ∨ 46 ≤ plainOpcode w ∧ plainOpcode w ≤ 48 ∨ plainOpcode w = 79)
      (he : code[pc + 1]? = some e) (hextends : plainOpcode e = 82)
      (hnext : pc + 2 < code.size) : Edge code pc (pc + 2)
  | jump {pc target : Nat} {w : Word} (hw : code[pc]? = some w) (hop : plainOpcode w = 57)
      (htarget : (target : Int) = pc + 1 + w.sj) (hinside : target < code.size) :
      Edge code pc target
  | loop {pc target : Nat} {w : Word} (hw : code[pc]? = some w)
      (hop : plainOpcode w = 74 ∨ plainOpcode w = 75 ∨ plainOpcode w = 76 ∨ plainOpcode w = 78)
      (htarget : (target : Int) = pc + 1 + w.sbx) (hinside : target < code.size) :
      Edge code pc target

def Reached (code : Array Word) (pc : Nat) : Prop :=
  0 < code.size ∧ Relation.ReflTransGen (Edge code) 0 pc

section Edges

variable {code : Array Word} {pc q : Nat} {w : Word}

lemma Edge.lt_size (h : Edge code pc q) : q < code.size := by
  cases h <;> assumption

lemma Reached.lt_size (h : Reached code pc) : pc < code.size := by
  obtain ⟨hpos, hpath⟩ := h
  cases hpath with
  | refl => exact hpos
  | tail _ hedge => exact hedge.lt_size

lemma mem_inside_iff {count : Nat} {ts : List Int} :
    q ∈ inside count ts ↔ (q : Int) ∈ ts ∧ q < count := by
  simp only [inside, List.mem_filterMap, Option.ite_none_right_eq_some, Option.some.injEq]
  constructor
  · rintro ⟨t, ht, ⟨hlow, hhigh⟩, rfl⟩
    rw [Int.toNat_of_nonneg hlow]
    exact ⟨ht, by omega⟩
  · rintro ⟨ht, hlt⟩
    exact ⟨q, ht, ⟨by omega, by omega⟩, by simp⟩

lemma isExtension_iff :
    isExtension code pc = true ↔ ∃ e, code[pc]? = some e ∧ plainOpcode e = 82 := by
  rw [isExtension]
  cases code[pc]? <;> simp

lemma mem_targets_iff (t : Int) :
    t ∈ targets code pc w ↔
      FallsThrough (plainOpcode w) ∧ t = pc + 1 ∨
      (plainOpcode w = 6 ∨ 58 ≤ plainOpcode w ∧ plainOpcode w ≤ 68) ∧ t = pc + 2 ∨
      (plainOpcode w = 20 ∨ 46 ≤ plainOpcode w ∧ plainOpcode w ≤ 48 ∨ plainOpcode w = 79) ∧
        isExtension code (pc + 1) = true ∧ t = pc + 2 ∨
      plainOpcode w = 57 ∧ t = pc + 1 + w.sj ∨
      (plainOpcode w = 74 ∨ plainOpcode w = 75 ∨ plainOpcode w = 76 ∨ plainOpcode w = 78) ∧
        t = pc + 1 + w.sbx := by
  have htwo : (pc : Int) + 1 + 1 = pc + 2 := by omega
  -- operation codes as numbers, so that the cases are told apart by arithmetic
  simp only [targets, maySkip, mayExtend, FallsThrough, ne_eq, Bool.or_eq_true, Bool.and_eq_true,
    beq_iff_eq, decide_eq_true_eq, htwo, UInt8.le_iff_toNat_le, ← UInt8.toNat_inj,
    UInt8.reduceToNat]
  generalize (plainOpcode w).toNat = op
  split_ifs <;> grind

lemma mem_successors_of_getElem? (hw : code[pc]? = some w) :
    q ∈ successors code pc ↔ (q : Int) ∈ targets code pc w ∧ q < code.size := by
  rw [successors, hw]
  exact mem_inside_iff

/-- **The places put into the queue** behind a position are those along the edges. -/
lemma mem_successors_iff : q ∈ successors code pc ↔ Edge code pc q := by
  constructor
  · intro h
    cases hw : code[pc]? with
    | none => simp [successors, hw] at h
    | some w =>
      rw [mem_successors_of_getElem? hw, mem_targets_iff, isExtension_iff] at h
      obtain ⟨hcases, hinside⟩ := h
      rcases hcases with ⟨hop, ht⟩ | ⟨hop, ht⟩ | ⟨hop, ⟨e, he, hextends⟩, ht⟩ | ⟨hop, ht⟩ |
        ⟨hop, ht⟩
      · obtain rfl : q = pc + 1 := by omega
        exact .fall hw hop hinside
      · obtain rfl : q = pc + 2 := by omega
        exact .skip hw hop hinside
      · obtain rfl : q = pc + 2 := by omega
        exact .extension hw hop he hextends hinside
      · exact .jump hw hop ht hinside
      · exact .loop hw hop ht hinside
  · intro h
    have hinside := h.lt_size
    cases h with
    | fall hw hop _ =>
      rw [mem_successors_of_getElem? hw, mem_targets_iff]
      exact ⟨.inl ⟨hop, by simp⟩, hinside⟩
    | skip hw hop _ =>
      rw [mem_successors_of_getElem? hw, mem_targets_iff]
      exact ⟨.inr (.inl ⟨hop, by simp⟩), hinside⟩
    | extension hw hop he hextends _ =>
      rw [mem_successors_of_getElem? hw, mem_targets_iff, isExtension_iff]
      exact ⟨.inr (.inr (.inl ⟨hop, ⟨_, he, hextends⟩, by simp⟩)), hinside⟩
    | jump hw hop htarget _ =>
      rw [mem_successors_of_getElem? hw, mem_targets_iff]
      exact ⟨.inr (.inr (.inr (.inl ⟨hop, htarget⟩))), hinside⟩
    | loop hw hop htarget _ =>
      rw [mem_successors_of_getElem? hw, mem_targets_iff]
      exact ⟨.inr (.inr (.inr (.inr ⟨hop, htarget⟩))), hinside⟩

end Edges

/-! ## Marks -/

section Marks

variable {marks : Array Bool} {pc i : Nat} {ts : List Nat}

lemma unmarked_iff : marks[i]? = some false ↔ i < marks.size ∧ marks[i]? ≠ some true := by
  by_cases hi : i < marks.size
  · simp [hi]
  · simp [hi]

lemma markNew_cons_of_ne (h : marks[pc]? ≠ some false) :
    markNew marks (pc :: ts) = markNew marks ts := by
  rw [markNew, if_neg h]

lemma markNew_cons_of_eq (h : marks[pc]? = some false) :
    markNew marks (pc :: ts) =
      ((markNew (marks.set! pc true) ts).1, pc :: (markNew (marks.set! pc true) ts).2) := by
  rw [markNew, if_pos h]

lemma getElem?_mark (h : marks[pc]? = some false) :
    (marks.set! pc true)[i]? = if i = pc then some true else marks[i]? := by
  obtain ⟨hlt, -⟩ := Array.getElem?_eq_some_iff.mp h
  rw [Array.set!_eq_setIfInBounds, Array.getElem?_setIfInBounds]
  by_cases hi : pc = i
  · rw [if_pos hi, if_pos hlt, if_pos hi.symm]
  · rw [if_neg hi, if_neg (Ne.symm hi)]

lemma size_markNew (marks : Array Bool) (ts : List Nat) :
    (markNew marks ts).1.size = marks.size := by
  induction ts generalizing marks with
  | nil => rfl
  | cons pc ts ih =>
    by_cases h : marks[pc]? = some false
    · rw [markNew_cons_of_eq h, ih]
      simp
    · rw [markNew_cons_of_ne h, ih]

lemma markNew_fst_iff :
    (markNew marks ts).1[i]? = some true ↔ marks[i]? = some true ∨ i ∈ ts ∧ i < marks.size := by
  induction ts generalizing marks with
  | nil => simp [markNew]
  | cons pc ts ih =>
    by_cases h : marks[pc]? = some false
    · have hlt := (Array.getElem?_eq_some_iff.mp h).1
      rw [markNew_cons_of_eq h, ih, getElem?_mark h, Array.size_set!]
      grind
    · rw [markNew_cons_of_ne h, ih]
      rw [unmarked_iff] at h
      grind

lemma mem_markNew_snd_iff : i ∈ (markNew marks ts).2 ↔ i ∈ ts ∧ marks[i]? = some false := by
  induction ts generalizing marks with
  | nil => simp [markNew]
  | cons pc ts ih =>
    by_cases h : marks[pc]? = some false
    · rw [markNew_cons_of_eq h, List.mem_cons, List.mem_cons, ih, getElem?_mark h]
      grind
    · rw [markNew_cons_of_ne h, ih]
      grind

lemma nodup_markNew_snd (marks : Array Bool) (ts : List Nat) : (markNew marks ts).2.Nodup := by
  induction ts generalizing marks with
  | nil => exact List.nodup_nil
  | cons pc ts ih =>
    by_cases h : marks[pc]? = some false
    · rw [markNew_cons_of_eq h, List.nodup_cons]
      refine ⟨fun hmem => ?_, ih _⟩
      have hmarked := (mem_markNew_snd_iff.mp hmem).2
      rw [getElem?_mark h, if_pos rfl] at hmarked
      simp at hmarked
    · rw [markNew_cons_of_ne h]
      exact ih _

end Marks

/-! ## The search -/

structure Sweep where
  marks : Array Bool
  queue : List Nat
  taken : Nat

namespace Sweep

variable {code : Array Word} {s t : Sweep}

def start (code : Array Word) : Sweep :=
  if code.isEmpty then ⟨#[], [], 0⟩
  else ⟨(Array.replicate code.size false).set! 0 true, [0], 0⟩

/-- One turn of the loop, as long as something is left in the queue: the next position is taken out,
and those behind it that are not marked are marked and put in. -/
def next (code : Array Word) (s : Sweep) : Option Sweep :=
  s.queue[s.taken]?.map fun pc =>
    ⟨(markNew s.marks (successors code pc)).1,
      s.queue ++ (markNew s.marks (successors code pc)).2, s.taken + 1⟩

def Occurs (code : Array Word) (s : Sweep) : Prop :=
  Relation.ReflTransGen (fun s t => next code s = some t) (start code) s

def run (code : Array Word) : Nat → Sweep → Sweep
  | 0, s => s
  | n + 1, s => ((next code s).map (run code n)).getD s

/-- What holds of a search before and after every turn: exactly the positions that were put into the
queue are marked, none of them twice; all of them are reached; and behind those that were taken out
everything is marked. -/
structure Sound (code : Array Word) (s : Sweep) : Prop where
  size_eq : s.marks.size = code.size
  taken_le : s.taken ≤ s.queue.length
  queue_nodup : s.queue.Nodup
  mem_queue_iff : ∀ pc, pc ∈ s.queue ↔ s.marks[pc]? = some true
  first_mem : 0 < code.size → 0 ∈ s.queue
  reached_of_mem : ∀ pc ∈ s.queue, Reached code pc
  closed : ∀ pc ∈ s.queue.take s.taken, ∀ q, Edge code pc q → q ∈ s.queue

lemma sound_start (code : Array Word) : Sound code (start code) := by
  rw [start]
  split_ifs with hempty
  · have hsize : code.size = 0 := by simpa using hempty
    constructor <;> simp [hsize]
  · have hpos : 0 < code.size := by
      rw [Array.isEmpty_iff_size_eq_zero] at hempty
      omega
    have hunmarked : (Array.replicate code.size false)[0]? = some false := by
      simp [hpos]
    constructor
    · simp
    · simp
    · simp
    · intro pc
      rw [List.mem_singleton, getElem?_mark hunmarked]
      by_cases hpc : pc = 0
      · simp [hpc]
      · simp [hpc, Array.getElem?_replicate]
    · simp
    · intro pc hpc
      rw [List.mem_singleton.mp hpc]
      exact ⟨hpos, .refl⟩
    · simp

/-- **One turn keeps the invariant.**

**Proof sketch.** The position that is taken out was reached, so are those behind it. A new position
was not marked, so it was not in the queue, and it is marked now. Behind the position that is taken
out everything is marked after the turn. -/
lemma Sound.next (h : Sound code s) (hnext : Sweep.next code s = some t) : Sound code t := by
  rw [Sweep.next, Option.map_eq_some_iff] at hnext
  obtain ⟨pc, hpc, rfl⟩ := hnext
  obtain ⟨htaken, hget⟩ := List.getElem?_eq_some_iff.mp hpc
  have hreached : Reached code pc := h.reached_of_mem pc (List.mem_of_getElem? hpc)
  have hmark (q : Nat) (hq : Edge code pc q) : q < s.marks.size := by
    rw [h.size_eq]
    exact hq.lt_size
  have hmem (q : Nat) : q ∈ s.queue ++ (markNew s.marks (successors code pc)).2 ↔
      (markNew s.marks (successors code pc)).1[q]? = some true := by
    rw [List.mem_append, mem_markNew_snd_iff, markNew_fst_iff, h.mem_queue_iff, mem_successors_iff,
      unmarked_iff]
    have hbound := hmark q
    grind
  constructor
  · rw [size_markNew, h.size_eq]
  · dsimp only
    rw [List.length_append]
    omega
  · rw [List.nodup_append]
    refine ⟨h.queue_nodup, nodup_markNew_snd _ _, ?_⟩
    -- what is in the queue is marked, what is new was not
    rintro q hq _ hnew rfl
    rw [h.mem_queue_iff] at hq
    rw [mem_markNew_snd_iff, hq] at hnew
    simp at hnew
  · exact hmem
  · intro hpos
    exact List.mem_append_left _ (h.first_mem hpos)
  · intro q hq
    rw [List.mem_append, mem_markNew_snd_iff, mem_successors_iff] at hq
    rcases hq with hq | ⟨hedge, -⟩
    · exact h.reached_of_mem q hq
    · exact ⟨hreached.1, hreached.2.tail hedge⟩
  · intro p hp q hedge
    rw [List.take_append_of_le_length htaken, List.take_add_one, hpc, List.mem_append] at hp
    -- taken out before, or in this turn
    rcases hp with hp | hp
    · exact List.mem_append_left _ (h.closed p hp q hedge)
    · obtain rfl : p = pc := by simpa using hp
      rw [hmem, markNew_fst_iff, mem_successors_iff]
      exact .inr ⟨hedge, hmark q hedge⟩

lemma sound_of_occurs (h : Occurs code s) : Sound code s := by
  induction h with
  | refl => exact sound_start code
  | tail _ hnext ih => exact ih.next hnext

lemma Sound.length_queue_le (h : Sound code s) : s.queue.length ≤ code.size := by
  have hsub : s.queue ⊆ List.range code.size := by
    intro pc hpc
    exact List.mem_range.mpr (h.reached_of_mem pc hpc).lt_size
  simpa using (h.queue_nodup.subperm hsub).length_le

/-- When the queue is used up, exactly the positions that are reached are marked.

**Proof sketch.** All positions of the queue were taken out, so the marked ones are closed under the
edges; induction along the path from the first position. -/
lemma Sound.marks_iff_reached (h : Sound code s) (hend : Sweep.next code s = none) (pc : Nat) :
    s.marks[pc]? = some true ↔ Reached code pc := by
  rw [← h.mem_queue_iff]
  refine ⟨h.reached_of_mem pc, fun hreached => ?_⟩
  have hused : s.queue.take s.taken = s.queue := by
    rw [Sweep.next, Option.map_eq_none_iff, List.getElem?_eq_none_iff] at hend
    exact List.take_of_length_le hend
  obtain ⟨hpos, hpath⟩ := hreached
  induction hpath with
  | refl => exact h.first_mem hpos
  | tail _ hedge ih =>
    refine h.closed _ ?_ _ hedge
    rw [hused]
    exact ih

lemma occurs_run (n : Nat) (h : Occurs code s) : Occurs code (run code n s) := by
  induction n generalizing s with
  | zero => exact h
  | succ n ih =>
    rw [run]
    cases hnext : next code s with
    | none => exact h
    | some t => exact ih (h.tail hnext)

lemma run_ended_or_taken (code : Array Word) (n : Nat) (s : Sweep) :
    next code (run code n s) = none ∨ (run code n s).taken = s.taken + n := by
  induction n generalizing s with
  | zero => exact .inr rfl
  | succ n ih =>
    rw [run]
    cases hnext : next code s with
    | none => exact .inl hnext
    | some t =>
      have htaken : t.taken = s.taken + 1 := by
        rw [next, Option.map_eq_some_iff] at hnext
        obtain ⟨pc, -, rfl⟩ := hnext
        rfl
      rw [Option.map_some, Option.getD_some, ← Nat.add_assoc, Nat.add_right_comm, ← htaken]
      exact ih t

lemma next_run_size (code : Array Word) : next code (run code code.size (start code)) = none := by
  have hstart : Occurs code (start code) := .refl
  have hsound := sound_of_occurs (occurs_run code.size hstart)
  have hlength := hsound.length_queue_le
  obtain hend | htaken := run_ended_or_taken code code.size (start code)
  · exact hend
  · rw [next, Option.map_eq_none_iff, List.getElem?_eq_none_iff]
    omega

lemma run_marks_eq_follow (n : Nat) (s : Sweep) :
    (run code n s).marks = follow code n s.marks (s.queue.drop s.taken) := by
  induction n generalizing s with
  | zero => rfl
  | succ n ih =>
    rw [run, next]
    cases hpc : s.queue[s.taken]? with
    | none =>
      have hdrop : s.queue.drop s.taken = [] := by
        rw [List.drop_eq_nil_iff]
        exact List.getElem?_eq_none_iff.mp hpc
      rw [hdrop]
      rfl
    | some pc =>
      obtain ⟨hlt, hget⟩ := List.getElem?_eq_some_iff.mp hpc
      rw [List.drop_eq_getElem_cons hlt, hget, follow, Option.map_some, Option.map_some,
        Option.getD_some, ih]
      dsimp only
      rw [List.drop_append_of_le_length (by omega)]

lemma marks_run_start (code : Array Word) :
    (run code code.size (start code)).marks = reachable code := by
  rw [run_marks_eq_follow, reachable, start]
  split_ifs with hempty
  · have hsize : code.size = 0 := by simpa using hempty
    rw [hsize]
    rfl
  · rfl

end Sweep

/-! ## The report -/

section Report

variable {marks : List Bool} {i : Nat}

def live (marks : List Bool) : List Bool :=
  marks.rdropWhile (!·)

lemma exists_live_append (marks : List Bool) :
    ∃ k, marks = live marks ++ List.replicate k false := by
  have hunset : ∀ b ∈ (marks.reverse.takeWhile (!·)).reverse, b = false := by
    intro b hb
    simpa using List.mem_takeWhile_imp (List.mem_reverse.mp hb)
  refine ⟨(marks.reverse.takeWhile (!·)).reverse.length, ?_⟩
  rw [← List.eq_replicate_of_mem hunset, live, List.rdropWhile, ← List.reverse_append,
    List.takeWhile_append_dropWhile, List.reverse_reverse]

lemma exists_live_eq_append (h : live marks ≠ []) : ∃ l, live marks = l ++ [true] := by
  have hlast := List.rdropWhile_last_not _ _ h
  refine ⟨(live marks).dropLast, ?_⟩
  rw [Bool.not_eq_true, Bool.not_eq_false'] at hlast
  conv_lhs => rw [← List.dropLast_append_getLast h]
  rw [← hlast]
  rfl

lemma lt_length_live (h : marks[i]? = some true) : i < (live marks).length := by
  obtain ⟨k, hk⟩ := exists_live_append marks
  rw [hk] at h
  by_contra hi
  rw [List.getElem?_append_right (by omega), List.getElem?_replicate] at h
  split_ifs at h
  simp at h

lemma getElem?_live (h : i < (live marks).length) : marks[i]? = (live marks)[i]? := by
  obtain ⟨k, hk⟩ := exists_live_append marks
  conv_lhs => rw [hk]
  rw [List.getElem?_append_left h]

lemma reachOf_eq (marks : List Bool) :
    reachOf marks = ⟨marks.count true,
      if false ∈ live marks ∨ live marks = [] then marks.length else (live marks).length,
      decide (false ∈ live marks)⟩ := by
  simp [reachOf, live, List.rdropWhile]

lemma reachOf_hasGap_iff :
    (reachOf marks).hasGap = true ↔
      ∃ i j : Nat, i < j ∧ marks[i]? = some false ∧ marks[j]? = some true := by
  rw [reachOf_eq, decide_eq_true_eq]
  constructor
  · intro hmem
    obtain ⟨i, hi⟩ := List.mem_iff_getElem?.mp hmem
    obtain ⟨hlt, -⟩ := List.getElem?_eq_some_iff.mp hi
    obtain ⟨l, hl⟩ := exists_live_eq_append (List.ne_nil_of_mem hmem)
    have hlength : (live marks).length = l.length + 1 := by simp [hl]
    have hlast : (live marks)[l.length]? = some true := by simp [hl]
    have hne : i ≠ l.length := by
      rintro rfl
      rw [hlast] at hi
      simp at hi
    refine ⟨i, l.length, by omega, ?_, ?_⟩
    · rw [getElem?_live hlt, hi]
    · rw [getElem?_live (by omega), hlast]
  · rintro ⟨i, j, hij, hi, hj⟩
    have hlt : i < (live marks).length := by
      have := lt_length_live hj
      omega
    rw [getElem?_live hlt] at hi
    exact List.mem_of_getElem? hi

lemma reachOf_kept_of_hasGap (h : (reachOf marks).hasGap = true) :
    (reachOf marks).kept = marks.length := by
  rw [reachOf_eq, decide_eq_true_eq] at h
  rw [reachOf_eq]
  exact if_pos (.inl h)

lemma lt_reachOf_kept_iff (h : (reachOf marks).hasGap = false)
    (hfirst : marks ≠ [] → marks[0]? = some true) :
    i < (reachOf marks).kept ↔ marks[i]? = some true := by
  rw [reachOf_eq, decide_eq_false_iff_not] at h
  by_cases hnil : marks = []
  · subst hnil
    simp [reachOf]
  · have hne : live marks ≠ [] := by
      apply List.ne_nil_of_length_pos
      have := lt_length_live (hfirst hnil)
      omega
    have hkept : (reachOf marks).kept = (live marks).length := by
      rw [reachOf_eq]
      exact if_neg (by simp [h, hne])
    rw [hkept]
    refine ⟨fun hi => ?_, lt_length_live⟩
    rw [getElem?_live hi, List.getElem?_eq_getElem hi]
    cases hb : (live marks)[i] with
    | true => rfl
    | false => exact absurd (hb ▸ List.getElem_mem hi) h

end Report

/-- **The search marks exactly what control reaches.** There is one mark for each word, and those
that are set are those of the positions reached from the first along the edges of the code. On the
way there, every position is put into the queue at most once, so that a queue with room for as many
positions as there are words is never full, and the loop ends after at most as many turns. A gap is
reported exactly if a position that is not reached stands before one that is; without a gap the
positions reached are the first ones, as many as are kept, and with one all words are kept.

**Proof sketch.** Every search on the way is sound. The run ends, because each turn takes another
position out; at its end the marked positions are closed under the edges. The report only reads the
marks. -/
theorem reachable_marks_reached (code : Array Word) :
    ((reachable code).size = code.size ∧
      ∀ pc, (reachable code)[pc]? = some true ↔ Reached code pc) ∧
    (∀ s, Sweep.Occurs code s → s.queue.Nodup ∧ s.queue.length ≤ code.size) ∧
    (∃ last, Sweep.Occurs code last ∧ Sweep.next code last = none ∧
      last.taken ≤ code.size ∧ last.marks = reachable code) ∧
    ((reach code).hasGap = true ↔
      ∃ pc q, pc < q ∧ ¬ Reached code pc ∧ Reached code q) ∧
    ((reach code).hasGap = false → ∀ pc, Reached code pc ↔ pc < (reach code).kept) ∧
    ((reach code).hasGap = true → (reach code).kept = code.size) := by
  let last := Sweep.run code code.size (Sweep.start code)
  have hoccurs : Sweep.Occurs code last := Sweep.occurs_run code.size .refl
  have hsound := Sweep.sound_of_occurs hoccurs
  have hend : Sweep.next code last = none := Sweep.next_run_size code
  have hmarks : last.marks = reachable code := Sweep.marks_run_start code
  have hsize : (reachable code).size = code.size := hmarks ▸ hsound.size_eq
  have hreached (pc : Nat) : (reachable code)[pc]? = some true ↔ Reached code pc :=
    hmarks ▸ hsound.marks_iff_reached hend pc
  have hfirst : (reachable code).toList ≠ [] → (reachable code).toList[0]? = some true := by
    intro hne
    rw [Array.getElem?_toList, hreached]
    have hpos := List.length_pos_iff.mpr hne
    rw [Array.length_toList, hsize] at hpos
    exact ⟨hpos, .refl⟩
  refine ⟨⟨hsize, hreached⟩, fun s hs => ?_, ⟨last, hoccurs, hend, ?_, hmarks⟩, ?_, ?_, ?_⟩
  · have := Sweep.sound_of_occurs hs
    exact ⟨this.queue_nodup, this.length_queue_le⟩
  · exact hsound.taken_le.trans hsound.length_queue_le
  · rw [reach, reachOf_hasGap_iff]
    simp only [Array.getElem?_toList, unmarked_iff, ne_eq, hreached, hsize]
    constructor
    · rintro ⟨pc, q, hlt, ⟨-, hpc⟩, hq⟩
      exact ⟨pc, q, hlt, hpc, hq⟩
    · rintro ⟨pc, q, hlt, hpc, hq⟩
      exact ⟨pc, q, hlt, ⟨hlt.trans hq.lt_size, hpc⟩, hq⟩
  · intro hgap pc
    rw [reach] at hgap ⊢
    rw [lt_reachOf_kept_iff hgap hfirst, Array.getElem?_toList, hreached]
  · intro hgap
    rw [reach] at hgap ⊢
    rw [reachOf_kept_of_hasGap hgap, Array.length_toList, hsize]

end Salvage.Chunk
