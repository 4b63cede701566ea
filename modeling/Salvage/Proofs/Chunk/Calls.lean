import Salvage.Proofs.Chunk.Course
import Salvage.Proofs.Chunk.Function

/-!
# The code that a walk works on

The number of words of a function is read from the buffer and not compared with what is left of it.
A walk that lists the code it works on shows what follows from that: code that does not fit into the
buffer is worked on all the same, but it is the last code of the walk, which ends outside the buffer
behind it.
-/

namespace Salvage.Chunk

open Walk

/-! ## Walks that list their code -/

abbrev Traced := StateT (List Call) Walk

namespace Traced

def note (c : Call) : Traced Unit :=
  modify fun calls => calls ++ [c]

def codeSection (flag : Bool) (depth : Int) (line : UInt32) (stackPosition : Nat) :
    Traced Bool := do
  match ← number with
  | none => return false
  | some n =>
    let count := n.toNat
    let s ← (get : Walk Session)
    let start := s.offset
    let constantCount := signed (Varint.read (s.data.drop (start + 4 * count))).value
    if flag && count != 0 then
      note ⟨start, count⟩
      code start count line constantCount depth
      fitStack stackPosition start count
    skip (4 * count)
    return true

def childrenFrom (child : Traced Unit) (depth : Int) : Nat → Nat → Traced Unit
  | 0, _ => return
  | n + 1, i => do
    let start := (← (get : Walk Session)).offset
    child
    let consumed := (← (get : Walk Session)).offset - start
    if consumed = 0 then say depth (stuckChild i)
    else if maxChildLength < consumed then say depth (longChild i consumed)
    else childrenFrom child depth n (i + 1)

def childrenWith (child : Traced Unit) (depth : Int) : Traced Unit := do
  if maxDepth < depth then say depth "[ERR] Max proto depth exceeded"
  else
    let start := (← (get : Walk Session)).offset
    match ← number with
    | none => say depth "[ERR] Failed to read proto count"
    | some n =>
      if maxChildren < n.toNat then refuseCount depth start n.toNat
      else childrenFrom child depth n.toNat 0

def functionWith (flag : Bool) (depth : Int) (child : Traced Unit) : Traced Unit := do
  if ← source flag depth then
    match ← number with
    | none => return
    | some line =>
      match ← number with
      | none => return
      | some _ =>
        if ← hasRoom 3 then
          let stackPosition := (← (get : Walk Session)).offset + 2
          skip 3
          if ← codeSection flag depth line stackPosition then
            constants flag depth
            upvalues
            childrenWith child depth
            debugInfo flag depth

def functionUpTo (flag : Bool) : Nat → Int → Traced Unit
  | 0, depth => functionWith flag depth (pure ())
  | levels + 1, depth => functionWith flag depth (functionUpTo flag levels (depth + 1))

def function (flag : Bool) (depth : Int) : Traced Unit :=
  functionUpTo flag (levelsFrom depth) depth

/-! ## Listing changes nothing -/

def TracesFrom {α : Type} (base : Nat) (s : Session) (t : Traced α) (w : Walk α) : Prop :=
  ∀ calls, ∃ new, (t.run calls).run s = (((w.run s).1, calls ++ new), (w.run s).2) ∧
    s.Reaches base new (w.run s).2

def Traces {α : Type} (t : Traced α) (w : Walk α) : Prop :=
  ∀ ⦃base : Nat⦄ ⦃s : Session⦄, base ≤ s.offset → TracesFrom base s t w

section Rules

variable {α β : Type} {base : Nat} {s : Session} {t t' : Traced α} {w w' : Walk α}
  {f : α → Traced β} {g : α → Walk β}

lemma TracesFrom.lift (h : s.Reaches base [] (w.run s).2) :
    TracesFrom base s (liftM w : Traced α) w :=
  fun calls => ⟨[], by rw [List.append_nil]; rfl, h⟩

lemma TracesFrom.bind (h : TracesFrom base s t w)
    (h' : TracesFrom base (w.run s).2 (f (w.run s).1) (g (w.run s).1)) :
    TracesFrom base s (t >>= f) (w >>= g) := by
  intro calls
  obtain ⟨new, hrun, hreach⟩ := h calls
  obtain ⟨new', hrun', hreach'⟩ := h' (calls ++ new)
  refine ⟨new ++ new', ?_, hreach.trans hreach'⟩
  rw [StateT.run_bind, run_bind_of hrun, hrun', List.append_assoc]
  rfl

lemma TracesFrom.get_bind {f : Session → Traced β} {g : Session → Walk β}
    (h : TracesFrom base s (f s) (g s)) :
    TracesFrom base s (liftM (get : Walk Session) >>= f) (get >>= g) :=
  h

lemma Traces.lift (h : w.Steady) : Traces (liftM w : Traced α) w :=
  fun _ _ hbase => .lift (h hbase)

lemma Traces.pure (r : α) : Traces (Pure.pure r) (Pure.pure r) :=
  Traces.lift (w := Pure.pure r) (.pure r)

lemma Traces.bind (h : Traces t w) (h' : ∀ r, Traces (f r) (g r)) : Traces (t >>= f) (w >>= g) := by
  intro base s hbase
  obtain ⟨_, -, hreach⟩ := h hbase []
  exact (h hbase).bind (h' _ (hreach.le_offset hbase))

lemma Traces.ite {c : Prop} [Decidable c] (h : Traces t w) (h' : Traces t' w') :
    Traces (if c then t else t') (if c then w else w') := by
  split
  · exact h
  · exact h'

lemma Traces.get_bind {f : Session → Traced β} {g : Session → Walk β}
    (h : ∀ s, Traces (f s) (g s)) : Traces (liftM (get : Walk Session) >>= f) (get >>= g) :=
  fun _ s hbase => .get_bind (h s hbase)

lemma Traces.number_bind {f : Option UInt32 → Traced β} {g : Option UInt32 → Walk β}
    (hnone : Traces (f none) (g none)) (hsome : ∀ n, Traces (f (some n)) (g (some n))) :
    Traces (liftM number >>= f) (number >>= g) := by
  refine (Traces.lift number_steady).bind fun n => ?_
  cases n with
  | none => exact hnone
  | some n => exact hsome n

end Rules

/-- The course over code that stands where the walk is: inside the buffer if the code fits, and
outside otherwise. -/
lemma course_code {size : Nat} {c : Call} (hstart : c.start ≤ size) :
    Course size c.start [c] c.stop := by
  have hle : c.start ≤ c.stop := Nat.le_add_right _ _
  rcases Nat.lt_or_ge size c.stop with hstop | hstop
  · have houtside : Course size c.start ([] ++ [c]) c.stop :=
      .outside (Nat.le_refl _) hstart hstop (by simp)
    exact houtside
  · exact .inside hle hstop (by simpa using hstop)

/-- **The code section** of a function whose stack size stands behind the first octets. -/
lemma codeSection_traces {base position : Nat} {s : Session} (hbase : base ≤ s.offset)
    (hposition : base ≤ position) (depth : Int) (line : UInt32) :
    TracesFrom base s (codeSection true depth line position)
      (Walk.codeSection true depth line position) := by
  refine (TracesFrom.lift (number_steady hbase)).bind ?_
  rcases number_cases s with h | ⟨n, k, h, -, hle⟩
  · rw [h]
    exact Traces.pure false hbase
  · rw [h]
    have hbase' : base ≤ s.offset + k := by omega
    by_cases hn : n.toNat = 0
    · simp only [hn]
      exact Traces.lift (w := Pure.pure true) (.pure true) hbase'
    · have hflag : (true && n.toNat != 0) = true := by simpa using hn
      simp only [hflag, ↓reduceIte]
      intro calls
      refine ⟨[⟨s.offset + k, n.toNat⟩], rfl, ?_⟩
      have hcode := code_confined (s.offset + k) n.toNat line
        (signed (Varint.read (s.data.drop (s.offset + k + 4 * n.toNat))).value) depth
        { s with offset := s.offset + k }
      have hstack := fitStack_confined position (s.offset + k) n.toNat
      -- behind the code the walk moves by four octets for each word
      have hstop := congrArg (· + 4 * n.toNat) ((hstack _).offset_eq.trans hcode.offset_eq)
      have hcourse := course_code (c := ⟨s.offset + k, n.toNat⟩) hle
      exact ⟨(hstack _).length_eq.trans hcode.length_eq,
        ((hstack _).take_eq hposition).trans (hcode.take_eq hbase'), Eq.subst (motive := Course _ _ _) hstop.symm hcourse,
        fun seed hs => code_seed hs _⟩

variable {child : Traced Unit} {child' : Walk Unit}

lemma childrenFrom_traces (h : Traces child child') (depth : Int) (n i : Nat) :
    Traces (childrenFrom child depth n i) (Walk.childrenFrom child' depth n i) := by
  induction n generalizing i with
  | zero => exact .pure ()
  | succ n ih =>
    refine .get_bind fun _ => h.bind fun _ => .get_bind fun _ => ?_
    exact .ite (.lift (say_steady _ _)) (.ite (.lift (say_steady _ _)) (ih (i + 1)))

lemma childrenWith_traces (h : Traces child child')
    (depth : Int) : Traces (childrenWith child depth) (Walk.childrenWith child' depth) := by
  have hrefuse (start count : Nat) : (refuseCount depth start count).Steady :=
    .bind (say_steady _ _) fun _ => .get_bind fun _ => say_steady _ _
  refine .ite (.lift (say_steady _ _)) (.get_bind fun s => ?_)
  refine .number_bind (.lift (say_steady _ _)) fun n => ?_
  exact .ite (.lift (hrefuse _ _)) (childrenFrom_traces h depth _ 0)

lemma sections_traces (h : Traces child child') (depth : Int) :
    Traces (do
      constants true depth
      upvalues
      childrenWith child depth
      debugInfo true depth) (sections true depth child') :=
  (Traces.lift (constants_steady true depth)).bind fun _ =>
    (Traces.lift upvalues_steady).bind fun _ => (childrenWith_traces h depth).bind fun _ =>
      .lift (debugInfo_steady true depth)

/-- **A function** whose nested functions are traced.

**Proof sketch.** The name of the source and the lines work on no code. The three octets before the
code hold the stack size, which may be changed behind them, but nothing before the three octets is.
The sections behind the code work only on the code of nested functions. -/
lemma functionWith_traces (h : Traces child child') (depth : Int) :
    Traces (functionWith true depth child) (Walk.functionWith true depth child') := by
  refine (Traces.lift (source_steady true depth)).bind fun found => .ite ?_ (.pure ())
  refine .number_bind (.pure ()) fun line => .number_bind (.pure ()) fun last => ?_
  intro base s hbase
  refine TracesFrom.bind (w := hasRoom 3) (.lift (.refl base s)) ?_
  have hroom : (hasRoom 3).run s = (decide (s.offset + 3 ≤ s.data.length), s) := rfl
  rw [hroom]
  by_cases hthree : s.offset + 3 ≤ s.data.length
  · rw [decide_eq_true hthree]
    have hskip : s.Reaches base [] { s with offset := s.offset + 3 } :=
      .advance hthree rfl rfl rfl rfl
    have hcode : TracesFrom base { s with offset := s.offset + 3 }
        (codeSection true depth line (s.offset + 2))
        (Walk.codeSection true depth line (s.offset + 2)) :=
      codeSection_traces (by simp; omega) (by omega) depth line
    refine TracesFrom.get_bind (TracesFrom.bind (w := skip 3) (.lift hskip) ?_)
    refine hcode.bind ?_
    obtain ⟨_, -, hreach⟩ := hcode []
    exact Traces.ite (sections_traces h depth) (.pure ()) (hreach.le_offset (by simp; omega))
  · rw [decide_eq_false hthree]
    exact Traces.pure () hbase

lemma functionUpTo_traces (levels : Nat) (depth : Int) :
    Traces (functionUpTo true levels depth) (Walk.functionUpTo true levels depth) := by
  induction levels generalizing depth with
  | zero => exact functionWith_traces (.pure ()) depth
  | succ levels ih => exact functionWith_traces (ih (depth + 1)) depth

/-- **Listing the code changes nothing about a walk over a function**, and the code is that of the
course of the walk. -/
lemma function_traces (depth : Int) : Traces (function true depth) (Walk.function true depth) :=
  functionUpTo_traces (levelsFrom depth) depth

end Traced

lemma Walk.function_keeps {base : Nat} (depth : Int) {s : Session} (hbase : base ≤ s.offset) :
    ((function true depth).run s).2.data.length = s.data.length ∧
      ((function true depth).run s).2.data.take base = s.data.take base := by
  obtain ⟨_, -, hreach⟩ := Traced.function_traces depth hbase []
  exact ⟨hreach.length_eq, hreach.front_eq⟩

lemma Walk.function_seed (depth : Int) {s : Session} {seed : UInt16} (hs : s.seed = some seed) :
    ((function true depth).run s).2.seed = some seed := by
  obtain ⟨_, -, hreach⟩ := Traced.function_traces depth (Nat.le_refl s.offset) []
  exact hreach.seed_eq seed hs

/-! ## The code of a walk -/

/-- The code that the walk over a function works on: it is deciphered, repaired and measured. -/
def codeCalls (flag : Bool) (depth : Int) (s : Session) : List Call :=
  (((Traced.function flag depth).run []).run s).1.2

/-- **When the code of a walk fits into the buffer.** Take any buffer, any start and any depth of a
protected function. The walk that lists its code is the walk over the function. All code it works
on, at every level, ends inside the buffer if and only if the walk itself does, unless it started
outside. All code starts inside, only the last one may not fit, and the walk then ends behind it. -/
theorem code_calls_fit_iff (depth : Int) (s : Session) :
    (((Traced.function true depth).run []).run s).2 = ((Walk.function true depth).run s).2 ∧
      ((∀ c ∈ codeCalls true depth s, c.stop ≤ s.data.length) ↔
        (s.offset ≤ s.data.length →
          ((Walk.function true depth).run s).2.offset ≤ s.data.length)) ∧
      (∀ c ∈ (codeCalls true depth s).dropLast, c.stop ≤ s.data.length) ∧
      ∀ c ∈ codeCalls true depth s, c.start ≤ s.data.length ∧
        (s.data.length < c.stop → ((Walk.function true depth).run s).2.offset = c.stop) := by
  obtain ⟨calls, hrun, hreach⟩ := Traced.function_traces depth (Nat.le_refl s.offset) []
  have hcalls : codeCalls true depth s = calls := by
    rw [codeCalls, hrun, List.nil_append]
  rw [hcalls, hrun]
  exact ⟨rfl, hreach.course.fit_iff, hreach.course.dropLast_fits, hreach.course.start_le_and_end_eq⟩

/-- A function of two words that the buffer ends in the middle of. -/
def oversizedSession : Session :=
  { data := [0x80, 0x80, 0x80, 0, 0, 2, 0x82, 0x80, 0x7C, 0, 0, 0x75, 0x4C, 0xF5] }

/-- **Code that does not fit is worked on**: two words from position 7 on, of which the last
octet is behind the end of the buffer. -/
theorem oversized_code_is_called :
    codeCalls true 0 oversizedSession = [⟨7, 2⟩] ∧ oversizedSession.data.length < 7 + 4 * 2 := by
  decide

end Salvage.Chunk
