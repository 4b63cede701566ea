import Salvage.Proofs.Chunk.Walk

/-!
# Where a walk goes

All sections of a function but its code are passed over only where they fit into the buffer. So a
walk that is inside the buffer stays inside until it passes code that does not fit, and a walk that
is outside reads nothing and stays where it is. Either way the walk never goes back, and changes
nothing before the position it starts at. It never forgets a seed that it knows.
-/

namespace Salvage

namespace Varint

/-! ## Numbers and buffers -/

lemma readFrom_size_bounds {acc : UInt32} {count n : Nat} {b : Bytes}
    (h : (readFrom acc count b).size = some n) : count < n ∧ n ≤ count + b.length := by
  induction b generalizing acc count with
  | nil => simp [readFrom] at h
  | cons x b ih =>
    rw [readFrom] at h
    split at h
    · have := ih h
      simp only [List.length_cons]
      omega
    · obtain rfl : count + 1 = n := by simpa using h
      simp

end Varint

namespace Chunk

/-! ## Courses -/

structure Call where
  start : Nat
  count : Nat
deriving DecidableEq

def Call.stop (c : Call) : Nat :=
  c.start + 4 * c.count

inductive Course (size : Nat) : Nat → List Call → Nat → Prop
  | lost {i : Nat} (hi : size < i) : Course size i [] i
  /-- A walk stays inside the buffer while all code on its way fits. -/
  | inside {i j : Nat} {calls : List Call} (hij : i ≤ j) (hj : j ≤ size)
      (hcalls : ∀ c ∈ calls, c.stop ≤ size) : Course size i calls j
  | outside {i : Nat} {calls : List Call} {c : Call} (hi : i ≤ c.start) (hstart : c.start ≤ size)
      (hstop : size < c.stop) (hcalls : ∀ c ∈ calls, c.stop ≤ size) :
      Course size i (calls ++ [c]) c.stop

namespace Course

variable {size i j k : Nat} {calls calls' : List Call}

lemma refl (size i : Nat) : Course size i [] i := by
  rcases Nat.lt_or_ge size i with h | h
  · exact .lost h
  · exact .inside (Nat.le_refl i) h (by simp)

lemma le (h : Course size i calls j) : i ≤ j := by
  cases h with
  | lost _ => exact Nat.le_refl _
  | inside hij _ _ => exact hij
  | outside hi _ _ _ =>
    rw [Call.stop]
    omega

lemma of_lost (h : Course size i calls j) (hi : size < i) : calls = [] ∧ j = i := by
  cases h with
  | lost _ => exact ⟨rfl, rfl⟩
  | inside hij hj _ => omega
  | outside hle hstart _ _ => omega

/-- **Courses one after the other.**

**Proof sketch.** As long as the first course stays inside, its code fits, and the second one goes
on from there. Once the first course has led outside, the second one does nothing. -/
lemma trans (h : Course size i calls j) (h' : Course size j calls' k) :
    Course size i (calls ++ calls') k := by
  cases h with
  | lost hi =>
    obtain ⟨rfl, rfl⟩ := h'.of_lost hi
    exact .lost hi
  | outside hi hstart hstop hcalls =>
    obtain ⟨rfl, rfl⟩ := h'.of_lost hstop
    rw [List.append_nil]
    exact .outside hi hstart hstop hcalls
  | inside hij hj hcalls =>
    cases h' with
    | lost hlost => omega
    | inside hjk hk hcalls' =>
      refine .inside (Nat.le_trans hij hjk) hk fun c hc => ?_
      rcases List.mem_append.mp hc with hc | hc
      · exact hcalls c hc
      · exact hcalls' c hc
    | outside hi hstart hstop hcalls' =>
      rw [← List.append_assoc]
      refine .outside (Nat.le_trans hij hi) hstart hstop fun c hc => ?_
      rcases List.mem_append.mp hc with hc | hc
      · exact hcalls c hc
      · exact hcalls' c hc

lemma fit_iff (h : Course size i calls j) :
    (∀ c ∈ calls, c.stop ≤ size) ↔ (i ≤ size → j ≤ size) := by
  cases h with
  | lost hi => exact ⟨fun _ hle => absurd hle (Nat.not_le.mpr hi), fun _ => by simp⟩
  | inside _ hj hcalls => exact ⟨fun _ _ => hj, fun _ => hcalls⟩
  | @outside _ c hi hstart hstop _ =>
    constructor
    · intro hfit
      exact absurd (hfit c (by simp)) (Nat.not_le.mpr hstop)
    · intro hend
      exact absurd (hend (Nat.le_trans hi hstart)) (Nat.not_le.mpr hstop)

lemma dropLast_fits (h : Course size i calls j) : ∀ c ∈ calls.dropLast, c.stop ≤ size := by
  cases h with
  | lost _ => simp
  | inside _ _ hcalls => exact fun c hc => hcalls c (List.dropLast_subset _ hc)
  | outside _ _ _ hcalls =>
    rw [List.dropLast_concat]
    exact hcalls

/-- A course works on code that starts inside the buffer, and it ends behind code that does not
fit. -/
lemma start_le_and_end_eq (h : Course size i calls j) :
    ∀ c ∈ calls, c.start ≤ size ∧ (size < c.stop → j = c.stop) := by
  have hfits {c : Call} (hc : c.stop ≤ size) : c.start ≤ size ∧ (size < c.stop → j = c.stop) :=
    ⟨Nat.le_trans (Nat.le_add_right _ _) hc, fun hlt => absurd hc (Nat.not_le.mpr hlt)⟩
  cases h with
  | lost _ => simp
  | inside _ _ hcalls => exact fun c hc => hfits (hcalls c hc)
  | outside _ hstart _ hcalls =>
    intro c hc
    rcases List.mem_append.mp hc with hc | hc
    · exact hfits (hcalls c hc)
    · obtain rfl := List.mem_singleton.mp hc
      exact ⟨hstart, fun _ => rfl⟩

end Course

/-- A walk from `s` gets to `t` and works on `calls` on its way. The buffer keeps its length and its
first `base` octets, and a seed that is known is kept. -/
structure Session.Reaches (base : Nat) (s : Session) (calls : List Call) (t : Session) : Prop where
  length_eq : t.data.length = s.data.length
  front_eq : t.data.take base = s.data.take base
  course : Course s.data.length s.offset calls t.offset
  seed_eq : ∀ seed, s.seed = some seed → t.seed = some seed

namespace Session.Reaches

variable {base : Nat} {s t u : Session} {calls calls' : List Call}

lemma refl (base : Nat) (s : Session) : s.Reaches base [] s :=
  ⟨rfl, rfl, .refl _ _, fun _ h => h⟩

lemma trans (h : s.Reaches base calls t) (h' : t.Reaches base calls' u) :
    s.Reaches base (calls ++ calls') u := by
  refine ⟨h'.length_eq.trans h.length_eq, h'.front_eq.trans h.front_eq, h.course.trans ?_,
    fun seed hs => h'.seed_eq seed (h.seed_eq seed hs)⟩
  rw [← h.length_eq]
  exact h'.course

lemma le_offset (h : s.Reaches base calls t) (hbase : base ≤ s.offset) : base ≤ t.offset :=
  Nat.le_trans hbase h.course.le

lemma advance {n : Nat} (hn : s.offset + n ≤ s.data.length) (hlen : t.data.length = s.data.length)
    (hfront : t.data.take base = s.data.take base) (hoffset : t.offset = s.offset + n)
    (hseed : t.seed = s.seed) : s.Reaches base [] t := by
  refine ⟨hlen, hfront, ?_, fun _ h => hseed.trans h⟩
  rw [hoffset]
  exact .inside (Nat.le_add_right _ _) hn (by simp)

end Session.Reaches

namespace Walk

/-! ## Steps that move inside the buffer -/

/-- The step works on no code. It stays inside the buffer, or does nothing outside, and changes
nothing before its position. -/
def Steady {α : Type} (w : Walk α) : Prop :=
  ∀ ⦃base : Nat⦄ ⦃s : Session⦄, base ≤ s.offset → s.Reaches base [] (w.run s).2

/-- The step is steady wherever `n` octets follow its position. -/
def SteadyOver {α : Type} (n : Nat) (w : Walk α) : Prop :=
  ∀ ⦃base : Nat⦄ ⦃s : Session⦄, base ≤ s.offset → s.offset + n ≤ s.data.length →
    s.Reaches base [] (w.run s).2

lemma steady_of_same {α : Type} {w : Walk α} (hdata : ∀ s, (w.run s).2.data = s.data)
    (hoffset : ∀ s, (w.run s).2.offset = s.offset) (hseed : ∀ s, (w.run s).2.seed = s.seed) :
    Steady w := by
  intro base s _
  refine ⟨congrArg List.length (hdata s), congrArg (List.take base) (hdata s), ?_,
    fun _ h => (hseed s).trans h⟩
  rw [hoffset]
  exact .refl _ _

namespace Steady

variable {α β : Type} {w w' : Walk α} {f : α → Walk β}

lemma pure (r : α) : Steady (Pure.pure r : Walk α) :=
  steady_of_same (fun _ => rfl) (fun _ => rfl) fun _ => rfl

lemma bind (h : Steady w) (hf : ∀ r, Steady (f r)) : Steady (w >>= f) := by
  intro base s hbase
  have hfirst := h hbase
  exact hfirst.trans (hf _ (hfirst.le_offset hbase))

lemma get_bind {f : Session → Walk β} (h : ∀ s, Steady (f s)) : Steady (get >>= f) :=
  fun _ s hbase => h s hbase

lemma ite {c : Prop} [Decidable c] (h : Steady w) (h' : Steady w') :
    Steady (if c then w else w') := by
  split
  · exact h
  · exact h'

lemma hasRoom_bind {n : Nat} {f : Bool → Walk β} (h : SteadyOver n (f true))
    (h' : Steady (f false)) : Steady (hasRoom n >>= f) := by
  intro base s hbase
  have hroom : (hasRoom n).run s = (decide (s.offset + n ≤ s.data.length), s) := rfl
  rw [run_bind_of hroom]
  by_cases hn : s.offset + n ≤ s.data.length
  · rw [decide_eq_true hn]
    exact h hbase hn
  · rw [decide_eq_false hn]
    exact h' hbase

end Steady

namespace SteadyOver

variable {α β : Type} {n : Nat} {w : Walk α} {f : α → Walk β}

lemma bind (h : SteadyOver n w) (hf : ∀ r, Steady (f r)) : SteadyOver n (w >>= f) := by
  intro base s hbase hn
  have hfirst := h hbase hn
  exact hfirst.trans (hf _ (hfirst.le_offset hbase))

lemma get_bind {f : Session → Walk β} (h : ∀ s, SteadyOver n (f s)) : SteadyOver n (get >>= f) :=
  fun _ s hbase hn => h s hbase hn

end SteadyOver

lemma skip_steadyOver (n : Nat) : SteadyOver n (skip n) :=
  fun _ _ _ hn => .advance hn rfl rfl rfl rfl

lemma text_steadyOver (flag : Bool) (n : Nat) : SteadyOver n (text flag n) := by
  cases flag with
  | false => exact skip_steadyOver n
  | true =>
    intro base s hbase hn
    exact .advance hn (Varint.length_overwrite _ _ _) (Varint.take_overwrite hbase _ _) rfl rfl

lemma number_cases (s : Session) : number.run s = (none, s) ∨
    ∃ n k, number.run s = (some n, { s with offset := s.offset + k }) ∧ 0 < k ∧
      s.offset + k ≤ s.data.length := by
  cases hsize : (Varint.read (s.data.drop s.offset)).size with
  | none => exact .inl (number_of_size_none hsize)
  | some k =>
    obtain ⟨hpos, hle⟩ := Varint.readFrom_size_bounds hsize
    rw [List.length_drop] at hle
    exact .inr ⟨_, k, number_of_read (congrArg (Varint.Reading.mk _) hsize), hpos, by omega⟩

lemma number_steady : Steady number := by
  intro base s hbase
  rcases number_cases s with h | ⟨n, k, h, -, hle⟩
  · rw [h]
    exact .refl base s
  · rw [h]
    exact .advance hle rfl rfl rfl rfl

lemma number_bind_steady {α : Type} {f : Option UInt32 → Walk α} (hnone : Steady (f none))
    (hsome : ∀ n, Steady (f (some n))) : Steady (number >>= f) := by
  refine number_steady.bind fun n => ?_
  cases n with
  | none => exact hnone
  | some n => exact hsome n

/-! ## Sections without code -/

lemma printBytes_steady (b : Bytes) : Steady (printBytes b) :=
  steady_of_same (fun _ => rfl) (fun _ => rfl) fun _ => rfl

lemma say_steady (depth : Int) (line : String) : Steady (say depth line) :=
  printBytes_steady _

lemma source_steady (flag : Bool) (depth : Int) : Steady (source flag depth) := by
  refine number_bind_steady (.pure _) fun v => .ite (.pure _) (.hasRoom_bind ?_ (.pure _))
  refine .get_bind fun _ => (text_steadyOver flag _).bind fun _ => .get_bind fun _ => ?_
  exact .bind (printBytes_steady _) fun _ => .pure _

lemma constantsFrom_steady (flag : Bool) (depth : Int) (n i : Nat) :
    Steady (constantsFrom flag depth n i) := by
  induction n generalizing i with
  | zero => exact .pure _
  | succ n ih =>
    -- the tag is passed over only if it is there
    intro base s hbase
    rw [constantsFrom, get_bind_run]
    cases htag : s.data[s.offset]? with
    | none => exact .refl base s
    | some tag =>
      have hroom : s.offset + 1 ≤ s.data.length := (List.getElem?_eq_some_iff.mp htag).1
      refine (skip_steadyOver 1).bind (fun _ => ?_) hbase hroom
      cases constantSize? tag with
      | some size =>
        exact .hasRoom_bind ((skip_steadyOver size).bind fun _ => ih _) (.pure _)
      | none =>
        refine .ite (number_bind_steady (.pure _) fun v => ?_) (say_steady _ _)
        exact .hasRoom_bind ((text_steadyOver flag _).bind fun _ => ih _) (.pure _)

lemma constants_steady (flag : Bool) (depth : Int) : Steady (constants flag depth) :=
  number_bind_steady (.pure _) fun _ => constantsFrom_steady flag depth _ 0

lemma upvalues_steady : Steady upvalues := by
  have hrecords (n : Nat) : Steady (recordsFrom n) := by
    induction n with
    | zero => exact .pure _
    | succ n ih => exact .hasRoom_bind ((skip_steadyOver 3).bind fun _ => ih) (.pure _)
  exact number_bind_steady (.pure _) fun _ => hrecords _

lemma counted_steady {step : Walk Bool} (hstep : Steady step) : Steady (counted step) := by
  have hrepeat (n : Nat) : Steady (repeatWhile step n) := by
    induction n with
    | zero => exact .pure _
    | succ n ih => exact .bind hstep fun _ => .ite ih (.pure _)
  exact number_bind_steady (.pure _) fun _ => hrepeat _

lemma name_steady (flag : Bool) : Steady (name flag) :=
  number_bind_steady (.pure _) fun _ => .ite (.pure _)
    (.hasRoom_bind ((text_steadyOver flag _).bind fun _ => .pure _) (.pure _))

lemma pair_steady : Steady pair :=
  .bind number_steady fun _ => .ite (.bind number_steady fun _ => .pure _) (.pure _)

lemma debugInfo_steady (flag : Bool) (depth : Int) : Steady (debugInfo flag depth) := by
  have hlines : Steady (lineInfo depth) :=
    number_bind_steady (.pure _) fun n => .hasRoom_bind
      ((skip_steadyOver n.toNat).bind fun _ => .pure _) (.bind (say_steady _ _) fun _ => .pure _)
  have hlocal : Steady (localVariable flag) :=
    .bind (name_steady flag) fun _ => .ite pair_steady (.pure _)
  refine .bind hlines fun _ => .ite (.bind (counted_steady pair_steady) fun _ => .ite ?_ (.pure _))
    (.pure _)
  exact .bind (counted_steady hlocal) fun _ => .ite
    (.bind (counted_steady (name_steady flag)) fun _ => .pure _) (.pure _)

end Walk

end Chunk

end Salvage
