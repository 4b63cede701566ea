import Salvage.Chunk.File
import Salvage.Proofs.Chunk.Calls
import Salvage.Proofs.Workspace.Tree

/-!
# One file

What a file gives, the octets of its plain form or a complaint, is determined by its octets and by
the seed known before it. The same holds for the seed known after it, and a known seed never
changes.
-/

namespace Salvage.Chunk

/-! ## Results -/

def functionsUnder (seed : Option UInt16) (data : Bytes) : Bytes × Option UInt16 :=
  if data.getD 6 0 = 0 then (data, seed)
  else
    let s := ((Walk.function true 0).run
      { data := data, offset := functionOffset data + 1, seed := seed }).2
    (Varint.overwrite s.data 6 [0], s.seed)

def headerFault? (data : Bytes) : Option String :=
  if data.isEmpty then some "Invalid file size\n"
  else if data.length < 7 ∨ !Bytes.startsWith signature data then
    some "Not a Lua chunk (bad signature)\n"
  else if data.length ≤ functionOffset data then some "File too small for header\n"
  else none

/-- What a file gives under the seed known before: the octets of its plain form, or a complaint. -/
def resultUnder (path : String) (seed : Option UInt16) (data : Bytes) : Except String Bytes :=
  match headerFault? data with
  | some complaint => .error complaint
  | none =>
    match load (normalize (functionsUnder seed data).1) with
    | .error f =>
      .error ("Lua load error: " ++ Work.chunkName path ++ ": bad binary format (" ++
        f.message ++ ")\n")
    | .ok main => .ok (encodeChunk main)

def seedAfter (seed : Option UInt16) (data : Bytes) : Option UInt16 :=
  match headerFault? data with
  | some _ => seed
  | none => (functionsUnder seed data).2

lemma seedAfter_some (seed : UInt16) (data : Bytes) : seedAfter (some seed) data = some seed := by
  unfold seedAfter functionsUnder
  split
  · rfl
  · split
    · rfl
    · exact Walk.function_seed 0 rfl

/-! ## Steps -/

namespace Work

variable {b : Bench} {α : Type} {data : Bytes} {output : String}

lemma run_bind_of {β : Type} {w : Work α} {f : α → Work β} {b' : Bench} {r : α}
    (h : w.run b = (r, b')) : (w >>= f).run b = (f r).run b' := by
  rw [StateT.run_bind, h]
  rfl

lemma modify_bind_run (g : Bench → Bench) (f : Unit → Work α) (b : Bench) :
    (modify g >>= f : Work α).run b = (f ()).run (g b) :=
  rfl

lemma get_bind_run (f : Bench → Work α) (b : Bench) : (get >>= f : Work α).run b = (f b).run b :=
  rfl

lemma print_bind_run (text : String) (f : Unit → Work α) (b : Bench) :
    (print text >>= f).run b =
      (f ()).run { b with printed := b.printed ++ Bytes.ofString text } :=
  rfl

lemma decryptFunctions_run (data : Bytes) (b : Bench) : ∃ printed,
    (decryptFunctions data).run b = ((functionsUnder b.seed data).1,
      { b with seed := (functionsUnder b.seed data).2, printed := printed }) := by
  unfold decryptFunctions functionsUnder
  by_cases hflag : data.getD 6 0 = 0
  · simp only [hflag, ↓reduceIte]
    exact ⟨_, rfl⟩
  · simp only [hflag, ↓reduceIte]
    exact ⟨_, rfl⟩

lemma readInput_run {input : String} (hread : b.tree.read input = .ok data) :
    (readInput input).run b = if data.isEmpty
      then (none, { b with complaints := b.complaints ++ Bytes.ofString "Invalid file size\n" })
      else (some data, b) := by
  rw [readInput, get_bind_run, hread]
  cases hempty : data.isEmpty <;> simp only [hempty] <;> rfl

lemma writeOutput_run (hwrite : b.tree.Writable output) :
    (writeOutput output data).run b = (true, { b with
      tree := b.tree.put (Tree.pathPlace b.tree.home output) (.file data) }) := by
  rw [writeOutput, get_bind_run, hwrite.write_eq]
  rfl

lemma reload_run (input : String) (data : Bytes)
    (hwrite : b.tree.Writable output) : ∃ printed,
    (reload input output data).run b = match load data with
      | .error f => (false, { b with
          printed := printed
          complaints := b.complaints ++ Bytes.ofString ("Lua load error: " ++ chunkName input ++
            ": bad binary format (" ++ f.message ++ ")\n") })
      | .ok main => (true, { b with
          printed := printed
          tree := b.tree.put (Tree.pathPlace b.tree.home output) (.file (encodeChunk main)) }) := by
  unfold reload
  cases load data with
  | error f => exact ⟨_, rfl⟩
  | ok main =>
    have hrun (printed : Bytes) :
        (writeOutput output (encodeChunk main)).run { b with printed := printed } = (true, _) :=
      writeOutput_run hwrite
    rw [print_bind_run]
    rw [run_bind_of (hrun _)]
    exact ⟨_, rfl⟩

/-- **One file**, which is read and can be written: its result under the seed found last is written,
or complained about. -/
lemma decryptFile_run {input : String}
    (hread : b.tree.read input = .ok data) (hwrite : b.tree.Writable output) : ∃ printed,
    (decryptFile input output).run b = match resultUnder input b.seed data with
      | .ok plain => (true, { b with
          printed := printed
          seed := seedAfter b.seed data
          tree := b.tree.put (Tree.pathPlace b.tree.home output) (.file plain) })
      | .error complaint => (false, { b with
          printed := printed
          seed := seedAfter b.seed data
          complaints := b.complaints ++ Bytes.ofString complaint }) := by
  have hinput := readInput_run hread
  unfold decryptFile
  by_cases hempty : data.isEmpty
  · have hfault : headerFault? data = some "Invalid file size\n" := by
      rw [headerFault?, if_pos hempty]
    simp only [resultUnder, seedAfter, hfault]
    rw [run_bind_of (hinput.trans (if_pos hempty))]
    exact ⟨_, rfl⟩
  rw [run_bind_of (hinput.trans (if_neg hempty))]
  rw [print_bind_run]
  by_cases hsignature : data.length < 7 ∨ (!Bytes.startsWith signature data) = true
  · have hfault : headerFault? data = some "Not a Lua chunk (bad signature)\n" := by
      rw [headerFault?, if_neg hempty, if_pos hsignature]
    simp only [resultUnder, seedAfter, hfault]
    rw [if_pos hsignature]
    exact ⟨_, rfl⟩
  rw [if_neg hsignature, print_bind_run]
  by_cases hheader : data.length ≤ functionOffset data
  · have hfault : headerFault? data = some "File too small for header\n" := by
      rw [headerFault?, if_neg hempty, if_neg hsignature, if_pos hheader]
    simp only [resultUnder, seedAfter, hfault]
    rw [if_pos hheader]
    exact ⟨_, rfl⟩
  have hfault : headerFault? data = none := by
    rw [headerFault?, if_neg hempty, if_neg hsignature, if_neg hheader]
  simp only [resultUnder, seedAfter, hfault]
  obtain ⟨_, hfunctions⟩ := decryptFunctions_run data { b with printed := _ }
  rw [if_neg hheader, run_bind_of hfunctions, print_bind_run]
  obtain ⟨printed, hreload⟩ := reload_run input (normalize (functionsUnder b.seed data).1)
    (b := { b with seed := (functionsUnder b.seed data).2, printed := _ }) hwrite
  refine ⟨printed, hreload.trans ?_⟩
  cases load (normalize (functionsUnder b.seed data).1) <;> rfl

end Work

end Salvage.Chunk
