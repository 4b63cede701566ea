import Salvage.Envelope.Records
import Salvage.Proofs.Cipher.Modes
import Salvage.Proofs.Compress.Stored
import Salvage.Proofs.Text.Utf8

/-!
# Envelopes give back what is in them

The salt behind the first block and the salt in front of the text are cut out where they were put in,
for texts of every length. The two ways of opening an envelope, the one for scripts and the one for
record files, come to the same on all octets, those included that are too short for a salt.
-/

namespace Salvage

/-! ## Derived keys -/

namespace KeyDerivation

@[simp] lemma length_hmac (key message : Bytes) : (Hmac.sha1 key message).length = 20 :=
  Sha1.length_digest _

lemma length_iterate (password : Bytes) (n : Nat) {last total : Bytes} (htotal : total.length = 20) :
    (iterate password n last total).length = 20 := by
  induction n generalizing last total with
  | zero => exact htotal
  | succ n ih =>
    apply ih
    rw [Bytes.length_xor, htotal, length_hmac, Nat.min_self]

lemma length_block (password salt : Bytes) (count i : Nat) :
    (block password salt count i).length = 20 :=
  length_iterate password _ (length_hmac _ _)

@[simp] lemma length_pbkdf2 (password salt : Bytes) (length count : Nat) :
    (pbkdf2 password salt length count).length = length := by
  have hblocks (n : Nat) : ((List.range n).flatMap fun i =>
      block password salt count (i + 1)).length = 20 * n := by
    induction n with
    | zero => rfl
    | succ n ih => simp [List.range_succ, ih, length_block, Nat.mul_succ]
  rw [pbkdf2, List.length_take, hblocks]
  omega

end KeyDerivation

namespace Envelope

/-! ## Texts -/

lemma length_keys_key (password salt : Bytes) : (keys password salt).key.length = 32 := by
  simp [keys]

lemma length_keys_vector (password salt : Bytes) :
    (keys password salt).vector.length = Aes.Block.length := by
  simp [keys, Aes.Block.length]

lemma saltOf_bodyOf {body salt : Bytes} (hbody : saltLength ≤ body.length)
    (hsalt : salt.length = saltLength) :
    saltOf (body.take saltLength ++ salt ++ body.drop saltLength) = salt ∧
      bodyOf (body.take saltLength ++ salt ++ body.drop saltLength) = body := by
  have hfirst : (body.take saltLength).length = saltLength := List.length_take_of_le hbody
  have hboth : (body.take saltLength ++ salt).length = 2 * saltLength := by
    rw [List.length_append, hfirst, hsalt, Nat.two_mul]
  constructor
  · rw [saltOf, List.append_assoc, List.drop_left' hfirst, List.take_left' hsalt]
  · rw [bodyOf, List.drop_left' hboth, List.append_assoc, List.take_left' hfirst,
      List.take_append_drop]

lemma unwrap_wrap {inner outer : Bytes} (hinner : inner.length = saltLength)
    (houter : outer.length = saltLength) (text password : Bytes) :
    ∃ b, wrap inner outer text password = .ok b ∧ unwrap b password = .ok text := by
  obtain ⟨k, hk⟩ := Aes.Key.exists_ofBytes? (.inr (.inr (length_keys_key (Sha256.digest password) outer)))
  obtain ⟨body, hencrypt, hlength, hdecrypt⟩ := Padded.decrypt_encrypt hk
    (length_keys_vector (Sha256.digest password) outer) (inner ++ text)
  rw [List.length_append, hinner] at hlength
  have hfirst : saltLength ≤ body.length := by omega
  obtain ⟨hsalt, hbody⟩ := saltOf_bodyOf hfirst houter
  refine ⟨body.take saltLength ++ outer ++ body.drop saltLength, ?_, ?_⟩
  · simp only [wrap, wrapBody, hencrypt, bind, Except.bind]
    rfl
  · simp only [unwrap, unwrapBody, hsalt, hbody, hdecrypt, bind, Except.bind]
    exact congrArg Except.ok (List.drop_left' hinner)

/-! ## Jobs -/

variable {w : Workspace} {inner outer : Bytes} {r : List Bytes}

lemma printAll_run (lines : List String) (v : Workspace) :
    (Job.printAll lines).run v =
      .ok () { v with console := v.console ++ lines.map (· ++ "\n") } := by
  induction lines generalizing v with
  | nil =>
    rw [List.map_nil, List.append_nil]
    rfl
  | cons s r ih =>
    have hprint : (Job.print s).run v = .ok () { v with console := v.console ++ [s ++ "\n"] } := rfl
    rw [Job.printAll, Run.bind_ok hprint, ih, List.append_assoc]
    rfl

variable {b : Bytes}

lemma draw_run (n : Nat) (hw : w.random = b :: r) :
    (Job.draw n).run w = .ok b { w with random := r } := by
  rw [Job.draw, Run.modifyGet_run, hw]

lemma encrypt_run {text password : Bytes} (hw : w.random = inner :: outer :: r)
    (hwrap : wrap inner outer text password = .ok b) :
    (encrypt text password).run w = .ok b { w with random := r } := by
  rw [encrypt, Run.bind_ok (draw_run saltLength hw),
    Run.bind_ok (draw_run saltLength rfl), hwrap]
  rfl

lemma decrypt_run {password text : Bytes} (h : unwrap b password = .ok text) (v : Workspace) :
    (decrypt b password).run v = .ok text v := by
  rw [decrypt, h]
  rfl

lemma unwrapBody_eq (b password : Bytes) :
    unwrapBody b password =
      let derived := KeyDerivation.pbkdf2 password (Bytes.window b 0x10 0x10) 0x30 10
      Padded.decrypt (derived.take 0x20) (Bytes.window derived 0x20 0x10)
        (b.take 0x10 ++ b.drop 0x20) := by
  have hvector (derived : Bytes) (hlength : derived.length = 48) :
      Bytes.window derived 0x20 0x10 = derived.drop 32 :=
    List.take_of_length_le (by rw [List.length_drop]; omega)
  have hsalt : saltOf b = Bytes.window b 0x10 0x10 := rfl
  have hbody : bodyOf b = b.take 0x10 ++ b.drop 0x20 := rfl
  simp only [unwrapBody, keys, hsalt, hbody, hvector _ (KeyDerivation.length_pbkdf2 _ _ _ _)]

lemma ofExcept_bind_run (x : Except Padded.Fault Bytes) (n : Nat) (v : Workspace) :
    (do return (← Job.ofExcept .padded x).drop n : Job Bytes).run v =
      (Job.ofExcept .padded (do return (← x).drop n)).run v := by
  cases x <;> rfl

/-- **The way for record files** is the other one: it prints its report, if there is one, and ends as
the other one does from there. -/
lemma reveal_run (b password : Bytes) (verbose : Bool) (v : Workspace) :
    ∃ lines, (reveal b password verbose).run v =
      (decrypt b password).run { v with console := v.console ++ lines } := by
  have hopen (u : Workspace) : (decrypt b password).run u = _ :=
    (ofExcept_bind_run (unwrapBody b (Sha256.digest password)) saltLength u).symm
  simp only [unwrapBody_eq] at hopen
  cases verbose with
  | false =>
    refine ⟨[], ?_⟩
    rw [List.append_nil, hopen]
    rfl
  | true =>
    rw [reveal, if_pos rfl, Run.bind_ok (printAll_run _ v)]
    exact ⟨_, (hopen _).symm⟩

/-- **Any compressed form of a script**, put into an envelope under the password of the scripts, is
unpacked to the script. -/
lemma unpackScript_encrypt {inner outer compressed : Bytes} {text : String}
    (hinner : inner.length = saltLength) (houter : outer.length = saltLength)
    (hw : w.random = inner :: outer :: r)
    (htext : Gzip.decompress compressed = .ok (Utf8.encode text)) :
    ∃ b, (encrypt compressed scriptPassword).run w = .ok b { w with random := r } ∧
      ∀ v, (unpackScript b).run v = .ok text v := by
  obtain ⟨b, hwrap, hunwrap⟩ := unwrap_wrap hinner houter compressed scriptPassword
  refine ⟨b, encrypt_run hw hwrap, fun v => ?_⟩
  have hgzip : (Job.ofExcept .gzip (Gzip.decompress compressed)).run v =
      .ok (Utf8.encode text) v := by
    rw [htext]
    rfl
  rw [unpackScript, Run.bind_ok (decrypt_run hunwrap v), Run.bind_ok hgzip,
    Utf8.decode_eq_ok_iff.mpr rfl]
  rfl

/-- **Envelopes give back what is in them**: whatever the data, the password and the two salts of
sixteen octets that are drawn, the envelope of the data is opened to the data, in both ways. A script
in any compressed form, and so in the form that packing gives it, is unpacked to the script. On all
octets and under all passwords the two ways of opening end alike, with the same text or with the same
complaint, from the workspace in which the report of the second one is printed. -/
theorem envelope_gives_back (data password inner outer : Bytes) (text : String) (w : Workspace)
    (r : List Bytes) (hinner : inner.length = 16) (houter : outer.length = 16)
    (hw : w.random = inner :: outer :: r) :
    (∃ b, (encrypt data password).run w = .ok b { w with random := r } ∧
      (∀ v, (decrypt b password).run v = .ok data v) ∧
      ∀ verbose v, ∃ lines, (reveal b password verbose).run v =
        .ok data { v with console := v.console ++ lines }) ∧
    (∃ b, (packScript text).run w = .ok b { w with random := r } ∧
      ∀ v, (unpackScript b).run v = .ok text v) ∧
    (∀ compressed, Gzip.decompress compressed = .ok (Utf8.encode text) →
      ∃ b, (encrypt compressed scriptPassword).run w = .ok b { w with random := r } ∧
        ∀ v, (unpackScript b).run v = .ok text v) ∧
    ∀ b password verbose v, ∃ lines, (reveal b password verbose).run v =
      (decrypt b password).run { v with console := v.console ++ lines } := by
  refine ⟨?_, ?_, fun compressed htext => unpackScript_encrypt hinner houter hw htext, reveal_run⟩
  · obtain ⟨b, hwrap, hunwrap⟩ := unwrap_wrap hinner houter data password
    refine ⟨b, encrypt_run hw hwrap, decrypt_run hunwrap, fun verbose v => ?_⟩
    obtain ⟨lines, hreveal⟩ := reveal_run b password verbose v
    exact ⟨lines, hreveal.trans (decrypt_run hunwrap _)⟩
  · exact unpackScript_encrypt hinner houter hw (Gzip.decompress_compress _)

def shortenedLetter : Bytes :=
  [0x1F, 0x8B, 0x08, 0, 0, 0, 0, 0, 0, 0x03, 0x4B, 0x04, 0, 0x43, 0xBE, 0xB7, 0xE8, 1, 0, 0, 0]

lemma decompress_shortenedLetter : Gzip.decompress shortenedLetter = .ok (Utf8.encode "a") := by
  have hletter : Utf8.encode "a" = [0x61] := by
    rw [Utf8.encode, Utf8.ofString_eq_flatMap]
    decide
  have hopened : (Gzip.decompress shortenedLetter).toOption = some [0x61] := by decide +kernel
  rw [hletter]
  cases h : Gzip.decompress shortenedLetter with
  | error e =>
    rw [h] at hopened
    cases hopened
  | ok b =>
    rw [h] at hopened
    exact congrArg Except.ok (Option.some.inj hopened)

/-- An envelope around a script of one letter that was shortened, and one around nothing under the
empty password. -/
theorem envelope_gives_back_letter :
    let w : Workspace := { random := [List.replicate 16 0x2A, List.replicate 16 0] }
    (List.replicate 16 (0x2A : UInt8)).length = 16 ∧ (List.replicate 16 (0 : UInt8)).length = 16 ∧
    Gzip.decompress shortenedLetter = .ok (Utf8.encode "a") ∧
    (∃ b, (encrypt [] []).run w = .ok b { w with random := [] } ∧
      ∀ v, (decrypt b []).run v = .ok [] v) ∧
    ∃ b, (encrypt shortenedLetter scriptPassword).run w = .ok b { w with random := [] } ∧
      ∀ v, (unpackScript b).run v = .ok "a" v := by
  intro w
  have hback := envelope_gives_back [] [] (List.replicate 16 0x2A) (List.replicate 16 0) "a" w []
    rfl rfl rfl
  obtain ⟨⟨b, hencrypt, hdecrypt, -⟩, -, hscript, -⟩ := hback
  exact ⟨rfl, rfl, decompress_shortenedLetter, ⟨b, hencrypt, hdecrypt⟩,
    hscript shortenedLetter decompress_shortenedLetter⟩

end Envelope

end Salvage
