import Salvage.Proofs.Base64
import Salvage.Proofs.Cipher.Modes
import Salvage.Proofs.Doc
import Salvage.Proofs.Run
import Salvage.Transport.Basic

/-!
# Messages on the way

A message is sent in one of two forms: as an object with the starting block beside the encrypted text,
or as the starting block with the encrypted text behind it. The reader is not told which. It takes an
object on which all steps succeed to be one, and falls back to the other form after any fault.
-/

namespace Salvage

namespace Base64

lemma isPlain_text (b : Bytes) : Doc.IsPlain (text b) := by
  intro c hc
  rw [text, String.toList_ofList, List.mem_map] at hc
  obtain ⟨x, hx, rfl⟩ := hc
  obtain ⟨hcode, -, hquote, hslash⟩ := isPlain_encode b x hx
  rw [toNat_ofNat_octet]
  refine ⟨hcode, ?_, ?_⟩
  · intro h
    exact hquote ((toNat_ofNat_octet x).symm.trans (congrArg Char.toNat h))
  · intro h
    exact hslash ((toNat_ofNat_octet x).symm.trans (congrArg Char.toNat h))

end Base64

namespace Transport

/-! ## Jobs that print and return -/

/-- The job returns the value in every workspace, and all it changes there is that it prints. -/
def Answers {α : Type} (job : Job α) (a : α) : Prop :=
  ∀ w : Workspace, ∃ lines, job.run w = .ok a { w with console := w.console ++ lines }

lemma answers_pure {α : Type} (a : α) : Answers (pure a) a := by
  intro w
  refine ⟨[], ?_⟩
  rw [List.append_nil]
  rfl

lemma answers_print {α : Type} {f : Unit → Job α} {a : α} (h : Answers (f ()) a) (s : String) :
    Answers (Job.print s >>= f) a := by
  intro w
  have hprint : (Job.print s).run w = .ok () { w with console := w.console ++ [s ++ "\n"] } := rfl
  obtain ⟨lines, hlines⟩ := h { w with console := w.console ++ [s ++ "\n"] }
  refine ⟨[s ++ "\n"] ++ lines, ?_⟩
  rw [Run.bind_ok hprint, hlines, List.append_assoc]

/-! ## Messages -/

variable {b : Bytes} {m : Message}

lemma decode_object (h : decryptIfObject b = .ok (some m)) :
    Answers (decode (Base64.text b)) m := by
  rw [decode, Base64.decodeText_text, Job.ofExcept, pure_bind]
  refine answers_print (answers_print ?_ _) _
  rw [h]
  exact answers_print (answers_pure m) _

lemma decode_body (hobject : ∀ m, decryptIfObject b ≠ .ok (some m))
    (h : decryptBody b = .ok m) : Answers (decode (Base64.text b)) m := by
  rw [decode, Base64.decodeText_text, Job.ofExcept, pure_bind]
  refine answers_print (answers_print ?_ _) _
  have hend : Answers (do
      let m ← Job.ofExcept id (decryptBody b)
      Job.print ("[✓] Decrypted embedded-IV format with IV: " ++ Hex.encode m.vector)
      return m) m := by
    rw [h, Job.ofExcept, pure_bind]
    exact answers_print (answers_pure m) _
  rcases hresult : decryptIfObject b with f | _ | m'
  · exact answers_print hend _
  · exact hend
  · exact absurd hresult (hobject m')

variable {vector body : Bytes} {text : String}

lemma octetsAt_obj {fs : List (String × Doc)} {name : String}
    (h : Doc.lookup name fs = some (.str (Base64.text b))) : octetsAt (.obj fs) name = .ok b := by
  rw [octetsAt, Doc.item, h]
  change (Base64.decodeText (Base64.text b)).mapError Fault.base64 = .ok b
  rw [Base64.decodeText_text]
  rfl

lemma decryptIfObject_eq {s : String} (h : Utf8.decode b = .ok s) :
    decryptIfObject b =
      if Text.startsWith (Text.strip s) "\x7b" then (decryptObject s).map some else .ok none := by
  simp only [decryptIfObject, h, Except.mapError, bind, Except.bind]
  split_ifs
  · cases decryptObject s <;> rfl
  · rfl

/-- **A message is read from its object,** however the object is spelled. -/
lemma decryptIfObject_encode {fs : List (String × String)} {s : String}
    (hfs : (fs.map Prod.fst).Nodup) (hvector : ("iv", Base64.text vector) ∈ fs)
    (hbody : ("value", Base64.text body) ∈ fs) (hs : Doc.SpellsObject fs s)
    (hm : decrypt vector body = .ok m) : decryptIfObject (Utf8.encode s) = .ok (some m) := by
  have hobject : decryptObject s = .ok m := by
    simp only [decryptObject, Doc.parse_spelled hs, Except.mapError, bind, Except.bind,
      octetsAt_obj (Doc.lookup_insertTexts hfs hvector []),
      octetsAt_obj (Doc.lookup_insertTexts hfs hbody []), hm]
  rw [decryptIfObject_eq (Utf8.decode_eq_ok_iff.mpr rfl), if_pos (Doc.startsWith_spelled hs), hobject]
  rfl

lemma decryptBody_append (hvector : vector.length = Aes.Block.length) :
    decryptBody (vector ++ body) = decrypt vector body := by
  rw [decryptBody, List.take_left' hvector, List.drop_left' hvector]

lemma exists_decrypt (text : String) (hvector : vector.length = Aes.Block.length) :
    ∃ body, Padded.encrypt key vector (Utf8.encode text) = .ok body ∧
      decrypt vector body = .ok { text, vector } := by
  obtain ⟨k, hkey⟩ := Aes.Key.exists_ofBytes? (.inr (.inr (show key.length = 32 from rfl)))
  obtain ⟨body, hencrypt, -, hdecrypt⟩ := Padded.decrypt_encrypt hkey hvector (Utf8.encode text)
  refine ⟨body, hencrypt, ?_⟩
  rw [decrypt, hdecrypt]
  change (do let text ← (Utf8.decode (Utf8.encode text)).mapError Fault.text; return _) = _
  rw [Utf8.decode_eq_ok_iff.mpr rfl]
  rfl

lemma decryptIfObject_ne
    (h : ∀ s m, Utf8.decode b = .ok s → decryptObject s ≠ .ok m) (m : Message) :
    decryptIfObject b ≠ .ok (some m) := by
  cases hs : Utf8.decode b with
  | error f =>
    rw [decryptIfObject, hs]
    exact nofun
  | ok s =>
    rw [decryptIfObject_eq hs]
    split_ifs
    · cases ho : decryptObject s with
      | error f => exact nofun
      | ok m' => exact absurd ho (h s m' hs)
    · exact nofun

/-- **Every message is decoded** from both of its forms: from an object that has the starting block and
the encrypted text among its fields, however it is spelled, and from the starting block with the encrypted
text behind it, unless these octets are themselves an object that can be decrypted. What is shown of it
is the text and the starting block in hexadecimal digits. -/
theorem message_decoded (text : String) (vector : Bytes) (hvector : vector.length = 16) :
    ∃ body, Padded.encrypt key vector (Utf8.encode text) = .ok body ∧
      (∀ fs s, (fs.map Prod.fst).Nodup → ("iv", Base64.text vector) ∈ fs →
        ("value", Base64.text body) ∈ fs → Doc.SpellsObject fs s →
          Answers (decode (Base64.text (Utf8.encode s))) { text, vector }) ∧
      ((∀ s m, Utf8.decode (vector ++ body) = .ok s → decryptObject s ≠ .ok m) →
        Answers (decode (Base64.text (vector ++ body))) { text, vector }) ∧
      ToDoc.toDoc ({ text, vector } : Message) = .arr [.str text, .str (Hex.encode vector)] := by
  obtain ⟨body, hencrypt, hdecrypt⟩ := exists_decrypt text hvector
  refine ⟨body, hencrypt, ?_, ?_, rfl⟩
  · intro fs s hfs hiv hvalue hs
    exact decode_object (decryptIfObject_encode hfs hiv hvalue hs hdecrypt)
  · intro hobject
    refine decode_body ?_ ((decryptBody_append hvector).trans hdecrypt)
    exact decryptIfObject_ne hobject

/-- Digits of base 64 need no escapes, so every message has an object. -/
lemma exists_object (vector body : Bytes) :
    ∃ s, Doc.SpellsObject [("iv", Base64.text vector), ("value", Base64.text body)] s := by
  have hnames : Doc.IsPlain "iv" ∧ Doc.IsPlain "value" := by decide
  obtain ⟨cs, hcs⟩ := Doc.exists_spellsField hnames.1 (Base64.isPlain_text vector)
  obtain ⟨ds, hds⟩ := Doc.exists_spellsField hnames.2 (Base64.isPlain_text body)
  exact Doc.exists_spellsObject hcs hds

lemma not_decode_mark (b : Bytes) (s : String) : Utf8.decode (0xFF :: b) ≠ .ok s := by
  rw [Utf8.decode, Utf8.pieces]
  intro h
  cases h

theorem message_decoded_marked :
    (List.replicate 16 (0xFF : UInt8)).length = 16 ∧
      ∃ body s, Padded.encrypt key (List.replicate 16 0xFF) (Utf8.encode "hi") = .ok body ∧
        Doc.SpellsObject
          [("iv", Base64.text (List.replicate 16 0xFF)), ("value", Base64.text body)] s ∧
        Answers (decode (Base64.text (Utf8.encode s)))
          { text := "hi", vector := List.replicate 16 0xFF } ∧
        Answers (decode (Base64.text (List.replicate 16 0xFF ++ body)))
          { text := "hi", vector := List.replicate 16 0xFF } := by
  refine ⟨rfl, ?_⟩
  obtain ⟨body, hencrypt, hobject, hbody, -⟩ :=
    message_decoded "hi" (List.replicate 16 0xFF) rfl
  obtain ⟨s, hs⟩ := exists_object (List.replicate 16 0xFF) body
  refine ⟨body, s, hencrypt, hs, ?_, ?_⟩
  · exact hobject _ s (by simp) (by simp) (by simp) hs
  · exact hbody fun s m hs => absurd hs (not_decode_mark _ s)

end Transport

end Salvage
