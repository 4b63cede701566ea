import Salvage.Pak.Sealed
import Salvage.Proofs.Cipher.Modes
import Salvage.Proofs.Digest.Polynomial

/-!
# Sealed resources give back what is in them

A resource is sealed under a name: the hash of its content, as a signed number of thirty-two bits in
four octets, and the content are filled up and encrypted. Neither a filling that is not one nor a hash
that does not fit is reported when the resource is opened, so that one octet off would give another
content instead of a complaint.
-/

namespace Salvage.Sealed

/-! ## Opening -/

lemma exists_key (name : String) : ∃ k, Aes.Key.ofBytes? (key name) = some k := by
  simp [Aes.Key.ofBytes?]

lemma key_eq_of_toUpper_eq {name name' : String} (h : name'.toUpper = name.toUpper) :
    key name' = key name := by
  rw [key, key, PolyHash.ofUpper_eq_of_toUpper_eq h]

/-- What comes out of the cipher under a name, without its filling if it is filled up; nothing if the
octets are not whole blocks. -/
def opened (name : String) (body : Bytes) : Bytes :=
  match Cbc.decrypt (key name) vector body with
  | .error _ => []
  | .ok padded =>
    match Padding.unpad padded with
    | .ok text => text
    | .error _ => padded

lemma decrypt_mark (flag : UInt8) (body : Bytes) (name : String) :
    decrypt (mark ++ flag :: body) name =
      if 4 ≤ (opened name body).length then
        some (if flag = compressedFlag then uncompress (content (opened name body))
          else content (opened name body))
      else none := by
  have hchoice (text : Bytes) : (if text.length < 4 then none
      else if flag = compressedFlag then some (uncompress (content text))
      else some (content text)) =
      if 4 ≤ text.length then
        some (if flag = compressedFlag then uncompress (content text) else content text)
      else none := by
    by_cases h : text.length < 4
    · rw [if_pos h, if_neg (Nat.not_le.mpr h)]
    · rw [if_neg h, if_pos (Nat.le_of_not_lt h), apply_ite some]
  rw [← hchoice, opened]
  simp only [decrypt, mark, List.cons_append, List.nil_append]
  cases Cbc.decrypt (key name) vector body <;> rfl

lemma decrypt_eq_none_of_ne {data : Bytes} (h : ∀ flag body, data ≠ mark ++ flag :: body)
    (name : String) : decrypt data name = none := by
  unfold decrypt
  split
  · rename_i flag body
    exact absurd rfl (h flag body)
  · rfl

/-- **Which resources cannot be opened**: those without the mark and a flag, and those out of which
less than the four octets of a hash comes. -/
lemma decrypt_eq_none_iff (data : Bytes) (name : String) : decrypt data name = none ↔
    ∀ flag body, data = mark ++ flag :: body → (opened name body).length < 4 := by
  constructor
  · rintro h flag body rfl
    rw [decrypt_mark] at h
    split at h
    · cases h
    · omega
  · intro h
    by_cases hdata : ∃ flag body, data = mark ++ flag :: body
    · obtain ⟨flag, body, rfl⟩ := hdata
      rw [decrypt_mark, if_neg (Nat.not_le.mpr (h flag body rfl))]
    · exact decrypt_eq_none_of_ne (fun flag body heq => hdata ⟨flag, body, heq⟩) name

/-! ## What is in a resource -/

lemma content_hashOf (b : Bytes) : content (hashOf b ++ b) = b := by
  have hlength : (hashOf b).length = 4 := Bytes.length_ofLittleEndian 4 _
  rw [content, List.take_left' hlength, List.drop_left' hlength, if_pos rfl]

lemma opened_encrypt (name : String) (text : Bytes) :
    ∃ body, Cbc.encrypt (key name) vector (Padding.pad text) = .ok body ∧
      opened name body = text := by
  obtain ⟨k, hk⟩ := exists_key name
  obtain ⟨body, hencrypt, -, hdecrypt⟩ :=
    Cbc.decrypt_encrypt hk (show vector.length = 16 from rfl) (Padding.length_pad_mod text)
  refine ⟨body, hencrypt, ?_⟩
  simp only [opened, hdecrypt, Padding.unpad_pad]

/-- **Sealed resources give back what is in them**: whatever the content, the name and the flag, the
mark, the flag and the encrypted hash and content are opened to the content, uncompressed if the flag
says so, under every name that is the same in capitals. All other octets are opened to something as
well, or to nothing if they have no mark and flag or if less than a hash comes out of the cipher. -/
theorem sealed_gives_back (b : Bytes) (flag : UInt8) (name name' : String)
    (hname : name'.toUpper = name.toUpper) :
    (∃ hash body, PolyHash.ofRange? b 0 b.length = some hash ∧
      Cbc.encrypt (key name) (List.replicate 16 0)
        (Padding.pad (Bytes.ofLittleEndian 4 (hash % 0x100000000).toNat ++ b)) = .ok body ∧
      encrypt flag b name = .ok (0x22 :: 0x4A :: 0x67 :: flag :: body) ∧
      decrypt (0x22 :: 0x4A :: 0x67 :: flag :: body) name' =
        some (if flag = 0xB1 then uncompress b else b)) ∧
    ∀ data other, decrypt data other = none ↔
      ∀ mode body, data = 0x22 :: 0x4A :: 0x67 :: mode :: body → (opened other body).length < 4 := by
  refine ⟨?_, decrypt_eq_none_iff⟩
  obtain ⟨body, hencrypt, hopened⟩ := opened_encrypt name (hashOf b ++ b)
  have hkey : opened name' body = hashOf b ++ b := by
    rw [← hopened, opened, opened, key_eq_of_toUpper_eq hname]
  have hlength : 4 ≤ (hashOf b ++ b).length := by
    rw [List.length_append, hashOf, Bytes.length_ofLittleEndian]
    omega
  refine ⟨_, body, PolyHash.ofRange?_append [] b, ?_, ?_, ?_⟩
  · rw [PolyHash.toNat_signed_emod]
    exact hencrypt
  · simp only [encrypt, hencrypt, bind, Except.bind]
    rfl
  · have hdecrypt := decrypt_mark flag body name'
    rw [hkey, if_pos hlength, content_hashOf] at hdecrypt
    exact hdecrypt

/-- An empty content that counts as compressed, sealed under a name in small letters and opened under
the same name in capitals. -/
theorem sealed_gives_back_login :
    "LOGIN_7".toUpper = "login_7".toUpper ∧
      ∃ body, encrypt 0xB1 [] "login_7" = .ok (0x22 :: 0x4A :: 0x67 :: 0xB1 :: body) ∧
        decrypt (0x22 :: 0x4A :: 0x67 :: 0xB1 :: body) "LOGIN_7" = some (uncompress []) := by
  have hname : "LOGIN_7".toUpper = "login_7".toUpper := by
    rw [← String.toList_inj, String.toUpper, String.toUpper, String.toList_map, String.toList_map]
    decide
  obtain ⟨hash, body, -, -, hencrypt, hdecrypt⟩ :=
    (sealed_gives_back [] 0xB1 "login_7" "LOGIN_7" hname).1
  exact ⟨hname, body, hencrypt, hdecrypt⟩

end Salvage.Sealed
