import Mathlib.Tactic.Lemma
import Salvage.Cipher.Rc4

/-!
# RC4: the key stream on one number

An arrangement of 256 octets is one number of 2048 bits. Reading an octet of it is a shift, and an
exchange of two octets flips the bits in which they differ at both places. In this form the key
stream of a given key can be computed with a few operations on numbers for each octet.
-/

namespace Salvage.Rc4

/-! ## Data under the key stream -/

lemma apply_eq_xor_stream (r : Rc4) (b : Bytes) : r.apply b = Bytes.xor b (stream b.length r) := by
  induction b generalizing r with
  | nil => rfl
  | cons x b ih => simp [apply, stream, Bytes.xor, ih]

@[simp] lemma length_stream (n : Nat) (r : Rc4) : (stream n r).length = n := by
  induction n generalizing r with
  | zero => rfl
  | succ n ih => simp [stream, ih]

lemma apply_take (r : Rc4) (n : Nat) (b : Bytes) : r.apply (b.take n) = (r.apply b).take n := by
  induction b generalizing r n with
  | nil => simp [apply]
  | cons x b ih =>
    cases n with
    | zero => rfl
    | succ n => simp [apply, ih]

/-! ## Arrangements as numbers -/

def octetAt (p k : Nat) : Nat :=
  (p >>> (8 * k)) % 256

def exchangeOctets (p a b : Nat) : Nat :=
  let d := octetAt p a ^^^ octetAt p b
  p ^^^ (d <<< (8 * a)) ^^^ (d <<< (8 * b))

def Packs (p : Nat) (box : Vector UInt8 256) : Prop :=
  ∀ k : UInt8, octetAt p k.toNat = (read box k).toNat

lemma octetAt_lt (p k : Nat) : octetAt p k < 256 :=
  Nat.mod_lt _ (by decide)

lemma octetAt_xor (p q k : Nat) : octetAt (p ^^^ q) k = octetAt p k ^^^ octetAt q k := by
  have h : (256 : Nat) = 2 ^ 8 := rfl
  rw [octetAt, Nat.shiftRight_xor_distrib, h, Nat.xor_mod_two_pow]
  rfl

lemma octetAt_shiftLeft {d : Nat} (hd : d < 256) (a k : Nat) :
    octetAt (d <<< (8 * a)) k = if k = a then d else 0 := by
  rw [octetAt]
  rcases Nat.lt_trichotomy k a with h | rfl | h
  · -- the octet lies above the place that is read
    have hsplit : d <<< (8 * a) = (256 * (d <<< (8 * (a - k - 1)))) <<< (8 * k) := by
      have hpow : (256 : Nat) = 2 ^ 8 := rfl
      rw [hpow, Nat.shiftLeft_eq, Nat.shiftLeft_eq, Nat.shiftLeft_eq]
      have hexp : 8 * a = 8 + 8 * (a - k - 1) + 8 * k := by omega
      rw [hexp, Nat.pow_add, Nat.pow_add]
      simp only [Nat.mul_left_comm, Nat.mul_comm]
    rw [hsplit, Nat.shiftLeft_shiftRight, Nat.mul_mod_right, if_neg (by omega)]
  · rw [Nat.shiftLeft_shiftRight, Nat.mod_eq_of_lt hd, if_pos rfl]
  · -- the octet lies below the place that is read
    have hlt : d <<< (8 * a) < 2 ^ (8 * k) := by
      rw [Nat.shiftLeft_eq]
      calc d * 2 ^ (8 * a) < 2 ^ 8 * 2 ^ (8 * a) :=
            Nat.mul_lt_mul_of_pos_right hd (Nat.two_pow_pos _)
        _ = 2 ^ (8 + 8 * a) := by rw [Nat.pow_add]
        _ ≤ 2 ^ (8 * k) := Nat.pow_le_pow_right (by decide) (by omega)
    rw [Nat.shiftRight_eq_div_pow, Nat.div_eq_of_lt hlt, if_neg (by omega)]

lemma read_exchange (box : Vector UInt8 256) (a b k : UInt8) :
    read (exchange box a b) k =
      if k = a then read box b else if k = b then read box a else read box k := by
  have ha : a.toNat < 256 := a.toNat_lt
  have hb : b.toNat < 256 := b.toNat_lt
  have hk : k.toNat < 256 := k.toNat_lt
  change (box.swap a.toNat b.toNat ha hb)[k.toNat] =
    if k = a then box[b.toNat] else if k = b then box[a.toNat] else box[k.toNat]
  simp only [Vector.getElem_swap, UInt8.toNat_inj]

variable {p : Nat}

lemma Packs.exchange {box : Vector UInt8 256} (h : Packs p box) (a b : UInt8) :
    Packs (exchangeOctets p a.toNat b.toNat) (Rc4.exchange box a b) := by
  intro k
  have hd : octetAt p a.toNat ^^^ octetAt p b.toNat < 256 :=
    Nat.xor_lt_two_pow (n := 8) (octetAt_lt _ _) (octetAt_lt _ _)
  simp only [exchangeOctets, octetAt_xor, octetAt_shiftLeft hd, UInt8.toNat_inj, read_exchange]
  by_cases hka : k = a
  · subst hka
    by_cases hkb : k = b
    · subst hkb
      simp [h k]
    · rw [if_pos rfl, if_neg hkb, if_pos rfl, Nat.xor_zero, ← Nat.xor_assoc, Nat.xor_self,
        Nat.zero_xor, h b]
  · by_cases hkb : k = b
    · subst hkb
      rw [if_neg hka, if_pos rfl, if_neg hka, if_pos rfl, Nat.xor_zero,
        Nat.xor_comm (octetAt p a.toNat), ← Nat.xor_assoc, Nat.xor_self, Nat.zero_xor, h a]
    · simp [hka, hkb, h k]

/-! ## Mixing and stream -/

def forced (n : Nat) (f : Nat → List Nat) : List Nat :=
  match n with
  | 0 => f 0
  | n + 1 => f (n + 1)

/-- Octets of the key stream from a number that holds the arrangement, behind the two pointers. -/
def streamPacked : Nat → Nat → Nat → Nat → List Nat
  | 0, _, _, _ => []
  | n + 1, i, j, p =>
    let i := (i + 1) % 256
    let si := octetAt p i
    let j := (j + si) % 256
    let sj := octetAt p j
    forced (exchangeOctets p i j) fun p =>
      octetAt p ((si + sj) % 256) :: streamPacked n i j p

/-- The key stream of `length` octets behind the last `n` steps of mixing in a key, on a number that
holds the arrangement. -/
def mixPacked (key : Nat → Nat) (length : Nat) : Nat → Nat → Nat → List Nat
  | 0, _, p => streamPacked length 0 0 p
  | n + 1, j, p =>
    forced ((j + octetAt p (255 - n) + key (255 - n)) % 256) fun j =>
      forced (exchangeOctets p (255 - n) j) fun p => mixPacked key length n j p

@[simp] lemma forced_eq (n : Nat) (f : Nat → List Nat) : forced n f = f n := by
  cases n <;> rfl

lemma stream_eq_streamPacked (n : Nat) {r : Rc4} (h : Packs p r.box) :
    (stream n r).map UInt8.toNat = streamPacked n r.i.toNat r.j.toNat p := by
  induction n generalizing p r with
  | zero => rfl
  | succ n ih =>
    have hi : (r.i.toNat + 1) % 256 = (r.i + 1).toNat := by
      rw [UInt8.toNat_add]
      rfl
    have hj : (r.j.toNat + (read r.box (r.i + 1)).toNat) % 256 =
        (r.j + read r.box (r.i + 1)).toNat := by
      rw [UInt8.toNat_add]
    have hbox := h.exchange (r.i + 1) (r.j + read r.box (r.i + 1))
    have hsum : ((read r.box (r.i + 1)).toNat +
        (read r.box (r.j + read r.box (r.i + 1))).toNat) % 256 =
        (read r.box (r.i + 1) + read r.box (r.j + read r.box (r.i + 1))).toNat := by
      rw [UInt8.toNat_add]
    simp only [streamPacked, forced_eq, hi, h (r.i + 1), hj, h (r.j + _), hsum, hbox _]
    rw [stream, List.map_cons]
    congr 1
    exact ih hbox

lemma stream_mix_eq (key : Nat → UInt8) (length n : Nat) {j : UInt8}
    {box : Vector UInt8 256} (hn : n ≤ 256) (h : Packs p box) :
    (stream length { box := mix key n j box }).map UInt8.toNat =
      mixPacked (fun i => (key i).toNat) length n j.toNat p := by
  induction n generalizing j p box with
  | zero => exact stream_eq_streamPacked length h
  | succ n ih =>
    have hk : (UInt8.ofNat (255 - n)).toNat = 255 - n := by
      rw [UInt8.toNat_ofNat']
      omega
    have hj : (j.toNat + (read box (UInt8.ofNat (255 - n))).toNat + (key (255 - n)).toNat) % 256 =
        (j + read box (UInt8.ofNat (255 - n)) + key (255 - n)).toNat := by
      simp only [UInt8.toNat_add]
      omega
    have hread := h (UInt8.ofNat (255 - n))
    have hbox := h.exchange (UInt8.ofNat (255 - n))
      (j + read box (UInt8.ofNat (255 - n)) + key (255 - n))
    rw [hk] at hread hbox
    simp only [mixPacked, forced_eq, hread, hj]
    exact ih (by omega) hbox

def packedIdentity : Nat :=
  (List.range 256).foldr (fun k p => 256 * p + k) 0

lemma packs_identityBox : Packs packedIdentity identityBox := by
  have hall : ∀ k < 256, octetAt packedIdentity k = k := by decide +kernel
  intro k
  have hk : k.toNat < 256 := k.toNat_lt
  have hread : read identityBox k = k := by
    change (Vector.ofFn fun i : Fin 256 => UInt8.ofNat i.val)[k.toNat] = k
    rw [Vector.getElem_ofFn, UInt8.ofNat_toNat]
  rw [hread]
  exact hall k.toNat hk

lemma stream_schedule (key : Nat → UInt8) (length : Nat) :
    (stream length (schedule key)).map UInt8.toNat =
      mixPacked (fun i => (key i).toNat) length 256 0 packedIdentity :=
  stream_mix_eq key length 256 (Nat.le_refl _) packs_identityBox

lemma apply_schedule (key : Nat → UInt8) (b : Bytes) :
    (schedule key).apply b = Bytes.xor b
      ((mixPacked (fun i => (key i).toNat) b.length 256 0 packedIdentity).map UInt8.ofNat) := by
  have hofNat : UInt8.ofNat ∘ UInt8.toNat = id := by
    funext x
    exact UInt8.ofNat_toNat
  rw [apply_eq_xor_stream, ← stream_schedule, List.map_map, hofNat, List.map_id]

end Salvage.Rc4
