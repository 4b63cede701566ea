import Mathlib.Data.Nat.Digits.Lemmas
import Salvage.Number.Decimal

/-!
# Numbers in decimal

A number is written with its digits alone, and can be told from its digits.
-/

namespace Salvage.Decimal

lemma digit_mod (n : Nat) : digit (n % 10) = digit n := by
  rw [digit, Nat.mod_mod, digit]

lemma digitsOnto_eq (n : Nat) (acc : List Char) :
    digitsOnto n acc = ((Nat.digits 10 n).map digit).reverse ++ acc := by
  induction n using Nat.strong_induction_on generalizing acc with
  | _ n ih =>
    rw [digitsOnto]
    by_cases hn : n = 0
    · simp [hn]
    · rw [dif_neg hn, ih (n / 10) (by omega), Nat.digits_def' (by decide) (Nat.pos_of_ne_zero hn),
        List.map_cons, List.reverse_cons, List.append_assoc, List.singleton_append, digit_mod]

lemma toNat_digit (n : Nat) : (digit n).toNat = 48 + n % 10 := by
  have hlt : n % 10 < 10 := Nat.mod_lt n (by decide)
  unfold digit
  generalize n % 10 = d at hlt
  interval_cases d <;> rfl

lemma isDigit_of_mem_nat {n : Nat} {c : Char} (h : c ∈ (nat n).toList) : c.isDigit = true := by
  have hdigit (m : Nat) : (digit m).isDigit = true := by
    have hlt : m % 10 < 10 := Nat.mod_lt m (by decide)
    unfold digit
    generalize m % 10 = d at hlt
    interval_cases d <;> rfl
  rw [nat, String.toList_ofList, natDigits] at h
  split at h
  · rw [List.mem_singleton.mp h]
    rfl
  · rw [digitsOnto_eq, List.append_nil, List.mem_reverse] at h
    obtain ⟨m, -, rfl⟩ := List.mem_map.mp h
    exact hdigit m

lemma ofDigits_nat (n : Nat) :
    Nat.ofDigits 10 ((nat n).toList.reverse.map fun c => c.toNat - 48) = n := by
  rw [nat, String.toList_ofList, natDigits]
  split
  · rename_i hn
    rw [hn]
    rfl
  · rw [digitsOnto_eq, List.append_nil, List.reverse_reverse, List.map_map]
    have hdigits : (Nat.digits 10 n).map ((fun c : Char => c.toNat - 48) ∘ digit) =
        (Nat.digits 10 n).map id := by
      refine List.map_congr_left fun d hd => ?_
      have hlt : d < 10 := Nat.digits_lt_base (by decide) hd
      rw [Function.comp_apply, toNat_digit, id]
      omega
    rw [hdigits, List.map_id, Nat.ofDigits_digits]

lemma nat_injective : Function.Injective nat := by
  intro m n h
  rw [← ofDigits_nat m, h, ofDigits_nat]

end Salvage.Decimal
