import OrderBroker.Text.Natural

/-!
# Numbers that texts spell

A text spells a number with decimal digits, zeros in front or not, and a plus sign before them or
none (`Spells`). The reader of natural numbers finds the numbers that are spelled, up to its bound,
and no others (`readNatural_eq_ok_iff`).
-/

namespace OrderBroker.Text

/-- A text spells a number: decimal digits, with a plus sign before them or none. -/
def Spells (s : String) (n : Nat) : Prop :=
  ∃ digits, (s.toList = digits ∨ s.toList = '+' :: digits) ∧ digits ≠ [] ∧
    (∀ c ∈ digits, c.isDigit = true) ∧ Nat.ofDigitChars 10 digits 0 = n

section
variable {max n m : Nat} {s : String}

/-- A character is a digit by its code. -/
theorem isDigit_iff {c : Char} : c.isDigit = true ↔ 48 ≤ c.toNat ∧ c.toNat ≤ 57 := by
  rw [Char.isDigit, Bool.and_eq_true, decide_eq_true_eq, decide_eq_true_eq]
  rfl

/-- More digits do not make a number less. -/
theorem le_ofDigitChars (digits : List Char) (n : Nat) : n ≤ Nat.ofDigitChars 10 digits n := by
  induction digits generalizing n with
  | nil => exact Nat.le_refl n
  | cons c digits ih =>
    rw [Nat.ofDigitChars_cons]
    exact Nat.le_trans (by omega) (ih _)

/-- Digits are read on from a number as long as the bound is kept. -/
theorem readDigits_eq_ok_iff {digits : List Char} (hn : n ≤ max) :
    readDigits max n digits = .ok m ↔
      (∀ c ∈ digits, c.isDigit = true) ∧ Nat.ofDigitChars 10 digits n = m ∧ m ≤ max := by
  induction digits generalizing n with
  | nil =>
    rw [readDigits, Nat.ofDigitChars_nil]
    constructor
    · rintro hm
      obtain rfl := Except.ok.inj hm
      exact ⟨by simp, rfl, hn⟩
    · rintro ⟨-, rfl, -⟩
      rfl
  | cons c digits ih =>
    rw [readDigits, Nat.ofDigitChars_cons, List.forall_mem_cons, isDigit_iff]
    have hnext : 10 * n + (c.toNat - '0'.toNat) = n * 10 + (c.toNat - 48) := by
      rw [Nat.mul_comm]
      rfl
    rw [hnext]
    by_cases hdigit : 48 ≤ c.toNat ∧ c.toNat ≤ 57
    · rw [if_pos hdigit]
      by_cases hlarge : max < n * 10 + (c.toNat - 48)
      · -- The number has passed the bound, and no digit brings it back.
        have hle := le_ofDigitChars digits (n * 10 + (c.toNat - 48))
        dsimp only
        rw [if_pos hlarge]
        refine ⟨nofun, ?_⟩
        rintro ⟨-, rfl, hm⟩
        omega
      · dsimp only
        rw [if_neg hlarge, ih (by omega), and_assoc]
        exact ⟨fun h => ⟨hdigit, h⟩, fun h => h.2⟩
    · rw [if_neg hdigit]
      exact ⟨nofun, fun h => absurd h.1.1 hdigit⟩

/-- **The numbers that are read** are those that are spelled, up to the bound. -/
theorem readNatural_eq_ok_iff : readNatural max s = .ok n ↔ Spells s n ∧ n ≤ max := by
  have hsign : '+'.isDigit ≠ true := by decide
  rw [readNatural, Spells]
  split
  · next hnil =>
    refine ⟨nofun, ?_⟩
    rintro ⟨⟨digits, h | h, hne, -, -⟩, -⟩
    · exact absurd (h.symm.trans hnil) hne
    · cases h.symm.trans hnil
  · next hplus =>
    refine ⟨nofun, ?_⟩
    rintro ⟨⟨digits, h | h, hne, hdigits, -⟩, -⟩
    · obtain rfl := h.symm.trans hplus
      exact absurd (hdigits '+' (.head _)) hsign
    · exact absurd (List.cons.inj (h.symm.trans hplus)).2 hne
  · next rest hne hplus =>
    rw [readDigits_eq_ok_iff (Nat.zero_le max)]
    constructor
    · rintro ⟨hdigits, hvalue, hle⟩
      exact ⟨⟨rest, .inr hplus, fun h => hne h, hdigits, hvalue⟩, hle⟩
    · rintro ⟨⟨digits, h | h, -, hdigits, hvalue⟩, hle⟩
      · obtain rfl := h.symm.trans hplus
        exact absurd (hdigits '+' (.head _)) hsign
      · obtain ⟨-, rfl⟩ := List.cons.inj (h.symm.trans hplus)
        exact ⟨hdigits, hvalue, hle⟩
  · next hnil _ hplus =>
    rw [readDigits_eq_ok_iff (Nat.zero_le max)]
    constructor
    · rintro ⟨hdigits, hvalue, hle⟩
      exact ⟨⟨s.toList, .inl rfl, fun h => hnil h, hdigits, hvalue⟩, hle⟩
    · rintro ⟨⟨digits, h | h, -, hdigits, hvalue⟩, hle⟩
      · obtain rfl := h
        exact ⟨hdigits, hvalue, hle⟩
      · exact absurd h (hplus digits)

end

end OrderBroker.Text
