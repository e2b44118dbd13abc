import Mathlib.Data.Nat.Digits.Defs

/-!
# The digits of a number

What the readers of numbers need to know about the digits that are written for one: which characters
they are, that they give the number back to a reader that knows them, and that no zero stands in
front of others.
-/

namespace OrderBroker.Text

section
variable {base n : Nat} {c : Char}

/-- A reader of digits reads the digits of a number as the number. -/
theorem foldlM_toDigits {digit? : Char → Option Nat} (hbase : 1 < base)
    (hdigit : ∀ d, d < base → digit? d.digitChar = some d) (n : Nat) :
    (base.toDigits n).foldlM (fun n c => (digit? c).map (n * base + ·)) 0 = some n := by
  induction n using Nat.strongRecOn with
  | ind n ih =>
    by_cases hn : n < base
    · rw [Nat.toDigits_of_lt_base hn]
      simp [hdigit n hn]
    · have hlt : n / base < n := Nat.div_lt_self (by omega) hbase
      have hmod : n % base < base := Nat.mod_lt _ (by omega)
      rw [Nat.toDigits_of_base_le hbase (by omega), List.foldlM_append, ih _ hlt]
      simp [hdigit _ hmod, Nat.div_add_mod']

/-- A digit of a number is the character of a number below the base. -/
theorem mem_toDigits (hbase : 1 < base) (hc : c ∈ base.toDigits n) :
    ∃ d < base, c = d.digitChar := by
  induction n using Nat.strongRecOn with
  | ind n ih =>
    by_cases hn : n < base
    · rw [Nat.toDigits_of_lt_base hn, List.mem_singleton] at hc
      exact ⟨n, hn, hc⟩
    · rw [Nat.toDigits_of_base_le hbase (by omega), List.mem_append, List.mem_singleton] at hc
      rcases hc with hc | hc
      · exact ih _ (Nat.div_lt_self (by omega) hbase) hc
      · exact ⟨_, Nat.mod_lt _ (by omega), hc⟩

/-- A digit is neither a point nor a colon. -/
theorem not_mem_toDigits (hbase : base = 10 ∨ base = 16) (n : Nat) :
    '.' ∉ base.toDigits n ∧ ':' ∉ base.toDigits n := by
  have hmarks : ∀ d < 16, d.digitChar ≠ '.' ∧ d.digitChar ≠ ':' := by decide
  constructor
  · intro hmem
    obtain ⟨d, hd, hc⟩ := mem_toDigits (by omega) hmem
    exact (hmarks d (by omega)).1 hc.symm
  · intro hmem
    obtain ⟨d, hd, hc⟩ := mem_toDigits (by omega) hmem
    exact (hmarks d (by omega)).2 hc.symm

/-- The digits of a number other than zero do not begin with a zero. -/
theorem head?_toDigits (hbase : 1 < base) (hsixteen : base ≤ 16) (hn : n ≠ 0) :
    (base.toDigits n).head? ≠ some '0' := by
  have hzero : ∀ d < 16, d.digitChar = '0' → d = 0 := by decide
  induction n using Nat.strongRecOn with
  | ind n ih =>
    by_cases hlt : n < base
    · rw [Nat.toDigits_of_lt_base hlt, List.head?_cons]
      intro h
      exact hn (hzero n (by omega) (Option.some.inj h))
    · have hdiv : n / base ≠ 0 := by
        have := Nat.div_pos (by omega : base ≤ n) (by omega)
        omega
      have hfirst : (base.toDigits (n / base) ++ [(n % base).digitChar]).head? =
          (base.toDigits (n / base)).head? := by
        cases hds : base.toDigits (n / base) with
        | nil => exact absurd hds Nat.toDigits_ne_nil
        | cons d ds => rfl
      rw [Nat.toDigits_of_base_le hbase (by omega), hfirst]
      exact ih _ (Nat.div_lt_self (by omega) hbase) hdiv

/-- A zero in front of a number's digits is all of them. -/
theorem length_toDigits_of_head? (hbase : 1 < base) (hsixteen : base ≤ 16)
    (hhead : (base.toDigits n).head? = some '0') : (base.toDigits n).length = 1 := by
  obtain rfl : n = 0 := Classical.byContradiction fun hn => head?_toDigits hbase hsixteen hn hhead
  rw [Nat.toDigits_zero, List.length_singleton]

end

end OrderBroker.Text
