import OrderBroker.Json.Printer
import OrderBroker.Json.Value
import OrderBroker.Proofs.Json.Words
import OrderBroker.Proofs.Text.Digits
import OrderBroker.Proofs.Text.Utf8

/-!
# Integers of JSON are read back

An integer is written with its decimal digits, which spell a number (`spelled_text`), and which give
the integer back where it fits a 64-bit word (`number?_numeralOf`).
-/

namespace OrderBroker.Json

/-- The digits of a natural number. -/
def digitsOf (n : Nat) : List Nat := (Nat.toDigits 10 n).map fun c => c.toNat - 48

/-- The numeral of an integer. -/
def numeralOf (i : Int) : Numeral := ⟨i < 0, digitsOf i.natAbs, [], none⟩

section
variable {n : Nat} {i : Int}

/-- Digits are below ten. -/
theorem lt_of_mem_digitsOf {d : Nat} (hd : d ∈ digitsOf n) : d < 10 := by
  obtain ⟨c, hc, rfl⟩ := List.mem_map.1 hd
  have hdigit := Nat.isDigit_of_mem_toDigits (by omega) (by omega) hc
  simp only [Char.isDigit, Bool.and_eq_true, decide_eq_true_eq] at hdigit
  have hhigh : c.toNat ≤ 57 := hdigit.2
  omega

/-- The text of digits is their bytes. -/
theorem utf8_toDigits (n : Nat) :
    utf8 (String.ofList (Nat.toDigits 10 n)) = (digitsOf n).map digitByte := by
  have hbytes : ∀ c ∈ Nat.toDigits 10 n,
      String.utf8EncodeChar c = [digitByte (c.toNat - 48)] := by
    intro c hc
    have hdigit := Nat.isDigit_of_mem_toDigits (by omega) (by omega) hc
    simp only [Char.isDigit, Bool.and_eq_true, decide_eq_true_eq] at hdigit
    have hlow : 48 ≤ c.toNat := hdigit.1
    have hhigh : c.toNat ≤ 57 := hdigit.2
    rw [Text.encodeChar_ascii (by omega), digitByte, Nat.add_sub_cancel' hlow]
  rw [utf8_ofList, digitsOf, List.map_map]
  generalize Nat.toDigits 10 n = cs at hbytes ⊢
  induction cs with
  | nil => rfl
  | cons c cs ih =>
    rw [List.flatMap_cons, hbytes c (.head _), ih fun c hc => hbytes c (.tail _ hc)]
    rfl

/-- A zero stands alone. -/
theorem head?_digitsOf (n : Nat) : ¬ ((digitsOf n).head? = some 0 ∧ 1 < (digitsOf n).length) := by
  rintro ⟨hhead, hlength⟩
  rw [digitsOf, List.length_map] at hlength
  have hzero : (Nat.toDigits 10 n).head? = some '0' := by
    obtain ⟨c, hc, hvalue⟩ := Option.map_eq_some_iff.1 (List.head?_map .. ▸ hhead)
    have hdigit := Nat.isDigit_of_mem_toDigits (by omega) (by omega) (List.mem_of_head? hc)
    simp only [Char.isDigit, Bool.and_eq_true, decide_eq_true_eq] at hdigit
    have hlow : 48 ≤ c.toNat := hdigit.1
    obtain rfl : c = '0' := Char.toNat_inj.1 (show c.toNat = 48 by omega)
    exact hc
  have := Text.length_toDigits_of_head? (by omega) (by omega) hzero
  omega

/-- The text of an integer spells its numeral. -/
theorem spelled_text (i : Int) : (numeralOf i).Spelled (utf8 (Number.text (.int i))) := by
  have hminus : utf8 "-" = [0x2D] := by decide
  have htext : utf8 (Number.text (.int i)) =
      (if (numeralOf i).negative then [0x2D] else []) ++
        ((numeralOf i).whole.map digitByte ++ ([] ++ [])) := by
    rw [Number.text, numeralOf]
    by_cases hi : i < 0
    · rw [if_pos hi, utf8_append, hminus, utf8_toDigits]
      simp [hi]
    · rw [if_neg hi, utf8_toDigits]
      simp [hi]
  rw [htext]
  exact .intro ⟨by simp [numeralOf, digitsOf], fun d hd => lt_of_mem_digitsOf hd⟩
    (head?_digitsOf i.natAbs) .absent .absent

/-! ## Reading a numeral -/

/-- Digits that make a number within the limit are read to the last one. -/
theorem takeDigits_of_le {limit : Nat} {ds : List Nat}
    (hle : ds.foldl (fun n d => n * 10 + d) n ≤ limit) :
    takeDigits limit n ds = (ds.foldl (fun n d => n * 10 + d) n, []) := by
  have hmono (ds : List Nat) (n : Nat) : n ≤ ds.foldl (fun n d => n * 10 + d) n := by
    induction ds generalizing n with
    | nil => exact Nat.le_refl n
    | cons d ds ih => exact Nat.le_trans (by omega) (ih (n * 10 + d))
  induction ds generalizing n with
  | nil => rfl
  | cons d ds ih =>
    have hnext := hmono ds (n * 10 + d)
    rw [List.foldl_cons] at hle ⊢
    rw [takeDigits, if_neg (by omega), ih hle]

/-- The digits of a number within the limit are read as the number. -/
theorem takeDigits_digitsOf {limit : Nat} (hn : n ≤ limit) :
    takeDigits limit 0 (digitsOf n) = (n, []) := by
  have hvalue : (digitsOf n).foldl (fun n d => n * 10 + d) 0 = n := by
    rw [digitsOf, List.foldl_map]
    simp only [Nat.mul_comm _ 10]
    exact Nat.ofDigitChars_ten_toDigits
  rw [takeDigits_of_le (by rw [hvalue]; exact hn), hvalue]

/-- What is read stays within the limit. -/
theorem takeDigits_le {limit : Nat} (hn : n ≤ limit) (ds : List Nat) :
    (takeDigits limit n ds).1 ≤ limit := by
  induction ds generalizing n with
  | nil => exact hn
  | cons d ds ih =>
    rw [takeDigits]
    split
    · exact hn
    · exact ih (by omega)

/-- Integers that fit a signed or an unsigned word. -/
def Fits (i : Int) : Prop := -(2 ^ 63) ≤ i ∧ i < 2 ^ 64

/-- The numeral of an integer gives the integer, where it fits. -/
theorem number?_numeralOf (hi : Fits i) : (numeralOf i).number? = some (.int i) := by
  have hword : Text.wordMax = 2 ^ 64 - 1 := rfl
  have hhalf : UInt64.size / 2 = 2 ^ 63 := rfl
  obtain ⟨hlow, hhigh⟩ := hi
  rw [Numeral.number?, numeralOf]
  simp only [takeDigits_digitsOf (show i.natAbs ≤ Text.wordMax by omega)]
  by_cases hneg : i < 0
  · have hvalue : -(i.natAbs : Int) = i := by omega
    rw [if_pos (by simp), if_neg (by simpa using hneg), if_neg (by omega), hvalue]
  · have hvalue : (i.natAbs : Int) = i := by omega
    rw [if_pos (by simp), if_pos (by simpa using hneg), hvalue]

/-- A numeral with a fraction or an exponent is no integer. -/
theorem double?_ne_int (n : Numeral) : n.double? ≠ some (.int i) := by
  intro hn
  have hscaled (f : Option Float) : (do return signed n.negative (← f)) ≠ some (.int i) := by
    cases f <;> nofun
  rw [Numeral.double?] at hn
  generalize takeDigits Text.wordMax 0 n.whole = taken at hn
  obtain ⟨whole, more⟩ := taken
  dsimp only at hn
  generalize takeDigits Text.wordMax whole n.fraction = taken at hn
  obtain ⟨significand, ignored⟩ := taken
  dsimp only at hn
  cases hexp : n.exponent with
  | none =>
    simp only [hexp] at hn
    exact hscaled _ hn
  | some e =>
    obtain ⟨negative, ds⟩ := e
    simp only [hexp] at hn
    split at hn
    · exact hscaled _ hn
    · split at hn
      · cases hn
      · exact hscaled (some 0.0) hn

/-- An integer that a numeral gives fits. -/
theorem fits_of_number? {n : Numeral} (hn : n.number? = some (.int i)) : Fits i := by
  have hword : Text.wordMax = 2 ^ 64 - 1 := rfl
  have hhalf : UInt64.size / 2 = 2 ^ 63 := rfl
  have hle := takeDigits_le (Nat.zero_le Text.wordMax) n.whole
  rw [Numeral.number?] at hn
  generalize takeDigits Text.wordMax 0 n.whole = taken at hle hn
  obtain ⟨whole, more⟩ := taken
  dsimp only at hle hn
  split at hn
  · split at hn
    · obtain rfl : (whole : Int) = i := by simpa using hn
      constructor <;> omega
    · split at hn
      · cases hn
      · obtain rfl : -(whole : Int) = i := by simpa using hn
        constructor <;> omega
  · exact absurd hn (double?_ne_int n)

end

end OrderBroker.Json
