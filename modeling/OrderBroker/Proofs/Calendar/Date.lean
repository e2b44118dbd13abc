import OrderBroker.Calendar.Date
import OrderBroker.Proofs.Text.Digits

/-!
# Dates are read back

The text of a date gives the date (`parse?_text`), also where the year is negative or has more than
four digits: such a year has a sign in front, and a signed year is read to its last digit.
-/

namespace OrderBroker.Date

section
variable {ds rest : List Char} {width n : Nat}

/-- Digits, and at least one. -/
structure IsNumber (ds : List Char) : Prop where
  ne_nil : ds ≠ []
  digit : ∀ c ∈ ds, c.isDigit = true

/-- A padded number is digits. -/
theorem isNumber_padded (width n : Nat) : IsNumber (padded width n) := by
  refine ⟨by simp [padded], fun c hc => ?_⟩
  rcases List.mem_append.1 hc with hc | hc
  · rw [List.eq_of_mem_replicate hc]
    decide
  · exact Nat.isDigit_of_mem_toDigits (by omega) (by omega) hc

/-- A padded number has its width, unless it needs more. -/
theorem length_padded (hn : n < 10 ^ width) (hwidth : 0 < width) :
    (padded width n).length = width := by
  have hle := (Nat.length_toDigits_le_iff (by omega) hwidth).2 hn
  simp only [padded, List.length_append, List.length_replicate]
  omega

/-- The zeros in front of a number do not count. -/
theorem ofDigitChars_padded (width n : Nat) : Nat.ofDigitChars 10 (padded width n) 0 = n := by
  simp [padded, Nat.ofDigitChars_append, Nat.ofDigitChars_replicate_zero,
    Nat.ofDigitChars_ten_toDigits]

/-- No blank is in front of a number. -/
theorem trimStart_number (hds : IsNumber ds) (rest : List Char) :
    Text.trimStart (ds ++ rest) = ds ++ rest := by
  cases ds with
  | nil => exact absurd rfl hds.ne_nil
  | cons c ds =>
    have hdigit := hds.digit c (.head _)
    have hblank : Text.isBlank c = false := by
      simp only [Char.isDigit, Bool.and_eq_true, decide_eq_true_eq] at hdigit
      have hlow : 48 ≤ c.toNat := hdigit.1
      have hhigh : c.toNat ≤ 57 := hdigit.2
      simp [Text.isBlank]
      omega
    rw [Text.trimStart, List.cons_append, List.dropWhile_cons_of_neg (by simp [hblank])]

/-- A number is read up to what is no digit. -/
theorem takeNumber_append (hds : IsNumber ds) (hwidth : ds.length ≤ width)
    (hrest : ∀ c ∈ rest.head?, c.isDigit = false) :
    takeNumber width (ds ++ rest) = some (Nat.ofDigitChars 10 ds 0, rest) := by
  have hstop : (rest.take (width - ds.length)).takeWhile Char.isDigit = [] := by
    cases rest with
    | nil => simp
    | cons c rest =>
      have hc := hrest c rfl
      cases width - ds.length with
      | zero => rfl
      | succ k => simp [hc]
  have htake : ((ds ++ rest).take width).takeWhile Char.isDigit = ds := by
    rw [List.take_append, List.take_of_length_le hwidth,
      List.takeWhile_append_of_pos hds.digit, hstop, List.append_nil]
  have hvalue : ds.foldl (fun n c => n * 10 + (c.toNat - 48)) 0 = Nat.ofDigitChars 10 ds 0 := by
    simp only [Nat.ofDigitChars, Nat.mul_comm 10]
    rfl
  rw [takeNumber, htake, if_neg (by simpa using hds.ne_nil), hvalue, List.drop_left]

/-- A padded number is read. -/
theorem takeNumber_padded (hn : n < 10 ^ width) (hwidth : 0 < width)
    (hrest : ∀ c ∈ rest.head?, c.isDigit = false) :
    takeNumber width (padded width n ++ rest) = some (n, rest) := by
  rw [takeNumber_append (isNumber_padded width n) (by rw [length_padded hn hwidth]) hrest,
    ofDigitChars_padded]

/-- A year is read up to what is no digit. -/
theorem takeYear_yearText (y : Int) (hrest : ∀ c ∈ rest.head?, c.isDigit = false) :
    takeYear (Text.trimStart (yearText y ++ rest)) = some (y, rest) := by
  have hsigned (n : Nat) : takeNumber (padded 4 n ++ rest).length (padded 4 n ++ rest) =
      some (n, rest) := by
    rw [takeNumber_append (isNumber_padded 4 n) (by simp) hrest, ofDigitChars_padded]
  rw [yearText]
  by_cases hy : 0 ≤ y ∧ y ≤ 9999
  · have hnumber := isNumber_padded 4 y.toNat
    have hvalue := Int.toNat_of_nonneg hy.1
    rw [if_pos hy, trimStart_number hnumber, takeYear,
      takeNumber_padded (by omega) (by omega) hrest]
    · simp only [Option.map_some, hvalue]
    -- A sign is no digit.
    all_goals
      intro rest' heq
      cases hds : padded 4 y.toNat with
      | nil => exact hnumber.ne_nil hds
      | cons c ds =>
        have hc := hnumber.digit c (by simp [hds])
        rw [hds] at heq
        obtain rfl : c = _ := (List.cons.inj heq).1
        revert hc
        decide
  · rw [if_neg hy]
    by_cases hneg : y < 0
    · have hvalue : -(y.natAbs : Int) = y := by omega
      rw [if_pos hneg, List.cons_append, Text.trimStart, List.dropWhile_cons_of_neg (by decide),
        takeYear, hsigned]
      simp only [Option.map_some, hvalue]
    · have hvalue : (y.natAbs : Int) = y := by omega
      rw [if_neg hneg, List.cons_append, Text.trimStart, List.dropWhile_cons_of_neg (by decide),
        takeYear, hsigned]
      simp only [Option.map_some, hvalue]

/-- A month and a day have two digits at most. -/
theorem bounds (d : Date) : d.month ≤ 12 ∧ d.day ≤ 31 := by
  obtain ⟨year, month, day, -, hday⟩ := d
  show month ≤ 12 ∧ day ≤ 31
  rw [daysInMonth] at hday
  split at hday
  · split at hday <;> omega
  · split at hday
    · omega
    · split at hday <;> omega

/-- **A date is read back** from its text. -/
theorem parse?_text (d : Date) : parse? d.text = some d := by
  obtain ⟨hmonth, hday⟩ := d.bounds
  have htext : d.text.toList =
      yearText d.year ++ '-' :: (padded 2 d.month ++ '-' :: (padded 2 d.day ++ [])) := by
    simp [text]
  have hhyphen (cs : List Char) : ∀ c ∈ ('-' :: cs).head?, c.isDigit = false := by simp
  have hmonth (rest : List Char) : takeNumber 2 (padded 2 d.month ++ '-' :: rest) =
      some (d.month, '-' :: rest) :=
    takeNumber_padded (by omega) (by omega) (hhyphen rest)
  have hday : takeNumber 2 (padded 2 d.day ++ []) = some (d.day, []) :=
    takeNumber_padded (by omega) (by omega) (by simp)
  have hblank (cs : List Char) : Text.trimStart ('-' :: cs) = '-' :: cs := rfl
  rw [parse?, parseBy?, htext]
  simp only [spaced, readParts, takeYear_yearText d.year (hhyphen _), hblank, if_true, hmonth,
    trimStart_number (isNumber_padded 2 _), hday, Text.trimStart_nil, Option.bind_some]
  rw [of?, dif_pos d.year_bounds, dif_pos d.day_bounds]

end

end OrderBroker.Date
