import OrderBroker.Json.Token
import Mathlib.Data.List.Chain
import Mathlib.Data.List.TakeDrop
import Mathlib.Data.List.TakeWhile

/-!
# The words of JSON

How the words of a JSON text are spelled (`Token.Spelled`): a mark or a name in one way, a string
with its characters and escapes between quotes, a number with its digits and with either letter and
any sign for an exponent. A text is laid out as words with blanks anywhere between them (`Laid`).

A text is read as words that it is laid out as (`laid_of_ofBytes?`), and as these if no two of them
are numbers side by side (`ofBytes?_of_laid`).
-/

namespace OrderBroker.Json

/-! ## Spelling -/

/-- The byte of a digit. -/
def digitByte (d : Nat) : UInt8 := UInt8.ofNat (48 + d)

/-- Some digits. -/
def Digits (ds : List Nat) : Prop := ds ≠ [] ∧ ∀ d ∈ ds, d < 10

/-- What may stand between the quotes of a string. -/
inductive Quotable : List UInt8 → Prop where
  | nil : Quotable []
  | byte {b : UInt8} {rest : List UInt8} (hquote : b ≠ 0x22) (hcontrol : ¬ b < 0x20)
    (hslash : b ≠ 0x5C) (hrest : Quotable rest) : Quotable (b :: rest)
  | letter {e : UInt8} {rest : List UInt8} (he : isEscapeByte e = true) (hrest : Quotable rest) :
    Quotable (0x5C :: e :: rest)
  | digits {h₁ h₂ h₃ h₄ : UInt8} {rest : List UInt8}
    (hhex : (isHexByte h₁ && isHexByte h₂ && isHexByte h₃ && isHexByte h₄) = true)
    (hrest : Quotable rest) : Quotable (0x5C :: 0x75 :: h₁ :: h₂ :: h₃ :: h₄ :: rest)

/-- How a fraction is spelled: behind a point, if there is one. -/
inductive FractionSpelled : List Nat → List UInt8 → Prop where
  | absent : FractionSpelled [] []
  | digits {ds : List Nat} (hds : Digits ds) : FractionSpelled ds (0x2E :: ds.map digitByte)

/-- How an exponent is spelled, if there is one: a letter, a sign that may be left out where it is
plus, and digits. -/
inductive ExponentSpelled : Option (Bool × List Nat) → List UInt8 → Prop where
  | absent : ExponentSpelled none []
  | digits {negative : Bool} {ds : List Nat} {letter : UInt8} {sign : List UInt8}
    (hletter : letter = 0x65 ∨ letter = 0x45)
    (hsign : sign = [0x2D] ∧ negative = true ∨ (sign = [] ∨ sign = [0x2B]) ∧ negative = false)
    (hds : Digits ds) : ExponentSpelled (some (negative, ds)) (letter :: (sign ++ ds.map digitByte))

/-- How a number is spelled: with a minus sign or none, and without a zero in front of other
digits. -/
inductive Numeral.Spelled (n : Numeral) : List UInt8 → Prop where
  | intro {fraction exponent : List UInt8} (hwhole : Digits n.whole)
    (hzero : ¬ (n.whole.head? = some 0 ∧ 1 < n.whole.length))
    (hfraction : FractionSpelled n.fraction fraction)
    (hexponent : ExponentSpelled n.exponent exponent) :
    n.Spelled ((if n.negative then [0x2D] else []) ++
      (n.whole.map digitByte ++ (fraction ++ exponent)))

/-- How a word is spelled. -/
inductive Token.Spelled : Token → List UInt8 → Prop where
  | openArray : Spelled .openArray [0x5B]
  | closeArray : Spelled .closeArray [0x5D]
  | openObject : Spelled .openObject [0x7B]
  | closeObject : Spelled .closeObject [0x7D]
  | comma : Spelled .comma [0x2C]
  | colon : Spelled .colon [0x3A]
  | null : Spelled .null [0x6E, 0x75, 0x6C, 0x6C]
  | yes : Spelled (.bool true) [0x74, 0x72, 0x75, 0x65]
  | no : Spelled (.bool false) [0x66, 0x61, 0x6C, 0x73, 0x65]
  | string {raw : List UInt8} (hraw : Quotable raw) :
    Spelled (.string raw) (0x22 :: (raw ++ [0x22]))
  | number {n : Numeral} {word : List UInt8} (hn : n.Spelled word) : Spelled (.number n) word

/-- A text that is words, with blanks anywhere between them. -/
inductive Laid : List Token → List UInt8 → Prop where
  | nil : Laid [] []
  | blank {b : UInt8} {ts : List Token} {s : List UInt8} (hb : isJsonBlank b = true)
    (hrest : Laid ts s) : Laid ts (b :: s)
  | word {t : Token} {ts : List Token} {word s : List UInt8} (hword : t.Spelled word)
    (hrest : Laid ts s) : Laid (t :: ts) (word ++ s)

/-! ## Digits -/

theorem isDigitByte_digitByte {d : Nat} (hd : d < 10) : isDigitByte (digitByte d) = true := by
  revert d
  decide

/-- A digit is no sign. -/
theorem digitByte_ne {d : Nat} (hd : d < 10) : digitByte d ≠ 0x2D ∧ digitByte d ≠ 0x2B := by
  revert d
  decide

theorem value_digitByte {d : Nat} (hd : d < 10) : (digitByte d).toNat - 48 = d := by
  revert d
  decide

/-- A byte that is a digit is the byte of its value. -/
theorem digitByte_value {b : UInt8} (hb : isDigitByte b = true) :
    b.toNat - 48 < 10 ∧ digitByte (b.toNat - 48) = b := by
  have hrange : 48 ≤ b ∧ b ≤ 57 := of_decide_eq_true hb
  have hlow : 48 ≤ b.toNat := hrange.1
  have hhigh : b.toNat ≤ 57 := hrange.2
  refine ⟨by omega, ?_⟩
  rw [digitByte, Nat.add_sub_cancel' hlow, UInt8.ofNat_toNat]

section
variable {s rest raw : List UInt8} {ds : List Nat} {n : Numeral} {t : Token} {ts : List Token}

/-- The digits at the front are found, up to what is no digit. -/
theorem scanDigits_eq_iff :
    scanDigits s = (ds, rest) ↔
      s = ds.map digitByte ++ rest ∧ (∀ d ∈ ds, d < 10) ∧
        ∀ b ∈ rest.head?, isDigitByte b = false := by
  rw [scanDigits, List.span_eq_takeWhile_dropWhile]
  simp only [Prod.mk.injEq]
  constructor
  · rintro ⟨rfl, rfl⟩
    have hdigits : ∀ b ∈ s.takeWhile isDigitByte, isDigitByte b = true :=
      fun b hb => List.mem_takeWhile_imp hb
    refine ⟨?_, ?_, ?_⟩
    · have hbytes : ((s.takeWhile isDigitByte).map fun b => b.toNat - 48).map digitByte =
          s.takeWhile isDigitByte := by
        rw [List.map_map]
        conv => rhs; rw [← List.map_id (s.takeWhile isDigitByte)]
        exact List.map_congr_left fun b hb => (digitByte_value (hdigits b hb)).2
      rw [hbytes, List.takeWhile_append_dropWhile]
    · intro d hd
      obtain ⟨b, hb, rfl⟩ := List.mem_map.1 hd
      exact (digitByte_value (hdigits b hb)).1
    · intro b hb
      have hstop := List.head?_dropWhile_not isDigitByte s
      rw [Option.mem_def.1 hb] at hstop
      exact hstop
  · rintro ⟨rfl, hds, hrest⟩
    have hstop : rest.takeWhile isDigitByte = [] ∧ rest.dropWhile isDigitByte = rest := by
      cases rest with
      | nil => exact ⟨rfl, rfl⟩
      | cons b rest => simp [hrest b rfl]
    have hdigits : ∀ b ∈ ds.map digitByte, isDigitByte b = true := by
      intro b hb
      obtain ⟨d, hd, rfl⟩ := List.mem_map.1 hb
      exact isDigitByte_digitByte (hds d hd)
    rw [List.takeWhile_append_of_pos hdigits, List.dropWhile_append_of_pos hdigits, hstop.1,
      hstop.2, List.append_nil, List.map_map]
    refine ⟨?_, rfl⟩
    conv => rhs; rw [← List.map_id ds]
    exact List.map_congr_left fun d hd => value_digitByte (hds d hd)

/-! ## Numbers -/

/-- What cannot go on with a number. -/
def Ends (rest : List UInt8) : Prop :=
  ∀ b ∈ rest.head?, isDigitByte b = false ∧ b ≠ 0x2E ∧ b ≠ 0x65 ∧ b ≠ 0x45

/-- The sign at the front. -/
def scanSign : List UInt8 → Bool × List UInt8
  | b :: rest => if b = 0x2D then (true, rest) else (false, b :: rest)
  | [] => (false, [])

/-- A number is found where its parts are found one after the other. -/
theorem scanNumeral_eq_some_iff :
    scanNumeral s = some (n, rest) ↔ ∃ s₁ s₂ s₃,
      scanSign s = (n.negative, s₁) ∧ scanDigits s₁ = (n.whole, s₂) ∧ n.whole ≠ [] ∧
        ¬ (n.whole.head? = some 0 ∧ 1 < n.whole.length) ∧
        scanFraction s₂ = some (n.fraction, s₃) ∧ scanExponent s₃ = some (n.exponent, rest) := by
  have heq : scanNumeral s =
      if (scanDigits (scanSign s).2).1.isEmpty then none
      else if (scanDigits (scanSign s).2).1.head? = some 0 ∧
        1 < (scanDigits (scanSign s).2).1.length then none
      else (scanFraction (scanDigits (scanSign s).2).2).bind fun fraction =>
        (scanExponent fraction.2).bind fun exponent =>
          some (⟨(scanSign s).1, (scanDigits (scanSign s).2).1, fraction.1, exponent.1⟩,
            exponent.2) := by
    rw [scanNumeral.eq_def]
    cases s with
    | nil => rfl
    | cons b s =>
      rw [scanSign]
      by_cases hb : b = 0x2D
      · simp only [hb, if_true]
        rfl
      · simp only [hb, if_false]
        rfl
  obtain ⟨negative, whole, fraction, exponent⟩ := n
  rw [heq]
  constructor
  · intro h
    split at h
    · cases h
    split at h
    · cases h
    next hempty hzero =>
    obtain ⟨⟨fraction', s₃⟩, hfraction, h⟩ := Option.bind_eq_some_iff.1 h
    obtain ⟨⟨exponent', rest'⟩, hexponent, h⟩ := Option.bind_eq_some_iff.1 h
    cases h
    exact ⟨_, _, s₃, rfl, rfl, by simpa using hempty, hzero, hfraction, hexponent⟩
  · rintro ⟨s₁, s₂, s₃, hsign, hdigits, hempty, hzero, hfraction, hexponent⟩
    simp only at hsign hdigits hempty hzero hfraction hexponent
    rw [hsign, hdigits, if_neg (by simpa using hempty), if_neg hzero, hfraction, Option.bind_some,
      hexponent, Option.bind_some]

/-- A fraction that is found is spelled there. -/
theorem spelled_of_scanFraction (hscan : scanFraction s = some (ds, rest)) :
    ∃ word, FractionSpelled ds word ∧ s = word ++ rest := by
  cases s with
  | nil =>
    cases hscan
    exact ⟨[], .absent, rfl⟩
  | cons b s =>
    rw [scanFraction] at hscan
    split at hscan
    · next hb =>
      subst hb
      cases hdigits : scanDigits s with
      | mk found after =>
        simp only [hdigits] at hscan
        split at hscan
        · cases hscan
        next hempty =>
        cases hscan
        obtain ⟨rfl, hds, -⟩ := scanDigits_eq_iff.1 hdigits
        exact ⟨_, .digits ⟨by simpa using hempty, hds⟩, rfl⟩
    · cases hscan
      exact ⟨[], .absent, rfl⟩

/-- A fraction is found as it is spelled, up to what cannot go on with it. -/
theorem scanFraction_of_spelled {word : List UInt8} (hword : FractionSpelled ds word)
    (hrest : ∀ b ∈ rest.head?, isDigitByte b = false ∧ b ≠ 0x2E) :
    scanFraction (word ++ rest) = some (ds, rest) := by
  cases hword with
  | absent =>
    cases rest with
    | nil => rfl
    | cons b rest => rw [List.nil_append, scanFraction, if_neg (hrest b rfl).2]
  | digits hds =>
    have hdigits := scanDigits_eq_iff.2 ⟨rfl, hds.2, fun b hb => (hrest b hb).1⟩
    rw [List.cons_append, scanFraction, if_pos rfl, hdigits]
    simp [hds.1]

/-- The sign of an exponent. -/
def scanExponentSign : List UInt8 → Bool × List UInt8
  | b :: rest =>
    if b = 0x2D then (true, rest) else if b = 0x2B then (false, rest) else (false, b :: rest)
  | [] => (false, [])

/-- Behind its letter an exponent is a sign and digits. -/
theorem scanExponent_cons (b : UInt8) (s : List UInt8) :
    scanExponent (b :: s) =
      if b = 0x65 ∨ b = 0x45 then
        if (scanDigits (scanExponentSign s).2).1.isEmpty then none
        else some (some ((scanExponentSign s).1, (scanDigits (scanExponentSign s).2).1),
          (scanDigits (scanExponentSign s).2).2)
      else some (none, b :: s) := by
  cases s <;> rfl

/-- The sign of an exponent is a minus, a plus or nothing. -/
theorem scanExponentSign_spec (s : List UInt8) :
    ∃ sign, s = sign ++ (scanExponentSign s).2 ∧
      (sign = [0x2D] ∧ (scanExponentSign s).1 = true ∨
        (sign = [] ∨ sign = [0x2B]) ∧ (scanExponentSign s).1 = false) := by
  cases s with
  | nil => exact ⟨[], rfl, .inr ⟨.inl rfl, rfl⟩⟩
  | cons b s =>
    rw [scanExponentSign]
    split
    · next hb => exact ⟨[0x2D], by rw [hb]; rfl, .inl ⟨rfl, rfl⟩⟩
    split
    · next hb => exact ⟨[0x2B], by rw [hb]; rfl, .inr ⟨.inr rfl, rfl⟩⟩
    · exact ⟨[], rfl, .inr ⟨.inl rfl, rfl⟩⟩

/-- An exponent that is found is spelled there. -/
theorem spelled_of_scanExponent {exponent : Option (Bool × List Nat)}
    (hscan : scanExponent s = some (exponent, rest)) :
    ∃ word, ExponentSpelled exponent word ∧ s = word ++ rest := by
  cases s with
  | nil =>
    cases hscan
    exact ⟨[], .absent, rfl⟩
  | cons b s =>
    rw [scanExponent_cons] at hscan
    split at hscan
    · next hletter =>
      split at hscan
      · cases hscan
      next hempty =>
      cases hscan
      obtain ⟨sign, hs, hsign⟩ := scanExponentSign_spec s
      obtain ⟨hdigits, hds, -⟩ := scanDigits_eq_iff.1 (Prod.eta
        (scanDigits (scanExponentSign s).2)).symm
      refine ⟨_, .digits hletter hsign ⟨by simpa using hempty, hds⟩, ?_⟩
      rw [List.cons_append, List.append_assoc, ← hdigits, ← hs]
    · cases hscan
      exact ⟨[], .absent, rfl⟩

/-- An exponent is found as it is spelled, up to what cannot go on with it. -/
theorem scanExponent_of_spelled {exponent : Option (Bool × List Nat)} {word : List UInt8}
    (hword : ExponentSpelled exponent word) (hrest : Ends rest) :
    scanExponent (word ++ rest) = some (exponent, rest) := by
  cases hword with
  | absent =>
    cases rest with
    | nil => rfl
    | cons b rest =>
      obtain ⟨-, -, hsmall, hlarge⟩ := hrest b rfl
      rw [List.nil_append, scanExponent_cons, if_neg (by simp [hsmall, hlarge])]
  | @digits negative ds letter sign hletter hsign hds =>
    have hdigits : scanDigits (ds.map digitByte ++ rest) = (ds, rest) :=
      scanDigits_eq_iff.2 ⟨rfl, hds.2, fun b hb => (hrest b hb).1⟩
    have hfound : scanExponentSign (sign ++ (ds.map digitByte ++ rest)) =
        (negative, ds.map digitByte ++ rest) := by
      rcases hsign with ⟨rfl, rfl⟩ | ⟨rfl | rfl, rfl⟩
      · rfl
      · cases ds with
        | nil => exact absurd rfl hds.1
        | cons d ds =>
          have hd := digitByte_ne (hds.2 d (.head _))
          rw [List.nil_append, List.map_cons, List.cons_append, scanExponentSign, if_neg hd.1,
            if_neg hd.2]
      · rfl
    rw [List.cons_append, List.append_assoc, scanExponent_cons, if_pos hletter, hfound, hdigits]
    simp [hds.1]

/-- A sign of a number is a minus or nothing. -/
theorem scanSign_spec (s : List UInt8) :
    s = (if (scanSign s).1 then [0x2D] else []) ++ (scanSign s).2 := by
  cases s with
  | nil => rfl
  | cons b s =>
    rw [scanSign]
    split
    · next hb => rw [hb]; rfl
    · rfl

/-- A number that is found is spelled there. -/
theorem spelled_of_scanNumeral (hscan : scanNumeral s = some (n, rest)) :
    ∃ word, n.Spelled word ∧ s = word ++ rest := by
  obtain ⟨s₁, s₂, s₃, hsign, hdigits, hempty, hzero, hfraction, hexponent⟩ :=
    scanNumeral_eq_some_iff.1 hscan
  obtain ⟨hs₁, hds, -⟩ := scanDigits_eq_iff.1 hdigits
  obtain ⟨fraction, hfraction, hs₂⟩ := spelled_of_scanFraction hfraction
  obtain ⟨exponent, hexponent, hs₃⟩ := spelled_of_scanExponent hexponent
  refine ⟨_, .intro ⟨hempty, hds⟩ hzero hfraction hexponent, ?_⟩
  have hs := scanSign_spec s
  rw [hsign] at hs
  rw [hs, hs₁, hs₂, hs₃]
  simp

/-- A number is found as it is spelled, up to what cannot go on with it. -/
theorem scanNumeral_of_spelled {word : List UInt8} (hword : n.Spelled word) (hrest : Ends rest) :
    scanNumeral (word ++ rest) = some (n, rest) := by
  obtain ⟨negative, whole, fractionDigits, exponentDigits⟩ := n
  obtain @⟨fraction, exponent, hwhole, hzero, hfraction, hexponent⟩ := hword
  simp only at hwhole hzero hfraction hexponent
  -- Neither an exponent nor what comes behind the number goes on with a fraction, and none of the
  -- three with the digits.
  have hexponentHead : ∀ b ∈ (exponent ++ rest).head?, isDigitByte b = false ∧ b ≠ 0x2E := by
    cases hexponent with
    | absent => exact fun b hb => ⟨(hrest b hb).1, (hrest b hb).2.1⟩
    | digits hletter =>
      intro b hb
      obtain rfl := Option.some.inj hb
      rcases hletter with rfl | rfl <;> decide
  have hfractionHead : ∀ b ∈ (fraction ++ (exponent ++ rest)).head?, isDigitByte b = false := by
    cases hfraction with
    | absent => exact fun b hb => (hexponentHead b hb).1
    | digits _ =>
      intro b hb
      obtain rfl := Option.some.inj hb
      decide
  refine scanNumeral_eq_some_iff.2 ⟨whole.map digitByte ++ (fraction ++ (exponent ++ rest)),
    fraction ++ (exponent ++ rest), exponent ++ rest, ?_,
    scanDigits_eq_iff.2 ⟨rfl, hwhole.2, hfractionHead⟩, hwhole.1, hzero,
    scanFraction_of_spelled hfraction hexponentHead, scanExponent_of_spelled hexponent hrest⟩
  simp only [List.append_assoc]
  cases negative with
  | true => rfl
  | false =>
    cases whole with
    | nil => exact absurd rfl hwhole.1
    | cons d ds =>
      have hd := digitByte_ne (hwhole.2 d (.head _))
      simp [scanSign, hd]

/-! ## Strings -/

/-- A string that is found stands there between quotes. -/
theorem quotable_of_scanString {seen : List UInt8} (hscan : scanString seen s = some (raw, rest)) :
    ∃ body, raw = seen.reverse ++ body ∧ Quotable body ∧ s = body ++ 0x22 :: rest := by
  fun_induction scanString seen s with
  | case1 | case3 | case5 | case7 | case9 | case10 => cases hscan
  | case2 seen rest' =>
    cases hscan
    exact ⟨[], by simp, .nil, rfl⟩
  | case4 seen b after hquote hcontrol hslash ih =>
    obtain ⟨body, rfl, hbody, rfl⟩ := ih hscan
    exact ⟨b :: body, by simp, .byte hquote hcontrol hslash hbody, rfl⟩
  | case6 seen b _ _ hslash e after he ih =>
    obtain ⟨body, rfl, hbody, rfl⟩ := ih hscan
    obtain rfl := Decidable.not_not.1 hslash
    exact ⟨0x5C :: e :: body, by simp, .letter he hbody, rfl⟩
  | case8 seen b _ _ hslash e _ hu h₁ h₂ h₃ h₄ after hhex ih =>
    obtain ⟨body, rfl, hbody, rfl⟩ := ih hscan
    obtain rfl := Decidable.not_not.1 hslash
    obtain rfl := Decidable.not_not.1 hu
    exact ⟨0x5C :: 0x75 :: h₁ :: h₂ :: h₃ :: h₄ :: body, by simp, .digits hhex hbody, rfl⟩

/-- A string is found up to its closing quote. -/
theorem scanString_of_quotable {body : List UInt8} (hbody : Quotable body) (seen : List UInt8) :
    scanString seen (body ++ 0x22 :: rest) = some (seen.reverse ++ body, rest) := by
  induction hbody generalizing seen with
  | nil => simp [scanString.eq_def]
  | @byte b more hquote hcontrol hslash _ ih =>
    rw [List.cons_append, scanString.eq_def]
    simp [hquote, hcontrol, hslash, ih]
  | letter he _ ih =>
    rw [List.cons_append, scanString.eq_def]
    simp [he, ih]
  | digits hhex _ ih =>
    have hletter : isEscapeByte 0x75 = false := by decide
    rw [List.cons_append, scanString.eq_def]
    simp [hletter, hhex, ih]

/-! ## Words -/

/-- The rest of a name is found where it stands. -/
theorem afterWord_eq_some_iff {name : List UInt8} :
    afterWord name s = some rest ↔ s = name ++ rest := by
  rw [afterWord]
  constructor
  · intro h
    split at h
    · next hprefix =>
      cases h
      obtain ⟨rest, rfl⟩ := List.isPrefixOf_iff_prefix.1 hprefix
      rw [List.drop_left]
    · cases h
  · rintro rfl
    rw [if_pos (List.isPrefixOf_iff_prefix.2 ⟨rest, rfl⟩), List.drop_left]

/-- A word that is found is spelled there. -/
theorem spelled_of_scan (hscan : Token.scan s = some (t, rest)) :
    ∃ word, t.Spelled word ∧ s = word ++ rest := by
  have hmark {u : Token} {b : UInt8} {s : List UInt8} (hfound : some (u, s) = some (t, rest))
      (hu : u.Spelled [b]) : ∃ word, t.Spelled word ∧ b :: s = word ++ rest := by
    cases hfound
    exact ⟨[b], hu, rfl⟩
  have hname {name : List UInt8} {u : Token} {b : UInt8} {s : List UInt8}
      (hfound : (afterWord name s).map (u, ·) = some (t, rest)) (hu : u.Spelled (b :: name)) :
      ∃ word, t.Spelled word ∧ b :: s = word ++ rest := by
    obtain ⟨after, hafter, heq⟩ := Option.map_eq_some_iff.1 hfound
    cases heq
    exact ⟨_, hu, congrArg _ (afterWord_eq_some_iff.1 hafter)⟩
  cases s with
  | nil => cases hscan
  | cons b s =>
    rw [Token.scan] at hscan
    by_cases hquote : b = 0x22
    · rw [if_pos hquote] at hscan
      obtain ⟨⟨raw, after⟩, hstring, heq⟩ := Option.map_eq_some_iff.1 hscan
      cases heq
      obtain ⟨body, rfl, hbody, rfl⟩ := quotable_of_scanString hstring
      exact ⟨_, .string hbody, by simp [hquote]⟩
    rw [if_neg hquote] at hscan
    by_cases hopen : b = 0x5B
    · rw [if_pos hopen] at hscan
      exact hmark hscan (hopen ▸ .openArray)
    rw [if_neg hopen] at hscan
    by_cases hclose : b = 0x5D
    · rw [if_pos hclose] at hscan
      exact hmark hscan (hclose ▸ .closeArray)
    rw [if_neg hclose] at hscan
    by_cases hopen' : b = 0x7B
    · rw [if_pos hopen'] at hscan
      exact hmark hscan (hopen' ▸ .openObject)
    rw [if_neg hopen'] at hscan
    by_cases hclose' : b = 0x7D
    · rw [if_pos hclose'] at hscan
      exact hmark hscan (hclose' ▸ .closeObject)
    rw [if_neg hclose'] at hscan
    by_cases hcomma : b = 0x2C
    · rw [if_pos hcomma] at hscan
      exact hmark hscan (hcomma ▸ .comma)
    rw [if_neg hcomma] at hscan
    by_cases hcolon : b = 0x3A
    · rw [if_pos hcolon] at hscan
      exact hmark hscan (hcolon ▸ .colon)
    rw [if_neg hcolon] at hscan
    by_cases hnull : b = 0x6E
    · rw [if_pos hnull] at hscan
      exact hname hscan (hnull ▸ .null)
    rw [if_neg hnull] at hscan
    by_cases htrue : b = 0x74
    · rw [if_pos htrue] at hscan
      exact hname hscan (htrue ▸ .yes)
    rw [if_neg htrue] at hscan
    by_cases hfalse : b = 0x66
    · rw [if_pos hfalse] at hscan
      exact hname hscan (hfalse ▸ .no)
    rw [if_neg hfalse] at hscan
    obtain ⟨⟨n, after⟩, hnumber, heq⟩ := Option.map_eq_some_iff.1 hscan
    cases heq
    obtain ⟨word, hword, hs⟩ := spelled_of_scanNumeral hnumber
    exact ⟨word, .number hword, hs⟩

/-- The word is a number. -/
def Token.IsNumber : Token → Prop
  | .number _ => True
  | _ => False

theorem Token.IsNumber.eq_number (ht : t.IsNumber) : ∃ n, t = .number n := by
  cases t <;> first | exact ⟨_, rfl⟩ | exact ht.elim

/-- A number starts with its sign or a digit. -/
theorem Numeral.Spelled.head {word : List UInt8} (hword : n.Spelled word) :
    ∃ b more, word = b :: more ∧ (b = 0x2D ∨ ∃ d < 10, b = digitByte d) := by
  obtain ⟨⟨hne, hds⟩, -, -, -⟩ := hword
  cases n.negative with
  | true => exact ⟨_, _, rfl, .inl rfl⟩
  | false =>
    cases hwhole : n.whole with
    | nil => exact absurd hwhole hne
    | cons d ds => exact ⟨_, _, rfl, .inr ⟨d, hds d (hwhole ▸ .head _), rfl⟩⟩

/-- A number starts with no blank, and with no byte that starts another word. -/
theorem scan_number {b : UInt8} (hb : b = 0x2D ∨ ∃ d < 10, b = digitByte d) :
    isJsonBlank b = false ∧
      b ∉ [0x22, 0x5B, 0x5D, 0x7B, 0x7D, 0x2C, 0x3A, 0x6E, 0x74, 0x66] := by
  have hdigit : ∀ d < 10, isJsonBlank (digitByte d) = false ∧
      digitByte d ∉ [0x22, 0x5B, 0x5D, 0x7B, 0x7D, 0x2C, 0x3A, 0x6E, 0x74, 0x66] := by
    decide
  rcases hb with rfl | ⟨d, hd, rfl⟩
  · decide
  · exact hdigit d hd

/-- A word is found as it is spelled, a number up to what cannot go on with it. -/
theorem scan_of_spelled {word : List UInt8} (hword : t.Spelled word)
    (hrest : t.IsNumber → Ends rest) : Token.scan (word ++ rest) = some (t, rest) := by
  cases hword with
  | openArray | closeArray | openObject | closeObject | comma | colon | null | yes | no => rfl
  | @string raw hraw =>
    rw [List.cons_append, List.append_assoc, Token.scan, if_pos rfl]
    exact congrArg _ (scanString_of_quotable hraw [])
  | @number n word hn =>
    have hscan := scanNumeral_of_spelled hn (hrest trivial)
    obtain ⟨b, more, rfl, hb⟩ := hn.head
    obtain ⟨-, hother⟩ := scan_number hb
    simp only [List.mem_cons, List.not_mem_nil, or_false, not_or] at hother
    rw [List.cons_append] at hscan ⊢
    simp [Token.scan, hother, hscan]

/-- A word starts with no blank, and with nothing that goes on with a number if it is none. -/
theorem Token.Spelled.head {word : List UInt8} (hword : t.Spelled word) :
    ∃ b more, word = b :: more ∧ isJsonBlank b = false ∧ (¬ t.IsNumber → Ends [b]) := by
  cases hword with
  | openArray | closeArray | openObject | closeObject | comma | colon | null | yes | no
  | string => exact ⟨_, _, rfl, by decide, fun _ _ hb => Option.some.inj hb ▸ by decide⟩
  | number hn =>
    obtain ⟨b, more, rfl, hb⟩ := hn.head
    exact ⟨b, more, rfl, (scan_number hb).1, fun hother => absurd trivial hother⟩

/-! ## Texts -/

/-- Blanks in front change nothing. -/
theorem Laid.of_dropWhile (hlaid : Laid ts (s.dropWhile isJsonBlank)) : Laid ts s := by
  induction s with
  | nil => exact hlaid
  | cons b s ih =>
    cases hb : isJsonBlank b with
    | true => exact .blank hb (ih (by rwa [List.dropWhile_cons_of_pos hb] at hlaid))
    | false => rwa [List.dropWhile_cons_of_neg (by simp [hb])] at hlaid

/-- A text is laid out as the words that are found. -/
theorem laid_of_scanAll {seen : List Token} {fuel : Nat}
    (hscan : Token.scanAll seen fuel s = some ts) :
    ∃ more, ts = seen.reverse ++ more ∧ Laid more s := by
  induction fuel generalizing seen s with
  | zero =>
    rw [Token.scanAll] at hscan
    split at hscan
    · next hempty =>
      cases hscan
      refine ⟨[], (List.append_nil _).symm, .of_dropWhile ?_⟩
      rw [List.isEmpty_iff.1 hempty]
      exact .nil
    · cases hscan
  | succ fuel ih =>
    rw [Token.scanAll] at hscan
    split at hscan
    · next hempty =>
      cases hscan
      exact ⟨[], (List.append_nil _).symm, .of_dropWhile (hempty ▸ .nil)⟩
    · next b after hfront =>
      split at hscan
      · next t after' hword =>
        obtain ⟨more, rfl, hmore⟩ := ih hscan
        obtain ⟨word, hspelled, hs⟩ := spelled_of_scan hword
        exact ⟨t :: more, by simp, .of_dropWhile (hfront ▸ hs ▸ .word hspelled hmore)⟩
      · cases hscan

/-- A text is laid out as the words that it is read as. -/
theorem laid_of_ofBytes? (hread : Token.ofBytes? s = some ts) : Laid ts s := by
  obtain ⟨more, rfl, hmore⟩ := laid_of_scanAll hread
  exact hmore

/-- Texts that are laid out one after the other. -/
theorem Laid.append {us : List Token} {s' : List UInt8} (hfront : Laid ts s) (hback : Laid us s') :
    Laid (ts ++ us) (s ++ s') := by
  induction hfront with
  | nil => exact hback
  | blank hb _ ih => exact .blank hb ih
  | word hword _ ih =>
    rw [List.cons_append, List.append_assoc]
    exact .word hword ih

/-- A word by itself. -/
theorem Token.Spelled.laid {word : List UInt8} (hword : t.Spelled word) : Laid [t] word := by
  have hlaid := Laid.word hword .nil
  rwa [List.append_nil] at hlaid

/-- Words have a text if each of them has one. -/
theorem exists_laid_iff : (∃ s, Laid ts s) ↔ ∀ t ∈ ts, ∃ word, t.Spelled word := by
  constructor
  · rintro ⟨s, hlaid⟩
    induction hlaid with
    | nil => simp
    | blank _ _ ih => exact ih
    | word hword _ ih => exact List.forall_mem_cons.2 ⟨⟨_, hword⟩, ih⟩
  · intro hwords
    induction ts with
    | nil => exact ⟨[], .nil⟩
    | cons t ts ih =>
      obtain ⟨⟨word, hword⟩, hrest⟩ := List.forall_mem_cons.1 hwords
      obtain ⟨s, hs⟩ := ih hrest
      exact ⟨word ++ s, .word hword hs⟩

/-- Two words that may stand side by side. Two numbers may not, where no blank parts them. -/
def Apart (t u : Token) : Prop := t.IsNumber → ¬ u.IsNumber

/-- What starts with no number cannot go on with one. -/
theorem Laid.ends (hlaid : Laid ts s) (hhead : ∀ t ∈ ts.head?, ¬ t.IsNumber) : Ends s := by
  cases hlaid with
  | nil => exact fun _ hb => nomatch hb
  | blank hb _ =>
    intro c hc
    obtain rfl := Option.some.inj hc
    simp only [isJsonBlank, decide_eq_true_eq] at hb
    rcases hb with rfl | rfl | rfl | rfl <;> decide
  | word hword _ =>
    obtain ⟨b, more, rfl, -, hends⟩ := hword.head
    exact hends (hhead _ rfl)

/-- A blank in front is passed over. -/
theorem scanAll_blank {b : UInt8} (hb : isJsonBlank b = true) (seen : List Token) (fuel : Nat) :
    Token.scanAll seen fuel (b :: s) = Token.scanAll seen fuel s := by
  cases fuel <;> rw [Token.scanAll, Token.scanAll, List.dropWhile_cons_of_pos hb]

/-- The words that a text is laid out as are found, if the reader does not stop before the text
does. -/
theorem scanAll_of_laid (hlaid : Laid ts s) (hapart : ts.IsChain Apart) (seen : List Token)
    {fuel : Nat} (hfuel : s.length ≤ fuel) :
    Token.scanAll seen fuel s = some (seen.reverse ++ ts) := by
  induction hlaid generalizing seen fuel with
  | nil => cases fuel <;> simp [Token.scanAll]
  | blank hb _ ih => rw [scanAll_blank hb, ih hapart _ (by simp at hfuel; omega)]
  | @word t ts word s hword hlaid ih =>
    obtain ⟨hnext, hapart⟩ := List.isChain_cons.1 hapart
    have hscan : Token.scan (word ++ s) = some (t, s) :=
      scan_of_spelled hword fun ht => hlaid.ends fun u hu => hnext u hu ht
    obtain ⟨b, more, rfl, hb, -⟩ := hword.head
    rw [List.length_append, List.length_cons] at hfuel
    obtain ⟨fuel, rfl⟩ : ∃ less, fuel = less + 1 := ⟨fuel - 1, by omega⟩
    rw [List.cons_append] at hscan ⊢
    rw [Token.scanAll, List.dropWhile_cons_of_neg (by simp [hb])]
    simp only [hscan]
    rw [ih hapart _ (by omega)]
    simp

/-- A text is read as the words that it is laid out as. -/
theorem ofBytes?_of_laid (hlaid : Laid ts s) (hapart : ts.IsChain Apart) :
    Token.ofBytes? s = some ts :=
  scanAll_of_laid hlaid hapart [] (Nat.le_refl _)

end

end OrderBroker.Json
