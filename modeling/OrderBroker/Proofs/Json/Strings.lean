import OrderBroker.Proofs.Bytes
import OrderBroker.Proofs.Json.Words
import OrderBroker.Proofs.Text.Utf8

/-!
# Strings of JSON are read back

What is written for a text may stand between quotes (`quotable_rawOf`), and stands for the text
there (`unescape?_rawOf`), whatever characters it has.

Every character is written in one of three forms (`Form`), and each of them is looked at for both.
-/

namespace OrderBroker.Json

/-- The bytes of a text between quotes. -/
def rawOf (s : String) : List UInt8 := utf8 (String.ofList (Escape.escapeText s.toList))

/-- How the bytes that are written for a character look: those of the character itself, a letter
behind a backslash, or two hexadecimal digits of a code point. -/
inductive Form (c : Char) : List UInt8 → Prop where
  | itself (hplain : ∀ b ∈ String.utf8EncodeChar c, b ≠ 0x22 ∧ ¬ b < 0x20 ∧ b ≠ 0x5C) :
    Form c (String.utf8EncodeChar c)
  | letter {e v : UInt8} (hletter : isEscapeByte e = true) (hother : e ≠ 0x75)
    (hvalue : Escape.simpleEscape? e = some v) (hc : String.utf8EncodeChar c = [v]) :
    Form c [0x5C, e]
  | digits {h l : UInt8} (hhex : isHexByte h = true ∧ isHexByte l = true)
    (hvalue : Escape.hexValue4? 0x30 0x30 h l = some c.toNat) (hc : c.toNat < 0x20) :
    Form c [0x5C, 0x75, 0x30, 0x30, h, l]

/-- A letter behind a backslash stands for a character. -/
theorem form_letter {c : Char} (v e : Char) (hc : c = v)
    (hbytes : String.utf8EncodeChar e = [UInt8.ofNat e.toNat] ∧
      String.utf8EncodeChar v = [UInt8.ofNat v.toNat])
    (hletter : isEscapeByte (UInt8.ofNat e.toNat) = true ∧ UInt8.ofNat e.toNat ≠ 0x75 ∧
      Escape.simpleEscape? (UInt8.ofNat e.toNat) = some (UInt8.ofNat v.toNat)) :
    Form c (['\\', e].flatMap String.utf8EncodeChar) := by
  have hslash : String.utf8EncodeChar '\\' = [0x5C] := by decide
  subst hc
  simp only [List.flatMap_cons, List.flatMap_nil, hslash, hbytes.1]
  exact .letter hletter.1 hletter.2.1 hletter.2.2 hbytes.2

/-- A character that is no control character, quote or backslash stands for itself: it is one byte
of its own value, or bytes above ASCII. -/
theorem form_itself {c : Char} (hquote : c ≠ '"') (hslash : c ≠ '\\') (hlow : 0x20 ≤ c.toNat) :
    Form c ([c].flatMap String.utf8EncodeChar) := by
  rw [List.flatMap_singleton]
  refine .itself fun b hb => ?_
  by_cases hascii : b.toNat < 0x80
  · have hval := Text.mem_encodeChar_ascii hascii hb
    refine ⟨?_, ?_, ?_⟩
    · rintro rfl
      exact hquote (Char.toNat_inj.1 hval)
    · rw [UInt8.lt_iff_toNat_lt, ← hval]
      exact Nat.not_lt.2 hlow
    · rintro rfl
      exact hslash (Char.toNat_inj.1 hval)
  · refine ⟨?_, ?_, ?_⟩
    · rintro rfl
      exact hascii (by decide)
    · rw [UInt8.lt_iff_toNat_lt]
      intro hlt
      have : b.toNat < 0x20 := hlt
      omega
    · rintro rfl
      exact hascii (by decide)

/-- Two hexadecimal digits stand for a control character. -/
theorem form_digits {c : Char} (hc : c.toNat < 0x20) :
    Form c (['\\', 'u', '0', '0', Nat.digitChar (c.toNat / 16),
      Nat.digitChar (c.toNat % 16)].flatMap String.utf8EncodeChar) := by
  have hdigits : ∀ n < 0x20,
      ['\\', 'u', '0', '0', Nat.digitChar (n / 16), Nat.digitChar (n % 16)].flatMap
          String.utf8EncodeChar =
        [0x5C, 0x75, 0x30, 0x30, UInt8.ofNat (Nat.digitChar (n / 16)).toNat,
          UInt8.ofNat (Nat.digitChar (n % 16)).toNat] ∧
      (isHexByte (UInt8.ofNat (Nat.digitChar (n / 16)).toNat) = true ∧
        isHexByte (UInt8.ofNat (Nat.digitChar (n % 16)).toNat) = true) ∧
      Escape.hexValue4? 0x30 0x30 (UInt8.ofNat (Nat.digitChar (n / 16)).toNat)
        (UInt8.ofNat (Nat.digitChar (n % 16)).toNat) = some n := by
    decide
  obtain ⟨hbytes, hhex, hvalue⟩ := hdigits c.toNat hc
  rw [hbytes]
  exact .digits hhex hvalue hc

/-- Every character is written in one of the forms. -/
theorem form_escape (c : Char) : Form c ((Escape.escape c).flatMap String.utf8EncodeChar) := by
  rw [Escape.escape]
  split
  · exact form_letter '"' '"' ‹_› (by decide) (by decide)
  split
  · exact form_letter '\\' '\\' ‹_› (by decide) (by decide)
  split
  · next hquote hslash hlow => exact form_itself hquote hslash hlow
  split
  · exact form_letter '\x08' 'b' (Char.toNat_inj.1 ‹_›) (by decide) (by decide)
  split
  · exact form_letter '\t' 't' (Char.toNat_inj.1 ‹_›) (by decide) (by decide)
  split
  · exact form_letter '\n' 'n' (Char.toNat_inj.1 ‹_›) (by decide) (by decide)
  split
  · exact form_letter '\x0C' 'f' (Char.toNat_inj.1 ‹_›) (by decide) (by decide)
  split
  · exact form_letter '\r' 'r' (Char.toNat_inj.1 ‹_›) (by decide) (by decide)
  · exact form_digits (by omega)

section
variable {c : Char} {bytes : List UInt8}

/-- A character may stand in front of what may stand between quotes. -/
theorem Form.quotable {rest : List UInt8} (hform : Form c bytes) (hrest : Quotable rest) :
    Quotable (bytes ++ rest) := by
  cases hform with
  | itself hplain =>
    generalize String.utf8EncodeChar c = bytes at hplain ⊢
    induction bytes with
    | nil => exact hrest
    | cons b bytes ih =>
      obtain ⟨hquote, hcontrol, hslash⟩ := hplain b (.head _)
      exact .byte hquote hcontrol hslash (ih fun b hb => hplain b (.tail _ hb))
  | letter hletter _ _ _ => exact .letter hletter hrest
  | digits hhex _ _ =>
    have hzero : isHexByte 0x30 = true := by decide
    exact .digits (by simp [hzero, hhex]) hrest

/-- A character is read for what is written for it. -/
theorem Form.unescapeOnto (hform : Form c bytes) (out : ByteArray) (rest : List UInt8) :
    Escape.unescapeOnto out (bytes ++ rest) =
      Escape.unescapeOnto (onto out (String.utf8EncodeChar c)) rest := by
  cases hform with
  | itself hplain =>
    generalize String.utf8EncodeChar c = bytes at hplain ⊢
    induction bytes generalizing out with
    | nil => simp
    | cons b bytes ih =>
      obtain ⟨-, -, hslash⟩ := hplain b (.head _)
      rw [List.cons_append, Escape.unescapeOnto.eq_def]
      simp only [hslash, ne_eq, not_false_eq_true, if_true]
      rw [ih _ fun b hb => hplain b (.tail _ hb), push_eq_onto, onto_onto, List.singleton_append]
  | @letter e v hletter hother hvalue hc =>
    rw [List.cons_append, Escape.unescapeOnto.eq_def, hc, ← push_eq_onto]
    simp [hother, hvalue]
  | @digits h l hhex hvalue hc =>
    have hleading : Escape.isLeading c.toNat = false := by
      simp [Escape.isLeading]
      omega
    have htrailing : Escape.isTrailing c.toNat = false := by
      simp [Escape.isTrailing]
      omega
    rw [List.cons_append, Escape.unescapeOnto.eq_def]
    simp [hvalue, hleading, htrailing, Escape.pushCodePoint, Char.ofNat_toNat, foldl_push]

end

/-- What is written for a text may stand between quotes. -/
theorem quotable_rawOf (s : String) : Quotable (rawOf s) := by
  rw [rawOf, utf8_ofList, Escape.escapeText]
  induction s.toList with
  | nil => exact .nil
  | cons c cs ih =>
    rw [List.flatMap_cons, List.flatMap_append]
    exact (form_escape c).quotable ih

/-- A text is read back from what is written between quotes. -/
theorem unescape?_rawOf (s : String) : Escape.unescape? (rawOf s) = some s := by
  have hread (cs : List Char) (out : ByteArray) :
      Escape.unescapeOnto out ((Escape.escapeText cs).flatMap String.utf8EncodeChar) =
        some (onto out (cs.flatMap String.utf8EncodeChar)) := by
    induction cs generalizing out with
    | nil => simp [Escape.escapeText, Escape.unescapeOnto]
    | cons c cs ih =>
      rw [Escape.escapeText, List.flatMap_cons, List.flatMap_append,
        (form_escape c).unescapeOnto, ← Escape.escapeText, ih]
      simp
  rw [rawOf, utf8_ofList, Escape.unescape?, hread, Option.bind_some, ← utf8_eq]
  have hempty : onto .empty (utf8 s) = ByteArray.mk (utf8 s).toArray := by simp [onto]
  rw [hempty, fromUTF8?_utf8]

end OrderBroker.Json
