import OrderBroker.Json.Value
import OrderBroker.Text.Lossy
import Mathlib.Tactic.SplitIfs

/-!
# Texts and their bytes

What the readers of bytes need to know about UTF-8. A character of ASCII is one byte of the same
value, and the bytes of any other character are all above ASCII, so that a reader that looks for
ASCII marks never finds one inside another character. Reading the bytes of a text gives the text
back, also where the reader takes any bytes (`lossy_utf8`), and bytes are never read as no text.
-/

namespace OrderBroker

namespace Json

/-! ## The bytes of a text -/

@[simp] theorem utf8_ofList (cs : List Char) :
    utf8 (String.ofList cs) = cs.flatMap String.utf8EncodeChar := by
  simp [utf8, List.utf8Encode]

/-- The bytes of a text are those of its characters. -/
theorem utf8_eq (s : String) : utf8 s = s.toList.flatMap String.utf8EncodeChar := by
  rw [← utf8_ofList, String.ofList_toList]

@[simp] theorem utf8_append (s t : String) : utf8 (s ++ t) = utf8 s ++ utf8 t := by
  simp [utf8]

/-- The bytes of a text are read as the text. -/
theorem fromUTF8?_utf8 (s : String) :
    String.fromUTF8? (ByteArray.mk (utf8 s).toArray) = some s := by
  have hbytes : ByteArray.mk (utf8 s).toArray = s.toByteArray := by simp [utf8]
  rw [hbytes, String.fromUTF8?, dif_pos s.isValidUTF8]
  rfl

end Json

namespace Text

section
variable {c : Char} {u : Unfinished} {b : UInt8} {v : Nat}

/-- A byte keeps a small number. -/
theorem toNat_byte (hv : v < 256) : (UInt8.ofNat v).toNat = v := UInt8.toNat_ofNat_of_lt' hv

/-- A character of ASCII is one byte. -/
theorem encodeChar_ascii (hc : c.toNat < 0x80) :
    String.utf8EncodeChar c = [UInt8.ofNat c.toNat] := by
  have hval : c.val.toNat ≤ 127 := Nat.le_of_lt_succ hc
  rw [String.utf8EncodeChar]
  exact if_pos hval

/-- The bytes of other characters are above ASCII. -/
theorem encodeChar_high (hc : 0x80 ≤ c.toNat) (hb : b ∈ String.utf8EncodeChar c) :
    0x80 ≤ b.toNat := by
  have hval : c.val.toNat = c.toNat := rfl
  rw [String.utf8EncodeChar] at hb
  simp only [hval] at hb
  generalize c.toNat = v at hc hb
  split_ifs at hb with h1 h2 h3
  · omega
  all_goals
    simp only [List.mem_cons, List.not_mem_nil, or_false] at hb
    rcases hb with rfl | rfl | rfl | rfl
  all_goals
    rw [toNat_byte (by omega)]
    omega

/-- A byte of ASCII is a character of its own. -/
theorem mem_encodeChar_ascii (hb : b.toNat < 0x80) (hmem : b ∈ String.utf8EncodeChar c) :
    c.toNat = b.toNat := by
  by_cases hc : c.toNat < 0x80
  · rw [encodeChar_ascii hc, List.mem_singleton] at hmem
    rw [hmem, toNat_byte (by omega)]
  · have := encodeChar_high (by omega) hmem
    omega

/-! ## Reading a character -/

/-- The byte that starts a character of several. -/
theorem lossyStep_first (out : String) (hb : 0x80 ≤ b.toNat)
    (hu : Unfinished.start? b.toNat = some u) :
    lossyStep (out, none) b = (out, some u) := by
  rw [lossyStep, lossyStart, if_neg (by omega), hu]

/-- A byte in the middle of a character. -/
theorem lossyStep_next (out : String) (hlow : u.low ≤ b.toNat) (hhigh : b.toNat ≤ u.high)
    (hmore : 1 < u.more) :
    lossyStep (out, some u) b =
      (out, some ⟨u.more - 1, 0x80, 0xBF, u.value * 64 + (b.toNat - 0x80)⟩) := by
  rw [lossyStep, if_pos ⟨hlow, hhigh⟩, if_neg (by omega)]

/-- The last byte of a character. -/
theorem lossyStep_last (out : String) (hlow : u.low ≤ b.toNat) (hhigh : b.toNat ≤ u.high)
    (hmore : u.more ≤ 1) :
    lossyStep (out, some u) b =
      (out.push (Char.ofNat (u.value * 64 + (b.toNat - 0x80))), none) := by
  rw [lossyStep, if_pos ⟨hlow, hhigh⟩, if_pos hmore]

/-- How a character of two bytes starts. -/
theorem start_two (hv : 127 < v) (hv' : v ≤ 2047) :
    Unfinished.start? (v / 64 + 192) = some ⟨1, 0x80, 0xBF, v / 64⟩ := by
  rw [Unfinished.start?, if_pos (by omega)]
  simp

/-- How a character of three bytes starts. The second byte is in the range that the first allows:
it is no shorter character written at length, and no surrogate. -/
theorem start_three (hv : 2047 < v) (hv' : v ≤ 65535) (hscalar : v < 0xD800 ∨ 0xDFFF < v) :
    ∃ low high, Unfinished.start? (v / 4096 + 224) = some ⟨2, low, high, v / 4096⟩ ∧
      low ≤ v / 64 % 64 + 128 ∧ v / 64 % 64 + 128 ≤ high := by
  by_cases hshort : v / 4096 = 0
  · refine ⟨0xA0, 0xBF, ?_, by omega, by omega⟩
    simp [Unfinished.start?, hshort]
  · by_cases hsurrogate : v / 4096 = 13
    · refine ⟨0x80, 0x9F, ?_, by omega, by omega⟩
      simp [Unfinished.start?, hsurrogate]
    · refine ⟨0x80, 0xBF, ?_, by omega, by omega⟩
      rw [Unfinished.start?, if_neg (by omega), if_neg (by omega), if_neg (by omega),
        if_pos (by omega)]
      simp

/-- How a character of four bytes starts. The second byte is in the range that the first allows: it
is no shorter character written at length, and not beyond the last character. -/
theorem start_four (hv : 65535 < v) (hv' : v < 0x110000) :
    ∃ low high, Unfinished.start? (v / 262144 + 240) = some ⟨3, low, high, v / 262144⟩ ∧
      low ≤ v / 4096 % 64 + 128 ∧ v / 4096 % 64 + 128 ≤ high := by
  by_cases hshort : v / 262144 = 0
  · refine ⟨0x90, 0xBF, ?_, by omega, by omega⟩
    simp [Unfinished.start?, hshort]
  · by_cases hlast : v / 262144 = 4
    · refine ⟨0x80, 0x8F, ?_, by omega, by omega⟩
      simp [Unfinished.start?, hlast]
    · refine ⟨0x80, 0xBF, ?_, by omega, by omega⟩
      rw [Unfinished.start?, if_neg (by omega), if_neg (by omega), if_neg (by omega),
        if_neg (by omega), if_neg (by omega), if_pos (by omega)]
      simp

/-- The bytes of a character are read as the character. -/
theorem lossy_char (out : String) (c : Char) :
    (String.utf8EncodeChar c).foldl lossyStep (out, none) = (out.push c, none) := by
  have hscalar : c.toNat < 0xD800 ∨ 0xDFFF < c.toNat ∧ c.toNat < 0x110000 := c.valid
  have hchar : Char.ofNat c.toNat = c := Char.ofNat_toNat c
  have hval : c.val.toNat = c.toNat := rfl
  rw [String.utf8EncodeChar]
  simp only [hval]
  generalize c.toNat = v at hscalar hchar
  have h1 : (UInt8.ofNat (v % 64 + 128)).toNat = v % 64 + 128 := toNat_byte (by omega)
  have h2 : (UInt8.ofNat (v / 64 % 64 + 128)).toNat = v / 64 % 64 + 128 := toNat_byte (by omega)
  have h3 : (UInt8.ofNat (v / 4096 % 64 + 128)).toNat = v / 4096 % 64 + 128 :=
    toNat_byte (by omega)
  split_ifs with hone htwo hthree
  · have hb : (UInt8.ofNat v).toNat = v := toNat_byte (by omega)
    simp only [List.foldl_cons, List.foldl_nil, lossyStep, lossyStart]
    rw [hb, if_pos (by omega), hchar]
  · have hb : (UInt8.ofNat (v / 64 % 32 + 192)).toNat = v / 64 + 192 := by
      rw [toNat_byte (by omega)]
      omega
    rw [List.foldl_cons, lossyStep_first out (by omega) (hb ▸ start_two (by omega) htwo),
      List.foldl_cons, lossyStep_last out (by simp only [h1]; omega) (by simp only [h1]; omega)
        (Nat.le_refl 1), List.foldl_nil]
    simp only [h1]
    rw [show v / 64 * 64 + (v % 64 + 128 - 0x80) = v by omega, hchar]
  · have hb : (UInt8.ofNat (v / 4096 % 16 + 224)).toNat = v / 4096 + 224 := by
      rw [toNat_byte (by omega)]
      omega
    obtain ⟨low, high, hstart, hlow, hhigh⟩ := start_three (v := v) (by omega) hthree (by omega)
    rw [List.foldl_cons, lossyStep_first out (by omega) (hb ▸ hstart),
      List.foldl_cons, lossyStep_next out (by simp only [h2]; omega) (by simp only [h2]; omega)
        (Nat.lt_succ_self 1),
      List.foldl_cons, lossyStep_last out (by simp only [h1]; omega) (by simp only [h1]; omega)
        (Nat.le_refl 1), List.foldl_nil]
    simp only [h1, h2]
    rw [show (v / 4096 * 64 + (v / 64 % 64 + 128 - 0x80)) * 64 + (v % 64 + 128 - 0x80) = v by omega,
      hchar]
  · have hb : (UInt8.ofNat (v / 262144 % 8 + 240)).toNat = v / 262144 + 240 := by
      rw [toNat_byte (by omega)]
      omega
    obtain ⟨low, high, hstart, hlow, hhigh⟩ := start_four (v := v) (by omega) (by omega)
    rw [List.foldl_cons, lossyStep_first out (by omega) (hb ▸ hstart),
      List.foldl_cons, lossyStep_next out (by simp only [h3]; omega) (by simp only [h3]; omega)
        (Nat.lt_add_left 1 (Nat.lt_succ_self 1)),
      List.foldl_cons, lossyStep_next out (by simp only [h2]; omega) (by simp only [h2]; omega)
        (Nat.lt_succ_self 1),
      List.foldl_cons, lossyStep_last out (by simp only [h1]; omega) (by simp only [h1]; omega)
        (Nat.le_refl 1), List.foldl_nil]
    simp only [h1, h2, h3]
    rw [show ((v / 262144 * 64 + (v / 4096 % 64 + 128 - 0x80)) * 64 +
        (v / 64 % 64 + 128 - 0x80)) * 64 + (v % 64 + 128 - 0x80) = v by omega, hchar]

/-! ## Reading a text -/

/-- The bytes of characters are read as these characters. -/
theorem lossy_chars (out : String) (cs : List Char) :
    (cs.flatMap String.utf8EncodeChar).foldl lossyStep (out, none) =
      (out ++ String.ofList cs, none) := by
  induction cs generalizing out with
  | nil => simp
  | cons c cs ih =>
    rw [List.flatMap_cons, List.foldl_append, lossy_char, ih]
    simp [← String.toList_inj]

/-- The bytes of a text are read as the text. -/
theorem lossy_utf8 (s : String) : lossy (Json.utf8 s) = s := by
  rw [lossy, Json.utf8_eq, lossy_chars, String.ofList_toList]
  exact String.empty_append

/-- Something has been read, or a character has been started. -/
def HasRead (state : String × Option Unfinished) : Prop := state.1 ≠ "" ∨ state.2 ≠ none

theorem hasRead_start (out : String) (b : UInt8) : HasRead (lossyStart out b) := by
  rw [lossyStart]
  split
  · exact .inl (by simp)
  · split
    · exact .inr (by simp)
    · exact .inl (by simp)

/-- Every byte leaves a trace. -/
theorem hasRead_step (state : String × Option Unfinished) (b : UInt8) :
    HasRead (lossyStep state b) := by
  obtain ⟨out, u⟩ := state
  cases u with
  | none => exact hasRead_start out b
  | some u =>
    rw [lossyStep]
    split
    · simp only
      split
      · exact .inl (by simp)
      · exact .inr (by simp)
    · exact hasRead_start _ b

/-- Bytes are never read as no text. -/
theorem lossy_ne_empty {bytes : List UInt8} (hbytes : bytes ≠ []) : lossy bytes ≠ "" := by
  obtain ⟨front, b, rfl⟩ := List.eq_nil_or_concat bytes |>.resolve_left hbytes
  rw [lossy, List.concat_eq_append, List.foldl_append, List.foldl_cons, List.foldl_nil]
  have htrace := hasRead_step (front.foldl lossyStep ("", none)) b
  generalize lossyStep _ b = state at htrace
  obtain ⟨out, u⟩ := state
  cases u with
  | none => simpa [HasRead] using htrace
  | some u => simp

end

end Text

end OrderBroker
