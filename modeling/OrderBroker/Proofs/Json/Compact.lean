import OrderBroker.Json.Printer
import OrderBroker.Proofs.Text.Digits
import OrderBroker.Text.Blank
import Mathlib.Data.List.Basic

/-!
# Documents are written as compact texts

Whatever a document holds, its text has no control characters, and neither end of it is blank
(`compact_render`). So a document stays as it is where a text is cut into lines or trimmed.

A string may hold any character, but control characters are escaped, and a quote stands at each of
its ends. All else that is written is visible ASCII.
-/

namespace OrderBroker.Json

/-- A visible character of ASCII. -/
def Visible (c : Char) : Prop := 0x21 ≤ c.toNat ∧ c.toNat ≤ 0x7E

instance : DecidablePred Visible := fun _ => inferInstanceAs (Decidable (_ ∧ _))

/-- A text without control characters of ASCII. -/
def Clear (cs : List Char) : Prop := ∀ c ∈ cs, 0x20 ≤ c.toNat

/-- A clear text that has something at each end that is not blank. -/
structure Compact (cs : List Char) : Prop where
  clear : Clear cs
  first : ∃ c ∈ cs.head?, Text.isBlank c = false
  last : ∃ c ∈ cs.getLast?, Text.isBlank c = false

section
variable {c d : Char} {cs ds : List Char}

theorem Visible.not_blank (hc : Visible c) : Text.isBlank c = false := by
  obtain ⟨hlow, hhigh⟩ := hc
  simp only [Text.isBlank, Bool.or_eq_false_iff, Bool.and_eq_false_iff, decide_eq_false_iff_not,
    beq_eq_false_iff_ne]
  omega

theorem Clear.append (hcs : Clear cs) (hds : Clear ds) : Clear (cs ++ ds) := by
  intro c hc
  exact (List.mem_append.1 hc).elim (hcs c) (hds c)

theorem Clear.cons (hc : Visible c) (hcs : Clear cs) : Clear (c :: cs) := by
  intro d hd
  rcases List.mem_cons.1 hd with rfl | hd
  · have := hc.1
    omega
  · exact hcs d hd

/-- What is visible throughout is compact, if there is any of it. -/
theorem Compact.of_visible (hne : cs ≠ []) (hcs : ∀ c ∈ cs, Visible c) : Compact cs where
  clear c hc := by
    have := (hcs c hc).1
    omega
  first := ⟨cs.head hne, List.head?_eq_some_head hne, (hcs _ (List.head_mem hne)).not_blank⟩
  last := ⟨cs.getLast hne, List.getLast?_eq_some_getLast hne,
    (hcs _ (List.getLast_mem hne)).not_blank⟩

/-- What stands between two marks is compact with them. -/
theorem Compact.between (hc : Visible c) (hcs : Clear cs) (hd : Visible d) :
    Compact (c :: (cs ++ [d])) where
  clear := .cons hc (hcs.append (.cons hd fun _ h => nomatch h))
  first := ⟨c, rfl, hc.not_blank⟩
  last := ⟨d, by rw [← List.cons_append, List.getLast?_concat]; rfl, hd.not_blank⟩

/-- Nothing is trimmed away from a compact text. -/
theorem Compact.trimChars (hcs : Compact cs) : Text.trimChars cs = cs := by
  obtain ⟨c, hc, hfirst⟩ := hcs.first
  obtain ⟨d, hd, hlast⟩ := hcs.last
  have hkeep {e : Char} {es : List Char} (he : e ∈ es.head?) (hblank : Text.isBlank e = false) :
      es.dropWhile Text.isBlank = es := by
    cases es with
    | nil => cases he
    | cons e' es =>
      obtain rfl : e' = e := Option.some.inj he
      exact List.dropWhile_cons_of_neg (by simp [hblank])
  rw [Text.trimChars, Text.trimStart, hkeep hc hfirst, Text.trimEnd,
    hkeep (List.head?_reverse ▸ hd) hlast, List.reverse_reverse]

end

/-! ## Numbers -/

/-- Decimal digits are visible. -/
theorem visible_of_mem_toDigits {n : Nat} {c : Char} (hc : c ∈ Nat.toDigits 10 n) : Visible c := by
  have hdigit := Nat.isDigit_of_mem_toDigits (by omega) (by omega) hc
  simp only [Char.isDigit, Bool.and_eq_true, decide_eq_true_eq] at hdigit
  have hlow : 48 ≤ c.toNat := hdigit.1
  have hhigh : c.toNat ≤ 57 := hdigit.2
  exact ⟨by omega, by omega⟩

/-- The digits of a decimal are visible, and so is the magnitude that is set with them. -/
theorem Double.visible_set (l : Layout) {ds : List Char} (hds : ∀ c ∈ ds, Visible c)
    (power : Int) : ∀ c ∈ l.set ds power, Visible c := by
  have hzero : Visible '0' := by decide
  have hpoint : Visible '.' := by decide
  have hzeros {n : Nat} {c : Char} (hc : c ∈ List.replicate n '0') : Visible c :=
    List.eq_of_mem_replicate hc ▸ hzero
  intro c hc
  rw [Layout.set.eq_def] at hc
  split at hc
  · split at hc
    · simp only [List.mem_cons, List.mem_append] at hc
      rcases hc with rfl | rfl | hc | hc
      exacts [hzero, hpoint, hzeros hc, hds c hc]
    · simp only [List.append_assoc, List.mem_append, List.mem_cons] at hc
      rcases hc with hc | hc | rfl | hc
      · exact hds c (List.mem_of_mem_take hc)
      · exact hzeros hc
      · exact hpoint
      · split at hc
        · exact List.mem_singleton.1 hc ▸ hzero
        · exact hds c (List.mem_of_mem_drop hc)
  · rcases List.mem_append.1 hc with hc | hc
    · split at hc
      · exact List.mem_singleton.1 hc ▸ hzero
      · exact hds c hc
      · rcases List.mem_cons.1 hc with rfl | hc
        · exact hds c (.head _)
        · rcases List.mem_cons.1 hc with rfl | hc
          · exact hpoint
          · exact hds c (.tail _ hc)
    · simp only [List.mem_cons] at hc
      rcases hc with rfl | rfl | hc
      · decide
      · split <;> decide
      · exact visible_of_mem_toDigits hc

theorem Double.set_ne_nil (l : Layout) (ds : List Char) (power : Int) : l.set ds power ≠ [] := by
  rw [Layout.set.eq_def]
  split
  · split <;> simp
  · simp

/-- A number is visible throughout. -/
theorem compact_number (n : Number) : Compact n.text.toList := by
  have hminus : Visible '-' := by decide
  have hsigned (cs : List Char) (hcs : cs ≠ [] ∧ ∀ c ∈ cs, Visible c) (negative : Bool) :
      Compact (if negative then '-' :: cs else cs) := by
    cases negative with
    | true =>
      refine .of_visible (by simp) fun c hc => ?_
      rcases List.mem_cons.1 hc with rfl | hc
      exacts [hminus, hcs.2 c hc]
    | false => exact .of_visible hcs.1 hcs.2
  cases n with
  | int i =>
    have hdigits := hsigned (Nat.toDigits 10 i.natAbs)
      ⟨by simp, fun c hc => visible_of_mem_toDigits hc⟩ (i < 0)
    by_cases hi : i < 0
    · simpa [Number.text, hi] using hdigits
    · simpa [Number.text, hi] using hdigits
  | real bits =>
    rw [Number.text, Double.text, String.toList_ofList]
    refine hsigned _ ?_ _
    dsimp only
    split
    · simp [Visible]
    · refine ⟨Double.set_ne_nil _ _ _, Double.visible_set _ (fun c hc => ?_) _⟩
      rw [Double.normalDigits] at hc
      exact visible_of_mem_toDigits
        (List.mem_reverse.1 ((List.dropWhile_sublist _).subset (List.mem_reverse.1 hc)))

/-! ## Strings -/

/-- No character is written as a control character. -/
theorem clear_escape (c : Char) : Clear (Escape.escape c) := by
  have hhex : ∀ n < 0x20,
      0x20 ≤ (Nat.digitChar (n / 16)).toNat ∧ 0x20 ≤ (Nat.digitChar (n % 16)).toNat := by
    decide
  rw [Escape.escape]
  split_ifs with hquote hslash hlow
  case neg =>
    have hdigits := hhex c.toNat (by omega)
    simp [Clear, hdigits]
  all_goals simp [Clear, *]

/-- A string is written between quotes. -/
theorem writeText_eq (out s : String) :
    (Escape.writeText out s).toList = out.toList ++ '"' :: (Escape.escapeText s.toList ++ ['"']) := by
  have hpush (cs : List Char) (out : String) :
      (cs.foldl String.push out).toList = out.toList ++ cs := by
    induction cs generalizing out with
    | nil => simp
    | cons c cs ih => simp [ih]
  have hescape (cs : List Char) (out : String) :
      (cs.foldl (fun out c => (Escape.escape c).foldl String.push out) out).toList =
        out.toList ++ Escape.escapeText cs := by
    induction cs generalizing out with
    | nil => simp [Escape.escapeText]
    | cons c cs ih => simp [ih, hpush, Escape.escapeText]
  rw [Escape.writeText, String.foldl_eq_foldl_toList, String.toList_push, hescape,
    String.toList_push]
  simp

/-- What is written for a string is compact. -/
theorem compact_text (s : String) : Compact ('"' :: (Escape.escapeText s.toList ++ ['"'])) := by
  refine .between (by decide) (fun c hc => ?_) (by decide)
  obtain ⟨d, -, hc⟩ := List.mem_flatMap.1 hc
  exact clear_escape d c hc

/-! ## Documents -/

mutual

/-- A document appends a compact text to what is written. -/
theorem writeOnto_compact :
    ∀ j : Json, ∃ text, Compact text ∧ ∀ out, (writeOnto out j).toList = out.toList ++ text
  | .null =>
    ⟨"null".toList, .of_visible (by decide) (by simp [Visible]), fun out => by simp [writeOnto]⟩
  | .bool true =>
    ⟨"true".toList, .of_visible (by decide) (by simp [Visible]), fun out => by simp [writeOnto]⟩
  | .bool false =>
    ⟨"false".toList, .of_visible (by decide) (by simp [Visible]), fun out => by simp [writeOnto]⟩
  | .number n => ⟨n.text.toList, compact_number n, fun out => by simp [writeOnto]⟩
  | .string s => ⟨_, compact_text s, fun out => by rw [writeOnto, writeText_eq]⟩
  | .array items => by
    obtain ⟨text, hclear, htext⟩ := writeItems_clear items true
    exact ⟨_, .between (c := '[') (d := ']') (by decide) hclear (by decide),
      fun out => by simp [writeOnto, htext]⟩
  | .object members => by
    obtain ⟨text, hclear, htext⟩ := writeMembers_clear members true
    exact ⟨_, .between (c := '\x7b') (d := '\x7d') (by decide) hclear
      (by decide), fun out => by simp [writeOnto, htext]⟩

/-- The items of an array append a clear text. -/
theorem writeItems_clear : ∀ (items : List Json) (first : Bool),
    ∃ text, Clear text ∧ ∀ out, (writeItems out first items).toList = out.toList ++ text
  | [], _ => ⟨[], fun _ h => (nomatch h), fun out => by simp [writeItems]⟩
  | item :: rest, first => by
    have hcomma : Visible ',' := by decide
    obtain ⟨text, hcompact, htext⟩ := writeOnto_compact item
    obtain ⟨more, hmore, hrest⟩ := writeItems_clear rest false
    cases first with
    | true => exact ⟨_, hcompact.clear.append hmore, fun out => by simp [writeItems, htext, hrest]⟩
    | false =>
      exact ⟨_, .cons hcomma (hcompact.clear.append hmore),
        fun out => by simp [writeItems, htext, hrest]⟩

/-- The members of an object append a clear text. -/
theorem writeMembers_clear : ∀ (members : List (String × Json)) (first : Bool),
    ∃ text, Clear text ∧ ∀ out, (writeMembers out first members).toList = out.toList ++ text
  | [], _ => ⟨[], fun _ h => (nomatch h), fun out => by simp [writeMembers]⟩
  | (key, value) :: rest, first => by
    have hcomma : Visible ',' := by decide
    have hcolon : Visible ':' := by decide
    obtain ⟨text, hcompact, htext⟩ := writeOnto_compact value
    obtain ⟨more, hmore, hrest⟩ := writeMembers_clear rest false
    have hmember := (compact_text key).clear.append (.cons hcolon (hcompact.clear.append hmore))
    cases first with
    | true =>
      exact ⟨_, hmember, fun out => by simp [writeMembers, writeText_eq, htext, hrest]⟩
    | false =>
      exact ⟨_, .cons hcomma hmember,
        fun out => by simp [writeMembers, writeText_eq, htext, hrest]⟩

end

/-- The text of a document has no control characters and nothing blank at its ends. -/
theorem compact_render (j : Json) : Compact j.render.toList := by
  obtain ⟨text, hcompact, htext⟩ := writeOnto_compact j
  rw [render, htext]
  exact hcompact

end OrderBroker.Json
