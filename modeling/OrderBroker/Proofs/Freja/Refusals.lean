import OrderBroker.Freja.Client
import OrderBroker.Proofs.Json.Compact
import OrderBroker.Proofs.Text.Natural

/-!
# How Freja's refusals are told

A reply with an error status is told with its code and its message where its body is a refusal with
a code, and otherwise with its body as the message (`refusal_told`).

A code that is an integer is told in decimal, and so is one that is a text and spells a number of 32
bits. Any other text is told as JSON writes it, in quotes, and so not as Freja wrote it
(`text_code_altered`).
-/

namespace OrderBroker.Freja

open Text (Spells)

/-- The refusal that the text of a reply is. -/
def Refusal.ofText? (text : String) : Option Refusal :=
  (Json.Tree.ofBytes? (Json.utf8 text)).bind Refusal.ofTree?

/-- A code is a number, or a text that spells it. -/
inductive Numbered : Json → Nat → Prop where
  | integer (n : Nat) : Numbered (.number (.int n)) n
  | spelled {s : String} {n : Nat} (hs : Spells s n) : Numbered (.string s) n

/-- How a code is told. -/
inductive CodeTold : Json → String → Prop where
  | integer (i : Int) : CodeTold (.number (.int i)) (toString i)
  | spelled {s : String} {n : Nat} (hs : Spells s n) (hn : n < UInt32.size) :
    CodeTold (.string s) (toString n)
  /-- A text that spells no number of 32 bits is told between quotes, with escapes. -/
  | quoted {s : String} (hs : ∀ n < UInt32.size, ¬ Spells s n) :
    CodeTold (.string s) (String.ofList ('"' :: (Json.Escape.escapeText s.toList ++ ['"'])))
  /-- What is neither an integer nor a text is told as JSON. -/
  | other {code : Json} (hinteger : ∀ i, code ≠ .number (.int i)) (htext : ∀ s, code ≠ .string s) :
    CodeTold code code.render

/-- Which message is told: that of the refusal, and where it has none, what a documented code
means. -/
inductive MessageTold (r : Refusal) : String → Prop where
  | own (hmessage : r.message ≠ "") : MessageTold r r.message
  | meaning {n : Nat} {meaning : String} (hmessage : r.message = "") (hn : Numbered r.code n)
    (hmeaning : (n, meaning) ∈ codeDescriptions) : MessageTold r meaning
  | none (hmessage : r.message = "")
    (hn : ∀ n meaning, Numbered r.code n → (n, meaning) ∉ codeDescriptions) : MessageTold r ""

/-! ## Numbers -/

section
variable {r : Refusal} {n : Nat}

/-- The number of a code is the one that it is or spells, if it has 32 bits. -/
theorem codeNumber?_eq_some_iff :
    r.codeNumber? = some n ↔ Numbered r.code n ∧ n < UInt32.size := by
  obtain ⟨code, message⟩ := r
  rw [Refusal.codeNumber?]
  split
  · next i hcode =>
    obtain rfl : code = .number (.int i) := hcode
    constructor
    · intro hn
      split at hn
      · next hi =>
        obtain rfl := Option.some.inj hn
        have hnat : ((i.toNat : Nat) : Int) = i := Int.toNat_of_nonneg hi.1
        exact ⟨by simpa [hnat] using Numbered.integer i.toNat, by omega⟩
      · cases hn
    · rintro ⟨hnumbered, hn⟩
      cases hnumbered
      rw [if_pos (by omega), Int.toNat_natCast]
  · next s hcode =>
    obtain rfl : code = .string s := hcode
    have hread : (Text.readNatural (UInt32.size - 1) s).toOption = some n ↔
        Text.readNatural (UInt32.size - 1) s = .ok n := by
      cases Text.readNatural (UInt32.size - 1) s <;> simp [Except.toOption]
    rw [hread, Text.readNatural_eq_ok_iff]
    have hmax : n ≤ UInt32.size - 1 ↔ n < UInt32.size := Nat.le_sub_one_iff_lt (by decide)
    rw [hmax]
    constructor
    · rintro ⟨hs, hn⟩
      exact ⟨.spelled hs, hn⟩
    · rintro ⟨hnumbered, hn⟩
      cases hnumbered with
      | spelled hs => exact ⟨hs, hn⟩
  · next hinteger htext =>
    refine ⟨nofun, ?_⟩
    rintro ⟨hnumbered, -⟩
    cases hnumbered with
    | integer n => exact absurd rfl (hinteger n)
    | spelled hs => exact absurd rfl (htext _)

/-- What a code means is in the list. -/
theorem describe?_eq_some_iff {meaning : String} :
    describe? n = some meaning ↔ (n, meaning) ∈ codeDescriptions := by
  have hlisted : ∀ entry ∈ codeDescriptions, describe? entry.1 = some entry.2 := by decide
  refine ⟨fun h => ?_, fun h => hlisted _ h⟩
  obtain ⟨before, after, heq, -⟩ := List.lookup_eq_some_iff.1 h
  rw [heq]
  exact List.mem_append_right _ List.mem_cons_self

/-- Documented codes have 32 bits. -/
theorem lt_of_mem_codeDescriptions {meaning : String} (hn : (n, meaning) ∈ codeDescriptions) :
    n < UInt32.size := by
  have hlisted : ∀ entry ∈ codeDescriptions, entry.1 < UInt32.size := by decide
  exact hlisted _ hn

/-! ## Codes and messages -/

/-- A number is written in decimal. -/
theorem decimal_eq_toString (n : Nat) : Text.decimal n = toString n :=
  Nat.toString_eq_ofList_toDigits.symm

/-- An integer is written in decimal. -/
theorem text_int (i : Int) : (Json.Number.int i).text = toString i := by
  rw [Json.Number.text]
  cases i with
  | ofNat n =>
    rw [if_neg (show ¬ Int.ofNat n < 0 from Int.not_lt.2 (Int.natCast_nonneg n))]
    exact decimal_eq_toString n
  | negSucc n =>
    rw [if_pos (Int.negSucc_lt_zero n)]
    exact congrArg ("-" ++ ·) (decimal_eq_toString (n + 1))

/-- A text is written between quotes. -/
theorem render_string (s : String) :
    (Json.string s).render = String.ofList ('"' :: (Json.Escape.escapeText s.toList ++ ['"'])) := by
  rw [← String.toList_inj, Json.render, Json.writeOnto, Json.writeText_eq, String.toList_ofList]
  simp

/-- A text between quotes is another text: it is longer. -/
theorem quoted_ne (s : String) :
    String.ofList ('"' :: (Json.Escape.escapeText s.toList ++ ['"'])) ≠ s := by
  have hlength (cs : List Char) : cs.length ≤ (Json.Escape.escapeText cs).length := by
    induction cs with
    | nil => exact Nat.le_refl 0
    | cons c cs ih =>
      have hescape : 0 < (Json.Escape.escape c).length := by
        rw [Json.Escape.escape]
        split_ifs <;> simp
      rw [Json.Escape.escapeText, List.flatMap_cons, List.length_append, List.length_cons]
      exact Nat.add_comm _ 1 ▸ Nat.add_le_add hescape ih
  intro heq
  have hsame := congrArg (fun s => s.toList.length) heq
  have hle := hlength s.toList
  simp only [String.toList_ofList, List.length_cons, List.length_append, List.length_nil] at hsame
  omega

/-- A code is told as its number, if it has one of 32 bits, and else as JSON. -/
theorem codeTold (r : Refusal) :
    CodeTold r.code ((r.codeNumber?.map Text.decimal).getD r.code.render) := by
  cases hnumber : r.codeNumber? with
  | some n =>
    obtain ⟨hnumbered, hn⟩ := codeNumber?_eq_some_iff.1 hnumber
    rw [Option.map_some, Option.getD_some, decimal_eq_toString]
    generalize r.code = code at hnumbered
    cases hnumbered with
    | integer n => exact .integer n
    | spelled hs => exact .spelled hs hn
  | none =>
    have hother : ∀ n < UInt32.size, ¬ Numbered r.code n := by
      intro n hn hnumbered
      cases hnumber.symm.trans (codeNumber?_eq_some_iff.2 ⟨hnumbered, hn⟩)
    rw [Option.map_none, Option.getD_none]
    generalize r.code = code at hother
    by_cases hinteger : ∃ i, code = .number (.int i)
    · obtain ⟨i, rfl⟩ := hinteger
      have hrender : (Json.number (.int i)).render = toString i := by
        rw [Json.render, Json.writeOnto, String.empty_append, text_int]
      rw [hrender]
      exact .integer i
    by_cases htext : ∃ s, code = .string s
    · obtain ⟨s, rfl⟩ := htext
      rw [render_string]
      exact .quoted fun n hn hs => hother n hn (.spelled hs)
    · exact .other (not_exists.1 hinteger) (not_exists.1 htext)

/-- The message is that of the refusal, or what its code means. -/
theorem messageTold (r : Refusal) :
    MessageTold r (match r.message, r.codeNumber?.bind describe? with
      | "", some meaning => meaning
      | message, _ => message) := by
  split
  · next meaning hmessage hmeaning =>
    obtain ⟨n, hn, hmeaning⟩ := Option.bind_eq_some_iff.1 hmeaning
    exact .meaning hmessage (codeNumber?_eq_some_iff.1 hn).1 (describe?_eq_some_iff.1 hmeaning)
  · next hother =>
    by_cases hmessage : r.message = ""
    · rw [hmessage]
      refine .none hmessage fun n meaning hn hlisted => ?_
      have hnumber := codeNumber?_eq_some_iff.2 ⟨hn, lt_of_mem_codeDescriptions hlisted⟩
      refine hother meaning hmessage ?_
      rw [hnumber, Option.bind_some, describe?_eq_some_iff.2 hlisted]
    · exact .own hmessage

/-! ## Replies -/

/-- The text of a reply is told as its refusal, or as it is. -/
theorem rejectionOf_cases (status : Nat) (text : String) :
    (∃ r code message, Refusal.ofText? text = some r ∧ r.code ≠ .null ∧
      CodeTold r.code code ∧ MessageTold r message ∧
      rejectionOf status text = .rejected status code message) ∨
    ((∀ r, Refusal.ofText? text = some r → r.code = .null) ∧
      rejectionOf status text = .rejected status "" text) := by
  rw [rejectionOf, ← Refusal.ofText?]
  cases hread : Refusal.ofText? text with
  | none => exact .inr ⟨nofun, rfl⟩
  | some r =>
    by_cases hnull : r.code = .null
    · refine .inr ⟨?_, ?_⟩
      · intro r' hr'
        obtain rfl := Option.some.inj hr'
        exact hnull
      · simp only [hnull]
    · refine .inl ⟨r, _, _, rfl, hnull, codeTold r, messageTold r, ?_⟩
      dsimp only
      split
      · next hcode => exact absurd hcode hnull
      · cases r.codeNumber? <;> rfl

/-- A reply with an error status is told as its text says. -/
theorem readAnswer_refused {α : Type} (read : Json.Tree → Option α) (body : ByteArray)
    {status : Nat} (hstatus : isSuccess status = false) :
    readAnswer read (.replied status body) =
      .error (.at .freja (rejectionOf status (Text.lossyText body))) := by
  rw [readAnswer, hstatus]
  rfl

end

/-- **How the refusals of Freja are told.** A reply with an error status is told with this status.
Where its body is a refusal with a code, the code is told as `CodeTold` says, so that a text is told
as another one just if it spells no number of 32 bits, and the message as `MessageTold` says. Any
other body is told as it is, without a code. -/
theorem refusal_told {α : Type} (read : Json.Tree → Option α) (body : ByteArray) {status : Nat}
    (hstatus : isSuccess status = false) :
    ∃ code message, readAnswer read (.replied status body) =
        .error (.at .freja (.rejected status code message)) ∧
      (∀ r, Refusal.ofText? (Text.lossyText body) = some r → r.code ≠ .null →
        CodeTold r.code code ∧ MessageTold r message ∧
          ∀ s, r.code = .string s →
            ((code = s ∨ ∃ n < UInt32.size, Spells s n ∧ code = toString n) ↔
              ∃ n < UInt32.size, Spells s n)) ∧
      ((∀ r, Refusal.ofText? (Text.lossyText body) = some r → r.code = .null) →
        code = "" ∧ message = Text.lossyText body) := by
  have hread := readAnswer_refused read body hstatus
  rcases rejectionOf_cases status (Text.lossyText body) with
    ⟨r, code, message, hr, hcode, htold, hmessage, hrejected⟩ | ⟨hnone, hrejected⟩
  · refine ⟨code, message, hrejected ▸ hread, fun r' hr' _ => ?_, fun hnull => ?_⟩
    · obtain rfl := Option.some.inj (hr.symm.trans hr')
      refine ⟨htold, hmessage, fun s hs => ?_⟩
      rw [hs] at htold
      cases htold with
      | spelled hs hn => exact ⟨fun _ => ⟨_, hn, hs⟩, fun _ => .inr ⟨_, hn, hs, rfl⟩⟩
      | quoted hs =>
        refine ⟨?_, fun ⟨n, hn, hspells⟩ => absurd hspells (hs n hn)⟩
        rintro (heq | ⟨n, hn, hspells, -⟩)
        · exact absurd heq (quoted_ne s)
        · exact absurd hspells (hs n hn)
      | other _ htext => exact absurd rfl (htext s)
    · exact absurd (hnull r hr) hcode
  · exact ⟨"", _, hrejected ▸ hread, fun r hr hcode => absurd (hnone r hr) hcode,
      fun _ => ⟨rfl, rfl⟩⟩

/-- A refusal with a code that is a text and no number. -/
def refusalWithName : ByteArray := "\x7b\"code\":\"BAD_REF\",\"message\":\"No.\"\x7d".toUTF8

/-- It is one. -/
theorem ofText?_refusalWithName : Refusal.ofText? (Text.lossyText refusalWithName) =
    some ⟨.string "BAD_REF", "No."⟩ := by
  rfl

/-- A name is no number. -/
theorem not_spells_name (n : Nat) : ¬ Spells "BAD_REF" n := by
  rintro ⟨digits, h | h, -, hdigits, -⟩
  · exact absurd (hdigits 'B' (h ▸ .head _)) (by decide)
  · cases h

/-- The name is told in quotes, and the message as it is. -/
theorem name_told_in_quotes :
    isSuccess 400 = false ∧ ∃ code message,
      readAnswer (fun _ => some ()) (.replied 400 refusalWithName) =
        .error (.at .freja (.rejected 400 code message)) ∧
      code = "\"BAD_REF\"" ∧ message = "No." := by
  obtain ⟨code, message, hreply, hrefusal, -⟩ :=
    refusal_told (fun _ => some ()) refusalWithName (by decide : isSuccess 400 = false)
  obtain ⟨hcode, hmessage, -⟩ := hrefusal _ ofText?_refusalWithName nofun
  refine ⟨by decide, code, message, hreply, ?_, ?_⟩
  · cases hcode with
    | spelled hs _ => exact absurd hs (not_spells_name _)
    | quoted _ => decide
    | other _ htext => exact absurd rfl (htext _)
  · generalize hr : (⟨.string "BAD_REF", "No."⟩ : Refusal) = r at hmessage
    cases hmessage with
    | own _ => rw [← hr]
    | meaning hnone => exact absurd (hr ▸ hnone) (by decide)
    | none hnone => exact absurd (hr ▸ hnone) (by decide)

/-- It is not so that a code that is a text is told as this text, or as the number that it
spells. -/
theorem text_code_altered :
    ¬ ∀ (status : Nat) (body : ByteArray) (r : Refusal) (s code message : String),
      isSuccess status = false → Refusal.ofText? (Text.lossyText body) = some r →
      r.code = .string s →
      readAnswer (fun _ => some ()) (.replied status body) =
        .error (.at .freja (.rejected status code message)) →
      code = s ∨ ∃ n < UInt32.size, Spells s n ∧ code = toString n := by
  intro hclaim
  have hreply := readAnswer_refused (fun _ => some ()) refusalWithName
    (by decide : isSuccess 400 = false)
  rcases rejectionOf_cases 400 (Text.lossyText refusalWithName) with
    ⟨r, code, message, hr, -, htold, -, hrejected⟩ | ⟨hnone, -⟩
  · obtain rfl := Option.some.inj (ofText?_refusalWithName.symm.trans hr)
    rw [hrejected] at hreply
    rcases hclaim 400 _ _ _ code message (by decide) hr rfl hreply with heq | ⟨n, -, hs, -⟩
    · cases htold with
      | spelled hs _ => exact not_spells_name _ hs
      | quoted _ => exact quoted_ne _ heq
      | other _ htext => exact htext _ rfl
    · exact not_spells_name n hs
  · cases hnone _ ofText?_refusalWithName

end OrderBroker.Freja
