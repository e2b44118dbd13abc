import OrderBroker.Json.Wire
import OrderBroker.Proofs.Json.Grammar
import OrderBroker.Proofs.Json.Numbers
import OrderBroker.Proofs.Json.Strings

/-!
# Documents are read back as syntax trees

The text of a document whose numbers are integers is one value of JSON, and its syntax tree is that
of the document (`ofBytes?_render`).

What is written is one of the texts that spell the tree (`exists_spelled`), with no blanks in it.
-/

namespace OrderBroker.Json

/-- Documents whose numbers are integers. -/
inductive Plain : Json → Prop where
  | null : Plain .null
  | bool (b : Bool) : Plain (.bool b)
  | int (i : Int) : Plain (.number (.int i))
  | string (s : String) : Plain (.string s)
  | array {items : List Json} (hitems : ∀ j ∈ items, Plain j) : Plain (.array items)
  | object {members : List (String × Json)} (hmembers : ∀ m ∈ members, Plain m.2) :
    Plain (.object members)

attribute [simp] Plain.null Plain.bool Plain.int Plain.string

/-! ## Writing -/

@[simp] theorem utf8_push (out : String) (c : Char) :
    utf8 (out.push c) = utf8 out ++ String.utf8EncodeChar c := by
  rw [utf8_eq, utf8_eq, String.toList_push, List.flatMap_append, List.flatMap_singleton]

/-- A text is written between quotes. -/
theorem utf8_writeText (out s : String) :
    utf8 (Escape.writeText out s) = utf8 out ++ 0x22 :: (rawOf s ++ [0x22]) := by
  have hpush (cs : List Char) (out : String) :
      utf8 (cs.foldl String.push out) = utf8 out ++ cs.flatMap String.utf8EncodeChar := by
    induction cs generalizing out with
    | nil => simp
    | cons c cs ih => rw [List.foldl_cons, ih, utf8_push, List.flatMap_cons, List.append_assoc]
  have hescape (cs : List Char) (out : String) :
      utf8 (cs.foldl (fun out c => (Escape.escape c).foldl String.push out) out) =
        utf8 out ++ (Escape.escapeText cs).flatMap String.utf8EncodeChar := by
    induction cs generalizing out with
    | nil => simp [Escape.escapeText]
    | cons c cs ih =>
      rw [List.foldl_cons, ih, hpush, Escape.escapeText, Escape.escapeText, List.flatMap_cons,
        List.flatMap_append, List.append_assoc]
  have hquote : String.utf8EncodeChar '"' = [0x22] := by decide
  rw [Escape.writeText, String.foldl_eq_foldl_toList, utf8_push, hescape, utf8_push, hquote, rawOf,
    utf8_ofList]
  simp

/-- The text between quotes spells a word. -/
theorem spelled_rawOf (s : String) :
    (Token.string (rawOf s)).Spelled (0x22 :: (rawOf s ++ [0x22])) :=
  .string (quotable_rawOf s)

/-- What is written for a document spells its tree. -/
theorem exists_spelled {j : Json} (hj : Plain j) :
    ∃ s, (toTree j).Spelled s ∧ ∀ out, utf8 (writeOnto out j) = utf8 out ++ s := by
  induction hj with
  | null =>
    have hnull : utf8 "null" = [0x6E, 0x75, 0x6C, 0x6C] := by decide
    exact ⟨_, Token.Spelled.null.laid, fun out => by rw [writeOnto, utf8_append, hnull]⟩
  | bool b =>
    have htrue : utf8 "true" = [0x74, 0x72, 0x75, 0x65] := by decide
    have hfalse : utf8 "false" = [0x66, 0x61, 0x6C, 0x73, 0x65] := by decide
    cases b with
    | true => exact ⟨_, Token.Spelled.yes.laid, fun out => by rw [writeOnto, utf8_append, htrue]⟩
    | false => exact ⟨_, Token.Spelled.no.laid, fun out => by rw [writeOnto, utf8_append, hfalse]⟩
  | int i =>
    exact ⟨_, (Token.Spelled.number (spelled_text i)).laid, fun out => by
      rw [writeOnto, utf8_append]⟩
  | string s => exact ⟨_, (spelled_rawOf s).laid, fun out => by rw [writeOnto, utf8_writeText]⟩
  | @array items hitems ih =>
    have hwrite (first : Bool) : ∃ s, Laid (Tree.itemTokens first (toTrees items)) s ∧
        ∀ out, utf8 (writeItems out first items) = utf8 out ++ s := by
      clear hitems
      induction items generalizing first with
      | nil => exact ⟨[], .nil, fun out => by simp [writeItems]⟩
      | cons item rest hrest =>
        have hcomma : String.utf8EncodeChar ',' = [0x2C] := by decide
        obtain ⟨word, hword, hitem⟩ := ih item (.head _)
        obtain ⟨s, hs, hmore⟩ := hrest (fun j hj => ih j (.tail _ hj)) false
        cases first with
        | true => exact ⟨word ++ s, hword.append hs, fun out => by simp [writeItems, hmore, hitem]⟩
        | false =>
          exact ⟨0x2C :: (word ++ s), .word .comma (hword.append hs), fun out => by
            simp [writeItems, hmore, hitem, hcomma]⟩
    have hopen : String.utf8EncodeChar '[' = [0x5B] := by decide
    have hclose : String.utf8EncodeChar ']' = [0x5D] := by decide
    obtain ⟨s, hs, hitems⟩ := hwrite true
    exact ⟨0x5B :: (s ++ [0x5D]), .word .openArray (hs.append Token.Spelled.closeArray.laid),
      fun out => by simp [writeOnto, hitems, hopen, hclose]⟩
  | @object members hmembers ih =>
    have hwrite (first : Bool) : ∃ s, Laid (Tree.memberTokens first (toMembers members)) s ∧
        ∀ out, utf8 (writeMembers out first members) = utf8 out ++ s := by
      clear hmembers
      induction members generalizing first with
      | nil => exact ⟨[], .nil, fun out => by simp [writeMembers]⟩
      | cons member rest hrest =>
        obtain ⟨key, value⟩ := member
        have hcomma : String.utf8EncodeChar ',' = [0x2C] := by decide
        have hcolon : String.utf8EncodeChar ':' = [0x3A] := by decide
        obtain ⟨word, hword, hvalue⟩ := ih (key, value) (.head _)
        obtain ⟨s, hs, hmore⟩ := hrest (fun m hm => ih m (.tail _ hm)) false
        have hmember := (Laid.word (spelled_rawOf key) (.word .colon hword)).append hs
        cases first with
        | true =>
          exact ⟨_, hmember, fun out => by
            simp [writeMembers, hmore, hvalue, utf8_writeText, hcolon]⟩
        | false =>
          exact ⟨_, .word .comma hmember, fun out => by
            simp [writeMembers, hmore, hvalue, utf8_writeText, hcomma, hcolon]⟩
    have hopen : String.utf8EncodeChar '\x7b' = [0x7B] := by decide
    have hclose : String.utf8EncodeChar '\x7d' = [0x7D] := by decide
    obtain ⟨s, hs, hmembers⟩ := hwrite true
    exact ⟨0x7B :: (s ++ [0x7D]), .word .openObject (hs.append Token.Spelled.closeObject.laid),
      fun out => by simp [writeOnto, hmembers, hopen, hclose]⟩

/-- The text of a document whose numbers are integers is read as the document's tree. -/
theorem ofBytes?_render {j : Json} (hj : Plain j) :
    Tree.ofBytes? (utf8 j.render) = some (toTree j) := by
  obtain ⟨s, hs, hwrite⟩ := exists_spelled hj
  rw [render, hwrite]
  exact Tree.ofBytes?_eq_some_iff.2 hs

end OrderBroker.Json
