import OrderBroker.Json.Tree
import OrderBroker.Proofs.Json.Words

/-!
# The grammar of JSON

A syntax tree has its words, one after the other (`Tree.tokens`), and it is spelled by the texts
that are laid out as these words (`Tree.Spelled`). The reader accepts exactly the texts that spell a
tree, and reads the tree that they spell (`ofBytes?_eq_some_iff`), however deep it is.

One way, the reader comes over the words of a value from where a value may start to where it has
been read (`run_tokens`). The other way, every state stands for the words that led to it
(`State.read`), and a step adds the word that it takes (`State.read_step`).
-/

namespace OrderBroker.Json.Tree

/-! ## The words of a tree -/

mutual

/-- The words of a tree. -/
def tokens : Tree → List Token
  | .null => [.null]
  | .bool b => [.bool b]
  | .number n => [.number n]
  | .string raw => [.string raw]
  | .array items => .openArray :: (itemTokens true items ++ [.closeArray])
  | .object members => .openObject :: (memberTokens true members ++ [.closeObject])

/-- The words of items; `first` says that no comma goes before the next one. -/
def itemTokens (first : Bool) : List Tree → List Token
  | [] => []
  | item :: rest => (if first then [] else [.comma]) ++ tokens item ++ itemTokens false rest

/-- The words of members; `first` says that no comma goes before the next one. -/
def memberTokens (first : Bool) : List (List UInt8 × Tree) → List Token
  | [] => []
  | (key, value) :: rest =>
    (if first then [] else [.comma]) ++ .string key :: .colon :: tokens value ++
      memberTokens false rest

end

/-- The texts that spell a tree. -/
def Spelled (t : Tree) (s : List UInt8) : Prop := Laid t.tokens s

/-- A tree that has a text. -/
def WellFormed (t : Tree) : Prop := ∃ s, t.Spelled s

/-- What holds of an array or object if it holds of all that is in it, and of the rest, holds of
every tree. -/
@[elab_as_elim]
theorem inductionOn {motive : Tree → Prop} (null : motive .null) (bool : ∀ b, motive (.bool b))
    (number : ∀ n, motive (.number n)) (string : ∀ raw, motive (.string raw))
    (array : ∀ items, (∀ t ∈ items, motive t) → motive (.array items))
    (object : ∀ members, (∀ m ∈ members, motive m.2) → motive (.object members)) :
    ∀ t, motive t
  | .null => null
  | .bool b => bool b
  | .number n => number n
  | .string raw => string raw
  | .array items => array items fun t _ => inductionOn null bool number string array object t
  | .object members =>
    object members fun m _ => inductionOn null bool number string array object m.2
  decreasing_by
    all_goals simp_wf
    · have hitem := List.sizeOf_lt_of_mem ‹_›
      omega
    · have hmember := List.sizeOf_lt_of_mem ‹_›
      obtain ⟨raw, t⟩ := m
      rw [Prod.mk.sizeOf_spec] at hmember
      show sizeOf t < 1 + sizeOf members
      omega

/-- An object has a text if its keys may stand between quotes and its values have texts. -/
theorem wellFormed_object {members : List (List UInt8 × Tree)} :
    WellFormed (.object members) ↔ ∀ m ∈ members, Quotable m.1 ∧ m.2.WellFormed := by
  have hkey (raw : List UInt8) : (∃ word, Token.Spelled (.string raw) word) ↔ Quotable raw := by
    constructor
    · rintro ⟨word, ⟨⟩⟩
      assumption
    · exact fun hraw => ⟨_, .string hraw⟩
  have hcomma : ∃ word, Token.Spelled .comma word := ⟨_, .comma⟩
  have hcolon : ∃ word, Token.Spelled .colon word := ⟨_, .colon⟩
  have hmembers (first : Bool) :
      (∀ u ∈ memberTokens first members, ∃ word, u.Spelled word) ↔
        ∀ m ∈ members, Quotable m.1 ∧ m.2.WellFormed := by
    induction members generalizing first with
    | nil => simp [memberTokens]
    | cons member rest ih =>
      obtain ⟨raw, value⟩ := member
      have hfirst : ∀ u ∈ (if first then [] else [Token.comma]), ∃ word, u.Spelled word := by
        cases first <;> simp [hcomma]
      have hvalue : (∀ u ∈ value.tokens, ∃ word, u.Spelled word) ↔ value.WellFormed :=
        exists_laid_iff.symm
      rw [memberTokens, List.forall_mem_append, List.forall_mem_append, List.forall_mem_cons,
        List.forall_mem_cons, List.forall_mem_cons, ih, hvalue, hkey]
      exact ⟨fun h => ⟨⟨h.1.2.1, h.1.2.2.2⟩, h.2⟩, fun h => ⟨⟨hfirst, h.1.1, hcolon, h.1.2⟩, h.2⟩⟩
  have hopen : ∃ word, Token.Spelled .openObject word := ⟨_, .openObject⟩
  have hclose : ∃ word, Token.Spelled .closeObject word := ⟨_, .closeObject⟩
  have htokens : WellFormed (.object members) ↔
      ∀ u ∈ tokens (.object members), ∃ word, u.Spelled word := exists_laid_iff
  rw [htokens, tokens, ← hmembers true, List.forall_mem_cons, List.forall_mem_append,
    List.forall_mem_singleton]
  exact ⟨fun h => h.2.1, fun h => ⟨hopen, h, hclose⟩⟩

/-! ## From the words to the tree -/

section
variable {outer : List Frame} {t : Tree} {ts : List Token} {s s' : State}

/-- A value begins with a word that ends no array. -/
theorem tokens_cons (t : Tree) : ∃ u more, t.tokens = u :: more ∧ u ≠ .closeArray := by
  cases t <;> exact ⟨_, _, rfl, nofun⟩

/-- The first item of an array is a value like any other. -/
theorem run_itemOrEnd (t : Tree) (outer : List Frame) (ts : List Token) :
    State.run (.itemOrEnd outer) (t.tokens ++ ts) =
      State.run (.value (.array [] :: outer)) (t.tokens ++ ts) := by
  obtain ⟨u, more, htokens, hu⟩ := tokens_cons t
  have hstep : State.step (.itemOrEnd outer) u = State.step (.value (.array [] :: outer)) u := by
    cases u <;> first | rfl | exact absurd rfl hu
  rw [htokens, List.cons_append, State.run, State.run, hstep]

/-- `Passes t`: over the words of `t` the reader comes from where a value may start to where it has
been read. -/
def Passes (t : Tree) : Prop :=
  ∀ (outer : List Frame) (ts : List Token),
    State.run (.value outer) (t.tokens ++ ts) = State.run (.after t outer) ts

/-- The items after the first one come one after the other, behind those that are there. -/
theorem run_items {items : List Tree} (hitems : ∀ t ∈ items, Passes t) (t : Tree)
    (before : List Tree) (outer : List Frame) (ts : List Token) :
    State.run (.after t (.array before :: outer)) (itemTokens false items ++ .closeArray :: ts) =
      State.run (.after (.array ((t :: before).reverse ++ items)) outer) ts := by
  induction items generalizing t before with
  | nil =>
    rw [List.append_nil]
    rfl
  | cons item rest ih =>
    have htokens : itemTokens false (item :: rest) ++ .closeArray :: ts =
        .comma :: (item.tokens ++ (itemTokens false rest ++ .closeArray :: ts)) := by
      simp [itemTokens]
    have hitem := hitems item (.head _) (.array (t :: before) :: outer)
      (itemTokens false rest ++ .closeArray :: ts)
    rw [htokens]
    show State.run (.value (.array (t :: before) :: outer)) _ = _
    rw [hitem, ih fun t ht => hitems t (.tail _ ht)]
    simp

/-- So do the members after the first one. -/
theorem run_members {members : List (List UInt8 × Tree)} (hmembers : ∀ m ∈ members, Passes m.2)
    (t : Tree) (key : List UInt8) (before : List (List UInt8 × Tree)) (outer : List Frame)
    (ts : List Token) :
    State.run (.after t (.object before key :: outer))
        (memberTokens false members ++ .closeObject :: ts) =
      State.run (.after (.object (((key, t) :: before).reverse ++ members)) outer) ts := by
  induction members generalizing t key before with
  | nil =>
    rw [List.append_nil]
    rfl
  | cons member rest ih =>
    obtain ⟨key', value⟩ := member
    have htokens : memberTokens false ((key', value) :: rest) ++ .closeObject :: ts =
        .comma :: .string key' :: .colon ::
          (value.tokens ++ (memberTokens false rest ++ .closeObject :: ts)) := by
      simp [memberTokens]
    have hvalue := hmembers (key', value) (.head _) (.object ((key, t) :: before) key' :: outer)
      (memberTokens false rest ++ .closeObject :: ts)
    rw [htokens]
    show State.run (.value (.object ((key, t) :: before) key' :: outer)) _ = _
    rw [hvalue, ih fun m hm => hmembers m (.tail _ hm)]
    simp

/-- The words of a tree make the tree, wherever it stands. -/
theorem run_tokens (t : Tree) : Passes t := by
  induction t using inductionOn with
  | null => exact fun _ _ => rfl
  | bool b => exact fun _ _ => rfl
  | number n => exact fun _ _ => rfl
  | string raw => exact fun _ _ => rfl
  | array items ih =>
    intro outer ts
    show State.run (.itemOrEnd outer) ((itemTokens true items ++ [.closeArray]) ++ ts) = _
    cases items with
    | nil => rfl
    | cons item rest =>
      have htokens : (itemTokens true (item :: rest) ++ [.closeArray]) ++ ts =
          item.tokens ++ (itemTokens false rest ++ .closeArray :: ts) := by
        simp [itemTokens]
      rw [htokens, run_itemOrEnd, ih item (.head _), run_items fun t ht => ih t (.tail _ ht)]
      simp
  | object members ih =>
    intro outer ts
    show State.run (.keyOrEnd outer) ((memberTokens true members ++ [.closeObject]) ++ ts) = _
    cases members with
    | nil => rfl
    | cons member rest =>
      obtain ⟨key, value⟩ := member
      have htokens : (memberTokens true ((key, value) :: rest) ++ [.closeObject]) ++ ts =
          .string key :: .colon ::
            (value.tokens ++ (memberTokens false rest ++ .closeObject :: ts)) := by
        simp [memberTokens]
      rw [htokens]
      show State.run (.value (.object [] key :: outer)) _ = _
      rw [ih (key, value) (.head _), run_members fun m hm => ih m (.tail _ hm)]
      simp

/-- The words of a tree are read as the tree. -/
theorem ofTokens?_tokens (t : Tree) : ofTokens? t.tokens = some t := by
  have hrun := run_tokens t [] []
  rw [List.append_nil] at hrun
  rw [ofTokens?, hrun]
  rfl

/-! ## From the tree to the words -/

/-- The comma in front of what follows some items or members, if there are any. -/
def commaAfter {α : Type} (before : List α) : List Token := if before.isEmpty then [] else [.comma]

@[simp] theorem commaAfter_nil {α : Type} : commaAfter ([] : List α) = [] := rfl

@[simp] theorem commaAfter_cons {α : Type} (a : α) (before : List α) :
    commaAfter (a :: before) = [.comma] := rfl

/-- The words of an array or object that is still open, up to the value that it waits for. -/
def Frame.tokens : Frame → List Token
  | .array items => .openArray :: (itemTokens true items.reverse ++ commaAfter items)
  | .object members key =>
    .openObject ::
      (memberTokens true members.reverse ++ commaAfter members ++ [.string key, .colon])

/-- The words of all that is still open. -/
def opened (outer : List Frame) : List Token := outer.reverse.flatMap Frame.tokens

@[simp] theorem opened_cons (frame : Frame) (outer : List Frame) :
    opened (frame :: outer) = opened outer ++ frame.tokens := by
  simp [opened]

/-- The words that led to a state. -/
def State.read : State → List Token
  | .value outer => opened outer
  | .itemOrEnd outer => opened outer ++ [.openArray]
  | .keyOrEnd outer => opened outer ++ [.openObject]
  | .key ms outer => opened outer ++ .openObject :: (memberTokens true ms.reverse ++ commaAfter ms)
  | .colon ms k outer =>
    opened outer ++ .openObject :: (memberTokens true ms.reverse ++ commaAfter ms ++ [.string k])
  | .after t outer => opened outer ++ t.tokens

/-- An item goes behind those that are there, and behind a comma. -/
theorem itemTokens_concat (first : Bool) (items : List Tree) (t : Tree) :
    itemTokens first (items ++ [t]) =
      itemTokens first items ++
        ((if items.isEmpty && first then [] else [.comma]) ++ t.tokens) := by
  induction items generalizing first with
  | nil => simp [itemTokens]
  | cons item rest ih => simp [itemTokens, ih]

/-- So does a member. -/
theorem memberTokens_concat (first : Bool) (members : List (List UInt8 × Tree)) (key : List UInt8)
    (t : Tree) :
    memberTokens first (members ++ [(key, t)]) =
      memberTokens first members ++
        ((if members.isEmpty && first then [] else [.comma]) ++
          .string key :: .colon :: t.tokens) := by
  induction members generalizing first with
  | nil => simp [memberTokens]
  | cons member rest ih => simp [memberTokens, ih]

/-- The first word of a value is added. -/
theorem State.read_begin {u : Token} (hbegin : State.begin outer u = some s) :
    s.read = opened outer ++ [u] := by
  cases u <;> cases hbegin <;> rfl

/-- A step adds the word that it takes. -/
theorem State.read_step {u : Token} (hstep : s.step u = some s') : s'.read = s.read ++ [u] := by
  fun_cases State.step s u with
  | case1 outer => exact read_begin hstep
  | case2 outer =>
    cases hstep
    simp [State.read, tokens, itemTokens]
  | case3 =>
    rw [State.step] at hstep
    · rw [read_begin hstep]
      simp [State.read, Frame.tokens, itemTokens]
    · assumption
  | case4 outer =>
    cases hstep
    simp [State.read, tokens, memberTokens]
  | case5 outer k =>
    cases hstep
    simp [State.read, memberTokens]
  | case6 ms outer k =>
    cases hstep
    simp [State.read]
  | case7 ms k outer =>
    cases hstep
    simp [State.read, Frame.tokens]
  | case8 t items outer =>
    cases hstep
    simp [State.read, Frame.tokens, itemTokens_concat, commaAfter]
  | case9 t items outer =>
    cases hstep
    simp [State.read, Frame.tokens, tokens, itemTokens_concat, commaAfter]
  | case10 t ms k outer =>
    cases hstep
    simp [State.read, Frame.tokens, memberTokens_concat, commaAfter]
  | case11 t ms k outer =>
    cases hstep
    simp [State.read, Frame.tokens, tokens, memberTokens_concat, commaAfter]
  | case12 =>
    rw [State.step] at hstep <;> first | cases hstep | assumption

/-- The words that led to a state are those that led to an earlier one, and those in between. -/
theorem State.read_run (hrun : s.run ts = some s') : s'.read = s.read ++ ts := by
  induction ts generalizing s with
  | nil =>
    cases hrun
    exact (List.append_nil _).symm
  | cons u ts ih =>
    rw [State.run] at hrun
    split at hrun
    · next hstep => rw [ih hrun, read_step hstep, List.append_assoc, List.singleton_append]
    · cases hrun

/-- Words are read as a tree exactly if they are the words of the tree. -/
theorem ofTokens?_eq_some_iff : ofTokens? ts = some t ↔ ts = t.tokens := by
  constructor
  · intro h
    obtain ⟨s, hrun, hresult⟩ := Option.bind_eq_some_iff.1 h
    have hread := State.read_run hrun
    rw [State.result?.eq_def] at hresult
    split at hresult
    · cases hresult
      simpa [State.read, opened] using hread.symm
    · cases hresult
  · rintro rfl
    exact ofTokens?_tokens t

/-! ## From the bytes to the tree -/

/-- No number comes after a value. -/
theorem State.step_after_number (t : Tree) (outer : List Frame) (n : Numeral) :
    State.step (.after t outer) (.number n) = none := by
  rcases outer with _ | ⟨_ | _, _⟩ <;> rfl

/-- A number is a value. -/
theorem State.after_of_number {n : Numeral} (hstep : s.step (.number n) = some s') :
    ∃ t outer, s' = .after t outer := by
  cases s with
  | value | itemOrEnd =>
    cases hstep
    exact ⟨_, _, rfl⟩
  | keyOrEnd | key | colon => cases hstep
  | after t outer =>
    rw [step_after_number] at hstep
    cases hstep

/-- Words that are read hold no two numbers side by side. -/
theorem State.isChain_of_run (hrun : s.run ts = some s') : ts.IsChain Apart := by
  induction ts generalizing s with
  | nil => exact .nil
  | cons u ts ih =>
    rw [State.run] at hrun
    split at hrun
    · next s₁ hstep =>
      refine List.isChain_cons.2 ⟨fun v hv hu hnumber => ?_, ih hrun⟩
      obtain ⟨n, rfl⟩ := hu.eq_number
      obtain ⟨m, rfl⟩ := hnumber.eq_number
      obtain ⟨t, outer, rfl⟩ := after_of_number hstep
      obtain ⟨more, rfl⟩ := List.head?_eq_some_iff.1 hv
      rw [State.run, step_after_number] at hrun
      cases hrun
    · cases hrun

/-- A text is read as a tree exactly if it spells the tree. -/
theorem ofBytes?_eq_some_iff {s : List UInt8} : ofBytes? s = some t ↔ t.Spelled s := by
  constructor
  · intro h
    obtain ⟨ts, hwords, htree⟩ := Option.bind_eq_some_iff.1 h
    obtain rfl := ofTokens?_eq_some_iff.1 htree
    exact laid_of_ofBytes? hwords
  · intro h
    obtain ⟨s', hrun, -⟩ := Option.bind_eq_some_iff.1 (ofTokens?_tokens t)
    rw [ofBytes?, ofBytes?_of_laid h (State.isChain_of_run hrun), Option.bind_some,
      ofTokens?_tokens]

end

end OrderBroker.Json.Tree
