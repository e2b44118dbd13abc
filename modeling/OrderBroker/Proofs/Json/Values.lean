import OrderBroker.Proofs.Json.Syntax

/-!
# Free-form values are read back

The values that a reader keeps (`Kept`) are those whose integers fit a word, whose objects are
sorted by key without repetition, and which are not nested too deep. Such a value is read back from
its tree as it is (`Kept.ofTree?_toTree`), and what is read is such a value, if its numbers are
integers (`kept_of_ofTree?`).
-/

namespace OrderBroker.Json

/-- Members are sorted by key, and no key is there twice. -/
def Sorted (members : List (String × Json)) : Prop := members.Pairwise fun m m' => m.1 < m'.1

/-- Values inside of which `room` more levels may open, as a reader keeps them. -/
inductive Kept : Nat → Json → Prop where
  | null {room : Nat} : Kept room .null
  | bool {room : Nat} (b : Bool) : Kept room (.bool b)
  | int {room : Nat} {i : Int} (hi : Fits i) : Kept room (.number (.int i))
  | string {room : Nat} (s : String) : Kept room (.string s)
  | array {room : Nat} {items : List Json} (hitems : ∀ j ∈ items, Kept room j) :
    Kept (room + 1) (.array items)
  | object {room : Nat} {members : List (String × Json)}
    (hsorted : Sorted members)
    (hmembers : ∀ m ∈ members, Kept room m.2) : Kept (room + 1) (.object members)

section
variable {room : Nat} {j : Json} {key : String} {value : Json} {members : List (String × Json)}

/-- The numbers of a value that is kept are integers. -/
theorem Kept.plain (hj : Kept room j) : Plain j := by
  induction hj with
  | null => exact .null
  | bool b => exact .bool b
  | int hi => exact .int _
  | string s => exact .string s
  | array _ ih => exact .array ih
  | object _ _ ih => exact .object ih

/-! ## Sorted members -/

/-- A key behind all others goes to the end. -/
theorem insertMember_last (hlast : ∀ m ∈ members, m.1 < key) :
    insertMember key value members = members ++ [(key, value)] := by
  induction members with
  | nil => rfl
  | cons m rest ih =>
    have hm := hlast m (.head _)
    have hne : ¬ key = m.1 := fun heq => String.lt_irrefl key (heq ▸ hm)
    rw [insertMember, if_neg (String.lt_asymm hm), if_neg hne,
      ih fun m hm => hlast m (.tail _ hm), List.cons_append]

/-- Members that are sorted stay as they are. -/
theorem sortMembers_sorted (hsorted : Sorted members) : sortMembers members = members := by
  have hinsert (before after : List (String × Json)) (hsorted : Sorted (before ++ after)) :
      after.foldl (fun sorted m => insertMember m.1 m.2 sorted) before = before ++ after := by
    induction after generalizing before with
    | nil => simp
    | cons m rest ih =>
      obtain ⟨key, value⟩ := m
      have hlast : ∀ m ∈ before, m.1 < key := by
        intro m hm
        exact (List.pairwise_append.1 hsorted).2.2 m hm (key, value) (.head _)
      have hsorted' : Sorted ((before ++ [(key, value)]) ++ rest) := by simpa using hsorted
      rw [List.foldl_cons, insertMember_last hlast, ih _ hsorted', List.append_assoc]
      rfl
  exact hinsert [] members hsorted

/-- A member among those with one more is this one or was there. -/
theorem mem_insertMember {m : String × Json} (hm : m ∈ insertMember key value members) :
    m = (key, value) ∨ m ∈ members := by
  induction members with
  | nil => exact .inl (List.mem_singleton.1 hm)
  | cons first rest ih =>
    rw [insertMember] at hm
    split at hm
    · rcases List.mem_cons.1 hm with rfl | hm
      · exact .inl rfl
      · exact .inr hm
    · split at hm
      · rcases List.mem_cons.1 hm with rfl | hm
        · exact .inl rfl
        · exact .inr (.tail _ hm)
      · rcases List.mem_cons.1 hm with rfl | hm
        · exact .inr (.head _)
        · exact (ih hm).imp_right (.tail _)

/-- Sorted members with one more are sorted. -/
theorem Sorted.insertMember (hsorted : Sorted members) :
    Sorted (Json.insertMember key value members) := by
  induction members with
  | nil => exact List.pairwise_singleton _ _
  | cons first rest ih =>
    obtain ⟨hfirst, hrest⟩ := List.pairwise_cons.1 hsorted
    rw [Json.insertMember]
    split
    · rename_i hlt
      refine List.pairwise_cons.2 ⟨fun m hm => ?_, hsorted⟩
      rcases List.mem_cons.1 hm with rfl | hm
      · exact hlt
      · exact String.lt_trans hlt (hfirst m hm)
    · split
      · rename_i heq
        subst heq
        exact List.pairwise_cons.2 ⟨hfirst, hrest⟩
      · rename_i hlt hne
        refine List.pairwise_cons.2 ⟨fun m hm => ?_, ih hrest⟩
        rcases mem_insertMember hm with rfl | hm
        · exact Std.lt_of_le_of_ne (String.not_lt.1 hlt) (Ne.symm hne)
        · exact hfirst m hm

/-- Members are sorted into their order, and each was there before. -/
theorem sorted_sortMembers (members : List (String × Json)) :
    Sorted (sortMembers members) ∧ ∀ m ∈ sortMembers members, m ∈ members := by
  have hinsert (before after : List (String × Json)) (hsorted : Sorted before) :
      Sorted (after.foldl (fun sorted m => insertMember m.1 m.2 sorted) before) ∧
        ∀ m ∈ after.foldl (fun sorted m => insertMember m.1 m.2 sorted) before,
          m ∈ before ∨ m ∈ after := by
    induction after generalizing before with
    | nil => exact ⟨hsorted, fun m hm => .inl hm⟩
    | cons member rest ih =>
      obtain ⟨key, value⟩ := member
      obtain ⟨hsorted', hmem⟩ := ih (insertMember key value before) hsorted.insertMember
      refine ⟨hsorted', fun m hm => ?_⟩
      rcases hmem m hm with hm | hm
      · rcases mem_insertMember hm with rfl | hm
        · exact .inr (.head _)
        · exact .inl hm
      · exact .inr (.tail _ hm)
  obtain ⟨hsorted, hmem⟩ := hinsert [] members List.Pairwise.nil
  exact ⟨hsorted, fun m hm => (hmem m hm).resolve_left List.not_mem_nil⟩

/-! ## Reading values back -/

/-- A value that is kept is read back from its tree. -/
theorem Kept.ofTree?_toTree (hj : Kept room j) : ofTree? room (toTree j) = some j := by
  induction hj with
  | null => rw [toTree, ofTree?]
  | bool b => rw [toTree, ofTree?]
  | @int room i hi =>
    have hnumber := number?_numeralOf hi
    rw [toTree, Number.toTree, ← digitsOf, ← numeralOf, ofTree?, hnumber, Option.map_some]
  | string s =>
    rw [toTree, ← rawOf, ofTree?, unescape?_rawOf, Option.map_some]
  | @array room items hitems ih =>
    have hread : (toTrees items).mapM (ofTree? room) = some items := by
      clear hitems
      induction items with
      | nil => rfl
      | cons item rest hrest =>
        rw [toTrees, List.mapM_cons, ih item (.head _), hrest fun j hj => ih j (.tail _ hj)]
        rfl
    rw [toTree, ofTree?, hread, Option.map_some]
  | @object room members hsorted hmembers ih =>
    have hread : (toMembers members).mapM (fun m => do
        return (← Escape.unescape? m.1, ← ofTree? room m.2)) = some members := by
      clear hsorted hmembers
      induction members with
      | nil => rfl
      | cons member rest hrest =>
        obtain ⟨key, value⟩ := member
        rw [toMembers, ← rawOf, List.mapM_cons, hrest fun m hm => ih m (.tail _ hm)]
        simp only [unescape?_rawOf, ih (key, value) (.head _)]
        rfl
    rw [toTree, ofTree?]
    refine (congrArg (Option.map (Json.object ∘ sortMembers)) hread).trans ?_
    rw [Option.map_some, Function.comp_apply, sortMembers_sorted hsorted]

/-- What is read one after the other was read from something. -/
theorem exists_of_mem_mapM {α β : Type} {f : α → Option β} {xs : List α} {ys : List β}
    (hread : xs.mapM f = some ys) {y : β} (hy : y ∈ ys) : ∃ x ∈ xs, f x = some y := by
  induction xs generalizing ys with
  | nil =>
    obtain rfl : ys = [] := by simpa using hread.symm
    cases hy
  | cons x xs ih =>
    obtain ⟨first, hfirst, rest, hrest, rfl⟩ :
        ∃ first, f x = some first ∧ ∃ rest, xs.mapM f = some rest ∧ first :: rest = ys := by
      simpa [Option.bind_eq_some_iff] using hread
    rcases List.mem_cons.1 hy with rfl | hy
    · exact ⟨x, .head _, hfirst⟩
    · obtain ⟨x', hx', hread'⟩ := ih hrest hy
      exact ⟨x', .tail _ hx', hread'⟩

/-- What is read from neither an array nor an object is kept, if it is no double. -/
theorem kept_of_scalar {t : Tree} (harray : ∀ items, t ≠ .array items)
    (hobject : ∀ members, t ≠ .object members) (hread : ofTree? room t = some j) (hj : Plain j) :
    Kept room j := by
  cases t with
  | null =>
    obtain rfl : .null = j := by simpa [ofTree?] using hread
    exact .null
  | bool b =>
    obtain rfl : .bool b = j := by simpa [ofTree?] using hread
    exact .bool b
  | number n =>
    obtain ⟨number, hnumber, rfl⟩ : ∃ number, n.number? = some number ∧ .number number = j := by
      simpa [ofTree?] using hread
    cases hj with
    | int i => exact .int (fits_of_number? hnumber)
  | string raw =>
    obtain ⟨s, -, rfl⟩ : ∃ s, Escape.unescape? raw = some s ∧ .string s = j := by
      simpa [ofTree?] using hread
    exact .string s
  | array items => exact absurd rfl (harray items)
  | object members => exact absurd rfl (hobject members)

/-- What is read is kept, if its numbers are integers. -/
theorem kept_of_ofTree? {t : Tree} (hread : ofTree? room t = some j) (hj : Plain j) :
    Kept room j := by
  induction room generalizing t j with
  | zero =>
    cases t with
    | array items => simp [ofTree?] at hread
    | object members => simp [ofTree?] at hread
    | _ => exact kept_of_scalar (by simp) (by simp) hread hj
  | succ room ih =>
    cases t with
    | array items =>
      obtain ⟨js, hjs, rfl⟩ : ∃ js, items.mapM (ofTree? room) = some js ∧ .array js = j := by
        simpa [ofTree?] using hread
      cases hj with
      | array hplain =>
        refine .array fun j hj => ?_
        obtain ⟨t, -, hread⟩ := exists_of_mem_mapM hjs hj
        exact ih hread (hplain j hj)
    | object members =>
      obtain ⟨ms, hms, rfl⟩ : ∃ ms, members.mapM (fun (k, t) => do
          return (← Escape.unescape? k, ← ofTree? room t)) = some ms ∧
            .object (sortMembers ms) = j := by
        simpa [ofTree?] using hread
      obtain ⟨hsorted, hmem⟩ := sorted_sortMembers ms
      cases hj with
      | object hplain =>
        refine .object hsorted fun m hm => ?_
        obtain ⟨⟨raw, t⟩, -, hread⟩ := exists_of_mem_mapM hms (hmem m hm)
        obtain ⟨key, -, value, hvalue, rfl⟩ : ∃ key, Escape.unescape? raw = some key ∧
            ∃ value, ofTree? room t = some value ∧ (key, value) = m := by
          simpa [Option.bind_eq_some_iff] using hread
        exact ih hvalue (hplain _ hm)
    | _ => exact kept_of_scalar (by simp) (by simp) hread hj

end

end OrderBroker.Json
