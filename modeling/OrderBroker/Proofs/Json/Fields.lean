import OrderBroker.Proofs.Json.Members
import Mathlib.Data.List.Basic

/-!
# What a document says of a field

A field of a record stands in an object under its key, and in an array at its place (`Tree.Gives`).
What a reader finds for the field is what the document gives (`find?_eq_some_iff`). So a field that
may be left out is read as what the document says of it, and as its default where the document says
nothing (`says_iff_of_withDefault`).
-/

namespace OrderBroker.Json

/-- `Gives key place value t`: the document `t` gives this value for the field, as a member under
its key or as the item at its place. -/
inductive Tree.Gives (key : String) (place : Nat) (value : Tree) : Tree → Prop
  | member {members : List (List UInt8 × Tree)} {raw : List UInt8} : (raw, value) ∈ members →
      Escape.unescape? raw = some key → Gives key place value (.object members)
  | item {items : List Tree} : items[place]? = some value → Gives key place value (.array items)

/-- `Says t key place means default a`: what the document `t` gives for the field means `a`; if it
gives nothing, `a` is the default. -/
def Tree.Says {α : Type} (t : Tree) (key : String) (place : Nat) (means : Tree → α → Prop)
    (default a : α) : Prop :=
  (∃ value, Gives key place value t ∧ means value a) ∨
    (∀ value, ¬ Gives key place value t) ∧ a = default

section
variable {names : List String} {key : String} {place : Nat} {t value : Tree} {r : Record}

/-- A field that goes by one key is named by this key. -/
theorem name?_ofNames {name : String} :
    (Fields.ofNames names).name? key = some name ↔ key = name ∧ name ∈ names := by
  induction names with
  | nil => simp [Fields.ofNames, Fields.name?]
  | cons first rest ih =>
    by_cases hkey : key = first
    · subst hkey
      have hfound : (Fields.ofNames (key :: rest)).name? key = some key := by
        simp [Fields.ofNames, Fields.name?, FieldKeys.names]
      rw [hfound, Option.some.injEq]
      exact ⟨fun heq => ⟨heq, heq ▸ .head _⟩, And.left⟩
    · have hskip : (Fields.ofNames (first :: rest)).name? key =
          (Fields.ofNames rest).name? key := by
        simp [Fields.ofNames, Fields.name?, FieldKeys.names, hkey]
      rw [hskip, ih, List.mem_cons]
      refine and_congr_right fun heq => ⟨.inr, fun hmem => hmem.resolve_left fun hfirst => ?_⟩
      exact hkey (heq.trans hfirst)

/-- The names that a list of values is given for are the first of all. -/
theorem names_zip_sublist {α : Type} (names : List String) (values : List α) :
    ((names.zip values).map (·.1)).Sublist names := by
  induction names generalizing values with
  | nil => simp
  | cons name rest ih =>
    cases values with
    | nil => simp
    | cons value values => exact (ih values).cons_cons name

/-- **A reader finds what the document gives.** -/
theorem find?_eq_some_iff (hnames : names.Nodup) (hplace : names[place]? = some key)
    (hr : Record.ofTree? (Fields.ofNames names) t = some r) :
    r.find? key = some value ↔ Tree.Gives key place value t := by
  have hkey : key ∈ names := List.mem_of_getElem? hplace
  cases t with
  | object members =>
    obtain ⟨values, hvalues, rfl⟩ := Option.map_eq_some_iff.1 hr
    obtain ⟨-, rfl, hnodup⟩ := known?_nil_eq_some_iff.1 hvalues
    rw [Record.find?, lookup_reverse hnodup, lookup_eq_some_iff_mem hnodup, List.mem_filterMap]
    constructor
    · rintro ⟨⟨raw, value'⟩, hmem, hmember⟩
      obtain ⟨name, hname, heq⟩ := Option.map_eq_some_iff.1 hmember
      obtain ⟨rfl, rfl⟩ := Prod.mk.inj heq
      obtain ⟨written, hwritten, hfield⟩ := Option.bind_eq_some_iff.1 hname
      obtain ⟨rfl, -⟩ := name?_ofNames.1 hfield
      exact .member hmem hwritten
    · intro hgives
      cases hgives with
      | member hmem hraw =>
        have hfield : (Fields.ofNames names).name? key = some key := name?_ofNames.2 ⟨rfl, hkey⟩
        exact ⟨_, hmem, by simp [Fields.member?, hraw, hfield]⟩
  | array items =>
    have hfields : (Fields.ofNames names).map (·.name) = names := by
      rw [Fields.ofNames, List.map_map]
      exact List.map_id names
    simp only [Record.ofTree?, hfields, Option.ite_none_right_eq_some, Option.some.injEq] at hr
    obtain ⟨-, rfl⟩ := hr
    have hnodup : ((names.zip items).map (·.1)).Nodup :=
      hnames.sublist (names_zip_sublist names items)
    rw [Record.find?, lookup_eq_some_iff_mem hnodup, List.mem_iff_getElem?]
    constructor
    · rintro ⟨i, hi⟩
      obtain ⟨hname, hitem⟩ := List.getElem?_zip_eq_some.1 hi
      obtain ⟨hlt, -⟩ := List.getElem?_eq_some_iff.1 hplace
      obtain rfl : place = i := (List.getElem?_inj hlt hnames).1 (hplace.trans hname.symm)
      exact .item hitem
    · intro hgives
      cases hgives with
      | item hitem => exact ⟨place, List.getElem?_zip_eq_some.2 ⟨hplace, hitem⟩⟩
  | _ => cases hr

/-- **A field that must be there** is read as what the document gives. -/
theorem gives_of_required {α : Type} {a : α} {read : Tree → Option α} (hnames : names.Nodup)
    (hplace : names[place]? = some key) (hr : Record.ofTree? (Fields.ofNames names) t = some r)
    (hread : r.required key read = some a) :
    ∃ value, Tree.Gives key place value t ∧ read value = some a := by
  obtain ⟨value, hfound, hvalue⟩ := Option.bind_eq_some_iff.1 hread
  exact ⟨value, (find?_eq_some_iff hnames hplace hr).1 hfound, hvalue⟩

/-- **A field that may be left out** is what the document says of it, and nothing else. -/
theorem says_iff_of_withDefault {α : Type} {default a : α} {read : Tree → Option α}
    {means : Tree → α → Prop} (place : Nat) (hnames : names.Nodup)
    (hplace : names[place]? = some key)
    (hr : Record.ofTree? (Fields.ofNames names) t = some r)
    (hmeans : ∀ {value a}, read value = some a → ∀ b, means value b ↔ b = a)
    (hread : r.withDefault key default read = some a) (b : α) :
    t.Says key place means default b ↔ b = a := by
  have hgives {value : Tree} : r.find? key = some value ↔ Tree.Gives key place value t :=
    find?_eq_some_iff hnames hplace hr
  unfold Record.withDefault at hread
  cases hfound : r.find? key with
  | none =>
    rw [hfound] at hread
    obtain rfl := Option.some.inj hread
    have hnothing : ∀ value, ¬ Tree.Gives key place value t := by
      intro value hvalue
      rw [hgives.2 hvalue] at hfound
      cases hfound
    exact ⟨fun h => (h.resolve_left fun ⟨value, hvalue, _⟩ => hnothing value hvalue).2,
      fun heq => .inr ⟨hnothing, heq⟩⟩
  | some value =>
    rw [hfound] at hread
    rw [← hmeans hread b]
    refine ⟨?_, fun hb => .inl ⟨value, hgives.1 hfound, hb⟩⟩
    rintro (⟨value', hvalue', hb⟩ | ⟨hnothing, -⟩)
    · rwa [Option.some.inj (hfound.symm.trans (hgives.2 hvalue'))]
    · exact absurd (hgives.1 hfound) (hnothing value)

end

end OrderBroker.Json
