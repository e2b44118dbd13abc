import OrderBroker.Proofs.Json.Members
import OrderBroker.Proofs.Json.Values

/-!
# Records are read back

A record that is written as an object with its fields in declared order, some of them left out, is
found again: every field has the value that was written for it, and none where it was left out
(`ofTree?_record`).

`ReadsAs` says of a document that a reader reads a value back from it; the plain values of records
are such documents.
-/

namespace OrderBroker.Json

/-- A document is written without doubles, and is read back as a value. -/
structure ReadsAs {α : Type} (j : Json) (read : Tree → Option α) (a : α) : Prop where
  plain : Plain j
  read : read (toTree j) = some a

/-! ## Fields -/

/-- Every field goes by its own name. -/
def Fields.Sound (fs : Fields) : Prop :=
  (fs.map (·.name)).Nodup ∧ ∀ f ∈ fs, fs.name? f.name = some f.name

instance (fs : Fields) : Decidable fs.Sound := inferInstanceAs (Decidable (_ ∧ _))

/-- What is written for fields, and for which of them nothing is written. -/
abbrev Row := String × Option Json

/-- The member that is written for a field. -/
def Row.member (row : Row) : Option (String × Json) := row.2.map (row.1, ·)

/-- Members that have the values of fields under their names. -/
def Record.Holds (r : Record) (rows : List Row) : Prop :=
  r.keyed = true ∧ ∀ name, r.find? name = ((rows.lookup name).join).map toTree

section
variable {fs : Fields} {rows : List Row} {r : Record} {name : String}

/-- Members of fields are all found, if no field is there twice. -/
theorem known?_toMembers {members : List (String × Json)}
    (hnames : ∀ m ∈ members, fs.name? m.1 = some m.1) (hnodup : (members.map (·.1)).Nodup) :
    ∃ values, Record.known? fs [] (toMembers members) = some values ∧
      ∀ name, values.lookup name = (members.lookup name).map toTree := by
  have htexts : ∀ m ∈ toMembers members, (Escape.unescape? m.1).isSome := by
    clear hnames hnodup
    induction members with
    | nil => simp [toMembers]
    | cons m rest ih =>
      rw [toMembers, ← rawOf, List.forall_mem_cons, unescape?_rawOf]
      exact ⟨rfl, ih⟩
  have hfields : (toMembers members).filterMap fs.member? =
      members.map fun m => (m.1, toTree m.2) := by
    clear hnodup htexts
    induction members with
    | nil => rfl
    | cons m rest ih =>
      obtain ⟨hname, hrest⟩ := List.forall_mem_cons.1 hnames
      have hgives : fs.member? (rawOf m.1, toTree m.2) = some (m.1, toTree m.2) := by
        simp [Fields.member?, unescape?_rawOf, hname]
      rw [toMembers, ← rawOf, List.filterMap_cons_some hgives, ih hrest, List.map_cons]
  have hentries : (((toMembers members).filterMap fs.member?).map (·.1)).Nodup := by
    rw [hfields, List.map_map]
    exact hnodup
  refine ⟨_, known?_nil_eq_some_iff.2 ⟨htexts, rfl, hentries⟩, fun name => ?_⟩
  ext t
  rw [lookup_reverse hentries, lookup_eq_some_iff_mem hentries, hfields, Option.map_eq_some_iff]
  simp [lookup_eq_some_iff_mem hnodup]

/-- The keys of members are those of rows, without the rows that are left out. -/
theorem sublist_members (rows : List Row) :
    ((rows.filterMap Row.member).map (·.1)).Sublist (rows.map (·.1)) := by
  induction rows with
  | nil => exact .slnil
  | cons row rest ih =>
    obtain ⟨key, value⟩ := row
    cases value with
    | none => exact ih.cons key
    | some j => exact ih.cons_cons key

/-- The members of rows give the rows' values. -/
theorem lookup_members (hnodup : (rows.map (·.1)).Nodup) (name : String) :
    (rows.filterMap Row.member).lookup name = (rows.lookup name).join := by
  have hmembers : ((rows.filterMap Row.member).map (·.1)).Nodup :=
    (sublist_members rows).nodup hnodup
  ext j
  rw [lookup_eq_some_iff_mem hmembers, Option.join_eq_some_iff, lookup_eq_some_iff_mem hnodup,
    List.mem_filterMap]
  simp [Row.member]

/-- A record is found again: every field has the value that was written for it. -/
theorem ofTree?_record (hsound : fs.Sound) (hrows : rows.map (·.1) = fs.map (·.name)) :
    ∃ r, Record.ofTree? fs (toTree (.record (rows.map Row.member))) = some r ∧ r.Holds rows := by
  have hmembers : (rows.map Row.member).filterMap id = rows.filterMap Row.member := by
    simp [List.filterMap_map]
  have hnodup : (rows.map (·.1)).Nodup := by
    rw [hrows]
    exact hsound.1
  have hkeys : ((rows.filterMap Row.member).map (·.1)).Sublist (rows.map (·.1)) :=
    sublist_members rows
  have hnames : ∀ m ∈ rows.filterMap Row.member, fs.name? m.1 = some m.1 := by
    intro m hm
    have hkey : m.1 ∈ fs.map (·.name) := hrows ▸ hkeys.subset (List.mem_map_of_mem hm)
    obtain ⟨f, hf, hname⟩ := List.mem_map.1 hkey
    rw [← hname]
    exact hsound.2 f hf
  obtain ⟨values, hvalues, hlookup⟩ := known?_toMembers hnames (hkeys.nodup hnodup)
  refine ⟨⟨true, values⟩, ?_, rfl, fun name => ?_⟩
  · rw [record, hmembers, toTree, Record.ofTree?, hvalues, Option.map_some]
  · rw [Record.find?, hlookup, lookup_members hnodup]

/-- A record is read back, if it is put together from the values of its fields. -/
theorem readsAs_record {α : Type} {read : Tree → Option α} {assemble : Record → Option α} {a : α}
    {j : Json} (fs : Fields) (rows : List Row) (hj : j = .record (rows.map Row.member))
    (hread : ∀ t, read t = (Record.ofTree? fs t).bind assemble) (hsound : fs.Sound)
    (hrows : rows.map (·.1) = fs.map (·.name)) (hplain : ∀ row ∈ rows, ∀ j ∈ row.2, Plain j)
    (hassemble : ∀ r, r.Holds rows → assemble r = some a) : ReadsAs j read a := by
  obtain ⟨r, hr, hholds⟩ := ofTree?_record hsound hrows
  subst hj
  refine ⟨.object fun m hm => ?_, ?_⟩
  · obtain ⟨member, hmember, hsome⟩ := List.mem_filterMap.1 hm
    obtain ⟨row, hrow, rfl⟩ := List.mem_map.1 hmember
    obtain ⟨value, hvalue, rfl⟩ := Option.map_eq_some_iff.1 hsome
    exact hplain row hrow value hvalue
  · rw [hread, hr, Option.bind_some, hassemble r hholds]

/-! ## The fields of a record -/

namespace Record

variable {α : Type} {read : Tree → Option α} {a d : α} {j : Json}

/-- A field that is always written. -/
theorem Holds.required (hr : r.Holds rows) (name : String) (hrow : rows.lookup name = some (some j))
    (hj : ReadsAs j read a) : r.required name read = some a := by
  rw [Record.required, hr.2, hrow]
  exact hj.read

theorem Holds.withDefault (hr : r.Holds rows) (name : String)
    (hrow : rows.lookup name = some (some j)) (hj : ReadsAs j read a) :
    r.withDefault name d read = some a := by
  rw [Record.withDefault, hr.2, hrow]
  exact hj.read

/-- A field that is left out where it has its default. -/
theorem Holds.withDefault_if {c : Prop} [Decidable c] (hr : r.Holds rows) (name : String)
    (hrow : rows.lookup name = some (if c then some j else none)) (hj : ReadsAs j read a)
    (hd : ¬ c → a = d) : r.withDefault name d read = some a := by
  rw [Record.withDefault, hr.2, hrow]
  by_cases hc : c
  · rw [if_pos hc]
    exact hj.read
  · rw [if_neg hc, hd hc]
    rfl

/-- A field that need not be given; there is no value where it is left out. -/
def given? {α : Type} (r : Record) (name : String) (read : Tree → Option α) :
    Option (Option α) :=
  match r.find? name with
  | some t => (read t).map some
  | none => some none

/-- A field that is always written is given. -/
theorem Holds.given (hr : r.Holds rows) (name : String) (hrow : rows.lookup name = some (some j))
    (hj : ReadsAs j read a) : r.given? name read = some (some a) := by
  rw [Record.given?, hr.2, hrow]
  exact congrArg (Option.map some) hj.read

/-- A field that is written on a condition is given on this condition. -/
theorem Holds.given_if {c : Prop} [Decidable c] (hr : r.Holds rows) (name : String)
    (hrow : rows.lookup name = some (if c then some j else none)) (hj : ReadsAs j read a) :
    r.given? name read = some (if c then some a else none) := by
  rw [Record.given?, hr.2, hrow]
  by_cases hc : c
  · rw [if_pos hc, if_pos hc]
    exact congrArg (Option.map some) hj.read
  · rw [if_neg hc, if_neg hc]
    rfl

/-- What a field gives is its default or was read. -/
theorem read_of_withDefault {r : Record} (hvalue : r.withDefault name d read = some a) :
    a = d ∨ ∃ t, read t = some a := by
  rw [Record.withDefault] at hvalue
  split at hvalue
  · exact .inr ⟨_, hvalue⟩
  · exact .inl (Option.some.inj hvalue).symm

theorem read_of_optional {r : Record} {x : Option α} (hvalue : r.optional name read = some x) :
    ∀ a ∈ x, ∃ t, read t = some a := by
  rintro a rfl
  rw [Record.optional] at hvalue
  split at hvalue
  · rename_i t _
    refine ⟨t, ?_⟩
    rw [nullable.eq_def] at hvalue
    split at hvalue
    · cases hvalue
    · simpa using hvalue
  · split at hvalue <;> cases hvalue

/-- Null is no value of a reader, so that a value is none of it. -/
theorem nullable_eq (hnull : read .null = none) {t : Tree} (ht : read t = some a) :
    nullable read t = some (some a) := by
  rw [nullable, ht]
  · rfl
  · rintro rfl
    rw [hnull] at ht
    cases ht

/-- A field that is left out where there is no value. -/
theorem Holds.nullable {f : α → Json} {x : Option α} (hr : r.Holds rows) (name : String)
    (hrow : rows.lookup name = some (x.map f)) (hnull : read .null = none)
    (hf : ∀ a ∈ x, ReadsAs (f a) read a) :
    r.withDefault name none (Record.nullable read) = some x ∧
      r.optional name read = some x := by
  rw [Record.withDefault, Record.optional, hr.2, hrow, hr.1]
  cases x with
  | none => exact ⟨rfl, rfl⟩
  | some a =>
    have hvalue := nullable_eq hnull (hf a rfl).read
    exact ⟨hvalue, hvalue⟩

end Record

end

/-! ## Plain values -/

theorem readsAs_text (s : String) : ReadsAs (.string s) Tree.text? s :=
  ⟨.string s, unescape?_rawOf s⟩

theorem readsAs_flag (b : Bool) : ReadsAs (.bool b) Tree.flag? b := ⟨.bool b, rfl⟩

theorem readsAs_natural {n max : Nat} (hn : n ≤ max) (hmax : max < 2 ^ 64) :
    ReadsAs (.nat n) (Tree.natural? max) n := by
  have hnumber := number?_numeralOf (i := n) (by constructor <;> omega)
  refine ⟨.int n, ?_⟩
  rw [nat, toTree, Number.toTree, ← digitsOf, ← numeralOf, Tree.natural?, hnumber]
  simp only
  rw [if_pos (by omega), Int.toNat_natCast]

/-- A natural number that is read keeps to the bound. -/
theorem le_of_natural? {t : Tree} {n max : Nat} (hread : t.natural? max = some n) : n ≤ max := by
  cases t with
  | number numeral =>
    rw [Tree.natural?] at hread
    split at hread
    · split at hread
      · obtain rfl := Option.some.inj hread
        omega
      · cases hread
    · cases hread
  | _ => cases hread

/-- A list is read back, if its items are. -/
theorem readsAs_list {α : Type} {read : Tree → Option α} {f : α → Json} {as : List α}
    (hitems : ∀ a ∈ as, ReadsAs (f a) read a) :
    ReadsAs (.array (as.map f)) (Tree.list? read) as := by
  refine ⟨.array fun j hj => ?_, ?_⟩
  · obtain ⟨a, ha, rfl⟩ := List.mem_map.1 hj
    exact (hitems a ha).plain
  · rw [toTree, Tree.list?]
    induction as with
    | nil => rfl
    | cons a rest ih =>
      rw [List.map_cons, toTrees, List.mapM_cons, (hitems a (.head _)).read,
        ih fun a ha => hitems a (.tail _ ha)]
      rfl

/-- A name of an enumeration is read back. -/
theorem readsAs_oneOf {α : Type} {names : List (String × α)} {s : String} {a : α}
    (hs : names.lookup s = some a) : ReadsAs (.string s) (Tree.oneOf? names) a := by
  refine ⟨.string s, ?_⟩
  rw [toTree, ← rawOf, Tree.oneOf?, Tree.name?, unescape?_rawOf, Option.bind_some, hs]

/-- A name of an enumeration is read back where any other name stands for one value. -/
theorem readsAs_oneOfOr {α : Type} {names : List (String × α)} {s : String} {a other : α}
    (hs : (names.lookup s).getD other = a) : ReadsAs (.string s) (Tree.oneOfOr? names other) a := by
  refine ⟨.string s, ?_⟩
  rw [toTree, ← rawOf, Tree.oneOfOr?, Tree.name?, unescape?_rawOf, Option.map_some, hs]

/-! ## The members of a record -/

theorem field_eq (key : String) (value : Json) : field key value = Row.member (key, some value) :=
  rfl

theorem fieldIf_eq (present : Bool) (key : String) (value : Json) :
    fieldIf present key value = Row.member (key, if present then some value else none) := by
  cases present <;> rfl

theorem map_eq {α : Type} (x : Option α) (key : String) (f : α → Json) :
    (x.map fun a => (key, f a)) = Row.member (key, x.map f) := by
  cases x <;> rfl

end OrderBroker.Json
