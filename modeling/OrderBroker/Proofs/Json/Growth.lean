import OrderBroker.Proofs.Json.Grammar
import OrderBroker.Proofs.Json.Members
import Mathlib.Logic.Relation

/-!
# Records may grow

What may change in a syntax tree without a change in what is read from it (`Grows`). An object that
stands for a record may get members that the record does not know, with any values, and its members
may change places. The values of fields may do the same, as far as they are records.

A step of growth changes nothing in what the fields of a record give (`ofTree?_like`), so a reader
that goes by the fields reads the same, or fails as before (`Respects`). A tree that has a text
still has one when it has grown (`Grows.wellFormed`).
-/

namespace OrderBroker.Json

/-! ## Growth -/

/-- What a tree stands for, as far as it may grow: a record, with the shapes of those of its fields
that are records again. Other values stay as they are. -/
inductive Shape where
  | value
  | record (fields : Fields) (inner : List (String × Shape))

/-- The shape of a field. -/
def Shape.field (inner : List (String × Shape)) (name : String) : Shape :=
  (inner.lookup name).getD .value

/-- One step of growth: a member whose key names no field and whose value is any that has a text,
members in another order, or a step inside of a field. -/
inductive Grows : Shape → Tree → Tree → Prop where
  | insert {fs : Fields} {inner : List (String × Shape)} {before after : List (List UInt8 × Tree)}
    {raw : List UInt8} {key : String} {value : Tree} (hraw : Quotable raw)
    (hkey : Escape.unescape? raw = some key) (hother : fs.name? key = none)
    (hvalue : value.WellFormed) :
    Grows (.record fs inner) (.object (before ++ after)) (.object (before ++ (raw, value) :: after))
  | permute {fs : Fields} {inner : List (String × Shape)}
    {members members' : List (List UInt8 × Tree)} (hperm : members.Perm members') :
    Grows (.record fs inner) (.object members) (.object members')
  | inside {fs : Fields} {inner : List (String × Shape)}
    {before after : List (List UInt8 × Tree)} {raw : List UInt8} {key name : String}
    {value value' : Tree} (hkey : Escape.unescape? raw = some key)
    (hname : fs.name? key = some name) (hgrows : Grows (Shape.field inner name) value value') :
    Grows (.record fs inner) (.object (before ++ (raw, value) :: after))
      (.object (before ++ (raw, value') :: after))

/-- A reader reads the same before and after a step of growth, or fails both times. -/
def Respects {α : Type} (shape : Shape) (read : Tree → Option α) : Prop :=
  ∀ ⦃t t' : Tree⦄, Grows shape t t' → read t' = read t

section
variable {α : Type} {read : Tree → Option α} {shape : Shape} {fs : Fields}
  {inner : List (String × Shape)} {members members' : List (List UInt8 × Tree)} {t t' : Tree}

/-- Only objects grow. -/
theorem Grows.objects (hgrows : Grows shape t t') :
    ∃ members members', t = .object members ∧ t' = .object members' := by
  cases hgrows <;> exact ⟨_, _, rfl, rfl⟩

/-- A tree that has a text still has one after a step. -/
theorem Grows.wellFormed (hgrows : Grows shape t t') (ht : t.WellFormed) : t'.WellFormed := by
  induction hgrows with
  | insert hraw _ _ hvalue =>
    rw [Tree.wellFormed_object, List.forall_mem_append] at ht ⊢
    exact ⟨ht.1, List.forall_mem_cons.2 ⟨⟨hraw, hvalue⟩, ht.2⟩⟩
  | permute hperm =>
    rw [Tree.wellFormed_object] at ht ⊢
    exact fun m hm => ht m (hperm.mem_iff.2 hm)
  | inside _ _ _ ih =>
    rw [Tree.wellFormed_object, List.forall_mem_append, List.forall_mem_cons] at ht ⊢
    exact ⟨ht.1, ⟨ht.2.1.1, ih ht.2.1.2⟩, ht.2.2⟩

/-- And after any number of steps. -/
theorem Grows.wellFormed_star (hgrows : Relation.ReflTransGen (Grows shape) t t')
    (ht : t.WellFormed) : t'.WellFormed := by
  induction hgrows with
  | refl => exact ht
  | tail _ hstep ih => exact hstep.wellFormed ih

/-- Values that are no records stay as they are. -/
theorem respects_value (read : Tree → Option α) : Respects .value read := nofun

/-- Nor does growth make a value null. -/
theorem Respects.nullable (hread : Respects shape read) :
    Respects shape (Record.nullable read) := by
  intro t t' hgrows
  obtain ⟨members, members', rfl, rfl⟩ := hgrows.objects
  exact congrArg (Option.map some) (hread hgrows)

theorem Respects.eq_of_reflGen (hread : Respects shape read)
    (hgrows : Relation.ReflGen (Grows shape) t t') : read t' = read t := by
  cases hgrows with
  | refl => rfl
  | single hstep => exact hread hstep

/-- A reader reads the same after any number of steps. -/
theorem Respects.eq_of_grows (hread : Respects shape read)
    (hgrows : Relation.ReflTransGen (Grows shape) t t') : read t' = read t := by
  induction hgrows with
  | refl => rfl
  | tail _ hstep ih => rw [hread hstep, ih]

/-! ## The fields of a record -/

/-- A record before and after a step: every field has the value that it had, or one that has
grown. -/
structure Record.Like (inner : List (String × Shape)) (r r' : Record) : Prop where
  keyed : r'.keyed = r.keyed
  find : ∀ name,
    Option.Rel (Relation.ReflGen (Grows (Shape.field inner name))) (r.find? name) (r'.find? name)

/-- Objects with the same fields, some of them perhaps grown, are records that are alike, or both
are none. -/
theorem ofTree?_like_of_fields
    (hkeys : (∀ m ∈ members, (Escape.unescape? m.1).isSome) ↔
      ∀ m ∈ members', (Escape.unescape? m.1).isSome)
    (hnames : ((members.filterMap fs.member?).map (·.1)).Perm
      ((members'.filterMap fs.member?).map (·.1)))
    (hvalues : ((members.filterMap fs.member?).map (·.1)).Nodup → ∀ name,
      Option.Rel (Relation.ReflGen (Grows (Shape.field inner name)))
        ((members.filterMap fs.member?).lookup name)
        ((members'.filterMap fs.member?).lookup name)) :
    Option.Rel (Record.Like inner) (Record.ofTree? fs (.object members))
      (Record.ofTree? fs (.object members')) := by
  rw [Record.ofTree?, Record.ofTree?]
  cases hfound : Record.known? fs [] members with
  | some values =>
    obtain ⟨htexts, rfl, hnodup⟩ := known?_nil_eq_some_iff.1 hfound
    have hnodup' := hnames.nodup_iff.1 hnodup
    rw [known?_nil_eq_some_iff.2 ⟨hkeys.1 htexts, rfl, hnodup'⟩]
    refine .some ⟨rfl, fun name => ?_⟩
    rw [Record.find?, Record.find?, lookup_reverse hnodup, lookup_reverse hnodup']
    exact hvalues hnodup name
  | none =>
    cases hfound' : Record.known? fs [] members' with
    | none => exact .none
    | some values =>
      obtain ⟨htexts, rfl, hnodup⟩ := known?_nil_eq_some_iff.1 hfound'
      have hsome := known?_nil_eq_some_iff.2 ⟨hkeys.2 htexts, rfl, hnames.nodup_iff.2 hnodup⟩
      rw [hfound] at hsome
      cases hsome

/-- Nothing has to grow. -/
theorem rel_refl {β : Type} {r : β → β → Prop} (o : Option β) :
    Option.Rel (Relation.ReflGen r) o o := by
  cases o with
  | none => exact .none
  | some b => exact .some .refl

/-- A step of growth changes nothing in the fields of a record, but that the values of fields may
have grown. -/
theorem ofTree?_like (hgrows : Grows (.record fs inner) t t') :
    Option.Rel (Record.Like inner) (Record.ofTree? fs t) (Record.ofTree? fs t') := by
  cases hgrows with
  | @insert _ _ before after raw key value _ hkey hother _ =>
    have hskip : fs.member? (raw, value) = none := by simp [Fields.member?, hkey, hother]
    have hfields : (before ++ (raw, value) :: after).filterMap fs.member? =
        (before ++ after).filterMap fs.member? := by
      rw [List.filterMap_append, List.filterMap_cons_none hskip, List.filterMap_append]
    refine ofTree?_like_of_fields ?_ ?_ fun _ name => ?_
    · rw [List.forall_mem_append, List.forall_mem_append, List.forall_mem_cons]
      simp [hkey]
    · rw [hfields]
    · rw [hfields]
      exact rel_refl _
  | permute hperm =>
    have hfields := hperm.filterMap fs.member?
    refine ofTree?_like_of_fields ?_ (hfields.map _) fun hnodup name => ?_
    · exact forall_congr' fun m => imp_congr_left hperm.mem_iff
    · rw [lookup_perm hfields hnodup]
      exact rel_refl _
  | @inside _ _ before after raw key name value value' hkey hname hgrows =>
    have hgives (v : Tree) : fs.member? (raw, v) = some (name, v) := by
      simp [Fields.member?, hkey, hname]
    have hfields (v : Tree) : (before ++ (raw, v) :: after).filterMap fs.member? =
        before.filterMap fs.member? ++ (name, v) :: after.filterMap fs.member? := by
      rw [List.filterMap_append, List.filterMap_cons_some (hgives v)]
    refine ofTree?_like_of_fields ?_ ?_ fun hnodup other => ?_
    · simp only [List.forall_mem_append, List.forall_mem_cons]
    · simp [hfields]
    · rw [hfields, hfields, List.lookup_append, List.lookup_append, List.lookup_cons,
        List.lookup_cons]
      cases (before.filterMap fs.member?).lookup other with
      | some v => exact .some .refl
      | none =>
        by_cases hsame : other = name
        · subst hsame
          simpa using Option.Rel.some (.single hgrows)
        · have hbeq : (other == name) = false := by simpa using hsame
          rw [hbeq]
          exact rel_refl _

/-- A reader that puts a value together from the fields of a record respects growth, if it reads the
same from records that are alike. -/
theorem respects_record {assemble : Record → Option α}
    (hread : ∀ t, read t = (Record.ofTree? fs t).bind assemble)
    (hassemble : ∀ r r', Record.Like inner r r' → assemble r' = assemble r) :
    Respects (.record fs inner) read := by
  intro t t' hgrows
  have hlike := ofTree?_like hgrows
  rw [hread, hread]
  generalize Record.ofTree? fs t = o at hlike ⊢
  generalize Record.ofTree? fs t' = o' at hlike ⊢
  cases hlike with
  | some hlike => exact hassemble _ _ hlike
  | none => rfl

namespace Record.Like

variable {r r' : Record} {d : α}

/-- A field that must be given gives the same. -/
theorem required (hr : Like inner r r') (name : String)
    (hread : Respects (Shape.field inner name) read) :
    r'.required name read = r.required name read := by
  have hfind := hr.find name
  rw [Record.required, Record.required]
  generalize r.find? name = given at hfind ⊢
  generalize r'.find? name = given' at hfind ⊢
  cases hfind with
  | some hgrown => exact hread.eq_of_reflGen hgrown
  | none => rfl

/-- So does a field that may be left out. -/
theorem withDefault (hr : Like inner r r') (name : String)
    (hread : Respects (Shape.field inner name) read) :
    r'.withDefault name d read = r.withDefault name d read := by
  have hfind := hr.find name
  rw [Record.withDefault, Record.withDefault]
  generalize r.find? name = given at hfind ⊢
  generalize r'.find? name = given' at hfind ⊢
  cases hfind with
  | some hgrown => exact hread.eq_of_reflGen hgrown
  | none => rfl

end Record.Like

end

end OrderBroker.Json
