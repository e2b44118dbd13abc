import OrderBroker.Json.Record
import Mathlib.Data.List.Nodup

/-!
# The members of a record

An object is sorted onto the fields of a record if all its keys are texts and no field is there
twice, and what is found are the members that give a field (`known?_eq_some_iff`). A field is then
looked up among entries with names of their own, whichever order they are in (`lookup_perm`).
-/

namespace OrderBroker.Json

/-! ## Entries -/

section
variable {α : Type} {entries entries' : List (String × α)}

/-- Of entries with names of their own the one with a name is found. -/
theorem lookup_eq_some_iff_mem (hnodup : (entries.map (·.1)).Nodup) {name : String} {a : α} :
    entries.lookup name = some a ↔ (name, a) ∈ entries := by
  induction entries with
  | nil => simp
  | cons entry rest ih =>
    obtain ⟨name', value⟩ := entry
    obtain ⟨hfirst, hrest⟩ := List.nodup_cons.1 hnodup
    rw [List.lookup_cons, List.mem_cons]
    by_cases hname : name = name'
    · subst hname
      have hnot : (name, a) ∉ rest := fun hmem => hfirst (List.mem_map.2 ⟨_, hmem, rfl⟩)
      simp [hnot, eq_comm]
    · have hbeq : (name == name') = false := by simpa using hname
      simp [hbeq, hname, ih hrest]

/-- The one with a name is found in whichever order they are. -/
theorem lookup_perm (hperm : entries.Perm entries') (hnodup : (entries.map (·.1)).Nodup)
    (name : String) : entries'.lookup name = entries.lookup name := by
  have hnodup' := (hperm.map (·.1)).nodup_iff.1 hnodup
  ext a
  rw [lookup_eq_some_iff_mem hnodup, lookup_eq_some_iff_mem hnodup', hperm.mem_iff]

theorem lookup_reverse (hnodup : (entries.map (·.1)).Nodup) (name : String) :
    entries.reverse.lookup name = entries.lookup name :=
  lookup_perm (List.reverse_perm entries).symm hnodup name

end

/-! ## Members -/

/-- The field that a member gives, with its value. -/
def Fields.member? (fs : Fields) (m : List UInt8 × Tree) : Option (String × Tree) :=
  ((Escape.unescape? m.1).bind fs.name?).map (·, m.2)

/-- The members of an object are sorted onto the fields if every key is a text and no field is there
twice, and what is found are those that give a field. -/
theorem known?_eq_some_iff {fs : Fields} {members : List (List UInt8 × Tree)}
    {found values : List (String × Tree)} (hfound : (found.map (·.1)).Nodup) :
    Record.known? fs found members = some values ↔
      (∀ m ∈ members, (Escape.unescape? m.1).isSome) ∧
        values = (members.filterMap fs.member?).reverse ++ found ∧ (values.map (·.1)).Nodup := by
  fun_induction Record.known? fs found members with
  | case1 found =>
    rw [List.filterMap_nil, List.reverse_nil, List.nil_append, Option.some.injEq]
    constructor
    · rintro rfl
      exact ⟨by simp, rfl, hfound⟩
    · exact fun h => h.2.1.symm
  | case2 found raw t rest hkey => simp [hkey]
  | case3 found raw t rest key hkey hother ih =>
    have hskip : fs.member? (raw, t) = none := by simp [Fields.member?, hkey, hother]
    rw [ih hfound, List.filterMap_cons_none hskip, List.forall_mem_cons]
    simp [hkey]
  | case4 found raw t rest key hkey name hname htwice =>
    have hgives : fs.member? (raw, t) = some (name, t) := by simp [Fields.member?, hkey, hname]
    refine ⟨nofun, fun ⟨_, hvalues, hnodup⟩ => ?_⟩
    obtain ⟨other, hother, hsame⟩ := List.any_eq_true.1 htwice
    have hmem : name ∈ found.map (·.1) := List.mem_map.2 ⟨other, hother, of_decide_eq_true hsame⟩
    rw [hvalues, List.filterMap_cons_some hgives, List.reverse_cons, List.append_assoc,
      List.map_append] at hnodup
    exact absurd hmem (List.nodup_cons.1 (List.nodup_append.1 hnodup).2.1).1
  | case5 found raw t rest key hkey name hname hfirst ih =>
    have hgives : fs.member? (raw, t) = some (name, t) := by simp [Fields.member?, hkey, hname]
    have hnodup : (((name, t) :: found).map (·.1)).Nodup := by
      refine List.nodup_cons.2 ⟨fun hmem => hfirst ?_, hfound⟩
      obtain ⟨other, hother, hsame⟩ := List.mem_map.1 hmem
      exact List.any_eq_true.2 ⟨other, hother, decide_eq_true hsame⟩
    rw [ih hnodup, List.filterMap_cons_some hgives, List.forall_mem_cons, List.reverse_cons,
      List.append_assoc, List.singleton_append]
    simp [hkey]

/-- The same for all members of an object, with nothing found before them. -/
theorem known?_nil_eq_some_iff {fs : Fields} {members : List (List UInt8 × Tree)}
    {values : List (String × Tree)} :
    Record.known? fs [] members = some values ↔
      (∀ m ∈ members, (Escape.unescape? m.1).isSome) ∧
        values = (members.filterMap fs.member?).reverse ∧
          ((members.filterMap fs.member?).map (·.1)).Nodup := by
  rw [@known?_eq_some_iff fs members [] values List.nodup_nil, List.append_nil]
  refine and_congr_right fun _ => and_congr_right ?_
  rintro rfl
  rw [List.map_reverse, List.nodup_reverse]

end OrderBroker.Json
