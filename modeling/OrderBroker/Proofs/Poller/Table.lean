import Mathlib.Data.List.Nodup
import OrderBroker.Freja.Poller

/-!
# The poller's table

A poller holds those who wait in a table by order, and results in a memory. This module says what
the operations on the two do to the registrations in them: which are left, which are gone, and what
those are told that are gone (`Settles`). An operation answers exactly those of the gone
registrations whose waiters have not given up, and each of them once.

`Sound` is the invariant of table and memory: an order stands in the table once, no order stands in
both, and the memory holds final results only, one for an order.
-/

namespace OrderBroker.Freja.Poller

/-- What somebody who waits for an order is told. -/
abbrev Outcome : Type := Except Failure Result

/-! ## Registrations -/

/-- The registrations in a table: everybody who waits, with the order. -/
def heldIn (waiting : List (String × List Waiter)) : List Registration :=
  waiting.flatMap fun e => e.2.map (⟨·, e.1⟩)

/-- The registrations in the table of a poller. -/
def held (p : Poller) : List Registration := heldIn p.waiting

/-- Every registration that a poller still has: those that wait for room in the queue, those in the
queue, and those in the table. -/
def pending (p : Poller) : List Registration := p.blocked ++ p.queue ++ p.held

/-- The orders in the table. -/
def orders (p : Poller) : List String := p.waiting.map (·.1)

/-- The answers among effects: who is answered, and what. -/
def answersOf (effects : List Effect) : List (Nat × Outcome) :=
  effects.filterMap fun
    | .answer waiter outcome => some (waiter, outcome)
    | _ => none

@[simp] theorem answersOf_nil : answersOf [] = [] := rfl

@[simp] theorem answersOf_append (a b : List Effect) :
    answersOf (a ++ b) = answersOf a ++ answersOf b := List.filterMap_append

/-- Everybody who has not given up is answered. -/
@[simp] theorem answersOf_answerAll (waiters : List Waiter) (outcome : Outcome) :
    answersOf (answerAll waiters outcome) =
      (waiters.filter (·.live)).map fun w => (w.id, outcome) := by
  simp [answersOf, answerAll, List.filterMap_map]

/-- An order stands in the table if somebody waits for it. -/
theorem reference_mem_orders {p : Poller} {g : Registration} (hg : g ∈ p.held) :
    g.reference ∈ p.orders := by
  obtain ⟨e, he, hg⟩ := List.mem_flatMap.1 hg
  obtain ⟨w, -, rfl⟩ := List.mem_map.1 hg
  exact List.mem_map_of_mem he

/-! ## Settling -/

/-- `Settles told before after answers`: of the registrations `before` those of `after` are left.
The others are gone, and those of them whose waiters have not given up are answered, each once and
with something that `told` allows. -/
def Settles (told : Registration → Outcome → Prop) (before after : List Registration)
    (answers : List (Nat × Outcome)) : Prop :=
  ∃ gone : List (Registration × Outcome), before.Perm (after ++ gone.map (·.1)) ∧
    answers = (gone.filter (·.1.waiter.live)).map (fun x => (x.1.waiter.id, x.2)) ∧
    ∀ x ∈ gone, x.1.waiter.live = true → told x.1 x.2

namespace Settles

section
variable {told told' : Registration → Outcome → Prop} {before middle after : List Registration}
  {answers answers' : List (Nat × Outcome)} {g : Registration}

/-- Nothing is gone. -/
theorem of_perm (h : before.Perm after) : Settles told before after [] :=
  ⟨[], by simpa using h, rfl, by simp⟩

/-- Nothing is gone where nothing changes. -/
theorem refl : Settles told before before [] := of_perm (List.Perm.refl _)

/-- What may be told may be told where more may be told. -/
theorem mono (h : Settles told before after answers)
    (hmono : ∀ g o, g ∈ before → told g o → told' g o) : Settles told' before after answers := by
  obtain ⟨gone, hperm, hans, htold⟩ := h
  refine ⟨gone, hperm, hans, fun x hx hlive => hmono _ _ ?_ (htold x hx hlive)⟩
  exact hperm.mem_iff.2 (List.mem_append_right _ (List.mem_map_of_mem hx))

/-- One operation after another. -/
theorem trans (h : Settles told before middle answers) (h' : Settles told middle after answers') :
    Settles told before after (answers ++ answers') := by
  obtain ⟨gone, hperm, rfl, htold⟩ := h
  obtain ⟨gone', hperm', rfl, htold'⟩ := h'
  refine ⟨gone ++ gone', ?_, by simp, ?_⟩
  · have hall : before.Perm (after ++ gone'.map (·.1) ++ gone.map (·.1)) :=
      hperm.trans (hperm'.append_right _)
    rw [List.append_assoc] at hall
    rw [List.map_append]
    exact hall.trans (List.Perm.append_left _ List.perm_append_comm)
  · intro x hx
    rcases List.mem_append.1 hx with hx | hx
    · exact htold x hx
    · exact htold' x hx

/-- Other registrations stand before those that settle. -/
theorem append_left (others : List Registration) (h : Settles told before after answers) :
    Settles told (others ++ before) (others ++ after) answers := by
  obtain ⟨gone, hperm, hans, htold⟩ := h
  refine ⟨gone, ?_, hans, htold⟩
  rw [List.append_assoc]
  exact hperm.append_left _

/-- The order of the registrations does not matter. -/
theorem perm {before' after' : List Registration} (h : Settles told before after answers)
    (hb : before'.Perm before) (ha : after.Perm after') : Settles told before' after' answers := by
  obtain ⟨gone, hperm, hans, htold⟩ := h
  exact ⟨gone, hb.trans (hperm.trans (ha.append_right _)), hans, htold⟩

/-- What is left was there before. -/
theorem mem_before (h : Settles told before after answers) (hg : g ∈ after) : g ∈ before := by
  obtain ⟨gone, hperm, -⟩ := h
  exact hperm.mem_iff.2 (List.mem_append_left _ hg)

/-- A registration whose waiter has not given up is left, or its waiter is answered. -/
theorem left_or_answered (h : Settles told before after answers) (hg : g ∈ before)
    (hlive : g.waiter.live = true) :
    g ∈ after ∨ ∃ o, told g o ∧ (g.waiter.id, o) ∈ answers := by
  obtain ⟨gone, hperm, rfl, htold⟩ := h
  rcases List.mem_append.1 (hperm.mem_iff.1 hg) with hg | hg
  · exact .inl hg
  · obtain ⟨x, hx, rfl⟩ := List.mem_map.1 hg
    refine .inr ⟨x.2, htold x hx hlive, List.mem_map.2 ⟨x, ?_, rfl⟩⟩
    exact List.mem_filter.2 ⟨hx, hlive⟩

/-- Every answer is for a registration that was there, and is one that it may be told. -/
theorem answered (h : Settles told before after answers) {a : Nat × Outcome} (ha : a ∈ answers) :
    ∃ g ∈ before, g.waiter.live = true ∧ g.waiter.id = a.1 ∧ told g a.2 := by
  obtain ⟨gone, hperm, rfl, htold⟩ := h
  obtain ⟨x, hx, rfl⟩ := List.mem_map.1 ha
  obtain ⟨hx, hlive⟩ := List.mem_filter.1 hx
  refine ⟨x.1, ?_, hlive, rfl, htold x hx hlive⟩
  exact hperm.mem_iff.2 (List.mem_append_right _ (List.mem_map_of_mem hx))

/-- Nobody stands in two of the places: left, and answered. -/
theorem ids_subperm (h : Settles told before after answers) :
    ∃ rest, (before.map (·.waiter.id)).Perm
      (after.map (·.waiter.id) ++ answers.map (·.1) ++ rest) := by
  obtain ⟨gone, hperm, rfl, -⟩ := h
  refine ⟨(gone.filter (!·.1.waiter.live)).map (·.1.waiter.id), ?_⟩
  have hgone := (List.filter_append_perm (·.1.waiter.live) gone).map (·.1.waiter.id)
  have hids := hperm.map (·.waiter.id)
  simp only [List.map_append, List.map_map, Function.comp_def, List.append_assoc] at hids hgone ⊢
  exact hids.trans (hgone.symm.append_left _)

end

end Settles

/-! ## The invariant -/

/-- The invariant of table and memory. An order stands in the table once; the memory holds one
result of an order, a final one, and of no order that stands in the table. A poller that has
stopped has no registrations. -/
structure Sound (p : Poller) : Prop where
  orders_nodup : p.orders.Nodup
  seen_nodup : (p.seen.map (·.result.reference)).Nodup
  apart : ∀ s ∈ p.seen, s.result.reference ∉ p.orders
  final : ∀ s ∈ p.seen, s.result.status.isFinal = true
  stopped : p.phase = .stopped → p.pending = []

/-- A poller is sound at its start. -/
theorem sound_start (now interval : Nat) : Sound (Poller.start now interval) where
  orders_nodup := by simp [Poller.start, orders]
  seen_nodup := by simp [Poller.start]
  apart := by simp [Poller.start]
  final := by simp [Poller.start]
  stopped := by simp [Poller.start]

/-- Soundness depends on table and memory alone, as long as the poller goes on. -/
theorem Sound.of_same {p q : Poller} (hp : Sound p) (hw : q.waiting = p.waiting)
    (hseen : q.seen = p.seen) (hphase : q.phase ≠ .stopped) : Sound q where
  orders_nodup := by rw [orders, hw]; exact hp.orders_nodup
  seen_nodup := by rw [hseen]; exact hp.seen_nodup
  apart := by rw [hseen, orders, hw]; exact hp.apart
  final := by rw [hseen]; exact hp.final
  stopped h := absurd h hphase

section
variable {p : Poller} {r : String} {x : Result}

/-- What is remembered of an order is a result of that order. -/
theorem reference_of_seen? (h : p.seen? r = some x) : x.reference = r := by
  obtain ⟨s, hs, rfl⟩ := Option.map_eq_some_iff.1 h
  simpa using List.find?_some hs

/-- What is remembered stands in the memory. -/
theorem mem_seen_of_seen? (h : p.seen? r = some x) : ∃ t, ⟨t, x⟩ ∈ p.seen := by
  obtain ⟨s, hs, rfl⟩ := Option.map_eq_some_iff.1 h
  exact ⟨s.time, List.mem_of_find?_eq_some hs⟩

/-- Of an order that stands in the memory, the result there is remembered. -/
theorem Sound.seen?_of_mem (hp : Sound p) {s : Seen} (hs : s ∈ p.seen) :
    p.seen? s.result.reference = some s.result := by
  have hsome : (p.seen.find? (·.result.reference = s.result.reference)).isSome := by
    rw [List.find?_isSome]
    exact ⟨s, hs, by simp⟩
  obtain ⟨s', hs'⟩ := Option.isSome_iff_exists.1 hsome
  have href : s'.result.reference = s.result.reference := by simpa using List.find?_some hs'
  have heq : s' = s := by
    refine (List.inj_on_of_nodup_map hp.seen_nodup) (List.mem_of_find?_eq_some hs') hs href
  rw [seen?, hs', heq, Option.map_some]

/-- An order of which nothing is remembered does not stand in the memory. -/
theorem seen?_eq_none : p.seen? r = none ↔ ∀ s ∈ p.seen, s.result.reference ≠ r := by
  simp [seen?]

/-- Nobody waits for an order of which a result is remembered. -/
theorem Sound.not_mem_orders (hp : Sound p) (h : p.seen? r = some x) : r ∉ p.orders := by
  obtain ⟨t, ht⟩ := mem_seen_of_seen? h
  rw [← reference_of_seen? h]
  exact hp.apart _ ht

end

end OrderBroker.Freja.Poller
