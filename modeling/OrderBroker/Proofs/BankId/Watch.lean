import OrderBroker.BankId.Watch
import Mathlib.Data.List.Destutter
import Mathlib.Data.List.Infix

/-!
# What a watch hands over

A watch hands over what BankID tells of an order without the repeats (`changes`). `Keeps` compares a
watch with what BankID has told it and with what has been taken from it: nothing is lost, and an
item that is the last is handed over before the watch is over. Every operation keeps this, as long
as no item waits in vain for the slot and the watch is not told to stop.
-/

namespace OrderBroker.BankId

/-! ## Changes -/

/-- An answer differs from an earlier one in its status or its hint code. -/
def Differs (last p : Progress) : Prop := p.status ≠ last.status ∨ p.hintCode ≠ last.hintCode

instance : DecidableRel Differs := fun last p =>
  inferInstanceAs (Decidable (p.status ≠ last.status ∨ p.hintCode ≠ last.hintCode))

/-- What BankID tells, without the answers that repeat the status and the hint code of the one
before. -/
def changes (seen : List Progress) : List Progress := seen.destutter Differs

section
variable {α : Type} {R : α → α → Prop} [DecidableRel R] {a b last : α} {l : List α}

/-- One more element is kept if it differs from the last that was kept. -/
theorem destutter'_snoc (hlast : (l.destutter' R a).getLast? = some last) :
    (l ++ [b]).destutter' R a =
      if R last b then l.destutter' R a ++ [b] else l.destutter' R a := by
  induction l generalizing a with
  | nil =>
    obtain rfl : a = last := by simpa using hlast
    exact List.destutter'_singleton R
  | cons c l ih =>
    rw [List.cons_append]
    by_cases hc : R a c
    · rw [List.destutter'_cons_pos _ hc] at hlast ⊢
      rw [List.getLast?_cons_of_ne_nil (List.destutter'_ne_nil l R)] at hlast
      rw [List.destutter'_cons_pos _ hc, ih hlast]
      split <;> rfl
    · rw [List.destutter'_cons_neg _ hc] at hlast ⊢
      rw [List.destutter'_cons_neg _ hc, ih hlast]

end

variable {seen shown : List Progress} {last p : Progress}

/-- An answer that differs from the last change is another change. -/
theorem changes_snoc (hlast : (changes seen).getLast? = some last) :
    changes (seen ++ [p]) = if Differs last p then changes seen ++ [p] else changes seen := by
  cases seen with
  | nil => simp [changes] at hlast
  | cons q rest => exact destutter'_snoc hlast

/-- Later answers leave the changes as they are. -/
theorem changes_prefix_snoc : changes seen <+: changes (seen ++ [p]) := by
  cases hlast : (changes seen).getLast? with
  | none =>
    rw [List.getLast?_eq_none_iff.1 hlast]
    exact List.nil_prefix
  | some last =>
    rw [changes_snoc hlast]
    split
    · exact List.prefix_append _ _
    · exact List.prefix_rfl

namespace Watch

/-! ## Items -/

/-- Nothing comes after an item: it is a failure, or shows an order that is not pending. -/
def isLast : Change → Bool
  | .error _ => true
  | .ok p => p.status ≠ .pending

/-- The progress that items show. -/
def told (items : List Change) : List Progress := items.flatMap fun item => item.toOption.toList

/-- The item that waits for the slot. -/
def waiting? (w : Watch) : Option Change :=
  match w.phase with
  | .offering item _ => some item
  | _ => none

/-- The items that are yet to be taken. -/
def queue (w : Watch) : List Change := w.slot.toList ++ w.waiting?.toList

/-- Where a watch stands that has lost nothing. It goes on while the order is pending and no failure
has come; before it is over it hands over its last item. -/
def Stands (w : Watch) : Prop :=
  match w.phase with
  | .over => ∃ item ∈ w.slot, isLast item = true
  | .offering item _ =>
    (isLast item = false → w.last.status = .pending) ∧ ∀ first ∈ w.slot, isLast first = false
  | _ => w.last.status = .pending ∧ ∀ first ∈ w.slot, isLast first = false

/-- `Keeps shown seen w`: BankID has told the watch `seen`, and `shown` of it has been taken. -/
structure Keeps (shown seen : List Progress) (w : Watch) : Prop where
  goes : w.stopped = false
  read : w.unread = false
  last : (changes seen).getLast? = some w.last
  kept : shown ++ told w.queue = changes seen
  stands : w.Stands

section
variable {w w' : Watch} {item : Change} {now deadline : Nat}

/-- The watch goes on after an item that it has handed over. -/
theorem keeps_goOn (hgoes : w.stopped = false) (hread : w.unread = false)
    (hlast : (changes seen).getLast? = some w.last)
    (hkept : shown ++ told w.slot.toList = changes seen)
    (hpending : isLast item = false →
      w.last.status = .pending ∧ ∀ first ∈ w.slot, isLast first = false)
    (hover : isLast item = true → ∃ first ∈ w.slot, isLast first = true) :
    Keeps shown seen (w.goOn now item) := by
  cases item with
  | error failure =>
    exact ⟨hgoes, hread, hlast, by simpa [queue, waiting?, goOn] using hkept, hover rfl⟩
  | ok p =>
    by_cases hp : p.status = .pending
    · simp only [goOn, hp, if_true, hgoes]
      exact ⟨rfl, hread, hlast, by simpa [queue, waiting?] using hkept,
        hpending (by simp [isLast, hp])⟩
    · simp only [goOn, hp, if_false]
      exact ⟨hgoes, hread, hlast, by simpa [queue, waiting?] using hkept,
        hover (by simp [isLast, hp])⟩

/-- An item waits for the slot. -/
theorem keeps_waiting {first : Change} (hgoes : w.stopped = false) (hread : w.unread = false)
    (hlast : (changes seen).getLast? = some w.last) (hphase : w.phase = .offering item deadline)
    (hslot : w.slot = some first) (hkept : shown ++ told [first, item] = changes seen)
    (hpending : isLast item = false → w.last.status = .pending) (hfirst : isLast first = false) :
    Keeps shown seen w := by
  refine ⟨hgoes, hread, hlast, ?_, ?_⟩
  · simpa [queue, waiting?, hphase, hslot] using hkept
  · simpa [Stands, hphase, hslot] using ⟨hpending, hfirst⟩

/-- A watch begins with the answer to its first question. -/
theorem keeps_start (now interval : Nat) (p : Progress) :
    Keeps [] [p] (Watch.start now interval p false) := by
  refine keeps_goOn rfl rfl rfl rfl (fun hgoes => ⟨?_, ?_⟩) fun hover => ⟨.ok p, rfl, hover⟩
  · simpa [isLast] using hgoes
  · rintro first hfirst
    obtain rfl := Option.some.inj hfirst
    exact hgoes

/-- What is known of a watch that asks. -/
theorem Keeps.asking (h : Keeps shown seen w) (hasks : w.phase = .asking) :
    shown ++ told w.slot.toList = changes seen ∧ w.last.status = .pending ∧
      ∀ first ∈ w.slot, isLast first = false := by
  have hkept := h.kept
  have hstands := h.stands
  simp only [queue, waiting?, hasks, Option.toList_none, List.append_nil] at hkept
  simp only [Stands, hasks] at hstands
  exact ⟨hkept, hstands⟩

/-- A failure is the last item. -/
theorem keeps_failed (h : Keeps shown seen w) (hasks : w.phase = .asking) (failure : Failure) :
    Keeps shown seen (w.answered now (.error failure)) := by
  obtain ⟨hkept, -, hpending⟩ := h.asking hasks
  simp only [answered, hasks, close, h.read, Bool.false_eq_true, if_false]
  cases hslot : w.slot with
  | none =>
    rw [hslot] at hkept
    exact ⟨h.goes, rfl, h.last, hkept, .error failure, rfl, rfl⟩
  | some first =>
    rw [hslot] at hkept
    refine keeps_waiting h.goes rfl h.last rfl rfl ?_ (by simp [isLast]) (hpending first hslot)
    simpa [told, Except.toOption, List.flatMap_cons] using hkept

/-- Another change is handed over. -/
theorem keeps_changed (h : Keeps shown seen w) (hasks : w.phase = .asking)
    (hchange : w.isChange p = true) :
    Keeps shown (seen ++ [p]) (w.answered now (.ok p)) := by
  obtain ⟨hkept, -, hpending⟩ := h.asking hasks
  have hdiffers : Differs w.last p := of_decide_eq_true hchange
  have hchanges : changes (seen ++ [p]) = changes seen ++ [p] := by
    rw [changes_snoc h.last, if_pos hdiffers]
  have hlast : (changes (seen ++ [p])).getLast? = some p := by
    rw [hchanges, List.getLast?_concat]
  simp only [answered, hasks, hchange, if_true, offer, h.read, Bool.false_eq_true, if_false]
  cases hslot : w.slot with
  | none =>
    rw [hslot] at hkept
    refine keeps_goOn h.goes rfl hlast ?_ (fun hgoes => ⟨?_, ?_⟩) fun hover => ⟨.ok p, rfl, hover⟩
    · rw [hchanges, ← hkept]
      simp [told, Except.toOption]
    · simpa [isLast] using hgoes
    · rintro first hfirst
      obtain rfl := Option.some.inj hfirst
      exact hgoes
  | some first =>
    rw [hslot] at hkept
    refine keeps_waiting h.goes rfl hlast rfl rfl ?_ (by simp [isLast]) (hpending first hslot)
    rw [hchanges, ← hkept]
    simp [told, Except.toOption, List.flatMap_cons]

/-- An answer that is no change is passed over. -/
theorem keeps_unchanged (h : Keeps shown seen w) (hasks : w.phase = .asking)
    (hchange : w.isChange p = false) :
    Keeps shown (seen ++ [p]) (w.answered now (.ok p)) := by
  obtain ⟨hkept, hpending, hslot⟩ := h.asking hasks
  have hsame : ¬ Differs w.last p := of_decide_eq_false hchange
  have hchanges : changes (seen ++ [p]) = changes seen := by
    rw [changes_snoc h.last, if_neg hsame]
  -- The order was pending when it was last seen, so it still is.
  have hstatus : p.status = w.last.status := by
    by_contra hne
    exact hsame (.inl hne)
  simp only [answered, hasks, hchange, Bool.false_eq_true, if_false]
  refine keeps_goOn h.goes h.read (hchanges ▸ h.last) (hchanges ▸ hkept)
    (fun _ => ⟨hpending, hslot⟩) fun hover => ?_
  simp [isLast, hstatus, hpending] at hover

/-- **An answer** is kept. -/
theorem keeps_answered (h : Keeps shown seen w) (hasks : w.phase = .asking) (answer : Change) :
    Keeps shown (seen ++ answer.toOption.toList) (w.answered now answer) := by
  cases answer with
  | error failure => exact (List.append_nil seen).symm ▸ keeps_failed h hasks failure
  | ok p =>
    cases hchange : w.isChange p with
    | true => exact keeps_changed h hasks hchange
    | false => exact keeps_unchanged h hasks hchange

/-- **A move** of a watch whose items do not wait in vain loses nothing. -/
theorem keeps_advance {asks : Bool} (h : Keeps shown seen w)
    (hadvance : w.advance now = some (w', asks))
    (hpunctual : ∀ item deadline, w.phase = .offering item deadline → w.slot.isSome = true →
      now < deadline) : Keeps shown seen w' := by
  have hkept := h.kept
  have hstands := h.stands
  unfold advance at hadvance
  split at hadvance
  · next due hphase =>
    simp only [Option.ite_none_right_eq_some, Option.some.injEq, Prod.mk.injEq] at hadvance
    obtain ⟨-, rfl, -⟩ := hadvance
    simp only [queue, waiting?, hphase] at hkept
    simp only [Stands, hphase] at hstands
    exact ⟨h.goes, h.read, h.last, hkept, hstands⟩
  · next item deadline hphase =>
    simp only [queue, waiting?, hphase] at hkept
    simp only [Stands, hphase] at hstands
    simp only [h.read, Bool.false_eq_true, if_false] at hadvance
    split at hadvance
    · next hslot =>
      obtain ⟨rfl, -⟩ := Prod.mk.inj (Option.some.inj hadvance)
      rw [hslot] at hkept
      refine keeps_goOn h.goes rfl h.last hkept (fun hgoes => ⟨hstands.1 hgoes, ?_⟩)
        fun hover => ⟨item, rfl, hover⟩
      rintro first hfirst
      obtain rfl := Option.some.inj hfirst
      exact hgoes
    · next first hslot =>
      have hlt := hpunctual item deadline hphase (by rw [hslot]; rfl)
      rw [if_neg (Nat.not_le_of_lt hlt)] at hadvance
      cases hadvance
  · cases hadvance

/-- The items that have been taken show the first changes. -/
theorem prefix_take (h : Keeps shown seen w) (htake : w.take = some (item, w')) :
    shown ++ item.toOption.toList <+: changes seen := by
  obtain ⟨first, hslot, heq⟩ := Option.map_eq_some_iff.1 htake
  obtain ⟨rfl, rfl⟩ := Prod.mk.inj heq
  rw [← h.kept, queue, hslot]
  simp [told, List.flatMap_cons]

/-- **Taking** an item that is not the last. -/
theorem keeps_take (h : Keeps shown seen w) (htake : w.take = some (item, w'))
    (hgoes : isLast item = false) : Keeps (shown ++ item.toOption.toList) seen w' := by
  obtain ⟨first, hslot, heq⟩ := Option.map_eq_some_iff.1 htake
  obtain ⟨rfl, rfl⟩ := Prod.mk.inj heq
  refine ⟨h.goes, h.read, h.last, ?_, ?_⟩
  · rw [← h.kept, queue, queue, hslot]
    simp [told, List.flatMap_cons, waiting?]
  · have hstands := h.stands
    match hphase : w.phase with
    | .over => simp [Stands, hphase, hslot, hgoes] at hstands
    | .resting _ | .asking | .offering _ _ =>
      simp only [Stands, hphase] at hstands ⊢
      exact ⟨hstands.1, by simp⟩

/-- A watch that has lost nothing has an item before it is over. -/
theorem Keeps.open (h : Keeps shown seen w) (hnone : w.take = none) : w.isClosed = false := by
  have hslot : w.slot = none := Option.map_eq_none_iff.1 hnone
  unfold isClosed
  split
  · next hphase _ =>
    have hstands := h.stands
    simp [Stands, hphase, hslot] at hstands
  · rfl

/-! ## How long an item waits -/

/-- A last item that waits for the slot has just begun to wait. -/
theorem deadline_of_close {x : Change} (h : (w.close now x).phase = .offering item deadline) :
    deadline = now + offerTimeout := by
  unfold close at h
  split at h
  · cases h
  · split at h
    · cases h
    · exact ((Phase.offering.inj h).2).symm

/-- So has an item after another. -/
theorem deadline_of_goOn {x : Change} (h : (w.goOn now x).phase = .offering item deadline) :
    deadline = now + offerTimeout := by
  unfold goOn at h
  split at h
  · cases h
  · split at h
    · split at h
      · exact deadline_of_close h
      · cases h
    · cases h

/-- So has an item that is handed over. -/
theorem deadline_of_offer {x : Change} (h : (w.offer now x).phase = .offering item deadline) :
    deadline = now + offerTimeout := by
  unfold offer at h
  split at h
  · exact deadline_of_goOn h
  · split at h
    · exact deadline_of_goOn h
    · exact ((Phase.offering.inj h).2).symm

/-- So has an item after an answer. -/
theorem deadline_of_answered {answer : Change} (hasks : w.phase = .asking)
    (h : (w.answered now answer).phase = .offering item deadline) :
    deadline = now + offerTimeout := by
  cases answer with
  | error failure =>
    simp only [answered, hasks] at h
    exact deadline_of_close h
  | ok p =>
    simp only [answered, hasks] at h
    split at h
    · exact deadline_of_offer h
    · exact deadline_of_goOn h

/-- So has an item after a move. -/
theorem deadline_of_advance {asks : Bool} (hadvance : w.advance now = some (w', asks))
    (h : w'.phase = .offering item deadline) : deadline = now + offerTimeout := by
  unfold advance at hadvance
  split at hadvance
  · simp only [Option.ite_none_right_eq_some, Option.some.injEq, Prod.mk.injEq] at hadvance
    obtain ⟨-, rfl, -⟩ := hadvance
    cases h
  · split at hadvance
    · obtain ⟨rfl, -⟩ := Prod.mk.inj (Option.some.inj hadvance)
      exact deadline_of_goOn h
    · split at hadvance
      · obtain ⟨rfl, -⟩ := Prod.mk.inj (Option.some.inj hadvance)
        exact deadline_of_goOn h
      · simp only [Option.ite_none_right_eq_some, Option.some.injEq, Prod.mk.injEq] at hadvance
        obtain ⟨-, rfl, -⟩ := hadvance
        exact deadline_of_goOn h
  · cases hadvance

/-- Nothing is left of a watch that nobody reads. -/
theorem slot_stop_abandon : (w.abandon.stop now).slot = none := by
  unfold stop
  split <;> rfl

end

end Watch

end OrderBroker.BankId
