import OrderBroker.Proofs.Run
import OrderBroker.Proofs.Sse.Reading
import OrderBroker.Stream.Ndjson
import OrderBroker.Text.Natural
import Mathlib.Data.List.Basic
import Mathlib.Data.Nat.Find

/-!
# What a slow consumer loses

A reader and its consumer as a machine (`Delivery.machine`): the reader hands over its items one
after the other, an item that finds no free slot waits for one or is dropped, and the consumer takes
items from some time on. Nothing that can happen is put off (`Prompt`), but of several things that
can happen at one time any does.

Until the consumer reads, the slots are full and one item after the other waits its second in vain
(`Before`). From then on nothing is lost (`Reading`). So the consumer is given the items that found
a slot at once and those that came after the dropped ones, one for each full second
(`slow_consumer_loses`), which is what `deliver` says.
-/

namespace OrderBroker.Stream

variable {α : Type} {readFrom : Nat}

/-- What reaches a consumer of items if so many were dropped after the first slots were full. -/
def kept (dropped : Nat) (items : List α) : List α :=
  items.take deliverySlots ++ items.drop (deliverySlots + dropped)

/-! ## Delivery at once -/

section
variable {now : Nat}

/-- A consumer who reads is given everything. -/
theorem deliverFrom_reading (hreads : readFrom ≤ now) (free : Nat) (items : List α) :
    deliverFrom readFrom now free items = items := by
  induction items with
  | nil => rfl
  | cons item rest ih =>
    unfold deliverFrom
    rw [if_pos hreads, ih]

/-- The free slots are filled first. -/
theorem deliverFrom_free (hwaits : now < readFrom) (free : Nat) (items : List α) :
    deliverFrom readFrom now free items =
      items.take free ++ deliverFrom readFrom now 0 (items.drop free) := by
  induction free generalizing items with
  | zero => rfl
  | succ free ih =>
    cases items with
    | nil => rfl
    | cons item rest =>
      rw [deliverFrom, if_neg (Nat.not_le.2 hwaits), List.take_succ_cons, List.drop_succ_cons,
        List.cons_append, ih]

/-- With no slot free, an item is dropped for every second that passes before the consumer reads. -/
theorem deliverFrom_full (dropped : Nat) (items : List α)
    (hwaits : deliveryTimeout * dropped < readFrom) (hreads : readFrom % deliveryTimeout ≠ 0) :
    deliverFrom readFrom (deliveryTimeout * dropped) 0 items =
      items.drop (readFrom / deliveryTimeout - dropped) := by
  induction items generalizing dropped with
  | nil => simp [deliverFrom]
  | cons item rest ih =>
    rw [deliverFrom, if_neg (Nat.not_le.2 hwaits)]
    by_cases hsoon : readFrom < deliveryTimeout * dropped + deliveryTimeout
    · have hlast : readFrom / deliveryTimeout - dropped = 0 := by
        simp only [deliveryTimeout] at *
        omega
      rw [if_pos hsoon, hlast, List.drop_zero, deliverFrom_reading (Nat.le_refl _)]
    · have hnext : readFrom / deliveryTimeout - dropped =
          readFrom / deliveryTimeout - (dropped + 1) + 1 := by
        simp only [deliveryTimeout] at *
        omega
      have hstill : deliveryTimeout * (dropped + 1) < readFrom := by
        simp only [deliveryTimeout] at *
        omega
      rw [if_neg hsoon, hnext, List.drop_succ_cons]
      exact ih (dropped + 1) hstill

/-- What is delivered in all. -/
theorem deliver_eq (hreads : readFrom % deliveryTimeout ≠ 0) (items : List α) :
    deliver readFrom items = kept (readFrom / deliveryTimeout) items := by
  have hwaits : 0 < readFrom :=
    Nat.pos_of_ne_zero fun hzero => hreads (by rw [hzero, Nat.zero_mod])
  have hfull := deliverFrom_full 0 (items.drop deliverySlots) hwaits hreads
  rw [Nat.mul_zero, Nat.sub_zero, List.drop_drop] at hfull
  rw [deliver, deliverFrom_free hwaits, hfull, kept]

end

/-! ## The machine -/

/-- A reader and the slots through which its items go. -/
structure Delivery (α : Type) where
  /-- The items that the reader has yet to hand over. -/
  ahead : List α
  /-- The item that waits for a slot, and how long it does. -/
  offered : Option (α × Nat) := none
  /-- The items that wait for the consumer. -/
  slots : List α := []

namespace Delivery

/-- What happens to the items. -/
inductive Event where
  /-- The reader hands over its next item. -/
  | offer
  /-- The item that waits finds a free slot. -/
  | place
  /-- The item that waits is dropped. -/
  | drop
  /-- The consumer takes an item. -/
  | take

/-- Delivery to a consumer who takes nothing before some time. The effects are the items taken. -/
def machine (readFrom : Nat) : Machine (Delivery α) Event α := fun now d e =>
  match e, d.ahead, d.offered, d.slots with
  | .offer, x :: rest, none, slots =>
    if slots.length < deliverySlots then some ({ d with ahead := rest, slots := slots ++ [x] }, [])
    else some ({ d with ahead := rest, offered := some (x, now + deliveryTimeout) }, [])
  | .place, _, some (x, _), slots =>
    if slots.length < deliverySlots then
      some ({ d with offered := none, slots := slots ++ [x] }, [])
    else none
  | .drop, _, some (_, deadline), _ =>
    if deadline ≤ now then some ({ d with offered := none }, []) else none
  | .take, _, _, x :: rest =>
    if readFrom ≤ now then some ({ d with slots := rest }, [x]) else none
  | _, _, _, _ => none

/-- What has happened to the items. -/
abbrev History (α : Type) : Type := List (Transition (Delivery α) Event α)

/-- The runs of a delivery of items, from the time zero on. -/
abbrev Runs (readFrom : Nat) (items : List α) : History α → Nat → Delivery α → Prop :=
  Run (machine readFrom) (fun _ _ => True) 0 { ahead := items }

/-- The time of the last event. -/
def lastTime (h : History α) : Nat := (h.map (·.time)).getLastD 0

/-- Nothing can happen to a delivery from one time on until another. -/
def Idle (readFrom t now : Nat) (d : Delivery α) : Prop :=
  ∀ t', t ≤ t' → t' < now → ∀ e, machine readFrom t' d e = none

/-- Nothing that can happen is put off: before each event there was no time, from the event before
it on, at which anything could have happened. -/
def Prompt (readFrom : Nat) (h : History α) : Prop :=
  ∀ past tr later, h = past ++ tr :: later → Idle readFrom (lastTime past) tr.time tr.before

/-- Nothing can happen any more. -/
def Over (readFrom now : Nat) (d : Delivery α) : Prop :=
  ∀ t, now ≤ t → ∀ e, machine readFrom t d e = none

/-- The items that the consumer has taken. -/
def taken (h : History α) : List α := h.flatMap (·.effects)

/-- `Gets readFrom items got`: a consumer who takes nothing before some time and then everything can
be given `got` in all, where nothing is put off. -/
def Gets (readFrom : Nat) (items got : List α) : Prop :=
  ∃ h now d, Runs readFrom items h now d ∧ Prompt readFrom h ∧ Over readFrom now d ∧ taken h = got

/-! ## What a step can be -/

/-- What a step of a delivery can be, and when. -/
inductive Does (readFrom now : Nat) : Delivery α → Event → Delivery α → List α → Prop
  /-- An item finds a slot at once. -/
  | stored {x : α} {rest slots : List α} : slots.length < deliverySlots →
      Does readFrom now ⟨x :: rest, none, slots⟩ .offer ⟨rest, none, slots ++ [x]⟩ []
  /-- An item has to wait. -/
  | delayed {x : α} {rest slots : List α} : deliverySlots ≤ slots.length →
      Does readFrom now ⟨x :: rest, none, slots⟩ .offer
        ⟨rest, some (x, now + deliveryTimeout), slots⟩ []
  /-- The item that waits finds a slot. -/
  | placed {x : α} {deadline : Nat} {ahead slots : List α} : slots.length < deliverySlots →
      Does readFrom now ⟨ahead, some (x, deadline), slots⟩ .place ⟨ahead, none, slots ++ [x]⟩ []
  /-- The item that waits is dropped. -/
  | dropped {x : α} {deadline : Nat} {ahead slots : List α} : deadline ≤ now →
      Does readFrom now ⟨ahead, some (x, deadline), slots⟩ .drop ⟨ahead, none, slots⟩ []
  /-- The consumer takes an item. -/
  | took {x : α} {ahead rest : List α} {offered : Option (α × Nat)} : readFrom ≤ now →
      Does readFrom now ⟨ahead, offered, x :: rest⟩ .take ⟨ahead, offered, rest⟩ [x]

section
variable {now : Nat} {d d' : Delivery α} {e : Event} {effects : List α}

/-- **A step of a delivery** is one of these, and each of these can happen. -/
theorem machine_eq_some :
    machine readFrom now d e = some (d', effects) ↔ Does readFrom now d e d' effects := by
  constructor
  · intro hstep
    obtain ⟨ahead, offered, slots⟩ := d
    cases e with
    | offer =>
      cases ahead with
      | nil => cases hstep
      | cons x rest =>
        cases offered with
        | some waiting => cases hstep
        | none =>
          simp only [machine] at hstep
          split at hstep
          · next hroom =>
            obtain ⟨rfl, rfl⟩ := Prod.mk.inj (Option.some.inj hstep)
            exact .stored hroom
          · next hfull =>
            obtain ⟨rfl, rfl⟩ := Prod.mk.inj (Option.some.inj hstep)
            exact .delayed (Nat.not_lt.1 hfull)
    | place =>
      cases offered with
      | none => cases hstep
      | some waiting =>
        simp only [machine, Option.ite_none_right_eq_some] at hstep
        obtain ⟨hroom, hstep⟩ := hstep
        obtain ⟨rfl, rfl⟩ := Prod.mk.inj (Option.some.inj hstep)
        exact .placed hroom
    | drop =>
      cases offered with
      | none => cases hstep
      | some waiting =>
        simp only [machine, Option.ite_none_right_eq_some] at hstep
        obtain ⟨hdue, hstep⟩ := hstep
        obtain ⟨rfl, rfl⟩ := Prod.mk.inj (Option.some.inj hstep)
        exact .dropped hdue
    | take =>
      cases slots with
      | nil => cases hstep
      | cons x rest =>
        simp only [machine, Option.ite_none_right_eq_some] at hstep
        obtain ⟨hreads, hstep⟩ := hstep
        obtain ⟨rfl, rfl⟩ := Prod.mk.inj (Option.some.inj hstep)
        exact .took hreads
  · intro hdoes
    cases hdoes with
    | stored hroom => simp [machine, hroom]
    | delayed hfull => simp [machine, Nat.not_lt.2 hfull]
    | placed hroom => simp [machine, hroom]
    | dropped hdue => simp [machine, hdue]
    | took hreads => simp [machine, hreads]

/-- If anything can happen at a time, the next event does not come later. -/
theorem Idle.le {t t' : Nat} (hidle : Idle readFrom t now d) (ht : t ≤ t')
    (hdoes : Does readFrom t' d e d' effects) : now ≤ t' := by
  by_contra hlate
  have hstep := machine_eq_some.2 hdoes
  rw [hidle t' ht (Nat.not_le.1 hlate) e] at hstep
  cases hstep

/-- If anything can happen at once, the next event comes at once. -/
theorem Idle.eq {t : Nat} (hidle : Idle readFrom t now d) (ht : t ≤ now)
    (hdoes : Does readFrom t d e d' effects) : now = t :=
  Nat.le_antisymm (hidle.le (Nat.le_refl t) hdoes) ht

end

/-! ## What is kept -/

section
variable {items slots ahead : List α} {x : α} {n m : Nat}

/-- Nothing more is lost where nothing is left. -/
theorem kept_eq_of_length_le (hle : n ≤ m) (hlength : (kept n items).length ≤ deliverySlots) :
    kept m items = kept n items := by
  have hnone : items.length ≤ deliverySlots + n := by
    simp only [kept, List.length_append, List.length_take, List.length_drop] at hlength
    omega
  rw [kept, kept, List.drop_eq_nil_of_le hnone, List.drop_eq_nil_of_le (by omega)]

/-- The first item behind full slots is lost. -/
theorem kept_succ (hfull : slots.length = deliverySlots)
    (hkept : slots ++ x :: ahead = kept n items) : slots ++ ahead = kept (n + 1) items := by
  have hlength : (items.take deliverySlots).length = deliverySlots := by
    have hcount := congrArg List.length hkept
    simp only [kept, List.length_append, List.length_take, List.length_drop, List.length_cons]
      at hcount ⊢
    omega
  obtain ⟨hfirst, hrest⟩ := List.append_inj hkept (hfull.trans hlength.symm)
  have htail : ahead = items.drop (deliverySlots + (n + 1)) := by
    rw [← Nat.add_assoc, ← List.drop_drop, ← hrest]
    rfl
  rw [kept, ← hfirst, htail]

end

/-! ## One step -/

/-- The items of a delivery that are yet to be taken. -/
def left (d : Delivery α) : List α :=
  d.slots ++ ((d.offered.map (·.1)).toList ++ d.ahead)

/-- `Before readFrom items now n d`: the consumer does not read yet, and `n` items were dropped,
each after its second. None was before the slots were full. -/
structure Before (readFrom : Nat) (items : List α) (now n : Nat) (d : Delivery α) : Prop where
  time : now = deliveryTimeout * n
  waits : now < readFrom
  left : d.left = kept n items
  fits : d.slots.length ≤ deliverySlots
  full : n ≠ 0 ∨ d.offered ≠ none → d.slots.length = deliverySlots
  deadline : ∀ x t, d.offered = some (x, t) → t = deliveryTimeout * (n + 1)

/-- `Reading readFrom items now taken d`: the consumer reads, and nothing is lost any more. -/
structure Reading (readFrom : Nat) (items : List α) (now : Nat) (taken : List α) (d : Delivery α) :
    Prop where
  time : now = readFrom
  left : taken ++ d.left = kept (readFrom / deliveryTimeout) items
  deadline : ∀ x t, d.offered = some (x, t) → readFrom < t

section
variable {items : List α} {t now n : Nat} {d d' : Delivery α} {e : Event} {effects got : List α}
  {ahead slots rest : List α} {x : α} {deadline : Nat}

/-- A delivery begins with all its items ahead. -/
theorem before_start (hreads : 0 < readFrom) (items : List α) :
    Before readFrom items 0 0 { ahead := items } where
  time := rfl
  waits := hreads
  left := by simp [Delivery.left, kept]
  fits := Nat.zero_le _
  full h := by simp at h
  deadline _ _ h := by cases h

/-- An item finds a slot before any is dropped. -/
theorem Before.stored (hd : Before readFrom items now n ⟨x :: rest, none, slots⟩)
    (hroom : slots.length < deliverySlots) :
    Before readFrom items now n ⟨rest, none, slots ++ [x]⟩ := by
  have hnone : n = 0 := by
    by_contra hsome
    exact absurd (hd.full (.inl hsome)) (Nat.ne_of_lt hroom)
  refine ⟨hd.time, hd.waits, ?_, ?_, by simp [hnone], by simp⟩
  · simpa [Delivery.left] using hd.left
  · rw [List.length_append]
    exact hroom

/-- An item begins to wait for a second. -/
theorem Before.delayed (hd : Before readFrom items now n ⟨x :: rest, none, slots⟩)
    (hfull : deliverySlots ≤ slots.length) :
    Before readFrom items now n ⟨rest, some (x, now + deliveryTimeout), slots⟩ := by
  refine ⟨hd.time, hd.waits, ?_, hd.fits, fun _ => Nat.le_antisymm hd.fits hfull, ?_⟩
  · simpa [Delivery.left] using hd.left
  · rintro x t ⟨⟩
    rw [hd.time, Nat.mul_succ]

/-- An item that waits does so for a second, and no longer. -/
theorem Before.times (hd : Before readFrom items t n ⟨ahead, some (x, deadline), slots⟩)
    (hidle : Idle readFrom t now ⟨ahead, some (x, deadline), slots⟩) :
    deadline = t + deliveryTimeout ∧ now ≤ deadline := by
  have hdeadline : deadline = t + deliveryTimeout := by
    rw [hd.deadline x deadline rfl, hd.time, Nat.mul_succ]
  exact ⟨hdeadline, hidle.le (by omega) (.dropped (Nat.le_refl deadline))⟩

/-- An item is dropped at the end of its second. -/
theorem Before.dropped (hd : Before readFrom items t n ⟨ahead, some (x, deadline), slots⟩)
    (hidle : Idle readFrom t now ⟨ahead, some (x, deadline), slots⟩)
    (hreads : readFrom % deliveryTimeout ≠ 0) (hdue : deadline ≤ now) :
    Before readFrom items now (n + 1) ⟨ahead, none, slots⟩ := by
  have hfull : slots.length = deliverySlots := hd.full (.inr (by simp))
  obtain ⟨-, hlate⟩ := hd.times hidle
  have hnow : now = deliveryTimeout * (n + 1) :=
    (Nat.le_antisymm hlate hdue).trans (hd.deadline x deadline rfl)
  -- The consumer would read at once, but he does not read at a full second.
  have hearly : now < readFrom := by
    by_contra hlate
    obtain ⟨first, rest, rfl⟩ := List.exists_cons_of_length_pos (l := slots) (by
      rw [hfull]
      decide)
    have hread : now ≤ readFrom :=
      hidle.le (Nat.le_of_lt hd.waits) (.took (Nat.le_refl readFrom))
    have heq : readFrom = deliveryTimeout * (n + 1) := by omega
    exact hreads (heq ▸ Nat.mul_mod_right _ _)
  refine ⟨hnow, hearly, kept_succ hfull hd.left, hd.fits, fun _ => hfull, ?_⟩
  rintro x t ⟨⟩

/-- The consumer's first item, when no other is on its way. -/
theorem Before.took_last (hd : Before readFrom items t n ⟨[], none, x :: rest⟩) :
    Reading readFrom items readFrom [x] ⟨[], none, rest⟩ := by
  have hkept : x :: rest = kept n items := by simpa [Delivery.left] using hd.left
  have hle : n ≤ readFrom / deliveryTimeout := by
    rw [Nat.le_div_iff_mul_le (by decide), Nat.mul_comm, ← hd.time]
    exact Nat.le_of_lt hd.waits
  refine ⟨rfl, ?_, by simp⟩
  rw [kept_eq_of_length_le hle (hkept ▸ hd.fits), ← hkept]
  simp [Delivery.left]

/-- The consumer's first item, while another waits. -/
theorem Before.took_waiting {y : α}
    (hd : Before readFrom items t n ⟨ahead, some (y, deadline), x :: rest⟩)
    (hidle : Idle readFrom t readFrom ⟨ahead, some (y, deadline), x :: rest⟩)
    (hreads : readFrom % deliveryTimeout ≠ 0) :
    Reading readFrom items readFrom [x] ⟨ahead, some (y, deadline), rest⟩ := by
  obtain ⟨hsecond, hlate⟩ := hd.times hidle
  have htime := hd.time
  have hwaits := hd.waits
  have hearly : readFrom < deadline := by
    refine Nat.lt_of_le_of_ne hlate fun heq => hreads ?_
    rw [heq, hd.deadline y deadline rfl, Nat.mul_mod_right]
  have hcount : readFrom / deliveryTimeout = n :=
    Nat.div_eq_of_lt_le (by rw [Nat.mul_comm]; omega)
      (by rw [Nat.mul_comm, Nat.mul_succ]; omega)
  refine ⟨rfl, ?_, ?_⟩
  · rw [hcount, ← hd.left]
    rfl
  · rintro x t ⟨⟩
    exact hearly

/-- **A step before the consumer reads**, or his first item. -/
theorem Before.step (hd : Before readFrom items t n d) (hreads : readFrom % deliveryTimeout ≠ 0)
    (ht : t ≤ now) (hidle : Idle readFrom t now d) (hdoes : Does readFrom now d e d' effects) :
    (effects = [] ∧ ∃ n', Before readFrom items now n' d') ∨
      Reading readFrom items now effects d' := by
  cases hdoes with
  | stored hroom =>
    obtain rfl := hidle.eq ht (.stored hroom)
    exact .inl ⟨rfl, n, hd.stored hroom⟩
  | delayed hfull =>
    obtain rfl := hidle.eq ht (.delayed hfull)
    exact .inl ⟨rfl, n, hd.delayed hfull⟩
  | placed hroom => exact absurd (hd.full (.inr (by simp))) (Nat.ne_of_lt hroom)
  | dropped hdue => exact .inl ⟨rfl, n + 1, hd.dropped hidle hreads hdue⟩
  | @took x ahead rest offered hread =>
    obtain rfl : now = readFrom :=
      Nat.le_antisymm (hidle.le (Nat.le_of_lt hd.waits) (.took (Nat.le_refl readFrom))) hread
    match ahead, offered with
    | [], none => exact .inr hd.took_last
    | y :: ahead, none =>
      -- What is ahead would have been handed over before.
      have hoffers : now ≤ t := by
        by_cases hroom : (x :: rest).length < deliverySlots
        · exact hidle.le (Nat.le_refl t) (.stored hroom)
        · exact hidle.le (Nat.le_refl t) (.delayed (Nat.not_lt.1 hroom))
      exact absurd hd.waits (Nat.not_lt.2 hoffers)
    | _, some (y, deadline) => exact .inr (hd.took_waiting hidle hreads)

/-- **A step while the consumer reads.** -/
theorem Reading.step (hd : Reading readFrom items t got d) (ht : t ≤ now)
    (hidle : Idle readFrom t now d) (hdoes : Does readFrom now d e d' effects) :
    Reading readFrom items now (got ++ effects) d' := by
  obtain rfl : t = readFrom := hd.time
  cases hdoes with
  | stored hroom =>
    obtain rfl := hidle.eq ht (.stored hroom)
    refine ⟨rfl, ?_, by simp⟩
    simpa [Delivery.left] using hd.left
  | delayed hfull =>
    obtain rfl := hidle.eq ht (.delayed hfull)
    refine ⟨rfl, ?_, ?_⟩
    · simpa [Delivery.left] using hd.left
    · rintro x t' ⟨⟩
      exact Nat.lt_add_of_pos_right (by decide)
  | placed hroom =>
    obtain rfl := hidle.eq ht (.placed hroom)
    refine ⟨rfl, ?_, by simp⟩
    simpa [Delivery.left] using hd.left
  | @dropped x deadline ahead slots hdue =>
    -- Something else would have happened first.
    have hdeadline := hd.deadline x deadline rfl
    have hmoves : now ≤ t := by
      cases slots with
      | nil => exact hidle.le (Nat.le_refl t) (.placed (Nat.zero_lt_succ _))
      | cons first rest => exact hidle.le (Nat.le_refl t) (.took (Nat.le_refl t))
    omega
  | took hread =>
    obtain rfl := hidle.eq ht (.took (Nat.le_refl t))
    refine ⟨rfl, ?_, hd.deadline⟩
    simpa [Delivery.left] using hd.left

end

/-! ## Every run -/

section
variable {items : List α} {now : Nat} {d d' : Delivery α} {e : Event} {effects : List α}
  {h : History α} {tr : Transition (Delivery α) Event α}

theorem taken_snoc : taken (h ++ [tr]) = taken h ++ tr.effects := by
  simp [taken]

theorem lastTime_of_runs (run : Runs readFrom items h now d) : lastTime h = now := by
  cases run with
  | start => rfl
  | next _ _ _ _ => simp [lastTime]

/-- Nothing is put off in a longer history if nothing is before its last event either. -/
theorem prompt_snoc :
    Prompt readFrom (h ++ [tr]) ↔
      Prompt readFrom h ∧ Idle readFrom (lastTime h) tr.time tr.before := by
  constructor
  · intro hprompt
    refine ⟨?_, hprompt h tr [] rfl⟩
    rintro past tr' later rfl
    exact hprompt past tr' (later ++ [tr]) (by simp)
  · rintro ⟨hprompt, hlast⟩ past tr' later heq
    rcases Run.snoc_eq_cut heq with ⟨-, rfl, rfl⟩ | ⟨later', -, rfl⟩
    · exact hlast
    · exact hprompt past tr' later' rfl

/-- **A delivery stands well** at every point of a run in which nothing is put off. -/
theorem stands_of_runs (run : Runs readFrom items h now d) (hprompt : Prompt readFrom h)
    (hreads : readFrom % deliveryTimeout ≠ 0) :
    (taken h = [] ∧ ∃ n, Before readFrom items now n d) ∨
      Reading readFrom items now (taken h) d := by
  induction run with
  | start =>
    have hpos : 0 < readFrom :=
      Nat.pos_of_ne_zero fun hzero => hreads (by rw [hzero, Nat.zero_mod])
    exact .inl ⟨rfl, 0, before_start hpos items⟩
  | @next h t now d d' e effects run ht _ hstep ih =>
    obtain ⟨hpast, hlast⟩ := prompt_snoc.1 hprompt
    rw [lastTime_of_runs run] at hlast
    have hdoes := machine_eq_some.1 hstep
    rw [taken_snoc]
    rcases ih hpast with ⟨hnone, n, hbefore⟩ | hreading
    · rw [hnone, List.nil_append]
      exact hbefore.step hreads ht hlast hdoes
    · exact .inr (hreading.step ht hlast hdoes)

/-- Nothing is left where nothing can happen any more. -/
theorem left_of_over (hover : Over readFrom now d) : d.left = [] := by
  obtain ⟨ahead, offered, slots⟩ := d
  have hnever {t : Nat} {e : Event} {d' : Delivery α} {effects : List α} (ht : now ≤ t)
      (hdoes : Does readFrom t ⟨ahead, offered, slots⟩ e d' effects) : False := by
    have hstep := machine_eq_some.2 hdoes
    rw [hover t ht e] at hstep
    cases hstep
  cases slots with
  | cons x rest => exact (hnever (Nat.le_max_left now readFrom) (.took (Nat.le_max_right _ _))).elim
  | nil =>
    cases offered with
    | some waiting => exact (hnever (Nat.le_refl now) (.placed (Nat.zero_lt_succ _))).elim
    | none =>
      cases ahead with
      | cons x rest => exact (hnever (Nat.le_refl now) (.stored (Nat.zero_lt_succ _))).elim
      | nil => rfl

/-- What the consumer has been given in the end. -/
theorem taken_of_over (run : Runs readFrom items h now d) (hprompt : Prompt readFrom h)
    (hover : Over readFrom now d) (hreads : readFrom % deliveryTimeout ≠ 0) :
    taken h = kept (readFrom / deliveryTimeout) items := by
  have hleft := left_of_over hover
  rcases stands_of_runs run hprompt hreads with ⟨hnone, n, hbefore⟩ | hreading
  · have hkept : kept n items = [] := hbefore.left.symm.trans hleft
    have hitems : items = [] :=
      (List.take_eq_nil_iff.1 (List.append_eq_nil_iff.1 hkept).1).resolve_left (by decide)
    simp [hnone, hitems, kept]
  · rw [← hreading.left, hleft, List.append_nil]

/-- How much is yet to happen, at most. -/
def weight (d : Delivery α) : Nat :=
  3 * d.ahead.length + 2 * d.offered.toList.length + d.slots.length

/-- Every event leaves less to happen. -/
theorem weight_of_does (hdoes : Does readFrom now d e d' effects) : d'.weight < d.weight := by
  cases hdoes <;> simp [weight] <;> omega

/-- A run in which nothing is put off goes on so until nothing can happen any more. -/
theorem exists_over (run : Runs readFrom items h now d) (hprompt : Prompt readFrom h) :
    ∃ h' now' d', Runs readFrom items h' now' d' ∧ Prompt readFrom h' ∧ Over readFrom now' d' := by
  induction hweight : d.weight using Nat.strongRecOn generalizing h now d with
  | _ weight ih =>
    by_cases hover : Over readFrom now d
    · exact ⟨h, now, d, run, hprompt, hover⟩
    · -- The next event is one of those that can happen first.
      have hnext : ∃ t, now ≤ t ∧ ∃ e, machine readFrom t d e ≠ none := by
        simpa [Over] using hover
      classical
      obtain ⟨ht, e, hstep⟩ := Nat.find_spec hnext
      have hfirst : Idle readFrom now (Nat.find hnext) d := by
        intro t hle hlt e
        by_contra hcan
        exact Nat.find_min hnext hlt ⟨hle, e, hcan⟩
      obtain ⟨⟨d', effects⟩, hstep⟩ := Option.ne_none_iff_exists'.1 hstep
      refine ih d'.weight (hweight ▸ weight_of_does (machine_eq_some.1 hstep))
        (run.next ht trivial hstep) (prompt_snoc.2 ⟨hprompt, ?_⟩) rfl
      rw [lastTime_of_runs run]
      exact hfirst

/-- A consumer who does not begin to read at a full second is given what is kept, and nothing
else. -/
theorem gets_iff (hreads : readFrom % deliveryTimeout ≠ 0) (items got : List α) :
    Gets readFrom items got ↔ got = kept (readFrom / deliveryTimeout) items := by
  constructor
  · rintro ⟨h, now, d, run, hprompt, hover, rfl⟩
    exact taken_of_over run hprompt hover hreads
  · rintro rfl
    have hstart : Runs readFrom items [] 0 ⟨items, none, []⟩ := .start
    obtain ⟨h, now, d, run, hprompt, hover⟩ := exists_over hstart (by
      rintro past tr later heq
      simp at heq)
    exact ⟨h, now, d, run, hprompt, hover, taken_of_over run hprompt hover hreads⟩

end

end Delivery

/-- **What a slow consumer loses.** A consumer who takes nothing for some time, but not for whole
seconds, and then everything, is given the sixteen items that fill the slots and those after as many
as full seconds have passed, of the items that a consumer who keeps up is given. So it is for both
readers, however their input is cut into reads and however it ends. -/
theorem slow_consumer_loses (hreads : readFrom % 1000 ≠ 0) :
    (∀ (reads : List (List UInt8)) (failed : Bool),
      let items := Sse.read reads failed
      let all := deliver 0 items
      deliver readFrom items =
          all.take 16 ++ all.drop (16 + readFrom / 1000) ∧
        ∀ got, Delivery.Gets readFrom items got ↔ got = deliver readFrom items) ∧
    ∀ {α : Type} (decode : String → Option α) (reads : List (List UInt8)) (failed : Bool),
      let items := Ndjson.read decode reads failed
      let all := deliver 0 items
      deliver readFrom items =
          all.take 16 ++ all.drop (16 + readFrom / 1000) ∧
        ∀ got, Delivery.Gets readFrom items got ↔ got = deliver readFrom items := by
  have hitems {α : Type} (items : List α) :
      deliver readFrom items = (deliver 0 items).take 16 ++
          (deliver 0 items).drop (16 + readFrom / 1000) ∧
        ∀ got, Delivery.Gets readFrom items got ↔ got = deliver readFrom items := by
    rw [deliver_zero, deliver_eq hreads]
    exact ⟨rfl, Delivery.gets_iff hreads items⟩
  exact ⟨fun reads failed => hitems _, fun decode reads failed => hitems _⟩

/-- A consumer begins to read after a second and a half. Of twenty numbers he misses the first for
which there was no slot, and a line that is no value costs him none of those that wait. -/
theorem late_reader_misses_one :
    let number (text : String) := (Json.Tree.ofBytes? (Json.utf8 text)).bind (Json.Tree.natural? 99)
    let lines := String.join ((List.range 20).map fun n => (Text.decimal n).push '\n') ++ "x\n20\n"
    1500 % deliveryTimeout ≠ 0 ∧
      ∀ got, Delivery.Gets 1500 (Ndjson.read number [Json.utf8 lines] false) got ↔
        got = List.range 16 ++ [17, 18, 19] := by
  intro number lines
  have hreads : 1500 % deliveryTimeout ≠ 0 := by decide
  have hgiven : deliver 1500 (Ndjson.read number [Json.utf8 lines] false) =
      List.range 16 ++ [17, 18, 19] := by decide +kernel
  refine ⟨hreads, fun got => ?_⟩
  rw [((slow_consumer_loses hreads).2 number [Json.utf8 lines] false).2 got, hgiven]

end OrderBroker.Stream
