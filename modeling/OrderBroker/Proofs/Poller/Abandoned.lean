import OrderBroker.Proofs.Poller.Refusals
import OrderBroker.Proofs.Poller.RequestRate

/-!
# Abandoned orders

All who wait for an order give up. The round that is under way may still ask for it, or the next one
if none is; with the end of that iteration the order leaves the table, and those who wait for other
orders stand as if it had never been there (`abandoned_order`).

What an order can still cost is counted in advance (`owed`): a question while it stands in the table
of a poller that rests, and the question that a round still has to ask. A step that asks for the
order pays for it, and only a registration that joins adds to what is owed
(`asked_add_owed_le`). Registrations of people who have given up may still stand in the queue; they
are counted, too.
-/

namespace OrderBroker.Freja.Poller

/-- All who wait for the order in the table have given up. -/
def Abandoned (r : String) (p : Poller) : Prop :=
  ∀ g ∈ p.held, g.reference = r → g.waiter.live = false

/-- The effect is a question about the order. -/
def Effect.isFor (r : String) : Effect → Bool
  | .askOne q => q = r
  | _ => false

/-- How often the order is asked for. -/
def askedFor (r : String) (h : History) : Nat := ((questions h).map (·.2)).countP (Effect.isFor r)

/-- Somebody joins those who wait for the order. -/
def joinsFor (r : String) (tr : Transition Poller Event Effect) : Bool :=
  (tr.before.joins? tr.event).any (·.reference = r)

/-- Whoever joins those who wait for the order has given up, before he is taken from the queue. -/
def Stale (r : String) (h : History) : Prop :=
  ∀ tr ∈ h, ∀ g, tr.before.joins? tr.event = some g → g.reference = r → g.waiter.live = false

/-- The order does not stand in the table, and no round starts for its sake. -/
structure Absent (r : String) (tr : Transition Poller Event Effect) : Prop where
  before : r ∉ tr.before.orders
  after : r ∉ tr.after.orders
  opens : ∀ orders, Opens tr orders → r ∉ orders

/-- The transition ends an iteration as if nobody had waited for the order: those who wait for
others and have not given up are answered or stand where they stood, and nobody else is left. -/
structure Spares (r : String) (tr : Transition Poller Event Effect) : Prop where
  pruned : tr.after = (tr.before.unpruned tr.time tr.event).endRound tr.time
  without : tr.after =
    ((tr.before.unpruned tr.time tr.event).withoutReference r).endRound tr.time
  waiters : ∀ r', tr.after.waitersOf r' =
    ((tr.before.unpruned tr.time tr.event).waitersOf r').filter (·.live)
  kept : ∀ g ∈ tr.before.held, g.waiter.live = true →
    g ∈ tr.after.held ∨ ∃ o, (g.waiter.id, o) ∈ answersOf tr.effects

section
variable {p p' q : Poller} {t t₀ now interval : Nat} {e : Event} {effects : List Effect}
  {h past later : History} {tr : Transition Poller Event Effect} {r r' : String}
  {orders : List String} {g : Registration} {may : History → Event → Prop}

/-! ## Pruning -/

/-- An order is left by a pruning if somebody waits for it who has not given up. -/
theorem mem_orders_prune :
    r ∈ (p.prune now).orders ↔ ∃ g ∈ p.held, g.reference = r ∧ g.waiter.live = true := by
  constructor
  · intro hr
    obtain ⟨⟨_, ws⟩, he, rfl⟩ := List.mem_map.1 hr
    obtain ⟨he, hsome⟩ := List.mem_filter.1 he
    obtain ⟨w, hw⟩ := List.exists_mem_of_ne_nil ws (by simpa using hsome)
    have hheld : ⟨w, _⟩ ∈ (p.prune now).held :=
      List.mem_flatMap.2 ⟨_, List.mem_filter.2 ⟨he, hsome⟩, List.mem_map_of_mem hw⟩
    rw [held_prune] at hheld
    obtain ⟨hheld, hlive⟩ := List.mem_filter.1 hheld
    exact ⟨_, hheld, rfl, hlive⟩
  · rintro ⟨g, hg, rfl, hlive⟩
    refine reference_mem_orders (p := p.prune now) ?_
    rw [held_prune]
    exact List.mem_filter.2 ⟨hg, hlive⟩

/-- **Pruning leaves those who wait for an order** and have not given up, in their order. -/
theorem waitersOf_prune (hp : Sound p) (now : Nat) (r : String) :
    (p.prune now).waitersOf r = (p.waitersOf r).filter (·.live) := by
  suffices H : ∀ waiting : List (String × List Waiter), (waiting.map (·.1)).Nodup →
      (((waiting.map fun e => (e.1, e.2.filter (·.live))).filter (!·.2.isEmpty)).lookup r).getD [] =
        ((waiting.lookup r).getD []).filter (·.live) from H p.waiting hp.orders_nodup
  intro waiting hnodup
  induction waiting with
  | nil => rfl
  | cons e rest ih =>
    obtain ⟨hout, hnodup⟩ := List.nodup_cons.1 hnodup
    by_cases hr : r = e.1
    · subst hr
      rw [List.map_cons, List.lookup_cons_self, Option.getD_some]
      cases hws : e.2.filter (·.live) with
      | nil =>
        -- Nobody else stands under the order, so that nobody is left for it.
        rw [List.filter_cons_of_neg (by simp), List.lookup_eq_none_iff.2, Option.getD_none]
        intro e' he'
        obtain ⟨e'', he'', rfl⟩ := List.mem_map.1 (List.mem_filter.1 he').1
        have hne : e.1 ≠ e''.1 := fun heq => hout (List.mem_map.2 ⟨e'', he'', heq.symm⟩)
        simpa using hne
      | cons w ws => rw [List.filter_cons_of_pos (by simp), List.lookup_cons_self, Option.getD_some]
    · have hskip : (r == e.1) = false := by simpa using hr
      rw [List.map_cons, List.lookup_cons, hskip, ← ih hnodup, List.filter_cons]
      split
      · simp [List.lookup_cons, hskip]
      · rfl

/-- **An order that was abandoned makes no difference** to the pruning that removes it. -/
theorem endRound_withoutReference (habandoned : Abandoned r p) (now : Nat) :
    (p.withoutReference r).endRound now = p.endRound now := by
  have hsame : ((p.withoutReference r).prune now).waiting = (p.prune now).waiting := by
    suffices H : ∀ waiting : List (String × List Waiter),
        (∀ g ∈ heldIn waiting, g.reference = r → g.waiter.live = false) →
        (((waiting.filter (·.1 ≠ r)).map fun e => (e.1, e.2.filter (·.live))).filter
            (!·.2.isEmpty)) =
          (waiting.map fun e => (e.1, e.2.filter (·.live))).filter (!·.2.isEmpty) from
      H p.waiting habandoned
    intro waiting hdead
    induction waiting with
    | nil => rfl
    | cons e rest ih =>
      have ih := ih fun g hg => hdead g (List.mem_append_right _ hg)
      by_cases hr : e.1 = r
      · have hnone : e.2.filter (·.live) = [] := by
          refine List.filter_eq_nil_iff.2 fun w hw => ?_
          have hgone := hdead ⟨w, e.1⟩ (List.mem_append_left _ (List.mem_map_of_mem hw)) hr
          simpa using hgone
        rw [List.filter_cons_of_neg (by simp [hr]), ih, List.map_cons, hnone,
          List.filter_cons_of_neg (by simp)]
      · rw [List.filter_cons_of_pos (by simp [hr]), List.map_cons, List.map_cons, List.filter_cons,
          List.filter_cons, ih]
  rw [endRound, endRound, hsame]
  unfold prune at hsame ⊢
  simp only at hsame
  rw [hsame]
  rfl

/-! ## Those in the table -/

/-- Whoever stands in the table of `q` stood in that of `p`, for the same order, and has not come
back after giving up. -/
def HeldFrom (p q : Poller) : Prop :=
  ∀ g ∈ q.held, ∃ g₀ ∈ p.held, g.reference = g₀.reference ∧
    (g₀.waiter.live = false → g.waiter.live = false)

/-- Where only some are left, they stood there before. -/
theorem HeldFrom.of_subset (hsubset : q.held ⊆ p.held) : HeldFrom p q :=
  fun g hg => ⟨g, hsubset hg, rfl, id⟩

/-- An order that was abandoned is abandoned as long as nobody comes into the table. -/
theorem HeldFrom.abandoned (hfrom : HeldFrom p q) (habandoned : Abandoned r p) : Abandoned r q := by
  intro g hg href
  obtain ⟨g₀, hg₀, hsame, hdead⟩ := hfrom g hg
  exact hdead (habandoned g₀ hg₀ (hsame ▸ href))

/-- The end of a round brings nobody into the table. -/
theorem held_endRound_subset (p : Poller) (now : Nat) : (p.endRound now).held ⊆ p.held := by
  have hpruned : (p.endRound now).held = p.held.filter (·.waiter.live) := held_prune now p
  rw [hpruned]
  exact List.filter_sublist.subset

/-- Nor does a question. -/
theorem held_askNext_subset (p : Poller) (now : Nat) (rs : List String) :
    (p.askNext now rs).1.held ⊆ p.held := by
  cases rs with
  | nil => exact held_endRound_subset p now
  | cons r later => exact List.Subset.refl _

/-- Nor does the start of a round. -/
theorem held_startRound_subset (p : Poller) (now : Nat) : (p.startRound now).1.held ⊆ p.held := by
  unfold startRound
  split
  · exact held_askNext_subset p now _
  · exact List.Subset.refl _

/-- What comes from outside brings nobody into the table. -/
theorem held_of_outer (hstep : machine now p e = some (p', effects)) (houter : e.outer = true) :
    HeldFrom p p' := by
  cases does_of_step hstep with
  | register w r =>
    refine .of_subset ?_
    unfold register
    split
    · exact List.Subset.refl _
    · split <;> exact List.Subset.refl _
  | giveUp w =>
    intro g hg
    rw [held_giveUp] at hg
    obtain ⟨g₀, hg₀, rfl⟩ := List.mem_map.1 hg
    refine ⟨g₀, hg₀, reference_quit w g₀, fun hdead => ?_⟩
    unfold quit
    split
    · rfl
    · exact hdead
  | shutdown => exact .of_subset (List.Subset.refl _)
  | relist hperm => exact .of_subset (hperm.flatMap_right _).subset
  | move | toldOne | toldAll => cases houter

/-- An order that was abandoned is abandoned before the pruning, if whoever joins has given up. -/
theorem abandoned_unpruned (hp : Sound p) (habandoned : Abandoned r p)
    (hstale : ∀ g, p.joins? e = some g → g.reference = r → g.waiter.live = false) (now : Nat) :
    Abandoned r (p.unpruned now e) := by
  have hfirst : p.withoutFirst.held = p.held := by rw [withoutFirst_eq]; rfl
  unfold unpruned
  split
  · exact HeldFrom.abandoned (.of_subset fun g hg => (works_takeOne hp now _ _).settles.mem_before hg)
      habandoned
  · exact HeldFrom.abandoned (.of_subset fun g hg => (works_processAll hp now _).settles.mem_before hg)
      habandoned
  · have hbefore : Abandoned r p.withoutFirst := by rwa [Abandoned, hfirst]
    split
    · next g hjoins =>
      intro g' hg' href
      rcases List.mem_append.1 ((heldIn_addWaiter _ _ _).mem_iff.1 hg') with hg' | hg'
      · exact hbefore g' hg' href
      · rw [List.mem_singleton] at hg'
        subst hg'
        exact hstale g hjoins href
    · exact hbefore
  · exact habandoned

/-- A step that is no event from outside brings nobody into the table after `unpruned`. -/
theorem held_after_subset (hstep : machine now p e = some (p', effects)) (houter : e.outer = false) :
    p'.held ⊆ (p.unpruned now e).held := by
  cases turn_of_step hstep with
  | outside h =>
    rw [h] at houter
    cases houter
  | stop => exact List.nil_subset _
  | late _ _ hnone _ =>
    simp only [unpruned, hnone]
    exact held_endRound_subset _ now
  | join _ hjoins _ =>
    simp only [unpruned, hjoins]
    exact held_startRound_subset _ now
  | round => exact held_startRound_subset p now
  | one => exact held_askNext_subset _ now _
  | all => exact held_endRound_subset _ now

/-- **An order that was abandoned stays so**, if whoever joins has given up. -/
theorem abandoned_of_step (hp : Sound p) (hstep : machine now p e = some (p', effects))
    (habandoned : Abandoned r p)
    (hstale : ∀ g, p.joins? e = some g → g.reference = r → g.waiter.live = false) :
    Abandoned r p' := by
  cases houter : e.outer with
  | true => exact (held_of_outer hstep houter).abandoned habandoned
  | false =>
    exact (HeldFrom.of_subset (held_after_subset hstep houter)).abandoned
      (abandoned_unpruned hp habandoned hstale now)

/-- **An order that was abandoned leaves the table** at the end of an iteration. -/
theorem not_mem_orders_of_ends
    (hstep : machine tr.time tr.before tr.event = some (tr.after, tr.effects))
    (hends : ends tr = true)
    (habandoned : Abandoned r (tr.before.unpruned tr.time tr.event)) : r ∉ tr.after.orders := by
  rw [after_of_ends hstep hends]
  intro hr
  have hpruned : r ∈ ((tr.before.unpruned tr.time tr.event).prune tr.time).orders := hr
  obtain ⟨g, hg, href, hlive⟩ := mem_orders_prune.1 hpruned
  rw [habandoned g hg href] at hlive
  cases hlive

/-- **An order that was abandoned stays so** in the course of a run. -/
theorem abandoned_of_run (hp : Sound q) (run : Run machine may t q later now p)
    (habandoned : Abandoned r q) (hstale : Stale r later) : Abandoned r p := by
  induction later generalizing q t may with
  | nil => exact run.eq_start.2 ▸ habandoned
  | cons tr later ih =>
    obtain ⟨⟨-, rfl, -, hstep⟩, hrest⟩ := Run.cons_iff.1 run
    exact ih (sound_of_step hp hstep) hrest
      (abandoned_of_step hp hstep habandoned (hstale tr (.head _)))
      fun tr' htr' => hstale tr' (.tail _ htr')

/-! ## What an order can still cost -/

/-- How often the order may still be asked for, though nobody joins. -/
def owed (r : String) (p : Poller) : Nat :=
  if p.rests then if r ∈ p.orders then 1 else 0 else p.toAsk.countP (Effect.isFor r)

/-- A round asks once for an order that is waited for. -/
theorem countP_plan_le (hnodup : orders.Nodup) (r : String) :
    (plan orders).countP (Effect.isFor r) ≤ if r ∈ orders then 1 else 0 := by
  unfold plan
  split
  · rw [List.countP_map]
    have hsame : orders.countP (Effect.isFor r ∘ .askOne) = orders.count r :=
      List.countP_congr fun q _ => by simp [Effect.isFor]
    rw [← hnodup.count, ← hsame]
    exact List.filter_sublist.countP_le
  · exact Nat.zero_le _

/-- The step asks for the order, or it is still to be asked for, only if that is owed, or somebody
joins. -/
theorem asked_le (hp : Sound tr.before)
    (hstep : machine tr.time tr.before tr.event = some (tr.after, tr.effects)) :
    (asked tr.effects).countP (Effect.isFor r) + tr.after.toAsk.countP (Effect.isFor r) ≤
      owed r tr.before + (joinsFor r tr).toNat := by
  rw [← List.countP_append]
  cases hrests : tr.before.rests with
  | true =>
    rcases opens_or_idle hstep hrests with ⟨orders, hopens⟩ | ⟨hasked, hleft⟩
    · rw [asked_of_opens hstep hopens]
      refine Nat.le_trans (countP_plan_le (nodup_of_opens hp hstep hopens) r) ?_
      split
      · next hr =>
        rw [owed, hrests, if_pos rfl]
        cases hopens with
        | @joined g hjoins =>
          rcases mem_orders_joined.1 hr with hold | hnew
          · rw [if_pos hold]
            exact Nat.le_add_right 1 _
          · simp [joinsFor, hjoins, hnew]
        | rested =>
          rw [if_pos hr]
          exact Nat.le_add_right 1 _
      · exact Nat.zero_le _
    · rw [hasked, hleft]
      exact Nat.zero_le _
  | false =>
    rw [asked_in_round hstep hrests, owed, hrests]
    exact Nat.le_add_right _ _

/-- **What a step asks for an abandoned order** was owed, and is not owed any more. -/
theorem asked_add_owed_le (hp : Sound tr.before)
    (hstep : machine tr.time tr.before tr.event = some (tr.after, tr.effects))
    (habandoned : Abandoned r (tr.before.unpruned tr.time tr.event)) :
    (asked tr.effects).countP (Effect.isFor r) + owed r tr.after ≤
      owed r tr.before + (joinsFor r tr).toNat := by
  have hle := asked_le (r := r) hp hstep
  cases hrests : tr.after.rests with
  | false =>
    rw [owed.eq_1 r tr.after, hrests]
    exact hle
  | true =>
    cases hends : ends tr with
    | true =>
      have hout := not_mem_orders_of_ends hstep hends habandoned
      rw [owed.eq_1 r tr.after, hrests, if_pos rfl, if_neg hout]
      exact Nat.le_trans (Nat.add_le_add_left (Nat.zero_le _) _) hle
    | false =>
      -- The poller goes on resting, and whatever stands in the table stood there before.
      have hphase := phase_of_not_ends hstep hends hrests
      have hbefore : tr.before.rests = true := by rw [rests, ← hphase, ← rests, hrests]
      have hnone : asked tr.effects = [] := by
        rcases opens_or_idle hstep hbefore with ⟨orders, hopens⟩ | ⟨hnone, -⟩
        · have hmove : tr.event.isMove = true := by
            cases hopens with
            | joined hjoins =>
              rw [(taken?_eq_some.1 (joins?_eq_some.1 hjoins).1).1]
              rfl
            | rested hround =>
              rw [hround]
              rfl
          simp [ends, hrests, hmove] at hends
        · exact hnone
      rw [hnone, List.countP_nil, Nat.zero_add, owed, owed, hrests, hbefore, if_pos rfl, if_pos rfl]
      split
      · next hr =>
        rcases orders_of_step hstep r hr with hold | ⟨g, hjoins, href⟩
        · rw [if_pos hold]
          exact Nat.le_add_right 1 _
        · simp [joinsFor, hjoins, href]
      · exact Nat.zero_le _

/-- **What an abandoned order costs** in the course of a run: what is owed, and a question for each
that joins. -/
theorem askedFor_le (hp : Sound q) (run : Run machine may t q later now p)
    (habandoned : Abandoned r q) (hstale : Stale r later) :
    askedFor r later ≤ owed r q + later.countP (joinsFor r) := by
  induction later generalizing q t may with
  | nil => exact Nat.zero_le _
  | cons tr later ih =>
    obtain ⟨⟨-, rfl, -, hstep⟩, hrest⟩ := Run.cons_iff.1 run
    have hjoins := hstale tr (.head _)
    have ih := ih (sound_of_step hp hstep) hrest (abandoned_of_step hp hstep habandoned hjoins)
      fun tr' htr' => hstale tr' (.tail _ htr')
    have hpays := asked_add_owed_le hp hstep (abandoned_unpruned hp habandoned hjoins tr.time)
    have hcount : (tr :: later).countP (joinsFor r) =
        (joinsFor r tr).toNat + later.countP (joinsFor r) := by
      rw [List.countP_cons, Nat.add_comm]
      cases joinsFor r tr <;> rfl
    rw [askedFor, questions_cons, List.countP_append, ← askedFor, hcount]
    omega

/-- No round has an order twice to ask for. -/
theorem toAsk_nodup (run : Runs t₀ interval h now p) : p.toAsk.countP (Effect.isFor r) ≤ 1 := by
  induction run with
  | start => exact Nat.zero_le _
  | @next h t now s s' e effects run _ _ hstep ih =>
    let tr : Transition Poller Event Effect := ⟨now, s, e, s', effects⟩
    have htr : machine tr.time tr.before tr.event = some (tr.after, tr.effects) := hstep
    have hsub (asks : List Effect) (heq : asked effects ++ s'.toAsk = asks) :
        s'.toAsk.countP (Effect.isFor r) ≤ asks.countP (Effect.isFor r) :=
      heq ▸ (List.sublist_append_right _ _).countP_le
    cases hrests : s.rests with
    | false => exact Nat.le_trans (hsub _ (asked_in_round hstep hrests)) ih
    | true =>
      rcases opens_or_idle htr hrests with ⟨orders, hopens⟩ | ⟨-, hnone⟩
      · have hnodup := nodup_of_opens (sound_of_runs run) htr hopens
        have hle := Nat.le_trans (hsub _ (asked_of_opens htr hopens))
          (countP_plan_le hnodup r)
        split at hle <;> omega
      · exact hnone ▸ Nat.zero_le 1

/-- An order is owed one question at most. -/
theorem owed_le_one (run : Runs t₀ interval h now p) (r : String) : owed r p ≤ 1 := by
  unfold owed
  split
  · split <;> decide
  · exact toAsk_nodup run

/-! ## The others -/

/-- Whoever waits, and has not given up, stands where he stood at the end of an iteration, or is
answered in its course. -/
theorem kept_of_ends (hp : Sound tr.before)
    (hstep : machine tr.time tr.before tr.event = some (tr.after, tr.effects))
    (hends : ends tr = true) (hg : g ∈ tr.before.held) (hlive : g.waiter.live = true) :
    g ∈ tr.after.held ∨ ∃ o, (g.waiter.id, o) ∈ answersOf tr.effects := by
  have hafter := after_of_ends hstep hends
  have hleft (h : g ∈ (tr.before.unpruned tr.time tr.event).held) : g ∈ tr.after.held :=
    hafter ▸ held_endRound h hlive
  have hinner := outer_of_ends hstep hends
  obtain ⟨now, p, e, p', effects⟩ := tr
  simp only at hp hstep hg hleft hinner ⊢
  have hfirst : g ∈ p.withoutFirst.held := by
    rw [withoutFirst_eq]
    exact hg
  cases turn_of_step hstep with
  | outside houter =>
    rw [houter] at hinner
    cases hinner
  | stop => simp [ends, stop, rests] at hends
  | late _ _ hnone _ =>
    simp only [unpruned, hnone] at hleft
    exact .inl (hleft hfirst)
  | join _ hjoins _ =>
    simp only [unpruned, hjoins] at hleft
    exact .inl (hleft ((heldIn_addWaiter _ _ _).mem_iff.2 (List.mem_append_left _ hfirst)))
  | round => exact .inl (hleft hg)
  | @one r later o =>
    rcases (works_takeOne hp now r o).settles.left_or_answered hg hlive with hheld | ⟨o', -, ho⟩
    · exact .inl (hleft hheld)
    · exact .inr ⟨o', answersOf_append _ _ ▸ List.mem_append_left _ ho⟩
  | @all answer hphase =>
    cases answer with
    | ok xs =>
      rcases (works_processAll hp now xs).settles.left_or_answered hg hlive with hheld | ⟨o, -, ho⟩
      · exact .inl (hleft hheld)
      · refine .inr ⟨o, ?_⟩
        simp only [answeredAll, hphase]
        exact ho
    | error _ => exact .inl (hleft hg)

/-- A poller that has stopped ends no iteration. -/
theorem goes_of_ends (hstep : machine tr.time tr.before tr.event = some (tr.after, tr.effects))
    (hends : ends tr = true) : tr.before.phase ≠ .stopped := by
  have hinner := outer_of_ends hstep hends
  obtain ⟨now, p, e, p', effects⟩ := tr
  simp only at hstep hinner ⊢
  intro hstopped
  cases does_of_step hstep with
  | register | giveUp | shutdown | relist => cases hinner
  | move hm => exact goes_of_mem_moves hm hstopped
  | toldOne _ hphase | toldAll _ hphase =>
    rw [hstopped] at hphase
    cases hphase

/-- **The end of an iteration spares the others**: an order that was abandoned makes no difference
to it. -/
theorem spares_of_ends (hp : Sound tr.before)
    (hstep : machine tr.time tr.before tr.event = some (tr.after, tr.effects))
    (hends : ends tr = true) (hunpruned : Sound (tr.before.unpruned tr.time tr.event))
    (habandoned : Abandoned r (tr.before.unpruned tr.time tr.event)) : Spares r tr where
  pruned := after_of_ends hstep hends
  without := by rw [endRound_withoutReference habandoned, after_of_ends hstep hends]
  waiters r' := by
    rw [after_of_ends hstep hends]
    exact waitersOf_prune hunpruned tr.time r'
  kept _ hg hlive := kept_of_ends hp hstep hends hg hlive

/-- What comes before the pruning keeps the poller sound. -/
theorem sound_unpruned (hp : Sound p) (hgoes : p.phase ≠ .stopped) (now : Nat) (e : Event) :
    Sound (p.unpruned now e) := by
  have hfirst : Sound p.withoutFirst := by
    refine hp.of_same ?_ ?_ ?_ <;> rw [withoutFirst_eq]
    exact hgoes
  unfold unpruned
  split
  · exact (works_takeOne hp now _ _).sound
  · exact (works_processAll hp now _).sound
  · split
    · next g hjoins =>
      have hnew : p.withoutFirst.seen? g.reference = none := by
        rw [withoutFirst_eq]
        exact (joins?_eq_some.1 hjoins).2
      refine sound_addWaiter hfirst ?_ now g hnew
      rw [withoutFirst_eq]
      exact hgoes
    · exact hfirst
  · exact hp

/-! ## Until somebody joins -/

/-- An order that does not stand in the table is absent until somebody joins for it. -/
theorem absent_until_joined (run : Run machine may t q later now p) (hout : r ∉ q.orders) :
    ∀ tr ∈ later.takeWhile (!joinsFor r ·), Absent r tr := by
  induction later generalizing q t may with
  | nil => simp
  | cons tr later ih =>
    obtain ⟨⟨-, rfl, -, hstep⟩, hrest⟩ := Run.cons_iff.1 run
    cases hjoins : joinsFor r tr with
    | true => simp [hjoins]
    | false =>
      have hother (g : Registration) (hg : tr.before.joins? tr.event = some g) :
          r ≠ g.reference := by
        rintro rfl
        simp [joinsFor, hg] at hjoins
      have hafter : r ∉ tr.after.orders := fun hr =>
        (orders_of_step hstep r hr).elim hout fun ⟨g, hg, href⟩ => hother g hg href
      rw [List.takeWhile_cons_of_pos (by simp [hjoins])]
      refine List.forall_mem_cons.2 ⟨⟨hout, hafter, fun orders hopens hr => ?_⟩, ih hrest hafter⟩
      cases hopens with
      | joined hg => exact (mem_orders_joined.1 hr).elim hout (hother _ hg)
      | rested => exact hout hr

/-- Whoever comes into the queue waited for room in it. -/
theorem queued_fillQueue (p : Poller) :
    (p.fillQueue.1.blocked ++ p.fillQueue.1.queue).Perm (p.blocked ++ p.queue) := by
  unfold fillQueue
  split
  · exact .refl _
  · next g rest hblocked =>
    rw [hblocked, ← List.append_assoc]
    exact List.perm_append_singleton _ _

/-- Nobody is queued for the order, or waits for room in the queue. -/
def NotQueued (r : String) (p : Poller) : Prop := ∀ g ∈ p.blocked ++ p.queue, g.reference ≠ r

/-- Only those are queued who were, where the queue stays as it is. -/
theorem NotQueued.of_same (hnone : NotQueued r p) (hblocked : p'.blocked = p.blocked)
    (hqueue : p'.queue = p.queue) : NotQueued r p' := by
  rw [NotQueued, hblocked, hqueue]
  exact hnone

/-- Nobody is queued for an order for which nobody comes. -/
theorem notQueued_of_step (hstep : machine now p e = some (p', effects)) (hnone : NotQueued r p)
    (hquiet : ∀ w, e ≠ .register w r) : NotQueued r p' := by
  have hframe {s : Poller × List Effect} (h : Frame now p s) : NotQueued r s.1 :=
    hnone.of_same h.blocked h.queue
  cases does_of_step hstep with
  | register w r' =>
    have hnew : NotQueued r { p with blocked := p.blocked ++ [⟨{ id := w }, r'⟩] } := by
      intro g hg href
      rw [List.append_assoc] at hg
      rcases List.mem_append.1 hg with hg | hg
      · exact hnone g (List.mem_append_left _ hg) href
      · rcases List.mem_append.1 hg with hg | hg
        · rw [List.mem_singleton.1 hg] at href
          exact hquiet w (congrArg (Event.register w) href)
        · exact hnone g (List.mem_append_right _ hg) href
    unfold register
    split
    · exact hnone
    · split
      · exact fun g hg => hnew g (by simpa [or_assoc, or_comm, or_left_comm] using hg)
      · exact hnew
  | giveUp w =>
    intro g hg
    rcases List.mem_append.1 hg with hg | hg
    · exact hnone g (List.mem_append_left _ (List.mem_filter.1 hg).1)
    · obtain ⟨g₀, hg₀, rfl⟩ := List.mem_map.1 hg
      exact hnone g₀ (List.mem_append_right _ hg₀)
  | shutdown => exact hnone
  | relist => exact hnone
  | @move m hm =>
    cases m with
    | stop => exact fun g hg => (by cases hg)
    | round => exact hframe Frame.startRound
    | accept =>
      simp only [make, acceptNext]
      split
      · next g rest hqueue =>
        have hframe : Frame now _ (({ p with queue := rest } : Poller).fillQueue.1.accept now g) :=
          Frame.accept g
        refine NotQueued.of_same (fun g' hg' => hnone g' ?_) hframe.blocked hframe.queue
        rcases List.mem_append.1 ((queued_fillQueue _).mem_iff.1 hg') with hg' | hg'
        · exact List.mem_append_left _ hg'
        · exact List.mem_append_right _ (hqueue ▸ .tail _ hg')
      · exact hnone
  | toldOne answer hphase => exact hframe (Frame.answeredOne answer)
  | toldAll answer hphase => exact hframe (Frame.answeredAll answer)

/-- Nobody joins those who wait for an order, if nobody is queued for it and nobody comes. -/
theorem none_joins (run : Run machine may t q later now p) (hnone : NotQueued r q)
    (hquiet : ∀ tr ∈ later, ∀ w, tr.event ≠ .register w r) :
    later.countP (joinsFor r) = 0 := by
  induction later generalizing q t may with
  | nil => rfl
  | cons tr later ih =>
    obtain ⟨⟨-, rfl, -, hstep⟩, hrest⟩ := Run.cons_iff.1 run
    have hout : joinsFor r tr = false := by
      unfold joinsFor
      cases hjoins : tr.before.joins? tr.event with
      | none => rfl
      | some g =>
        have hfirst := (taken?_eq_some.1 (joins?_eq_some.1 hjoins).1).2
        have hother := hnone g (List.mem_append_right _ (List.mem_of_mem_head? hfirst))
        simpa using hother
    rw [List.countP_cons, hout,
      ih hrest (notQueued_of_step hstep hnone (hquiet tr (.head _))) fun tr' htr' =>
        hquiet tr' (.tail _ htr')]
    rfl

/-! ## Every run -/

/-- **Abandoned orders.** All who wait for an order in the table have given up. From then on it is
asked for once at most, and once more for each registration of somebody who has given up that is
still taken from the queue. After the first iteration that ends then it does not stand in the table,
until somebody joins, and those who wait for other orders are spared. Nobody joins if nobody is
queued for the order, and nobody comes. -/
theorem abandoned_order (run : Runs t₀ interval (past ++ tr :: later) now p)
    (habandoned : Abandoned r tr.after) (hstale : Stale r later) :
    askedFor r later ≤ 1 + later.countP (joinsFor r) ∧
      (∀ between tr' rest, later = between ++ tr' :: rest → ends tr' = true →
        r ∉ tr'.after.orders ∧ (∀ y ∈ rest.takeWhile (!joinsFor r ·), Absent r y) ∧
          Spares r tr') ∧
      (NotQueued r tr.after → (∀ tr' ∈ later, ∀ w, tr'.event ≠ .register w r) →
        later.countP (joinsFor r) = 0) := by
  obtain ⟨t, hpast, ht, hfresh, hstep⟩ := run.split
  have hafter := hpast.next ht hfresh hstep
  refine ⟨?_, ?_, none_joins run.after⟩
  · have hle := askedFor_le (sound_of_runs hafter) run.after habandoned hstale
    have hone := owed_le_one hafter r
    omega
  · rintro between tr' rest rfl hends
    obtain ⟨t', hbetween, -, -, hstep'⟩ := run.after.split
    have hstill : Abandoned r tr'.before :=
      abandoned_of_run (sound_of_runs hafter) hbetween habandoned fun y hy =>
        hstale y (List.mem_append_left _ hy)
    rw [← List.cons_append, ← List.append_assoc] at run
    obtain ⟨t'', hbefore, -⟩ := run.split
    have hsound := sound_of_runs hbefore
    have hunpruned : Abandoned r (tr'.before.unpruned tr'.time tr'.event) :=
      abandoned_unpruned hsound hstill (hstale tr' (by simp)) tr'.time
    have hgoes := goes_of_ends hstep' hends
    have hout := not_mem_orders_of_ends hstep' hends hunpruned
    exact ⟨hout, absent_until_joined run.after hout, spares_of_ends hsound hstep' hends
      (sound_unpruned hsound hgoes _ _) hunpruned⟩

end

/-- Two wait for two orders, and one of them gives up. The next round asks for his order once more,
and only the other order is left in the table then. -/
theorem asked_once_more :
    ∃ past tr later p, Runs 0 1000 (past ++ tr :: later) 1010 p ∧ tr.event = .giveUp 1 ∧
      Abandoned "A" tr.after ∧ Stale "A" later ∧ askedFor "A" later = 1 ∧
      askedFor "A" later ≤ 1 + later.countP (joinsFor "A") ∧ later.countP (joinsFor "A") = 0 ∧
      ∃ last ∈ later, ends last = true ∧ "A" ∉ last.after.orders ∧ Spares "A" last ∧
        last.after.orders = ["B"] := by
  let told (now : Nat) (r : String) : Nat × Event :=
    (now, .toldOne r (.ok { reference := r, status := .started }))
  let events : List (Nat × Event) := [(0, .register 1 "A"), (0, .move .accept), told 0 "A",
    (10, .register 2 "B"), (10, .move .accept), told 10 "A", told 10 "B", (500, .giveUp 1),
    (1010, .move .round), told 1010 "A", told 1010 "B"]
  obtain ⟨past, tr, first, second, last, p, hplay, honce, hgives, habandoned, hnobody, hcosts, hends,
      hleft⟩ : ∃ past tr first second last p,
      machine.play (Poller.start 0 1000) events = some (past ++ tr :: [first, second, last], p) ∧
        (((past ++ tr :: [first, second, last]).flatMap (·.event.newcomers)).map
          (·.waiter.id)).Nodup ∧
        tr.event = .giveUp 1 ∧ (∀ g ∈ tr.after.held, g.reference = "A" → g.waiter.live = false) ∧
        (∀ tr' ∈ [first, second, last], tr'.before.joins? tr'.event = none) ∧
        askedFor "A" [first, second, last] = 1 ∧ ends last = true ∧ last.after.orders = ["B"] :=
    ⟨[_, _, _, _, _, _, _], _, _, _, _, _, rfl, by decide, rfl, by decide, by decide, rfl, rfl, rfl⟩
  have run := runs_of_play hplay (by decide) honce
  have hstale : Stale "A" [first, second, last] := fun tr' htr' g hg => by
    rw [hnobody tr' htr'] at hg
    cases hg
  obtain ⟨hcount, hiteration, -⟩ := abandoned_order run habandoned hstale
  obtain ⟨hout, -, hspares⟩ := hiteration [first, second] last [] rfl hends
  refine ⟨past, tr, _, p, run, hgives, habandoned, hstale, hcosts, hcount, ?_, last, by simp, hends,
    hout, hspares, hleft⟩
  refine List.countP_eq_zero.2 fun tr' htr' => ?_
  rw [joinsFor, hnobody tr' htr']
  decide

end OrderBroker.Freja.Poller
