import OrderBroker.Proofs.Poller.Rounds

/-!
# Orders that Freja does not know

Somebody waits for an order that Freja does not know. Asked for this order, Freja says so, and those
who wait for it are told. Asked for all orders, Freja leaves it out, and those who wait for it go on
waiting. Which of the two it is depends on how many other orders are waited for (`unknown_order`).

The round may be interrupted by others who come or give up.
-/

namespace OrderBroker.Freja.Poller

/-- Freja does not know an order: asked for it, Freja says so, and no result that Freja tells is one
of this order. -/
structure Unknown (h : History) (r : String) : Prop where
  asked : ∀ tr ∈ h, ∀ o, tr.event = .toldOne r o →
    ∃ failure, o = .error failure ∧ saysUnknown failure = true
  unlisted : ∀ tr ∈ h, ∀ x ∈ tr.event.results, x.reference ≠ r

/-- `Fails p h q r`: from `p` to `q` the order `r` leaves the table, and all who wait for it and do
not give up are told that Freja does not know it. -/
structure Fails (p : Poller) (h : History) (q : Poller) (r : String) : Prop where
  gone : r ∉ q.orders
  told : ∀ g ∈ p.held, g.reference = r → g.waiter.live = true → ¬ GaveUp h g.waiter.id →
    ∃ failure, saysUnknown failure = true ∧ (g.waiter.id, .error failure) ∈ answers h

/-- Freja does not know an order later that it never knows. -/
theorem Unknown.tail {tr : Transition Poller Event Effect} {h : History} {r : String}
    (hunknown : Unknown (tr :: h) r) : Unknown h r :=
  ⟨fun tr' htr' => hunknown.asked tr' (.tail _ htr'),
    fun tr' htr' => hunknown.unlisted tr' (.tail _ htr')⟩

section
variable {p p' q : Poller} {t now : Nat} {r asked : String} {o : Outcome} {e : Event}
  {effects : List Effect}

/-! ## Answers about one order -/

/-- The order that an answer is about, when one was asked for. -/
def subject (asked : String) : Outcome → String
  | .ok x => x.reference
  | .error _ => asked

/-- Whoever is told something when an answer is taken is told this answer, about his order. -/
theorem works_takeOne (hp : Sound p) (now : Nat) (asked : String) (o : Outcome) :
    Works (fun g o' => g.reference = subject asked o ∧ o' = o) p (p.takeOne now asked o).1
      (answersOf (p.takeOne now asked o).2) := by
  cases o with
  | ok x => exact (works_process hp now x).mono fun g o' _ htold => ⟨htold.2.1, htold.2.2.2⟩
  | error failure =>
    simp only [takeOne]
    split
    · exact (works_fail hp asked failure).mono fun g o' _ htold => ⟨htold.2.1, htold.2.2⟩
    · exact .refl hp

/-- An order that Freja does not know leaves the table when Freja says so. -/
theorem not_mem_orders_takeOne (p : Poller) (now : Nat) (r : String) {failure : Failure}
    (hunknown : saysUnknown failure = true) : r ∉ (p.takeOne now r (.error failure)).1.orders := by
  simp only [takeOne, hunknown, if_true]
  exact not_mem_orders_withoutReference p r

/-! ## Orders in the course of a round -/

/-- No order comes into the table when a result is taken. -/
theorem orders_process_subset (p : Poller) (now : Nat) (x : Result) :
    (p.process now x).1.orders ⊆ p.orders := by
  unfold process
  split
  · exact (orders_withoutReference_sublist p x.reference).subset
  · exact List.Subset.refl _

/-- Nor when results are. -/
theorem orders_processAll_subset (p : Poller) (now : Nat) (xs : List Result) :
    (p.processAll now xs).1.orders ⊆ p.orders := by
  induction xs generalizing p with
  | nil => exact List.Subset.refl _
  | cons x rest ih => exact List.Subset.trans (ih _) (orders_process_subset p now x)

/-- Nor when an answer about one order is. -/
theorem orders_takeOne_subset (p : Poller) (now : Nat) (asked : String) (o : Outcome) :
    (p.takeOne now asked o).1.orders ⊆ p.orders := by
  cases o with
  | ok x => exact orders_process_subset p now x
  | error failure =>
    simp only [takeOne]
    split
    · exact (orders_withoutReference_sublist p asked).subset
    · exact List.Subset.refl _

/-- Nor at the end of a round. -/
theorem orders_endRound_subset (p : Poller) (now : Nat) : (p.endRound now).orders ⊆ p.orders := by
  intro r hr
  simp only [orders, endRound, prune, List.mem_map, List.mem_filter] at hr ⊢
  obtain ⟨-, ⟨⟨e, he, rfl⟩, -⟩, rfl⟩ := hr
  exact ⟨e, he, rfl⟩

/-- Nor with a question. -/
theorem orders_askNext_subset (p : Poller) (now : Nat) (asked : List String) :
    (p.askNext now asked).1.orders ⊆ p.orders := by
  cases asked with
  | nil => exact orders_endRound_subset p now
  | cons r rest => exact List.Subset.refl _

/-- **No order comes into the table while the poller asks.** -/
theorem InRound.orders_subset (hin : InRound now p e p' effects) : p'.orders ⊆ p.orders := by
  cases hin with
  | other _ horders _ => exact horders
  | toldOne o _ =>
    exact List.Subset.trans (orders_askNext_subset _ now _) (orders_takeOne_subset p now _ o)
  | toldAll answer hphase =>
    simp only [answeredAll, hphase]
    cases answer with
    | ok xs =>
      exact List.Subset.trans (orders_endRound_subset _ now) (orders_processAll_subset p now xs)
    | error _ => exact orders_endRound_subset p now

variable {may : History → Event → Prop} {h : History} {failure : Failure} {g : Registration}

/-- No order comes into the table in the course of a round. -/
theorem orders_subset_of_round (run : Run machine may t p h now q)
    (hround : ∀ tr ∈ h, tr.before.rests = false) : q.orders ⊆ p.orders := by
  induction h generalizing p t may with
  | nil =>
    obtain ⟨-, rfl⟩ := run.eq_start
    exact List.Subset.refl _
  | cons tr h ih =>
    obtain ⟨⟨-, rfl, -, hstep⟩, hrest⟩ := Run.cons_iff.1 run
    exact List.Subset.trans (ih hrest fun tr' htr' => hround tr' (.tail _ htr'))
      (inRound_of_step hstep (hround tr (.head _))).orders_subset

/-! ## Rounds of single questions -/

/-- Whoever waits for an order that is not in question stands where he stood when an answer has been
taken and the next question asked. -/
theorem held_of_other (hp : Sound p) (hother : subject asked o ≠ g.reference) (later : List String)
    (hg : g ∈ p.held) (hlive : g.waiter.live = true) :
    g ∈ ((p.takeOne now asked o).1.askNext now later).1.held := by
  have hworks := works_takeOne hp now asked o
  have hleft : g ∈ (p.takeOne now asked o).1.held :=
    (hworks.settles.left_or_answered hg hlive).resolve_right
      fun ⟨_, htold, _⟩ => hother htold.1.symm
  cases later with
  | nil =>
    have hpruned := held_prune now (p.takeOne now asked o).1
    exact hpruned.symm ▸ List.mem_filter.2 ⟨hleft, hlive⟩
  | cons r rest => exact hleft

/-- **A round that asks for an order that Freja does not know** ends without it, and tells so those
who wait for it. -/
theorem told_in_round (hp : Sound p) (run : Run machine may t p h now q)
    (hround : ∀ tr ∈ h, tr.before.rests = false) (hover : q.rests = true) (hr : r ∈ p.agenda)
    (hunknown : Unknown h r) : Fails p h q r := by
  induction h generalizing p t may with
  | nil =>
    obtain ⟨-, rfl⟩ := run.eq_start
    rw [agenda_of_rests hover] at hr
    cases hr
  | cons tr h ih =>
    obtain ⟨⟨-, rfl, -, hstep⟩, hrest⟩ := Run.cons_iff.1 run
    have hroundRest : ∀ tr' ∈ h, tr'.before.rests = false := fun tr' htr' =>
      hround tr' (.tail _ htr')
    have ih := ih (sound_of_step hp hstep) hrest hroundRest
    have hsubset := orders_subset_of_round hrest hroundRest
    have hsent : answers (tr :: h) = answersOf tr.effects ++ answers h := rfl
    have hin := inRound_of_step hstep (hround tr (.head _))
    obtain ⟨time, before, event, after, effects⟩ := tr
    simp only at hr hin hsubset hsent ih ⊢
    -- Those who still stand in the table after this step are told later.
    have hlater (hagenda : r ∈ after.agenda)
        (hheld : ∀ g ∈ before.held, g.reference = r → g.waiter.live = true →
          event ≠ .giveUp g.waiter.id → g ∈ after.held) :
        Fails before (⟨time, before, event, after, effects⟩ :: h) q r := by
      obtain ⟨hout, htold⟩ := ih hagenda hunknown.tail
      refine ⟨hout, fun g hg href hlive hstays => ?_⟩
      obtain ⟨failure, hfailure, hmem⟩ := htold g
        (hheld g hg href hlive fun hquits => hstays ⟨_, .head _, hquits⟩) href hlive
        fun ⟨tr', htr', hquits⟩ => hstays ⟨tr', .tail _ htr', hquits⟩
      exact ⟨failure, hfailure, hsent ▸ List.mem_append_right _ hmem⟩
    cases hin with
    | other hphase _ hheld =>
      exact hlater (by rwa [agenda, hphase]) fun g hg _ _ hstays => hheld g hg hstays
    | @toldOne asked later o hphase =>
      rw [agenda, hphase] at hr
      by_cases hasked : asked = r
      · subst hasked
        obtain ⟨failure, rfl, hfailure⟩ := hunknown.asked _ (.head _) o rfl
        have hgone := not_mem_orders_takeOne before time asked hfailure
        refine ⟨fun hmem => hgone (orders_askNext_subset _ time later (hsubset hmem)),
          fun g hg href hlive _ => ⟨failure, hfailure, ?_⟩⟩
        rw [hsent, answersOf_append]
        rcases (works_takeOne hp time asked (.error failure)).settles.left_or_answered hg hlive
          with hleft | ⟨o, ⟨-, rfl⟩, ho⟩
        · have hmem := reference_mem_orders hleft
          rw [href] at hmem
          exact absurd hmem hgone
        · exact List.mem_append_left _ (List.mem_append_left _ ho)
      · have hother : subject asked o ≠ r := by
          cases o with
          | ok x => exact hunknown.unlisted _ (.head _) x (.head _)
          | error _ => exact hasked
        refine hlater ?_ fun g hg href hlive _ =>
          held_of_other hp (href ▸ hother) later hg hlive
        rw [agenda_askNext]
        exact (List.mem_cons.1 hr).resolve_left (Ne.symm hasked)
    | toldAll answer hphase =>
      rw [agenda, hphase] at hr
      cases hr

/-! ## Rounds of one question about all orders -/

/-- Whoever waits for an order of which no result is told stands where he stood when results have
been taken. -/
theorem held_of_unlisted (hp : Sound p) {xs : List Result}
    (hunlisted : ∀ x ∈ xs, x.reference ≠ g.reference) (hg : g ∈ p.held)
    (hlive : g.waiter.live = true) : g ∈ ((p.processAll now xs).1.endRound now).held := by
  have hleft : g ∈ (p.processAll now xs).1.held := by
    refine ((works_processAll hp now xs).settles.left_or_answered hg hlive).resolve_right ?_
    rintro ⟨o, ⟨-, x, hx, -⟩, -⟩
    obtain ⟨hmem, href, -⟩ := firstFinal_spec hx
    exact hunlisted x hmem href
  have hpruned := held_prune now (p.processAll now xs).1
  exact hpruned.symm ▸ List.mem_filter.2 ⟨hleft, hlive⟩

/-- **A round that asks for all orders** leaves those who wait for an order that Freja does not know
where they stand. -/
theorem held_after_bulk (hp : Sound p) (run : Run machine may t p h now q)
    (hround : ∀ tr ∈ h, tr.before.rests = false) (hbulk : p.phase = .bulk)
    (hunknown : Unknown h g.reference) (hg : g ∈ p.held) (hlive : g.waiter.live = true)
    (hstays : ¬ GaveUp h g.waiter.id) : g ∈ q.held := by
  induction h generalizing p t may with
  | nil =>
    obtain ⟨-, rfl⟩ := run.eq_start
    exact hg
  | cons tr h ih =>
    obtain ⟨⟨-, rfl, -, hstep⟩, hrest⟩ := Run.cons_iff.1 run
    have hin := inRound_of_step hstep (hround tr (.head _))
    have hsound := sound_of_step hp hstep
    obtain ⟨time, before, event, after, effects⟩ := tr
    simp only at hin hbulk hg
    cases hin with
    | other hphase _ hheld =>
      exact ih hsound hrest (fun tr' htr' => hround tr' (.tail _ htr')) (hphase.trans hbulk)
        hunknown.tail (hheld g hg fun hquits => hstays ⟨_, .head _, hquits⟩)
        fun ⟨tr', htr', hquits⟩ => hstays ⟨tr', .tail _ htr', hquits⟩
    | toldOne o hphase =>
      rw [hbulk] at hphase
      cases hphase
    | toldAll answer _ =>
      -- With the answer the round is over.
      have hafter : g ∈ (before.answeredAll time answer).1.held ∧
          (before.answeredAll time answer).1.rests = true := by
        simp only [answeredAll, hbulk]
        cases answer with
        | ok xs =>
          exact ⟨held_of_unlisted hp (hunknown.unlisted _ (.head _)) hg hlive, rfl⟩
        | error _ =>
          have hpruned := held_prune time before
          exact ⟨hpruned.symm ▸ List.mem_filter.2 ⟨hg, hlive⟩, rfl⟩
      cases h with
      | nil =>
        obtain ⟨-, rfl⟩ := hrest.eq_start
        exact hafter.1
      | cons tr' h =>
        obtain ⟨⟨-, hbefore, -, -⟩, -⟩ := Run.cons_iff.1 hrest
        have hasks := hround tr' (.tail _ (.head _))
        rw [hbefore, hafter.2] at hasks
        cases hasks

/-! ## Every round -/

/-- `Whole tr h q`: the transition `tr` starts a round, `h` is what happens in its course, and `q`
the poller when it is over. -/
structure Whole (tr : Transition Poller Event Effect) (h : History) (q : Poller) : Prop where
  rested : tr.before.rests = true
  asks : tr.after.rests = false
  course : ∀ tr' ∈ h, tr'.before.rests = false
  ended : q.rests = true

/-- **An order that Freja does not know.** Somebody waits for it when a round starts. If fewer than
five orders are waited for, those who wait for this one are told in the round that Freja does not
know it. If five or more are, they stand after the round where they stood, and have been told
nothing. -/
theorem unknown_order {t₀ interval : Nat} {past : History} {tr : Transition Poller Event Effect}
    (run : Runs t₀ interval (past ++ tr :: h) now q) (hround : Whole tr h q)
    (hr : r ∈ tr.after.orders) (hname : r ≠ "") (hunknown : Unknown h r) :
    (tr.after.orders.length < 5 → Fails tr.after h q r) ∧
      (5 ≤ tr.after.orders.length →
        ∀ g ∈ tr.after.held, g.reference = r → g.waiter.live = true → ¬ GaveUp h g.waiter.id →
          g ∈ q.held ∧ ∀ o, (g.waiter.id, o) ∉ answers (past ++ tr :: h)) := by
  obtain ⟨t, hpast, -, -, hstep⟩ := run.split
  have hstarts := starts_of_step hstep hround.rested hround.asks hr
  have hsound := sound_of_step (sound_of_runs hpast) hstep
  refine ⟨fun hfew => ?_, fun hmany g hg href hlive hstays => ?_⟩
  · refine told_in_round hsound run.after hround.course hround.ended ?_ hunknown
    rw [hstarts.few (List.length_pos_of_mem hr) hfew]
    exact List.mem_filter.2 ⟨hr, by simpa using hname⟩
  · subst href
    have hheld := held_after_bulk hsound run.after hround.course (hstarts.many hmany) hunknown hg
      hlive hstays
    refine ⟨hheld, fun o ho => ?_⟩
    -- Whoever stands in the table has not been answered.
    have hapart := (List.nodup_append.1 (Kept.of_runs run).nodup).2.2
    refine hapart g.waiter.id (List.mem_map_of_mem ?_) g.waiter.id (List.mem_map_of_mem ho) rfl
    exact List.mem_append_right _ hheld

end

/-- Four orders are waited for, of which none is final, and somebody wants to wait for a fifth. -/
def fourAndOne : Poller :=
  { interval := 1000
    waiting := [("A", [{ id := 1 }]), ("B", [{ id := 2 }]), ("C", [{ id := 3 }]),
      ("D", [{ id := 4 }])]
    queue := [⟨{ id := 5 }, "X"⟩]
    registeredAt := 30
    phase := .resting 1035 }

/-- It can come to that. -/
theorem runs_fourAndOne : ∃ past, Runs 0 1000 past 40 fourAndOne := by
  let comes (now w : Nat) (r : String) : List (Nat × Event) :=
    [(now, .register w r), (now, .move .accept)]
  let told (now : Nat) (rs : List String) : List (Nat × Event) :=
    rs.map fun r => (now, .toldOne r (.ok { reference := r, status := .started }))
  let events := comes 0 1 "A" ++ told 5 ["A"] ++ comes 10 2 "B" ++ told 15 ["A", "B"] ++
    comes 20 3 "C" ++ told 25 ["A", "B", "C"] ++ comes 30 4 "D" ++ told 35 ["A", "B", "C", "D"] ++
    [(40, .register 5 "X")]
  obtain ⟨past, hplay, honce⟩ : ∃ past,
      machine.play (Poller.start 0 1000) events = some (past, fourAndOne) ∧
        ((past.flatMap (·.event.newcomers)).map (·.waiter.id)).Nodup := ⟨_, rfl, by decide⟩
  exact ⟨past, runs_of_play hplay (by decide) honce⟩

/-- Five orders are waited for, and Freja, asked for all of them, tells of four. -/
theorem asked_for_five :
    ∃ past tr h q, Runs 0 1000 (past ++ tr :: h) 45 q ∧ Whole tr h q ∧
      tr.after.orders = ["A", "B", "C", "D", "X"] ∧ q.orders = ["A", "B", "C", "D", "X"] ∧
      ⟨{ id := 5 }, "X"⟩ ∈ tr.after.held ∧ Unknown h "X" ∧
      ∃ xs, h.map (·.event) = [.toldAll (.ok xs)] := by
  obtain ⟨past, h₁⟩ := runs_fourAndOne
  let four : List Result :=
    ["A", "B", "C", "D"].map fun r => { reference := r, status := .started }
  have h₂ := h₁.next (Nat.le_refl 40) (fresh_of_newcomers (e := .move .accept) rfl) rfl
  have h₃ := h₂.next (Nat.le_add_right 40 5) (fresh_of_newcomers (e := .toldAll (.ok four)) rfl) rfl
  have hunlisted : ∀ x ∈ four, x.reference ≠ "X" := by decide
  refine ⟨past, _, [_], _, List.append_assoc _ _ _ ▸ h₃,
    ⟨rfl, rfl, List.forall_mem_singleton.2 rfl, rfl⟩, rfl, rfl, by decide, ⟨?_, ?_⟩, four, rfl⟩
  · exact List.forall_mem_singleton.2 fun _ h => (by cases h)
  · exact List.forall_mem_singleton.2 hunlisted

/-- Somebody who waits alone for an order that Freja does not know is told so. Among four others he
waits on, though Freja answers every question. -/
theorem unknown_alone_and_among_others :
    (∃ past tr h q, Runs 0 1000 (past ++ tr :: h) 5 q ∧ Whole tr h q ∧ tr.after.orders = ["X"] ∧
      Unknown h "X" ∧ Fails tr.after h q "X") ∧
    ∃ past tr h q, Runs 0 1000 (past ++ tr :: h) 45 q ∧ Whole tr h q ∧
      tr.after.orders = ["A", "B", "C", "D", "X"] ∧ Unknown h "X" ∧
      ⟨{ id := 5 }, "X"⟩ ∈ q.held ∧ ∀ o, (5, o) ∉ answers (past ++ tr :: h) := by
  constructor
  · let failure : Failure := .at .freja (.rejected 400 unknownReference "unknown")
    have h₁ : Runs 0 1000 _ 0 _ := Run.next (e := .register 5 "X") .start (Nat.le_refl 0)
      (fun _ _ _ _ h => by simp [Registered] at h) rfl
    have h₂ := h₁.next (Nat.le_refl 0) (fresh_of_newcomers (e := .move .accept) rfl) rfl
    have h₃ := h₂.next (Nat.le_add_right 0 5)
      (fresh_of_newcomers (e := .toldOne "X" (.error failure)) rfl) rfl
    obtain ⟨past, tr, h, q, run, hround, horders, hunknown⟩ :
        ∃ past tr h q, Runs 0 1000 (past ++ tr :: h) 5 q ∧ Whole tr h q ∧ tr.after.orders = ["X"] ∧
          Unknown h "X" :=
      ⟨[_], _, [_], _, h₃, ⟨rfl, rfl, List.forall_mem_singleton.2 rfl, rfl⟩, rfl,
        List.forall_mem_singleton.2 fun o heq => ⟨failure, by cases heq; rfl, rfl⟩,
        List.forall_mem_singleton.2 fun x hx => (by cases hx)⟩
    refine ⟨past, tr, h, q, run, hround, horders, hunknown, ?_⟩
    exact (unknown_order run hround (horders ▸ .head _) (by decide) hunknown).1
      (horders ▸ by decide)
  · obtain ⟨past, tr, h, q, run, hround, horders, -, hheld, hunknown, xs, hevents⟩ := asked_for_five
    have hstays : ¬ GaveUp h 5 := by
      rintro ⟨tr', htr', hquits⟩
      have hmem := List.mem_map_of_mem (f := (·.event)) htr'
      rw [hevents, List.mem_singleton, hquits] at hmem
      cases hmem
    refine ⟨past, tr, h, q, run, hround, horders, hunknown, ?_⟩
    exact (unknown_order run hround (by simp [horders]) (by decide) hunknown).2
      (horders ▸ by decide) _ hheld rfl rfl hstays

/-- It is not so that a round always fails an order that Freja does not know, though Freja answers
every question of the round. -/
theorem unknown_not_always_failed :
    ¬ ∀ (t₀ interval now : Nat) (past h : History) (tr : Transition Poller Event Effect)
      (q : Poller) (r : String), Runs t₀ interval (past ++ tr :: h) now q → Whole tr h q →
      r ∈ tr.after.orders → r ≠ "" → Unknown h r →
      (∀ tr' ∈ h, ∀ failure, tr'.event ≠ .toldAll (.error failure)) → Fails tr.after h q r := by
  intro hclaim
  obtain ⟨past, tr, h, q, run, hround, horders, hleft, -, hunknown, xs, hevents⟩ := asked_for_five
  have hanswered : ∀ tr' ∈ h, ∀ failure, tr'.event ≠ .toldAll (.error failure) := by
    intro tr' htr' failure hfails
    have hmem := List.mem_map_of_mem (f := (·.event)) htr'
    rw [hevents, List.mem_singleton, hfails] at hmem
    cases hmem
  have hgone := (hclaim 0 1000 45 past h tr q "X" run hround (by simp [horders]) (by decide)
    hunknown hanswered).gone
  exact hgone (by simp [hleft])

end OrderBroker.Freja.Poller
