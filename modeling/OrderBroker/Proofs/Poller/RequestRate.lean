import OrderBroker.Proofs.Poller.Iterations

/-!
# How often a poller asks

A poller asks in rounds. A round starts when somebody joins those who wait, or when the rest is over
that began with the last iteration; what it asks depends on how many orders are waited for then
(`plan`). As long as nobody joins, the rests get no shorter (`delay_le_of_step`), because the time
since the last registration grows and no order comes into the table. For this the polling interval
must not be longer than a third of the half minute that a poller rests for which nobody waits.

`Paced` says all this of a history, and `request_rate` that every run is paced.
-/

namespace OrderBroker.Freja.Poller

/-! ## Rests in a history -/

/-- How long a poller rests that begins to rest now. -/
def delay (now : Nat) (p : Poller) : Nat :=
  nextSleep p.interval p.orders.length (now - p.registeredAt)

/-- How long the poller rests after each iteration of a history. -/
def delays (h : History) : List Nat := (h.filter ends).map fun tr => delay tr.time tr.after

/-- When the rest is over that began with the last iteration of a history, or at the start. -/
def wakes (t₀ : Nat) (h : History) : Nat :=
  h.foldl (fun due tr => if ends tr then tr.time + delay tr.time tr.after else due)
    (t₀ + idleInterval)

/-- When somebody last joined those who wait, or the start. -/
def lastJoined (t₀ : Nat) (h : History) : Nat :=
  h.foldl (fun t tr => if (tr.before.joins? tr.event).isSome then tr.time else t) t₀

/-- The round that a transition opens: it, and what comes until the poller rests again. -/
def round (opening : Transition Poller Event Effect) (later : History) : History :=
  opening :: later.takeWhile (!·.before.rests)

section
variable {p p' q : Poller} {t t₀ now interval : Nat} {e : Event} {effects : List Effect}
  {h past between later : History} {tr opening : Transition Poller Event Effect}
  {orders : List String} {may : History → Event → Prop}

/-! ## The last registration -/

/-- Taking a result leaves the time of the last registration. -/
theorem registeredAt_process (p : Poller) (now : Nat) (x : Result) :
    (p.process now x).1.registeredAt = p.registeredAt := by
  unfold process
  split <;> rfl

/-- So does taking results. -/
theorem registeredAt_processAll (p : Poller) (now : Nat) (xs : List Result) :
    (p.processAll now xs).1.registeredAt = p.registeredAt := by
  induction xs generalizing p with
  | nil => rfl
  | cons x rest ih => exact (ih _).trans (registeredAt_process p now x)

/-- So does taking an answer about one order. -/
theorem registeredAt_takeOne (p : Poller) (now : Nat) (r : String) (o : Outcome) :
    (p.takeOne now r o).1.registeredAt = p.registeredAt := by
  cases o with
  | ok x => exact registeredAt_process p now x
  | error failure =>
    simp only [takeOne]
    split <;> rfl

/-- So does a question. -/
theorem registeredAt_askNext (p : Poller) (now : Nat) (rs : List String) :
    (p.askNext now rs).1.registeredAt = p.registeredAt := by
  cases rs <;> rfl

/-- So does the start of a round. -/
theorem registeredAt_startRound (p : Poller) (now : Nat) :
    (p.startRound now).1.registeredAt = p.registeredAt := by
  unfold startRound
  split
  · exact registeredAt_askNext p now _
  · rfl

/-- **The time of the last registration** changes where somebody joins, and nowhere else. -/
theorem registeredAt_of_step (hstep : machine now p e = some (p', effects)) :
    p'.registeredAt = if (p.joins? e).isSome then now else p.registeredAt := by
  have hfirst : p.withoutFirst.registeredAt = p.registeredAt := by rw [withoutFirst_eq]
  have hother (hnone : e ≠ .move .accept) : (p.joins? e).isSome = false := by
    cases hjoins : p.joins? e with
    | none => rfl
    | some g => exact absurd (taken?_eq_some.1 (joins?_eq_some.1 hjoins).1).1 hnone
  cases turn_of_step hstep with
  | outside houter _ _ hsame =>
    rw [hother (by rintro rfl; cases houter), hsame]
    rfl
  | late _ _ hnone _ =>
    rw [hnone]
    exact hfirst
  | join _ hjoins _ =>
    rw [hjoins, registeredAt_startRound]
    rfl
  | stop => rw [hother (by simp)]; rfl
  | round => rw [hother (by simp), registeredAt_startRound]; rfl
  | one => rw [hother (by simp), registeredAt_askNext, registeredAt_takeOne]; rfl
  | @all answer =>
    rw [hother (by simp)]
    cases answer with
    | ok xs => exact registeredAt_processAll p now xs
    | error _ => rfl

/-- A poller knows when somebody last joined. -/
theorem registeredAt_of_runs (run : Runs t₀ interval h now p) :
    p.registeredAt = lastJoined t₀ h := by
  induction run with
  | start => rfl
  | next _ _ _ hstep ih =>
    rw [registeredAt_of_step hstep, ih, lastJoined, lastJoined, List.foldl_append]
    rfl

/-! ## Rounds -/

/-- **A rest is as long** as the last iteration says: a poller that rests wakes at that time. -/
theorem due_of_runs (run : Runs t₀ interval h now p) {due : Nat} (hphase : p.phase = .resting due) :
    due = wakes t₀ h := by
  induction run generalizing due with
  | start => exact (Phase.resting.inj hphase).symm
  | @next h t now s s' e effects run _ _ hstep ih =>
    let tr : Transition Poller Event Effect := ⟨now, s, e, s', effects⟩
    have htr : machine tr.time tr.before tr.event = some (tr.after, tr.effects) := hstep
    have hrests : tr.after.rests = true := by simp only [tr, rests, hphase]
    rw [wakes, List.foldl_append]
    cases hends : ends tr with
    | true =>
      have hafter : s' = (s.unpruned now e).endRound now := after_of_ends htr hends
      have hbegins := begins_endRound now (s.unpruned now e)
      rw [← hafter, Begins, hphase, Phase.resting.injEq] at hbegins
      rw [hbegins]
      exact (if_pos hends).symm
    | false =>
      have hsame : s.phase = .resting due :=
        (phase_of_not_ends htr hends hrests).symm.trans hphase
      rw [ih hsame]
      exact (if_neg (by simp [tr, hends])).symm

/-- A round starts by itself when the rest is over. -/
theorem due_of_round (hstep : machine now p (.move .round) = some (p', effects)) :
    ∃ due, p.phase = .resting due ∧ due ≤ now := by
  cases turn_of_step hstep with
  | outside houter => cases houter
  | round hphase hdue => exact ⟨_, hphase, hdue⟩

/-- **A round starts** with a registration that joins, or when the rest is over. -/
theorem start_of_opens (run : Runs t₀ interval (past ++ tr :: later) now p)
    (hopens : Opens tr orders) :
    (∃ g, tr.before.joins? tr.event = some g) ∨ wakes t₀ past ≤ tr.time := by
  cases hopens with
  | joined hjoins => exact .inl ⟨_, hjoins⟩
  | rested hround =>
    obtain ⟨t, hpast, -, -, hstep⟩ := run.split
    obtain ⟨due, hphase, hdue⟩ := due_of_round (hround ▸ hstep)
    exact .inr (due_of_runs hpast hphase ▸ hdue)

/-- A round asks four times at most. -/
theorem length_plan_le (orders : List String) : (plan orders).length ≤ 4 := by
  unfold plan
  split
  · next hfew =>
    have hle := List.length_filter_le (fun r => decide (r ≠ "")) orders
    have hlt : orders.length < 5 := hfew.2
    rw [List.length_map]
    omega
  · decide

/-- What comes first in a history is asked first. -/
theorem questions_cons :
    (questions (tr :: h)).map (·.2) = asked tr.effects ++ (questions h).map (·.2) := by
  simp [questions, asked, Function.comp_def]

/-- The round is over in the course of a history after which the poller is `p`. -/
def Over (later : History) (p : Poller) : Prop :=
  p.rests = true ∨ ∃ tr ∈ later, tr.before.rests = true

/-- In the course of a round nothing is asked but what is still to be asked, and all of it until the
round is over. -/
theorem asked_in_course (run : Run machine may t q later now p) :
    ∃ rest, (questions (later.takeWhile (!·.before.rests))).map (·.2) ++ rest = q.toAsk ∧
      (Over later p → rest = []) := by
  induction later generalizing q t may with
  | nil =>
    obtain ⟨-, rfl⟩ := run.eq_start
    refine ⟨p.toAsk, rfl, fun hover => ?_⟩
    rcases hover with hrests | ⟨tr, htr, -⟩
    · exact toAsk_of_rests hrests
    · cases htr
  | cons tr later ih =>
    obtain ⟨⟨-, rfl, -, hstep⟩, hrest⟩ := Run.cons_iff.1 run
    cases hrests : tr.before.rests with
    | true => exact ⟨[], by simp [hrests, questions, toAsk_of_rests], fun _ => rfl⟩
    | false =>
      obtain ⟨rest, heq, hover⟩ := ih hrest
      refine ⟨rest, ?_, fun hall => hover (hall.imp_right ?_)⟩
      · rw [List.takeWhile_cons_of_pos (by simp [hrests]), questions_cons, List.append_assoc, heq,
          asked_in_round hstep hrests]
      · rintro ⟨tr', htr', hrests'⟩
        rcases List.mem_cons.1 htr' with rfl | htr'
        · rw [hrests] at hrests'
          cases hrests'
        · exact ⟨tr', htr', hrests'⟩

/-- **What a round asks**: what is planned at its start, and all of it if the round is over. -/
theorem asked_in_opened (run : Runs t₀ interval (past ++ tr :: later) now p)
    (hopens : Opens tr orders) :
    ∃ rest, (questions (round tr later)).map (·.2) ++ rest = plan orders ∧
      (Over later p → rest = []) := by
  obtain ⟨t, -, -, -, hstep⟩ := run.split
  obtain ⟨rest, heq, hover⟩ := asked_in_course run.after
  refine ⟨rest, ?_, hover⟩
  rw [round, questions_cons, List.append_assoc, heq, asked_of_opens hstep hopens]

/-- A poller that has something to ask is in the course of a round. -/
theorem opened_of_runs (run : Runs t₀ interval h now p) (hasks : p.toAsk ≠ []) :
    ∃ past opening later orders, h = past ++ opening :: later ∧ Opens opening orders ∧
      ∀ tr ∈ later, tr.before.rests = false := by
  induction run with
  | start => exact absurd rfl hasks
  | @next h t now s s' e effects run _ _ hstep ih =>
    let tr : Transition Poller Event Effect := ⟨now, s, e, s', effects⟩
    have htr : machine tr.time tr.before tr.event = some (tr.after, tr.effects) := hstep
    cases hrests : s.rests with
    | true =>
      rcases opens_or_idle htr hrests with ⟨orders, hopens⟩ | ⟨-, hnone⟩
      · exact ⟨h, tr, [], orders, rfl, hopens, by simp⟩
      · exact absurd hnone hasks
    | false =>
      have hsame := asked_in_round hstep hrests
      have hbefore : s.toAsk ≠ [] := fun hnone =>
        hasks (List.append_eq_nil_iff.1 (hsame.trans hnone)).2
      obtain ⟨past, opening, later, orders, rfl, hopens, hcourse⟩ := ih hbefore
      refine ⟨past, opening, later ++ [tr], orders, by simp [tr], hopens, fun tr' htr' => ?_⟩
      rcases List.mem_append.1 htr' with htr' | htr'
      · exact hcourse tr' htr'
      · rw [List.mem_singleton] at htr'
        exact htr' ▸ hrests

/-- **Every question is asked in a round.** -/
theorem round_of_question (run : Runs t₀ interval h now p) (htr : tr ∈ h)
    (hasks : asked tr.effects ≠ []) :
    ∃ past opening later orders, h = past ++ opening :: later ∧ Opens opening orders ∧
      tr ∈ round opening later := by
  obtain ⟨past, later, t, rfl, hpast, -, -, hstep⟩ := run.of_mem htr
  cases hrests : tr.before.rests with
  | true =>
    rcases opens_or_idle hstep hrests with ⟨orders, hopens⟩ | ⟨hnone, -⟩
    · exact ⟨past, tr, later, orders, rfl, hopens, .head _⟩
    · exact absurd hnone hasks
  | false =>
    have hbefore : tr.before.toAsk ≠ [] := by
      rw [← asked_in_round hstep hrests]
      exact fun hnone => hasks (List.append_eq_nil_iff.1 hnone).1
    obtain ⟨past', opening, course, orders, rfl, hopens, hcourse⟩ := opened_of_runs hpast hbefore
    refine ⟨past', opening, course ++ tr :: later, orders, by simp, hopens, .tail _ ?_⟩
    rw [List.takeWhile_append_of_pos fun tr' htr' => by simp [hcourse tr' htr'],
      List.takeWhile_cons_of_pos (by simp [hrests])]
    exact List.mem_append_right _ (.head _)

/-! ## Longer and longer rests -/

/-- The longest polling interval, in milliseconds, three times which is no longer than the rest of a
poller for which nobody waits. -/
def longestInterval : Nat := 10000

/-- A rest is no shorter when the last registration is longer ago, or nobody waits any more. -/
theorem nextSleep_mono (hinterval : interval ≤ longestInterval) {waiting waiting' since since' : Nat}
    (hwaiting : waiting = 0 → waiting' = 0) (hsince : since ≤ since') :
    nextSleep interval waiting since ≤ nextSleep interval waiting' since' := by
  have hidle : idleInterval = 30000 := rfl
  have hlongest : longestInterval = 10000 := rfl
  unfold nextSleep
  split_ifs <;> omega

/-- **A rest is no shorter after a step** with which nobody joins. -/
theorem delay_le_of_step (hinterval : p.interval ≤ longestInterval)
    (hstep : machine now p e = some (p', effects)) (hnobody : p.joins? e = none) (ht : t ≤ now) :
    delay t p ≤ delay now p' := by
  have hnone (h : p.orders.length = 0) : p'.orders.length = 0 := by
    rw [List.length_eq_zero_iff] at h ⊢
    refine List.eq_nil_iff_forall_not_mem.2 fun r hr => ?_
    rcases orders_of_step hstep r hr with hr | ⟨g, hjoins, -⟩
    · rw [h] at hr
      cases hr
    · rw [hnobody] at hjoins
      cases hjoins
  have hsame : p'.registeredAt = p.registeredAt := by
    rw [registeredAt_of_step hstep, hnobody]
    rfl
  rw [delay, delay, interval_of_step hstep, hsame]
  exact nextSleep_mono hinterval hnone (Nat.sub_le_sub_right ht _)

/-- As long as nobody joins, the rests get no shorter. -/
theorem delays_sorted (run : Run machine may t q between now p)
    (hinterval : q.interval ≤ longestInterval)
    (hnobody : ∀ tr ∈ between, tr.before.joins? tr.event = none) :
    (delay t q :: delays between).Pairwise (· ≤ ·) := by
  induction between generalizing q t may with
  | nil => simp [delays]
  | cons tr between ih =>
    obtain ⟨⟨ht, rfl, -, hstep⟩, hrest⟩ := Run.cons_iff.1 run
    have hle := delay_le_of_step hinterval hstep (hnobody tr (.head _)) ht
    have hsorted := ih hrest (interval_of_step hstep ▸ hinterval) fun tr' htr' =>
      hnobody tr' (.tail _ htr')
    have hfirst : ∀ d ∈ delays between, delay t tr.before ≤ d := fun d hd =>
      Nat.le_trans hle ((List.pairwise_cons.1 hsorted).1 d hd)
    rw [delays, List.filter_cons]
    split
    · exact List.pairwise_cons.2 ⟨List.forall_mem_cons.2 ⟨hle, hfirst⟩, hsorted⟩
    · exact List.pairwise_cons.2 ⟨hfirst, (List.pairwise_cons.1 hsorted).2⟩

/-- A rest is no shorter than the polling interval. -/
theorem le_delay (hinterval : p.interval ≤ longestInterval) (now : Nat) :
    p.interval ≤ delay now p :=
  le_nextSleep (Nat.le_refl _) (Nat.le_trans hinterval (by decide)) _ _

/-! ## Every run -/

/-- `Paced t₀ interval h p`: in the course of `h`, after which the poller is `p`, Freja is asked in
rounds, and no more often than the polling interval allows. -/
structure Paced (t₀ interval : Nat) (h : History) (p : Poller) : Prop where
  /-- Every question is asked in a round. -/
  inRounds : ∀ tr ∈ h, asked tr.effects ≠ [] →
    ∃ past opening later orders, h = past ++ opening :: later ∧ Opens opening orders ∧
      tr ∈ round opening later
  /-- A round starts with a registration that joins, or when the rest is over. -/
  starts : ∀ past tr later orders, h = past ++ tr :: later → Opens tr orders →
    (∃ g, tr.before.joins? tr.event = some g) ∨ wakes t₀ past ≤ tr.time
  /-- A round asks what is planned at its start for the orders that are waited for. -/
  asks : ∀ past tr later orders, h = past ++ tr :: later → Opens tr orders →
    orders.Nodup ∧ (plan orders).length ≤ 4 ∧
      ∃ rest, (questions (round tr later)).map (·.2) ++ rest = plan orders ∧
        (Over later p → rest = [])
  /-- The rest after an iteration depends on the interval, the orders that are waited for, and the
  time since somebody last joined. -/
  rests : ∀ past tr later, h = past ++ tr :: later → ends tr = true →
    delay tr.time tr.after =
        nextSleep interval tr.after.orders.length (tr.time - lastJoined t₀ (past ++ [tr])) ∧
      tr.after.phase = .resting (tr.time + delay tr.time tr.after)
  /-- From one registration that joins to the next, the rests get no shorter, and none is shorter
  than the interval. -/
  slower : interval ≤ longestInterval → ∀ past tr between later,
    h = past ++ tr :: (between ++ later) →
    (∀ tr' ∈ between, tr'.before.joins? tr'.event = none) →
    (delays (tr :: between)).Pairwise (· ≤ ·) ∧ ∀ d ∈ delays (tr :: between), interval ≤ d

/-- The rest after an iteration of a run. -/
theorem rest_of_ends (run : Runs t₀ interval (past ++ tr :: later) now p) (hends : ends tr = true) :
    delay tr.time tr.after =
        nextSleep interval tr.after.orders.length (tr.time - lastJoined t₀ (past ++ [tr])) ∧
      tr.after.phase = .resting (tr.time + delay tr.time tr.after) := by
  obtain ⟨t, hpast, ht, hfresh, hstep⟩ := run.split
  have hafter : Runs t₀ interval (past ++ [tr]) tr.time tr.after := hpast.next ht hfresh hstep
  have hbegins : Begins tr.time tr.after := after_of_ends hstep hends ▸ begins_endRound _ _
  refine ⟨?_, hbegins⟩
  rw [delay, interval_of_runs hafter, registeredAt_of_runs hafter]

/-- The rests of a stretch of a run in which nobody joins after the first transition. -/
theorem rests_between (hinterval : interval ≤ longestInterval)
    (run : Runs t₀ interval (past ++ tr :: (between ++ later)) now p)
    (hnobody : ∀ tr' ∈ between, tr'.before.joins? tr'.event = none) :
    (delays (tr :: between)).Pairwise (· ≤ ·) ∧ ∀ d ∈ delays (tr :: between), interval ≤ d := by
  obtain ⟨t, hpast, ht, hfresh, hstep⟩ := run.split
  have hafter : tr.after.interval = interval := interval_of_runs (hpast.next ht hfresh hstep)
  obtain ⟨now', q, hbetween⟩ : ∃ now' q, Run machine (fun h => Fresh (past ++ tr :: h)) tr.time
      tr.after between now' q := by
    cases later with
    | nil =>
      rw [List.append_nil] at run
      exact ⟨now, p, run.after⟩
    | cons tr' later =>
      obtain ⟨t', hrun, -⟩ := run.after.split
      exact ⟨t', tr'.before, hrun⟩
  have hsorted := delays_sorted hbetween (hafter ▸ hinterval) hnobody
  have hle : interval ≤ delay tr.time tr.after := hafter ▸ le_delay (hafter ▸ hinterval) tr.time
  have hall : ∀ d ∈ delay tr.time tr.after :: delays between, interval ≤ d :=
    List.forall_mem_cons.2 ⟨hle, fun d hd =>
      Nat.le_trans hle ((List.pairwise_cons.1 hsorted).1 d hd)⟩
  have hsublist : (delays (tr :: between)).Sublist (delay tr.time tr.after :: delays between) := by
    rw [delays, List.filter_cons]
    split
    · exact List.Sublist.refl _
    · exact List.sublist_cons_self _ _
  exact ⟨hsorted.sublist hsublist, fun d hd => hall d (hsublist.subset hd)⟩

/-- **How often a poller asks.** Every run is paced. -/
theorem request_rate (run : Runs t₀ interval h now p) : Paced t₀ interval h p where
  inRounds _ htr hasks := round_of_question run htr hasks
  starts _ _ _ _ hh hopens := start_of_opens (hh ▸ run) hopens
  asks _ _ _ orders hh hopens := by
    obtain ⟨t, hpast, -, -, hstep⟩ := (hh ▸ run).split
    exact ⟨nodup_of_opens (sound_of_runs hpast) hstep hopens, length_plan_le orders,
      asked_in_opened (hh ▸ run) hopens⟩
  rests _ _ _ hh hends := rest_of_ends (hh ▸ run) hends
  slower hinterval _ _ _ _ hh hnobody := rests_between hinterval (hh ▸ run) hnobody

end

/-- Somebody waits for an order that does not end, and gives up after more than half a minute. The
poller asks four times, and rests longer and longer. -/
theorem four_questions_paced :
    ∃ h p, Runs 0 1000 h 42005 p ∧ Paced 0 1000 h p ∧ delays h = [1000, 1000, 2000, 30000] ∧
      (questions h).map (·.1) = [0, 1005, 40000, 42000] := by
  let told (now : Nat) : Nat × Event :=
    (now, .toldOne "A" (.ok { reference := "A", status := .started }))
  let events : List (Nat × Event) := [(0, .register 1 "A"), (0, .move .accept), told 5,
    (1005, .move .round), told 1010, (40000, .move .round), told 40000, (40500, .giveUp 1),
    (42000, .move .round), told 42005]
  obtain ⟨h, p, hplay, honce, hdelays, hasked⟩ : ∃ h p,
      machine.play (Poller.start 0 1000) events = some (h, p) ∧
        ((h.flatMap (·.event.newcomers)).map (·.waiter.id)).Nodup ∧
        delays h = [1000, 1000, 2000, 30000] ∧
        (questions h).map (·.1) = [0, 1005, 40000, 42000] :=
    ⟨_, _, rfl, by decide, rfl, rfl⟩
  have run := runs_of_play hplay (by decide) honce
  exact ⟨h, p, run, request_rate run, hdelays, hasked⟩

end OrderBroker.Freja.Poller
