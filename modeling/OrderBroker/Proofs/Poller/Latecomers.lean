import OrderBroker.Proofs.Poller.Rounds

/-!
# Latecomers and the cadence

Between two rounds a poller rests, for as long as `nextSleep` says. Whoever comes for an order that
is remembered is answered from memory, and Freja is not asked for his sake; but the rest begins
anew, and those who wait for other orders wait longer (`latecomer_postpones`). As long as an order
is remembered, latecomers who come often enough keep the poller from asking at all
(`latecomers_starve`).
-/

namespace OrderBroker.Freja.Poller

section
variable {p p' q : Poller} {t t₀ now due interval : Nat} {e : Event} {effects : List Effect}
  {h past between later : History} {tr tr' : Transition Poller Event Effect} {g : Registration}
  {x : Result} {may : History → Event → Prop}

/-! ## The interval -/

/-- Taking a result leaves the polling interval. -/
theorem interval_process (p : Poller) (now : Nat) (x : Result) :
    (p.process now x).1.interval = p.interval := by
  unfold process
  split <;> rfl

/-- So does taking results. -/
theorem interval_processAll (p : Poller) (now : Nat) (xs : List Result) :
    (p.processAll now xs).1.interval = p.interval := by
  induction xs generalizing p with
  | nil => rfl
  | cons x rest ih => exact (ih _).trans (interval_process p now x)

/-- So does taking an answer about one order. -/
theorem interval_takeOne (p : Poller) (now : Nat) (asked : String) (o : Outcome) :
    (p.takeOne now asked o).1.interval = p.interval := by
  cases o with
  | ok x => exact interval_process p now x
  | error failure =>
    simp only [takeOne]
    split <;> rfl

/-- So does a question. -/
theorem interval_askNext (p : Poller) (now : Nat) (asked : List String) :
    (p.askNext now asked).1.interval = p.interval := by
  cases asked <;> rfl

/-- So does the start of a round. -/
theorem interval_startRound (p : Poller) (now : Nat) :
    (p.startRound now).1.interval = p.interval := by
  unfold startRound
  split
  · exact interval_askNext p now _
  · rfl

/-- So does whoever is let into the queue. -/
theorem interval_fillQueue (p : Poller) : p.fillQueue.1.interval = p.interval := by
  unfold fillQueue
  split <;> rfl

/-- **The polling interval stays the same.** -/
theorem interval_of_step (hstep : machine now p e = some (p', effects)) :
    p'.interval = p.interval := by
  cases does_of_step hstep with
  | register w r =>
    unfold register
    split
    · rfl
    · split <;> rfl
  | giveUp w => rfl
  | shutdown => rfl
  | @move m _ =>
    cases m with
    | stop => rfl
    | round => exact interval_startRound p now
    | accept =>
      simp only [make, acceptNext]
      split
      · next g rest _ =>
        refine Eq.trans ?_ (interval_fillQueue { p with queue := rest })
        simp only [accept]
        split
        · rfl
        · exact interval_startRound _ now
      · rfl
  | toldOne o hphase =>
    rw [answeredOne_eq now hphase]
    exact (interval_askNext _ now _).trans (interval_takeOne p now _ o)
  | toldAll answer hphase =>
    simp only [answeredAll, hphase]
    cases answer with
    | ok xs => exact interval_processAll p now xs
    | error _ => rfl
  | relist _ => rfl

/-- A poller has the polling interval that it started with. -/
theorem interval_of_runs (run : Runs t₀ interval h now p) : p.interval = interval := by
  induction run with
  | start => rfl
  | next _ _ _ hstep ih => exact (interval_of_step hstep).trans ih

/-! ## Rests -/

/-- The poller begins to rest: for as long as `nextSleep` says, from the time `now` on. -/
def Begins (now : Nat) (p : Poller) : Prop :=
  p.phase = .resting (now + nextSleep p.interval p.orders.length (now - p.registeredAt))

/-- At the end of a round the poller begins to rest. -/
theorem begins_endRound (now : Nat) (p : Poller) : Begins now (p.endRound now) := by
  rw [Begins, orders, List.length_map]
  rfl

/-- A poller that asked and rests begins to rest. -/
theorem begins_of_step (hstep : machine now p e = some (p', effects)) (hasked : p.rests = false)
    (hrests : p'.rests = true) : Begins now p' := by
  cases inRound_of_step hstep hasked with
  | other hphase _ _ =>
    rw [rests, hphase, ← rests, hasked] at hrests
    cases hrests
  | @toldOne asked later o _ =>
    cases later with
    | nil => exact begins_endRound now _
    | cons r rest => cases hrests
  | toldAll answer hphase =>
    simp only [answeredAll, hphase]
    exact begins_endRound now _

/-! ## Punctual runs -/

/-- `Passes free t h`: from the time `t` on, time passes in the course of `h` only as long as the
poller is as `free` says. -/
def Passes (free : Nat → Poller → Prop) : Nat → History → Prop
  | _, [] => True
  | t, tr :: h => (t < tr.time → free (tr.time - 1) tr.before) ∧ Passes free tr.time h

/-- Whether time passes so can be decided. -/
instance decidablePasses (free : Nat → Poller → Prop) [∀ t p, Decidable (free t p)] :
    (t : Nat) → (h : History) → Decidable (Passes free t h)
  | _, [] => .isTrue trivial
  | t, tr :: h =>
    have := decidablePasses free tr.time h
    inferInstanceAs (Decidable ((t < tr.time → free (tr.time - 1) tr.before) ∧
      Passes free tr.time h))

/-- The poller is punctual: time passes only as long as it has no move to make. -/
abbrev Punctual : Nat → History → Prop := Passes fun now p => p.moves now = []

/-- It is punctual after every transition, if it is. -/
theorem Punctual.after (hpunctual : Punctual t (past ++ tr :: later)) :
    Punctual tr.time later := by
  induction past generalizing t with
  | nil => exact hpunctual.2
  | cons first past ih => exact ih hpunctual.2

/-- A punctual poller does nothing later than at the end of its rest. -/
theorem time_le_due (hpunctual : t < now → p.moves (now - 1) = [])
    (hphase : p.phase = .resting due) (ht : t ≤ due) : now ≤ due := by
  by_cases hlt : t < now
  · have hnone := hpunctual hlt
    simp only [moves, hphase, List.append_eq_nil_iff, ite_eq_right_iff, List.cons_ne_nil,
      imp_false] at hnone
    omega
  · omega

/-- Unless a registration comes first, a punctual poller starts a round when its rest is over. -/
theorem round_when_due (run : Run machine may t p (between ++ tr' :: later) now q)
    (hpunctual : Punctual t (between ++ tr' :: later)) (hphase : p.phase = .resting due)
    (ht : t ≤ due) (hquiet : ∀ tr ∈ between, ∀ m, tr.event ≠ .move m)
    (hround : tr'.event = .move .round) : tr'.time = due := by
  -- Whatever happens before the round leaves the rest as it is, and happens before it is over.
  induction between generalizing p t may with
  | nil =>
    obtain ⟨⟨-, rfl, -, hstep⟩, -⟩ := Run.cons_iff.1 run
    have hle := time_le_due hpunctual.1 hphase ht
    have hmoves : .round ∈ tr'.before.moves tr'.time := by
      rw [hround] at hstep
      exact (Option.ite_none_right_eq_some.1 hstep).1
    simp [moves, hphase] at hmoves
    omega
  | cons first between ih =>
    obtain ⟨⟨-, rfl, -, hstep⟩, hrest⟩ := Run.cons_iff.1 run
    have hrests : first.before.rests = true := by rw [rests, hphase]
    have hsame := phase_of_step hstep hrests (hquiet first (.head _))
    exact ih hrest hpunctual.2 (hsame.trans hphase) (time_le_due hpunctual.1 hphase ht)
      fun tr htr => hquiet tr (.tail _ htr)

/-! ## Latecomers -/

/-- A latecomer: whoever is taken from the queue comes for an order that is remembered. -/
structure Late (tr : Transition Poller Event Effect) (g : Registration) (x : Result) : Prop where
  event : tr.event = .move .accept
  first : tr.before.queue.head? = some g
  remembered : tr.before.seen? g.reference = some x

/-- Room in the queue makes no difference but to the queue. -/
theorem fillQueue_eq (p : Poller) :
    p.fillQueue.1 = { p with queue := p.fillQueue.1.queue, blocked := p.fillQueue.1.blocked } := by
  unfold fillQueue
  split <;> rfl

/-- Whoever comes for an order that is remembered leaves the poller as at the end of a round. -/
theorem acceptNext_remembered (now : Nat) {rest : List Registration} (hqueue : p.queue = g :: rest)
    (hseen : p.seen? g.reference = some x) :
    (p.acceptNext now).1 = (({ p with queue := rest } : Poller).fillQueue.1).endRound now := by
  have hsame : ({ p with queue := rest } : Poller).fillQueue.1.seen? g.reference = some x := by
    rw [fillQueue_eq]
    exact hseen
  simp only [acceptNext, hqueue, accept, hsame]

/-- **A latecomer** lets nothing be asked and leaves those who wait, but the poller begins to rest
anew. -/
theorem Late.effect (run : Runs t₀ interval (past ++ tr :: later) now p) (hlate : Late tr g x) :
    (∀ effect ∈ tr.effects, effect.asks = false) ∧
      tr.after.held = tr.before.held.filter (·.waiter.live) ∧
      tr.after.registeredAt = tr.before.registeredAt ∧ Begins tr.time tr.after := by
  obtain ⟨t, -, -, -, hstep⟩ := run.split
  rw [hlate.event] at hstep
  have hafter : tr.before.acceptNext tr.time = (tr.after, tr.effects) :=
    Option.some.inj ((Option.ite_none_right_eq_some.1 hstep).2 ▸ rfl)
  obtain ⟨rest, hqueue⟩ := List.head?_eq_some_iff.1 hlate.first
  have hasks : ∀ effect ∈ (tr.before.acceptNext tr.time).2, effect.asks = false :=
    (accept_remembered hqueue hlate.remembered).1
  have heq := acceptNext_remembered tr.time hqueue hlate.remembered
  rw [hafter] at hasks heq
  simp only at hasks heq
  rw [heq]
  refine ⟨hasks, ?_, ?_, begins_endRound _ _⟩
  · rw [fillQueue_eq]
    exact held_prune tr.time _
  · rw [fillQueue_eq]
    rfl

/-- When the rest is over that begins with a transition. -/
def restOver (interval : Nat) (tr : Transition Poller Event Effect) : Nat :=
  tr.time + nextSleep interval tr.after.orders.length (tr.time - tr.after.registeredAt)

/-- **Latecomers and the next round.** The next round starts as long after a round as `nextSleep`
says, if no registration comes in between. If a latecomer comes, nothing is asked for his sake, and
those who wait for other orders stand where they stood; but the next round starts that long after
him, however long ago the last one was. -/
theorem latecomer_postpones
    (run : Runs t₀ interval (past ++ tr :: (between ++ tr' :: later)) now p)
    (hpunctual : Punctual t₀ (past ++ tr :: (between ++ tr' :: later)))
    (hquiet : ∀ tr ∈ between, ∀ m, tr.event ≠ .move m) (hround : tr'.event = .move .round) :
    (tr.before.rests = false → tr.after.rests = true → tr'.time = restOver interval tr) ∧
      ∀ g x, Late tr g x → (∀ effect ∈ tr.effects, effect.asks = false) ∧
        tr.after.held = tr.before.held.filter (·.waiter.live) ∧
        tr.after.registeredAt = tr.before.registeredAt ∧ tr'.time = restOver interval tr := by
  obtain ⟨t, hpast, ht, hfresh, hstep⟩ := run.split
  have hinterval : tr.after.interval = interval := interval_of_runs (hpast.next ht hfresh hstep)
  have hwhen (hbegins : Begins tr.time tr.after) : tr'.time = restOver interval tr := by
    rw [Begins, hinterval] at hbegins
    exact round_when_due run.after hpunctual.after hbegins (Nat.le_add_right _ _) hquiet hround
  constructor
  · intro hasked hrests
    exact hwhen (begins_of_step hstep hasked hrests)
  · intro g x hlate
    obtain ⟨hasks, hheld, hregistered, hbegins⟩ := hlate.effect run
    exact ⟨hasks, hheld, hregistered, hwhen hbegins⟩

/-! ## Starvation -/

/-- Somebody has not come yet. -/
theorem exists_unregistered (h : History) : ∃ w, ∀ r, ¬ Registered h w r := by
  suffices H : ∃ n, ∀ w r, Registered h w r → w < n by
    obtain ⟨n, hn⟩ := H
    exact ⟨n, fun r hr => Nat.lt_irrefl n (hn n r hr)⟩
  induction h with
  | nil => exact ⟨0, fun w r hr => (by obtain ⟨tr, htr, -⟩ := hr; cases htr)⟩
  | cons tr h ih =>
    obtain ⟨n, hn⟩ := ih
    refine ⟨max n ((tr.event.newcomers.map (·.waiter.id + 1)).headD 0), ?_⟩
    rintro w r ⟨tr', htr', hevent⟩
    rcases List.mem_cons.1 htr' with rfl | htr'
    · exact Nat.lt_of_lt_of_le (by simp [hevent, Event.newcomers]) (Nat.le_max_right _ _)
    · exact Nat.lt_of_lt_of_le (hn w r ⟨tr', htr', hevent⟩) (Nat.le_max_left _ _)

/-- A poller rests no shorter than its polling interval, unless half a minute is shorter. -/
theorem le_nextSleep {gap : Nat} (hinterval : gap ≤ interval) (hidle : gap ≤ idleInterval)
    (waiting since : Nat) : gap ≤ nextSleep interval waiting since := by
  unfold nextSleep
  split
  · exact hidle
  · split
    · omega
    · split <;> omega

/-- At the time `t` the poller rests for `gap` at least, its queue is empty, and `g` waits, while
`s` is remembered. -/
structure Resting (t gap : Nat) (s : Seen) (g : Registration) (p : Poller) : Prop where
  due : ∃ due, p.phase = .resting due ∧ t + gap ≤ due
  queue : p.queue = []
  blocked : p.blocked = []
  goes : p.stopping = false
  seen : s ∈ p.seen
  held : g ∈ p.held

/-- Nothing happens in the course of `h` but that somebody comes for the order `r` and is taken from
the queue, and nothing is asked. -/
def OnlyLate (r : String) (h : History) : Prop :=
  ∀ tr ∈ h, ((∃ w, tr.event = .register w r) ∨ tr.event = .move .accept) ∧
    ∀ effect ∈ tr.effects, effect.asks = false

variable {gap : Nat} {s : Seen}

/-- Whoever comes alone stands in the queue. -/
theorem register_alone (now w : Nat) (r : String) (hphase : p.phase = .resting due)
    (hqueue : p.queue = []) :
    machine now p (.register w r) =
      some ({ p with queue := [⟨{ id := w }, r⟩] }, [.registered w]) := by
  simp [machine, register, hphase, hqueue, queueSlots]

/-- A latecomer who comes alone is answered, and the rest begins anew. -/
theorem accept_alone (now : Nat) (hphase : p.phase = .resting due) (hblocked : p.blocked = [])
    (hseen : p.seen? g.reference = some x) :
    machine now { p with queue := [g] } (.move .accept) =
      some (({ p with queue := [] } : Poller).endRound now, answerAll [g.waiter] (.ok x)) := by
  have hmoves : .accept ∈ ({ p with queue := [g] } : Poller).moves now := by simp [moves, hphase]
  have hfill : ({ p with queue := [] } : Poller).fillQueue = ({ p with queue := [] }, []) := by
    simp [fillQueue, hblocked]
  have hsame : ({ p with queue := [] } : Poller).seen? g.reference = some x := hseen
  refine (if_pos hmoves).trans ?_
  simp only [make, acceptNext, hfill, accept, hsame, List.nil_append]

/-- After the end of a round it rests so again. -/
theorem Resting.endRound (hrests : Resting t gap s g p) (hlive : g.waiter.live = true)
    (hinterval : gap ≤ p.interval) (hidle : gap ≤ idleInterval)
    (hs : now < s.time + retention) :
    Resting now gap s g (({ p with queue := [] } : Poller).endRound now) where
  due := ⟨_, begins_endRound now _, Nat.add_le_add_left (le_nextSleep hinterval hidle _ _) now⟩
  queue := rfl
  blocked := hrests.blocked
  goes := hrests.goes
  seen := by
    have hsome : 0 < retention := by decide
    exact List.mem_filter.2 ⟨hrests.seen, by simp; omega⟩
  held := by
    have hpruned := held_prune now { p with queue := [] }
    exact hpruned.symm ▸ List.mem_filter.2 ⟨hrests.held, hlive⟩

/-- A latecomer who comes before the rest is over finds the poller at rest, and leaves it so. -/
theorem Resting.next (run : Runs t₀ interval past t p) (hrests : Resting t gap s g p)
    (hlive : g.waiter.live = true) (hinterval : gap ≤ interval) (hidle : gap ≤ idleInterval)
    (hs : t + gap < s.time + retention) :
    ∃ h q, Runs t₀ interval (past ++ h) (t + gap) q ∧
      (∀ later, Punctual (t + gap) later → Punctual t (h ++ later)) ∧
      OnlyLate s.result.reference h ∧ Resting (t + gap) gap s g q := by
  obtain ⟨due, hphase, hdue⟩ := hrests.due
  obtain ⟨w, hw⟩ := exists_unregistered past
  have hseen := (sound_of_runs run).seen?_of_mem hrests.seen
  have h₁ := run.next (Nat.le_add_right t gap)
    (fun w' r r' heq hr => by cases heq; exact hw r' hr)
    (register_alone (t + gap) w s.result.reference hphase hrests.queue)
  have h₂ := h₁.next (Nat.le_refl _) (fun _ _ _ heq => (by cases heq))
    (accept_alone (t + gap) hphase hrests.blocked hseen)
  refine ⟨_, _, List.append_assoc past _ _ ▸ h₂, fun later hlater => ?_, ?_,
    hrests.endRound hlive (interval_of_runs run ▸ hinterval) hidle hs⟩
  · -- Time passes before the latecomer comes, while the poller has no move to make.
    refine ⟨fun hlt => ?_, fun hlt => absurd hlt (Nat.lt_irrefl _), hlater⟩
    have hbefore : ¬ due ≤ t + gap - 1 := by
      have : t < t + gap := hlt
      omega
    simp [moves, hphase, hrests.queue, hrests.goes, hbefore]
  · refine List.forall_mem_cons.2 ⟨⟨.inl ⟨w, rfl⟩, ?_⟩, List.forall_mem_singleton.2 ⟨.inr rfl, ?_⟩⟩
    · exact List.forall_mem_singleton.2 rfl
    · exact fun effect heffect => asks_answerAll heffect

/-- **Latecomers starve the others.** Somebody waits for an order, and another is remembered. If
somebody comes for that one again and again, each time before the rest is over, a punctual poller
asks for nothing, as long as the result is remembered: for nearly ten minutes. -/
theorem latecomers_starve (run : Runs t₀ interval past t p) (hrests : Resting t gap s g p)
    (hlive : g.waiter.live = true) (hinterval : gap ≤ interval) (hidle : gap ≤ idleInterval)
    (n : Nat) (hs : t + n * gap < s.time + retention) :
    ∃ h q, Runs t₀ interval (past ++ h) (t + n * gap) q ∧ Punctual t h ∧
      OnlyLate s.result.reference h ∧ Resting (t + n * gap) gap s g q := by
  induction n generalizing past t p with
  | zero => exact ⟨[], p, by simpa using run, trivial, by simp [OnlyLate], by simpa using hrests⟩
  | succ n ih =>
    have hsum : t + (n + 1) * gap = t + gap + n * gap := by rw [Nat.succ_mul]; omega
    rw [hsum] at hs ⊢
    obtain ⟨h, q, run', hpunctual, honly, hrests'⟩ :=
      hrests.next run hlive hinterval hidle (by omega)
    obtain ⟨h', q', run'', hpunctual', honly', hrests''⟩ := ih run' hrests' hs
    refine ⟨h ++ h', q', List.append_assoc past h h' ▸ run'', hpunctual h' hpunctual', ?_, hrests''⟩
    exact fun tr htr => (List.mem_append.1 htr).elim (honly tr) (honly' tr)

end

/-! ## A latecomer left out -/

/-- The questions that Freja is asked, and when. -/
def questions (h : History) : List (Nat × Effect) :=
  h.flatMap fun tr => (tr.effects.filter Effect.asks).map (tr.time, ·)

/-- The event comes from outside: it is neither a move of the poller nor an answer of Freja. -/
def Event.outer : Event → Bool
  | .move _ | .toldOne _ _ | .toldAll _ => false
  | _ => true

/-- What comes from outside, and when. -/
def outside (h : History) : List (Nat × Event) :=
  (h.map fun tr => (tr.time, tr.event)).filter (·.2.outer)

/-- A run of a punctual poller. Freja answers at once, about one order as `one` says, and about all
as `all` says. -/
structure Prompt (one : String → Outcome) (all : Except Failure (List Result)) (t₀ interval : Nat)
    (h : History) (now : Nat) (p : Poller) : Prop where
  run : Runs t₀ interval h now p
  punctual : Punctual t₀ h
  atOnce : Passes (fun _ p => p.agenda = [] ∧ p.phase ≠ .bulk) t₀ h
  one : ∀ tr ∈ h, ∀ r o, tr.event = .toldOne r o → o = one r
  all : ∀ tr ∈ h, ∀ o, tr.event = .toldAll o → o = all

/-- Events that can happen one after the other make such a run, if time does not go back and nobody
comes twice. -/
theorem prompt_of_play (one : String → Outcome) (all : Except Failure (List Result))
    {t₀ interval : Nat} {events : List (Nat × Event)} {h : History} {p : Poller}
    (hplay : machine.play (Poller.start t₀ interval) events = some (h, p))
    (htimes : (t₀ :: events.map (·.1)).Pairwise (· ≤ ·))
    (honce : ((h.flatMap (·.event.newcomers)).map (·.waiter.id)).Nodup)
    (hpunctual : Punctual t₀ h)
    (hatOnce : Passes (fun _ p => p.agenda = [] ∧ p.phase ≠ .bulk) t₀ h)
    (hone : ∀ e ∈ events, ∀ r o, e.2 = .toldOne r o → o = one r)
    (hall : ∀ e ∈ events, ∀ o, e.2 = .toldAll o → o = all) :
    Prompt one all t₀ interval h ((events.map (·.1)).getLastD t₀) p := by
  have hevents := Machine.events_of_play hplay
  have hmem (tr : Transition Poller Event Effect) (htr : tr ∈ h) : (tr.time, tr.event) ∈ events :=
    hevents ▸ List.mem_map_of_mem htr
  exact ⟨runs_of_play hplay htimes honce, hpunctual, hatOnce, fun tr htr => hone _ (hmem tr htr),
    fun tr htr => hall _ (hmem tr htr)⟩

/-- One order is approved, and no other ends. -/
def oneApproved (r : String) : Outcome :=
  .ok { reference := r, status := if r = "A" then .approved else .started }

/-- Somebody waits for the order that is approved, and somebody else for another. -/
def twoCome : List (Nat × Event) :=
  [(0, .register 1 "A"), (0, .move .accept), (0, .toldOne "A" (oneApproved "A")),
    (10, .register 2 "B"), (10, .move .accept), (10, .toldOne "B" (oneApproved "B"))]

/-- A latecomer comes half a second later, and the next round is as late. -/
theorem third_comes_late :
    ∃ past tr tr' p, Prompt oneApproved (.ok []) 0 1000 (past ++ [tr, tr']) 1510 p ∧
      outside (past ++ [tr, tr']) =
        [(0, .register 1 "A"), (10, .register 2 "B"), (510, .register 3 "A")] ∧
      Late tr ⟨{ id := 3 }, "A"⟩ { reference := "A", status := .approved } ∧
      tr.before.phase = .resting 1010 ∧ tr'.event = .move .round ∧
      ((questions (past ++ [tr, tr'])).filter (·.1 < 1510)).length = 2 := by
  let events : List (Nat × Event) :=
    twoCome ++ [(510, .register 3 "A"), (510, .move .accept), (1510, .move .round)]
  obtain ⟨past, tr, tr', p, hplay, honce, hpunctual, hatOnce, hrest⟩ : ∃ past tr tr' p,
      machine.play (Poller.start 0 1000) events = some (past ++ [tr, tr'], p) ∧
        (((past ++ [tr, tr']).flatMap (·.event.newcomers)).map (·.waiter.id)).Nodup ∧
        Punctual 0 (past ++ [tr, tr']) ∧
        Passes (fun _ p => p.agenda = [] ∧ p.phase ≠ .bulk) 0 (past ++ [tr, tr']) ∧
        Late tr ⟨{ id := 3 }, "A"⟩ { reference := "A", status := .approved } ∧
        tr.before.phase = .resting 1010 ∧ tr'.event = .move .round ∧
        ((questions (past ++ [tr, tr'])).filter (·.1 < 1510)).length = 2 :=
    ⟨[_, _, _, _, _, _, _], _, _, _, rfl, by decide, by decide, by decide, ⟨rfl, rfl, rfl⟩, rfl,
      rfl, rfl⟩
  have run := prompt_of_play oneApproved (.ok []) hplay (by decide) honce hpunctual
    hatOnce (by simp [events, twoCome, eq_comm]) (by simp [events, twoCome])
  exact ⟨past, tr, tr', p, run, congrArg (List.filter _) (Machine.events_of_play hplay), hrest⟩

/-- If he does not come, the next round starts a second after the last. -/
theorem third_left_out :
    ∃ h p, Prompt oneApproved (.ok []) 0 1000 h 2010 p ∧
      outside h = [(0, .register 1 "A"), (10, .register 2 "B")] ∧
      ((questions h).filter (·.1 < 1510)).length = 3 := by
  let events : List (Nat × Event) := twoCome ++
    [(1010, .move .round), (1010, .toldOne "B" (oneApproved "B")), (2010, .move .round)]
  obtain ⟨h, p, hplay, honce, hpunctual, hatOnce, hasked⟩ : ∃ h p,
      machine.play (Poller.start 0 1000) events = some (h, p) ∧
        ((h.flatMap (·.event.newcomers)).map (·.waiter.id)).Nodup ∧ Punctual 0 h ∧
        Passes (fun _ p => p.agenda = [] ∧ p.phase ≠ .bulk) 0 h ∧
        ((questions h).filter (·.1 < 1510)).length = 3 :=
    ⟨_, _, rfl, by decide, by decide, by decide, rfl⟩
  have run := prompt_of_play oneApproved (.ok []) hplay (by decide) honce hpunctual
    hatOnce (by simp [events, twoCome, eq_comm]) (by simp [events, twoCome])
  exact ⟨h, p, run, congrArg (List.filter _) (Machine.events_of_play hplay), hasked⟩

/-- The next round starts half a second late. -/
theorem round_half_a_second_late :
    ∃ past tr tr' p, Runs 0 1000 (past ++ tr :: ([] ++ tr' :: [])) 1510 p ∧
      Punctual 0 (past ++ tr :: ([] ++ tr' :: [])) ∧
      Late tr ⟨{ id := 3 }, "A"⟩ { reference := "A", status := .approved } ∧
      tr.before.phase = .resting 1010 ∧ tr'.event = .move .round ∧ tr'.time = restOver 1000 tr := by
  obtain ⟨past, tr, tr', p, course, -, hlate, hphase, hround, -⟩ := third_comes_late
  have run : Runs 0 1000 (past ++ tr :: ([] ++ tr' :: [])) 1510 p := course.run
  obtain ⟨-, hlater⟩ := latecomer_postpones run course.punctual (fun _ h => (by cases h)) hround
  obtain ⟨-, -, -, htime⟩ := hlater _ _ hlate
  exact ⟨past, tr, tr', p, run, course.punctual, hlate, hphase, hround, htime⟩

/-- It is not so that Freja is asked the same at the same times, whether a latecomer comes or is
left out. -/
theorem latecomer_disturbs :
    ¬ ∀ (one : String → Outcome) (all : Except Failure (List Result))
      (t₀ interval now now' : Nat) (h h' : History) (p p' : Poller)
      (before after : List (Nat × Event)) (t w : Nat) (r : String),
      Prompt one all t₀ interval h now p → Prompt one all t₀ interval h' now' p' →
      outside h = before ++ (t, .register w r) :: after → outside h' = before ++ after →
      (∃ tr ∈ h, ∃ x, Late tr ⟨{ id := w }, r⟩ x) → ∀ limit, limit ≤ now → limit ≤ now' →
        (questions h).filter (·.1 < limit) = (questions h').filter (·.1 < limit) := by
  intro hclaim
  obtain ⟨past, tr, tr', p, course, houtside, hlate, -, -, hasked⟩ := third_comes_late
  obtain ⟨h', p', course', houtside', hasked'⟩ := third_left_out
  have hsame := hclaim oneApproved (.ok []) 0 1000 1510 2010 (past ++ [tr, tr']) h' p p'
    [(0, .register 1 "A"), (10, .register 2 "B")] [] 510 3 "A" course course' houtside houtside'
    ⟨tr, by simp, _, hlate⟩ 1510 (by decide) (by decide)
  rw [hsame, hasked'] at hasked
  cases hasked

end OrderBroker.Freja.Poller
