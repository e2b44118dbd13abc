import OrderBroker.Proofs.Poller.Waiters

/-!
# What a poller remembers

The first final result of an order is the order's result for as long as it is remembered. Those who
wait for the order are told this one, and so is whoever comes later; the order is not asked for
again, and whatever else Freja tells of it changes nothing. `order_stays_answered` says so of all
runs.
-/

namespace OrderBroker.Freja.Poller

/-! ## Results that are taken -/

section
variable {p p' : Poller} {now : Nat} {r : String} {x : Result} {e : Event} {effects : List Effect}

/-- What is remembered once another result is. -/
theorem seen?_cons (p : Poller) (now : Nat) (x : Result) (r : String) :
    ({ p with seen := ⟨now, x⟩ :: p.seen } : Poller).seen? r =
      if x.reference = r then some x else p.seen? r := by
  by_cases h : x.reference = r <;> simp [seen?, h]

/-- After results have been taken, those are remembered that were, and the first final one of every
order of which nothing was. -/
theorem mem_seen_processAll {now : Nat} {xs : List Result} {s : Seen} :
    s ∈ (p.processAll now xs).1.seen ↔ s ∈ p.seen ∨ (s.time = now ∧
      p.seen? s.result.reference = none ∧ firstFinal s.result.reference xs = some s.result) := by
  induction xs generalizing p with
  | nil => simp [processAll, firstFinal]
  | cons x rest ih =>
    rw [processAll]
    simp only [ih]
    by_cases hnew : x.status.isFinal = true ∧ p.seen? x.reference = none
    · have hprocess := process_new now hnew.1 hnew.2
      have hseen? : (p.process now x).1.seen? s.result.reference =
          if x.reference = s.result.reference then some x else p.seen? s.result.reference := by
        rw [hprocess]
        exact seen?_cons p now x s.result.reference
      have hmem : s ∈ (p.process now x).1.seen ↔ s = ⟨now, x⟩ ∨ s ∈ p.seen := by
        rw [hprocess]
        exact List.mem_cons
      rw [hseen?, hmem]
      by_cases hr : x.reference = s.result.reference
      · have hfirst : firstFinal s.result.reference (x :: rest) = some x :=
          List.find?_cons_of_pos (by simp [hr, hnew.1])
        obtain ⟨time, result⟩ := s
        simp only at hr
        rw [hr] at hnew
        simp [hr, hfirst, hnew.2, or_comm, eq_comm]
      · have hfirst : firstFinal s.result.reference (x :: rest) =
            firstFinal s.result.reference rest := List.find?_cons_of_neg (by simp [hr])
        have hne : s ≠ ⟨now, x⟩ := by
          rintro rfl
          exact hr rfl
        simp [hr, hfirst, hne]
    · have hprocess : p.process now x = (p, []) := if_neg (by simpa using hnew)
      rw [hprocess]
      by_cases hr : x.reference = s.result.reference ∧ x.status.isFinal = true
      · have hseen : p.seen? s.result.reference ≠ none := fun h => hnew ⟨hr.2, hr.1 ▸ h⟩
        simp [hseen]
      · have hfirst : firstFinal s.result.reference (x :: rest) =
            firstFinal s.result.reference rest := List.find?_cons_of_neg (by simpa using hr)
        rw [hfirst]

/-- The end of a round brings nothing into the memory. -/
theorem mem_seen_endRound {s : Seen} (hs : s ∈ (p.endRound now).seen) : s ∈ p.seen :=
  (List.mem_filter.1 hs).1

/-- A question brings nothing into the memory. -/
theorem mem_seen_askNext {s : Seen} {references : List String}
    (hs : s ∈ (p.askNext now references).1.seen) : s ∈ p.seen := by
  cases references with
  | nil => exact mem_seen_endRound hs
  | cons reference later => exact hs

/-- The start of a round brings nothing into the memory. -/
theorem mem_seen_startRound {s : Seen} (hs : s ∈ (p.startRound now).1.seen) : s ∈ p.seen := by
  unfold startRound at hs
  split at hs
  · exact mem_seen_askNext hs
  · exact hs

/-- A registration brings nothing into the memory. -/
theorem mem_seen_accept {s : Seen} {g : Registration} (hs : s ∈ (p.accept now g).1.seen) :
    s ∈ p.seen := by
  unfold accept at hs
  split at hs
  · exact mem_seen_endRound hs
  · have hstart := mem_seen_startRound hs
    exact hstart

/-- **What comes into the memory** is a result that Freja tells now, the first final one of its
order. -/
theorem mem_seen_of_step (hstep : machine now p e = some (p', effects)) {s : Seen}
    (hs : s ∈ p'.seen) :
    s ∈ p.seen ∨ (s.time = now ∧ p.seen? s.result.reference = none ∧
      firstFinal s.result.reference e.results = some s.result) := by
  cases does_of_step hstep with
  | register w r =>
    refine .inl ?_
    unfold register at hs
    split at hs
    · exact hs
    · split at hs <;> exact hs
  | giveUp w => exact .inl hs
  | shutdown => exact .inl hs
  | @move m _ =>
    refine .inl ?_
    cases m with
    | stop => exact hs
    | round => exact mem_seen_startRound hs
    | accept =>
      simp only [make, acceptNext] at hs
      split at hs
      · have hfill := mem_seen_accept hs
        rwa [(admits_fillQueue _).2.2] at hfill
      · exact hs
  | toldOne answer hphase =>
    simp only [answeredOne, hphase] at hs
    cases answer with
    | ok x =>
      have htaken : s ∈ (p.processAll now [x]).1.seen := mem_seen_askNext hs
      exact mem_seen_processAll.1 htaken
    | error failure =>
      refine .inl ?_
      have hkept := mem_seen_askNext hs
      simp only at hkept
      split at hkept <;> exact hkept
  | toldAll answer hphase =>
    simp only [answeredAll, hphase] at hs
    cases answer with
    | ok xs => exact mem_seen_processAll.1 (mem_seen_endRound hs)
    | error failure => exact .inl (mem_seen_endRound hs)
  | relist _ => exact .inl hs

/-- The first final result of an order of which nothing is remembered comes into the memory. -/
theorem taken_of_step (hstep : machine now p e = some (p', effects)) (hnone : p.seen? r = none)
    (hfirst : firstFinal r e.results = some x) : ⟨now, x⟩ ∈ p'.seen := by
  obtain ⟨-, href, -⟩ := firstFinal_spec hfirst
  have htaken : ⟨now, x⟩ ∈ (p.processAll now e.results).1.seen :=
    mem_seen_processAll.2 (.inr ⟨rfl, by rw [href]; exact hnone, by rw [href]; exact hfirst⟩)
  have hnew : now - now < retention := by simp [retention]
  cases does_of_step hstep with
  | @toldOne _ later answer hphase =>
    simp only [answeredOne, hphase]
    cases answer with
    | ok y => exact (Frame.askNext later).keeps _ htaken hnew
    | error failure => cases hfirst
  | toldAll answer hphase =>
    simp only [answeredAll, hphase]
    cases answer with
    | ok xs => exact Frame.endRound.keeps _ htaken hnew
    | error failure => cases hfirst
  | _ => cases hfirst

/-- **What somebody is told** is a final result of the order for which he waits, which Freja tells
now or told before. -/
theorem source_of_step (hp : Sound p) (hstep : machine now p e = some (p', effects)) {w : Nat}
    (hx : (w, .ok x) ∈ answersOf effects) :
    x.status.isFinal = true ∧ (x ∈ e.results ∨ ∃ s ∈ p.seen, s.result = x) ∧
      ∃ g ∈ p.pending ++ e.newcomers, g.waiter.id = w ∧ g.reference = x.reference := by
  have hstays : ∀ w, e ≠ .giveUp w := by
    rintro w' rfl
    rw [show effects = [] from congrArg Prod.snd (Option.some.inj hstep).symm] at hx
    cases hx
  obtain ⟨g, hg, -, rfl, htold⟩ := (moves_of_step hp hstep hstays).settles.answered hx
  cases htold with
  | result _ hfirst =>
    obtain ⟨hmem, href, hfinal⟩ := firstFinal_spec hfirst
    exact ⟨hfinal, .inl hmem, g, hg, rfl, href.symm⟩
  | remembered _ _ hseen =>
    obtain ⟨t, ht⟩ := mem_seen_of_seen? hseen
    exact ⟨hp.final _ ht, .inr ⟨_, ht, rfl⟩, g, hg, rfl, (reference_of_seen? hseen).symm⟩

end

/-! ## Questions -/

/-- The orders that are asked for in a round, from the one that is asked for now. -/
def agenda (p : Poller) : List String :=
  match p.phase with
  | .single reference later => reference :: later
  | _ => []

/-- No round is under way. -/
def rests (p : Poller) : Bool :=
  match p.phase with
  | .resting _ => true
  | _ => false

/-- The effect is a question to Freja. -/
def Effect.asks : Effect → Bool
  | .askOne _ | .askAll => true
  | _ => false

section
variable {p p' : Poller} {now : Nat} {r q : String} {x : Result} {e : Event} {effects : List Effect}

/-- Answers ask nothing. -/
theorem asks_answerAll {waiters : List Waiter} {o : Outcome} {effect : Effect}
    (h : effect ∈ answerAll waiters o) : effect.asks = false := by
  obtain ⟨w, -, rfl⟩ := List.mem_map.1 h
  rfl

/-- To admit somebody asks nothing. -/
theorem asks_fillQueue {effect : Effect} (h : effect ∈ p.fillQueue.2) : effect.asks = false := by
  unfold fillQueue at h
  split at h
  · cases h
  · rw [List.mem_singleton] at h
    rw [h]
    rfl

/-- To take a result asks nothing. -/
theorem asks_process {effect : Effect} (h : effect ∈ (p.process now x).2) :
    effect.asks = false := by
  unfold process at h
  split at h
  · exact asks_answerAll h
  · cases h

/-- To take results asks nothing. -/
theorem asks_processAll {xs : List Result} {effect : Effect}
    (h : effect ∈ (p.processAll now xs).2) : effect.asks = false := by
  induction xs generalizing p with
  | nil => cases h
  | cons x rest ih =>
    rcases List.mem_append.1 h with h | h
    · exact asks_process h
    · exact ih h

/-- What is asked for next is what is to be asked for. -/
theorem agenda_askNext (references : List String) :
    (p.askNext now references).1.agenda = references := by
  cases references <;> rfl

/-- The order that is asked for stands on the agenda. -/
theorem askOne_mem_askNext {references : List String}
    (h : .askOne q ∈ (p.askNext now references).2) : q ∈ references := by
  cases references with
  | nil => cases h
  | cons reference later =>
    simp only [askNext, List.mem_singleton, Effect.askOne.injEq] at h
    exact h ▸ .head _

/-- A round asks for orders that somebody waits for. -/
theorem agenda_startRound (hq : q ∈ (p.startRound now).1.agenda) :
    q ∈ (p.startRound now).1.orders := by
  unfold startRound at hq ⊢
  split at hq
  · next hfew =>
    rw [if_pos hfew]
    rw [agenda_askNext] at hq
    have hold : q ∈ p.orders := (List.mem_filter.1 hq).1
    cases hrefs : (p.waiting.map (·.1)).filter (· ≠ "") with
    | nil =>
      rw [hrefs] at hq
      cases hq
    | cons reference later => exact hold
  · cases hq

/-- The order that is asked for first in a round stands on its agenda. -/
theorem askOne_mem_startRound (h : .askOne q ∈ (p.startRound now).2) :
    q ∈ (p.startRound now).1.agenda := by
  unfold startRound at h ⊢
  split at h
  · next hfew =>
    rw [if_pos hfew, agenda_askNext]
    exact askOne_mem_askNext h
  · simp at h

/-- A round that a registration starts asks for orders that somebody waits for. -/
theorem agenda_accept {g : Registration} (hq : q ∈ (p.accept now g).1.agenda) :
    q ∈ (p.accept now g).1.orders := by
  unfold accept at hq ⊢
  split at hq
  · cases hq
  · exact agenda_startRound hq

/-- The order that is asked for after a registration stands on the agenda. -/
theorem askOne_mem_accept {g : Registration} (h : .askOne q ∈ (p.accept now g).2) :
    q ∈ (p.accept now g).1.agenda := by
  unfold accept at h ⊢
  split at h
  · cases asks_answerAll h
  · exact askOne_mem_startRound h

/-- What a step may ask for. A round starts with orders that somebody waits for, and goes on with
those that it started with. -/
structure Asks (p p' : Poller) (effects : List Effect) : Prop where
  listed : ∀ q, .askOne q ∈ effects → q ∈ p'.agenda
  first : p.rests = true → ∀ q ∈ p'.agenda, q ∈ p'.orders
  later : p.rests = false → ∀ q ∈ p'.agenda, q ∈ p.agenda

/-- A step that asks nothing and changes no round. -/
theorem Asks.of_same (hphase : p'.phase = p.phase) (hquiet : ∀ q, .askOne q ∉ effects) :
    Asks p p' effects := by
  have hagenda : p'.agenda = p.agenda := by rw [agenda, agenda, hphase]
  refine ⟨fun q hq => absurd hq (hquiet q), fun hrests q hq => ?_, fun _ q hq => hagenda ▸ hq⟩
  rw [hagenda, agenda] at hq
  rw [rests] at hrests
  split at hrests
  · next due hresting =>
    rw [hresting] at hq
    cases hq
  · cases hrests

/-- A registration asks for nothing before it is taken from the queue. -/
theorem asks_register {w : Nat} : Asks p (p.register w r).1 (p.register w r).2 := by
  unfold register
  split
  · exact .of_same rfl (by simp)
  · split <;> exact .of_same rfl (by simp)

/-- A poller that rests asks for orders that somebody waits for. -/
theorem asks_make {m : Move} (hm : m ∈ p.moves now) :
    Asks p (p.make now m).1 (p.make now m).2 := by
  obtain ⟨due, hresting⟩ := resting_of_mem_moves hm
  have hrests : p.rests ≠ false := by simp [rests, hresting]
  cases m with
  | stop =>
    refine ⟨fun q hq => ?_, fun _ q hq => (by cases hq), fun h => absurd h hrests⟩
    cases asks_answerAll hq
  | round =>
    exact ⟨fun q => askOne_mem_startRound, fun _ q => agenda_startRound, fun h => absurd h hrests⟩
  | accept =>
    simp only [make, acceptNext]
    split
    · refine ⟨fun q hq => ?_, fun _ q => agenda_accept, fun h => absurd h hrests⟩
      rcases List.mem_append.1 hq with hq | hq
      · cases asks_fillQueue hq
      · exact askOne_mem_accept hq
    · exact .of_same rfl (by simp)

/-- After an answer about one order the poller asks for the next of the round. -/
theorem asks_answeredOne {asked : String} {later : List String}
    (hphase : p.phase = .single asked later) (answer : Except Failure Result) :
    Asks p (p.answeredOne now answer).1 (p.answeredOne now answer).2 := by
  have hrests : p.rests ≠ true := by simp [rests, hphase]
  have hagenda : p.agenda = asked :: later := by rw [agenda, hphase]
  simp only [answeredOne, hphase]
  refine ⟨fun q hq => ?_, fun h => absurd h hrests, fun _ q hq => ?_⟩
  · rw [agenda_askNext]
    rcases List.mem_append.1 hq with hq | hq
    · cases answer with
      | ok x => cases asks_process hq
      | error failure =>
        simp only at hq
        split at hq
        · cases asks_answerAll hq
        · cases hq
    · exact askOne_mem_askNext hq
  · rw [agenda_askNext] at hq
    rw [hagenda]
    exact List.mem_cons_of_mem _ hq

/-- After an answer about all orders the round is over. -/
theorem asks_answeredAll (hphase : p.phase = .bulk) (answer : Except Failure (List Result)) :
    Asks p (p.answeredAll now answer).1 (p.answeredAll now answer).2 := by
  simp only [answeredAll, hphase]
  refine ⟨fun q hq => ?_, fun _ q hq => (by cases hq), fun _ q hq => (by cases hq)⟩
  cases answer with
  | ok xs => cases asks_processAll hq
  | error failure => cases hq

/-- **What a step asks for.** -/
theorem asks_of_step (hstep : machine now p e = some (p', effects)) : Asks p p' effects := by
  cases does_of_step hstep with
  | register w r => exact asks_register
  | giveUp w => exact .of_same rfl (by simp)
  | shutdown => exact .of_same rfl (by simp)
  | move hm => exact asks_make hm
  | toldOne answer hphase => exact asks_answeredOne hphase answer
  | toldAll answer hphase => exact asks_answeredAll hphase answer
  | relist _ => exact .of_same rfl (by simp)

end

/-! ## Latecomers and late results -/

section
variable {p : Poller} {now : Nat} {r : String} {x : Result}

/-- A result of an order of which one is remembered is passed over: it is as if the question had
failed. -/
theorem late_result (reference : String) {y : Result} (hseen : p.seen? y.reference = some x)
    {failure : Failure} (hfails : saysUnknown failure = false) :
    machine now p (.toldOne reference (.ok y)) =
      machine now p (.toldOne reference (.error failure)) := by
  simp only [machine]
  split
  · next asked later hphase =>
    simp only [answeredOne, hphase]
    rw [process_old now (.inr (by rw [hseen]; rfl))]
    simp [hfails]
  · rfl

/-- Taking a result of another order leaves what is remembered of an order. -/
theorem seen?_process (hseen : p.seen? r = some x) (y : Result) :
    (p.process now y).1.seen? r = some x := by
  unfold process
  split
  · next hnew =>
    have hne : y.reference ≠ r := by
      rintro rfl
      rw [hseen] at hnew
      cases hnew.2
    have hcons := seen?_cons (p.withoutReference y.reference) now y r
    rw [if_neg hne] at hcons
    exact hcons.trans hseen
  · exact hseen

/-- Of several results, those of an order of which one is remembered might as well not be there. -/
theorem processAll_late (hseen : p.seen? r = some x) (xs : List Result) :
    p.processAll now xs = p.processAll now (xs.filter (·.reference ≠ r)) := by
  induction xs generalizing p with
  | nil => rfl
  | cons y rest ih =>
    by_cases hr : y.reference = r
    · have hold : p.process now y = (p, []) :=
        process_old now (.inr (by rw [hr, hseen]; rfl))
      rw [List.filter_cons_of_neg (by simpa using hr), processAll, hold, ← ih hseen]
      rfl
    · rw [List.filter_cons_of_pos (by simpa using hr)]
      simp only [processAll]
      rw [ih (seen?_process hseen y)]

/-- The same of the answer to the question about all orders. -/
theorem late_results (hseen : p.seen? r = some x) (xs : List Result) :
    machine now p (.toldAll (.ok xs)) =
      machine now p (.toldAll (.ok (xs.filter (·.reference ≠ r)))) := by
  simp only [machine, answeredAll]
  rw [processAll_late hseen]

/-- A registration for an order of which a result is remembered is answered with it, and nothing is
asked. -/
theorem accept_remembered {g : Registration} {rest : List Registration}
    (hqueue : p.queue = g :: rest) (hseen : p.seen? g.reference = some x) :
    (∀ effect ∈ (p.acceptNext now).2, effect.asks = false) ∧
      answersOf (p.acceptNext now).2 =
        if g.waiter.live then [(g.waiter.id, .ok x)] else [] := by
  have hfill := admits_fillQueue { p with queue := rest }
  have hnone : answersOf ({ p with queue := rest } : Poller).fillQueue.2 = [] := by
    unfold fillQueue
    split <;> rfl
  have hsame : ({ p with queue := rest } : Poller).fillQueue.1.seen? g.reference = some x := by
    rw [seen?, hfill.2.2, ← hseen]
    rfl
  simp only [acceptNext, hqueue, accept, hsame]
  refine ⟨fun effect heffect => ?_, ?_⟩
  · rcases List.mem_append.1 heffect with heffect | heffect
    · exact asks_fillQueue heffect
    · exact asks_answerAll heffect
  · rw [answersOf_append, hnone, answersOf_answerAll]
    cases hlive : g.waiter.live <;> simp [hlive]

end

/-! ## Every run -/

section
variable {h past later : History} {p : Poller} {t₀ interval now : Nat} {r : String} {x : Result}
  {tr : Transition Poller Event Effect}

/-- A poller is sound after every run. -/
theorem sound_of_runs (run : Runs t₀ interval h now p) : Sound p := (Kept.of_runs run).sound

/-- An order that is not on the agenda is not asked for until the round is over. -/
theorem not_asked_in_round (run : Runs t₀ interval (past ++ tr :: later) now p)
    (hr : r ∉ tr.after.agenda) :
    ∀ y ∈ later.takeWhile (!·.before.rests), .askOne r ∉ y.effects := by
  induction later generalizing past tr with
  | nil => simp
  | cons y later ih =>
    have hadjacent : y.before = tr.after := run.adjacent
    rw [List.append_cons] at run
    intro z hz
    obtain ⟨t, -, -, -, hstep⟩ := run.split
    have hasks := asks_of_step hstep
    cases hrests : y.before.rests with
    | true => simp [hrests] at hz
    | false =>
      have hry : r ∉ y.after.agenda := fun hmem => hr (hadjacent ▸ hasks.later hrests r hmem)
      rw [List.takeWhile_cons_of_pos (by simp [hrests])] at hz
      rcases List.mem_cons.1 hz with rfl | hz
      · exact fun hmem => hry (hasks.listed r hmem)
      · exact ih run hry z hz

/-- `Settled h r x tr`: at the transition `tr` the result `x` is the result of the order `r`. It is
remembered, whoever is told anything is told this, a registration is answered with it and without a
question, and other results of the order make no difference. -/
structure Settled (h : History) (r : String) (x : Result) (tr : Transition Poller Event Effect) :
    Prop where
  remembered : tr.before.seen? r = some x ∧ tr.after.seen? r = some x
  told : ∀ w o, (w, o) ∈ answersOf tr.effects → Registered h w r →
    o = .ok x ∨ (o = .error (.at .freja .pollerStopped) ∧
      (tr.event = .move .stop ∨ tr.before.phase = .stopped))
  accepted : ∀ g rest, tr.event = .move .accept → tr.before.queue = g :: rest → g.reference = r →
    (∀ effect ∈ tr.effects, effect.asks = false) ∧
      answersOf tr.effects = if g.waiter.live then [(g.waiter.id, .ok x)] else []
  one : ∀ reference y failure, tr.event = .toldOne reference (.ok y) → y.reference = r →
    saysUnknown failure = false →
      machine tr.time tr.before (.toldOne reference (.error failure)) = some (tr.after, tr.effects)
  all : ∀ xs, tr.event = .toldAll (.ok xs) →
    machine tr.time tr.before (.toldAll (.ok (xs.filter (·.reference ≠ r)))) =
      some (tr.after, tr.effects)

/-- A result that is taken is in the memory until its time is over. -/
theorem mem_seen_later (run : Runs t₀ interval (past ++ tr :: later) now p)
    (hnone : tr.before.seen? r = none) (hfirst : firstFinal r tr.event.results = some x) :
    ∀ tr' ∈ later, tr'.time < tr.time + retention →
      ⟨tr.time, x⟩ ∈ tr'.before.seen ∧ ⟨tr.time, x⟩ ∈ tr'.after.seen := by
  obtain ⟨t, -, -, -, hstep⟩ := run.split
  refine run.throughout (fun p => ⟨tr.time, x⟩ ∈ p.seen) (tr.time + retention)
    (taken_of_step hstep hnone hfirst) ?_
  intro h t now p p' e effects _ hlt hmem hstep
  have hpositive : 0 < retention := by decide
  exact (leaves_of_step hstep).keeps _ hmem (by simp only; omega)

/-- While the first final result of an order is remembered, it is the order's result. -/
theorem settled_later (run : Runs t₀ interval (past ++ tr :: later) now p)
    (hnone : tr.before.seen? r = none) (hfirst : firstFinal r tr.event.results = some x) :
    ∀ tr' ∈ later, tr'.time < tr.time + retention →
      Settled (past ++ tr :: later) r x tr' := by
  intro tr' htr' hlt
  obtain ⟨hbefore, hafter⟩ := mem_seen_later run hnone hfirst tr' htr' hlt
  have hmem : tr' ∈ past ++ tr :: later := List.mem_append_right _ (.tail _ htr')
  obtain ⟨_, _, _, -, hrun, -, -, hstep⟩ := run.of_mem hmem
  have hsound := sound_of_runs hrun
  obtain ⟨-, rfl, -⟩ := firstFinal_spec hfirst
  have hseen : tr'.before.seen? x.reference = some x := hsound.seen?_of_mem hbefore
  refine ⟨⟨hseen, (sound_of_step hsound hstep).seen?_of_mem hafter⟩, fun w o ho hw => ?_,
    fun g rest hevent hqueue href => ?_, fun reference y failure hevent href hfails => ?_,
    fun xs hevent => ?_⟩
  · obtain ⟨g, hg, -, htold⟩ := told_of_answer run hmem ho
    have href : x.reference = g.reference := (hg _).1 hw
    -- Nobody is held for the order any more.
    have hout : g ∉ tr'.before.held := fun hheld =>
      hsound.not_mem_orders hseen (href ▸ reference_mem_orders hheld)
    cases htold with
    | result hheld _ => exact absurd hheld hout
    | unknown hheld _ _ => exact absurd hheld hout
    | remembered _ _ hremembered =>
      rw [← href, hseen, Option.some.injEq] at hremembered
      exact .inl (by rw [hremembered])
    | stop hevent => exact .inr ⟨rfl, .inl hevent⟩
    | late hphase _ => exact .inr ⟨rfl, .inr hphase⟩
  · rw [hevent] at hstep
    simp only [machine, Option.ite_none_right_eq_some, Option.some.injEq] at hstep
    rw [show tr'.effects = (tr'.before.acceptNext tr'.time).2 from
      congrArg Prod.snd hstep.2.symm]
    exact accept_remembered hqueue (href ▸ hseen)
  · rw [← late_result reference (href ▸ hseen) hfails, ← hevent]
    exact hstep
  · rw [← late_results hseen, ← hevent]
    exact hstep

/-- A round that starts while a result of the order is remembered never asks for the order. -/
theorem not_asked_later (run : Runs t₀ interval (past ++ tr :: later) now p)
    (hnone : tr.before.seen? r = none) (hfirst : firstFinal r tr.event.results = some x)
    {a b : History} {tr' : Transition Poller Event Effect} (hlater : later = a ++ tr' :: b)
    (hlt : tr'.time < tr.time + retention) (hrests : tr'.before.rests = true) :
    ∀ y ∈ tr' :: b.takeWhile (!·.before.rests), .askOne r ∉ y.effects := by
  have hmem : tr' ∈ later := by simp [hlater]
  obtain ⟨-, hafter⟩ := mem_seen_later run hnone hfirst tr' hmem hlt
  obtain ⟨-, rfl, -⟩ := firstFinal_spec hfirst
  rw [hlater, ← List.cons_append, ← List.append_assoc] at run
  obtain ⟨t, hrun, -, -, hstep⟩ := run.split
  have hsound := sound_of_step (sound_of_runs hrun) hstep
  have hasks := asks_of_step hstep
  have hout : x.reference ∉ tr'.after.agenda := fun hq =>
    hsound.not_mem_orders (hsound.seen?_of_mem hafter) (hasks.first hrests _ hq)
  intro y hy
  rcases List.mem_cons.1 hy with rfl | hy
  · exact fun hq => hout (hasks.listed _ hq)
  · exact not_asked_in_round run hout y hy

/-- Whoever is answered when the first final result of his order is taken is told this result, and
so are all who wait for the order and have not given up. -/
theorem told_at_once (run : Runs t₀ interval (past ++ tr :: later) now p)
    (hnone : tr.before.seen? r = none) (hfirst : firstFinal r tr.event.results = some x) :
    (∀ g ∈ tr.before.held, g.reference = r → g.waiter.live = true →
        (g.waiter.id, .ok x) ∈ answersOf tr.effects) ∧
      ∀ w o, (w, o) ∈ answersOf tr.effects → Registered (past ++ tr :: later) w r →
        o = .ok x := by
  obtain ⟨t, hrun, -, -, hstep⟩ := run.split
  have hsound := sound_of_runs hrun
  -- The event tells a result, so that nobody is told anything else.
  have hreason : ∀ g o, g.reference = r → Told tr.before tr.event g o → o = .ok x := by
    rintro g o rfl htold
    cases htold with
    | result _ hy =>
      rw [hfirst, Option.some.injEq] at hy
      rw [hy]
    | unknown _ hevent _ =>
      rw [hevent] at hfirst
      cases hfirst
    | remembered hevent _ _ =>
      rw [hevent] at hfirst
      cases hfirst
    | stop hevent =>
      rw [hevent] at hfirst
      cases hfirst
    | late _ hevent =>
      rw [hevent] at hfirst
      cases hfirst
  have hstays : ∀ w, tr.event ≠ .giveUp w := by
    intro w hevent
    rw [hevent] at hfirst
    cases hfirst
  have hmoves := moves_of_step hsound hstep hstays
  have hout : r ∉ tr.after.orders := by
    have htaken := taken_of_step hstep hnone hfirst
    rw [← (firstFinal_spec hfirst).2.1]
    exact hmoves.sound.apart _ htaken
  refine ⟨fun g hg href hlive => ?_, fun w o ho hw => ?_⟩
  · have hpending : g ∈ tr.before.pending ++ tr.event.newcomers := by simp [pending, hg]
    rcases hmoves.settles.left_or_answered hpending hlive with hleft | ⟨o, htold, ho⟩
    · have hqueue := (frame_of_results hstep (by rintro heq; rw [heq] at hfirst; cases hfirst))
      rw [pending, hqueue.queue, hqueue.blocked] at hleft
      rcases List.mem_append.1 hleft with hleft | hleft
      · have hnodup := (List.nodup_append.1 (Kept.of_runs hrun).nodup).1
        rw [pending, List.map_append] at hnodup
        exact absurd rfl ((List.nodup_append.1 hnodup).2.2 _ (List.mem_map_of_mem hleft) _
          (List.mem_map_of_mem hg))
      · exact absurd (href ▸ reference_mem_orders hleft) hout
    · rwa [hreason g o href htold] at ho
  · obtain ⟨g, hg, -, htold⟩ := told_of_answer run (by simp) ho
    exact hreason g o ((hg _).1 hw).symm htold

/-- **An order stays answered.** After every run the memory holds final results, each under the
reference of its own order, and of no order that somebody waits for. Where the first final result
of an order is taken, all who wait for it are told this result. It stays the order's result for the
ten minutes for which it is remembered, and no round that starts in this time asks for the order. -/
theorem order_stays_answered (run : Runs t₀ interval h now p) :
    (∀ r x, p.seen? r = some x → x.reference = r ∧ x.status.isFinal = true ∧ r ∉ p.orders) ∧
      (∀ s ∈ p.seen, p.seen? s.result.reference = some s.result) ∧
      ∀ past tr later r x, h = past ++ tr :: later → tr.before.seen? r = none →
        firstFinal r tr.event.results = some x →
        (∀ g ∈ tr.before.held, g.reference = r → g.waiter.live = true →
          (g.waiter.id, .ok x) ∈ answersOf tr.effects) ∧
        (∀ w o, (w, o) ∈ answersOf tr.effects → Registered h w r → o = .ok x) ∧
        (∀ tr' ∈ later, tr'.time < tr.time + 600000 → Settled h r x tr') ∧
        ∀ a tr' b, later = a ++ tr' :: b → tr'.time < tr.time + 600000 →
          tr'.before.rests = true →
          ∀ y ∈ tr' :: b.takeWhile (!·.before.rests), .askOne r ∉ y.effects := by
  have hsound := sound_of_runs run
  refine ⟨fun r x hseen => ?_, fun s => hsound.seen?_of_mem, ?_⟩
  · obtain ⟨t, ht⟩ := mem_seen_of_seen? hseen
    exact ⟨reference_of_seen? hseen, hsound.final _ ht, hsound.not_mem_orders hseen⟩
  · rintro past tr later r x rfl hnone hfirst
    obtain ⟨hheld, htold⟩ := told_at_once run hnone hfirst
    exact ⟨hheld, htold, settled_later run hnone hfirst,
      fun a tr' b => not_asked_later run hnone hfirst⟩

end

/-- A waiter who comes after the result was taken is told the same result, and the round that ends
with it asks nothing. -/
theorem latecomer_told_the_same :
    ∃ h p past tr later tr' x, Runs 0 1000 h 8 p ∧ h = past ++ tr :: later ∧ tr' ∈ later ∧
      answersOf tr.effects = [(1, .ok x)] ∧ tr'.event = .move .accept ∧ Settled h "A" x tr' ∧
      answersOf tr'.effects = [(2, .ok x)] ∧ .askOne "A" ∉ tr'.effects := by
  have quiet {h : History} {e : Event} (he : e.newcomers = []) : Fresh h e := by
    rintro w r r' rfl
    cases he
  have h₁ : Runs 0 1000 _ 0 _ := Run.next (e := .register 1 "A") .start (Nat.le_refl 0)
    (fun _ _ _ _ h => by simp [Registered] at h) rfl
  have h₂ := h₁.next (Nat.le_refl 0) (quiet (e := .move .accept) rfl) rfl
  have h₃ := h₂.next (Nat.le_add_right 0 7)
    (quiet (e := .toldOne "A" (.ok { reference := "A", status := .approved })) rfl) rfl
  have h₄ := h₃.next (e := .register 2 "A") (Nat.le_add_right 7 1)
    (fun _ _ _ heq h => by injection heq with hw; subst hw; simp [Registered] at h) rfl
  have h₅ := h₄.next (Nat.le_refl 8) (quiet (e := .move .accept) rfl) rfl
  have cut (a : History) (x y z : Transition Poller Event Effect) :
      a ++ [x] ++ [y] ++ [z] = a ++ x :: [y, z] := by simp
  obtain ⟨-, -, hlater, hround⟩ :=
    (order_stays_answered h₅).2.2 _ _ [_, _] "A" _ (cut _ _ _ _) rfl rfl
  exact ⟨_, _, _, _, [_, _], _, _, h₅, cut _ _ _ _, .tail _ (.head _), rfl, rfl,
    hlater _ (.tail _ (.head _)) (by decide), rfl,
    hround [_] _ [] rfl (by decide) rfl _ (.head _)⟩

end OrderBroker.Freja.Poller
