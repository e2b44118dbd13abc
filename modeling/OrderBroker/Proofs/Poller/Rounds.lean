import OrderBroker.Proofs.Poller.Memory

/-!
# Rounds of questions

A round starts with a question about one order or about all (`starts_of_step`), and until it is over
little else can happen than that answers come (`inRound_of_step`).

In a `Round` the orders are asked for one after the other, and nothing but the answers comes in
between. What it makes of a poller is what taking its answers makes, one after the other
(`Round.eq_takeEach`).
-/

namespace OrderBroker.Freja.Poller

/-! ## Taking answers -/

/-- Takes the answer to the question about one order. -/
def takeOne (now : Nat) (p : Poller) (asked : String) : Outcome → Poller × List Effect
  | .ok x => p.process now x
  | .error failure => if saysUnknown failure then p.fail asked failure else (p, [])

/-- Takes answers one after the other, each at its time. -/
def takeEach (p : Poller) : List (Nat × String × Outcome) → Poller × List Effect
  | [] => (p, [])
  | (now, asked, answer) :: rest =>
    let (q, effects) := p.takeOne now asked answer
    let (q, more) := takeEach q rest
    (q, effects ++ more)

section
variable {p p' q : Poller} {t now : Nat} {r : String} {rest : List String}
  {answer : String → Outcome} {h : History} {e : Event} {effects : List Effect}

/-- An answer is taken, and the next question asked. -/
theorem answeredOne_eq (now : Nat) (hphase : p.phase = .single r rest) (o : Outcome) :
    p.answeredOne now o = (((p.takeOne now r o).1.askNext now rest).1,
      (p.takeOne now r o).2 ++ ((p.takeOne now r o).1.askNext now rest).2) := by
  simp only [answeredOne, hphase, takeOne]
  cases o <;> rfl

/-- Where a poller stands makes no difference to the taking of a result. -/
theorem process_phase (phase : Phase) (x : Result) :
    ({ p with phase } : Poller).process now x =
      ({ (p.process now x).1 with phase }, (p.process now x).2) := by
  unfold process
  by_cases hnew : x.status.isFinal = true ∧ (p.seen? x.reference).isNone = true
  · rw [if_pos hnew]
    exact if_pos hnew
  · rw [if_neg hnew]
    exact if_neg hnew

/-- Nor to the taking of several results. -/
theorem processAll_phase (phase : Phase) (xs : List Result) :
    ({ p with phase } : Poller).processAll now xs =
      ({ (p.processAll now xs).1 with phase }, (p.processAll now xs).2) := by
  induction xs generalizing p with
  | nil => rfl
  | cons x rest ih =>
    rw [processAll, process_phase]
    simp only [ih]
    rfl

/-- Nor to the taking of an answer. -/
theorem takeOne_phase (phase : Phase) (o : Outcome) :
    ({ p with phase } : Poller).takeOne now r o =
      ({ (p.takeOne now r o).1 with phase }, (p.takeOne now r o).2) := by
  cases o with
  | ok x => exact process_phase phase x
  | error failure =>
    simp only [takeOne]
    split <;> rfl

/-- Nor to the question that is asked next. -/
theorem askNext_phase (phase : Phase) (rest : List String) :
    ({ p with phase } : Poller).askNext now rest = p.askNext now rest := by
  cases rest <;> rfl

/-! ## The start of a round -/

/-- The orders that can be asked for one by one: those with a name. -/
def named (p : Poller) : List String := p.orders.filter (· ≠ "")

/-- A poller asks for few orders one by one. -/
theorem startRound_few (t : Nat) (hsome : 0 < p.orders.length)
    (hfew : p.orders.length < bulkThreshold) : p.startRound t = p.askNext t p.named := by
  rw [orders, List.length_map] at hsome hfew
  exact if_pos ⟨hsome, hfew⟩

/-- A poller asks for many orders all at once, and also if there are none. -/
theorem startRound_many (t : Nat)
    (hmany : ¬ (0 < p.orders.length ∧ p.orders.length < bulkThreshold)) :
    p.startRound t = ({ p with phase := .bulk }, [.askAll]) := by
  rw [orders, List.length_map] at hmany
  exact if_neg hmany

/-- How a poller starts to ask: for few orders one by one, for many all at once. -/
structure Starts (p : Poller) : Prop where
  few : 0 < p.orders.length → p.orders.length < bulkThreshold → p.agenda = p.named
  many : bulkThreshold ≤ p.orders.length → p.phase = .bulk

/-- A round starts so. -/
theorem starts_startRound (hasks : (p.startRound t).1.rests = false) :
    Starts (p.startRound t).1 := by
  by_cases hfew : 0 < p.orders.length ∧ p.orders.length < bulkThreshold
  · rw [startRound_few t hfew.1 hfew.2] at hasks ⊢
    cases hnamed : p.named with
    | nil =>
      rw [hnamed] at hasks
      cases hasks
    | cons r rest =>
      exact ⟨fun _ _ => hnamed.symm, fun hmany => absurd hmany (Nat.not_le_of_lt hfew.2)⟩
  · rw [startRound_many t hfew]
    exact ⟨fun hsome hlt => absurd ⟨hsome, hlt⟩ hfew, fun _ => rfl⟩

/-- A poller that rests goes on resting as long as it does not move. -/
theorem phase_of_step (hstep : machine now p e = some (p', effects)) (hrests : p.rests = true)
    (hquiet : ∀ m, e ≠ .move m) : p'.phase = p.phase := by
  cases does_of_step hstep with
  | register w r =>
    unfold register
    split
    · rfl
    · split <;> rfl
  | giveUp w => rfl
  | shutdown => rfl
  | move _ => exact absurd rfl (hquiet _)
  | toldOne _ hphase =>
    rw [rests, hphase] at hrests
    cases hrests
  | toldAll _ hphase =>
    rw [rests, hphase] at hrests
    cases hrests
  | relist _ => rfl

/-- **A poller that rested and asks has started a round.** -/
theorem starts_of_step (hstep : machine now p e = some (p', effects)) (hrests : p.rests = true)
    (hasks : p'.rests = false) (hr : r ∈ p'.orders) : Starts p' := by
  by_cases hmove : ∃ m, e = .move m
  · obtain ⟨m, rfl⟩ := hmove
    cases does_of_step hstep
    cases m with
    | stop => cases hr
    | round => exact starts_startRound hasks
    | accept =>
      simp only [make, acceptNext] at hasks ⊢
      split at hasks
      · simp only [accept] at hasks ⊢
        split at hasks
        · cases hasks
        · exact starts_startRound hasks
      · rw [hrests] at hasks
        cases hasks
  · have hphase := phase_of_step hstep hrests fun m heq => hmove ⟨m, heq⟩
    rw [rests, hphase, ← rests, hrests] at hasks
    cases hasks

/-! ## Steps within a round -/

/-- A poller that rests asks for nothing. -/
theorem agenda_of_rests (hrests : p.rests = true) : p.agenda = [] := by
  unfold rests at hrests
  split at hrests
  · next due hphase => rw [agenda, hphase]
  · cases hrests

/-- What can happen to a poller that asks. It takes an answer, or it does not, and then it goes on
asking, no order comes into the table, and everybody who does not give up stands where he stood. -/
inductive InRound (now : Nat) (p : Poller) : Event → Poller → List Effect → Prop
  | other {e : Event} {p' : Poller} {effects : List Effect} : p'.phase = p.phase →
      p'.orders ⊆ p.orders → (∀ g ∈ p.held, e ≠ .giveUp g.waiter.id → g ∈ p'.held) →
      InRound now p e p' effects
  | toldOne {asked : String} {later : List String} (o : Outcome) : p.phase = .single asked later →
      InRound now p (.toldOne asked o) ((p.takeOne now asked o).1.askNext now later).1
        ((p.takeOne now asked o).2 ++ ((p.takeOne now asked o).1.askNext now later).2)
  | toldAll (answer : Except Failure (List Result)) : p.phase = .bulk →
      InRound now p (.toldAll answer) (p.answeredAll now answer).1 (p.answeredAll now answer).2

/-- **A step of a poller that asks** is one of these. -/
theorem inRound_of_step (hstep : machine now p e = some (p', effects)) (hasks : p.rests = false) :
    InRound now p e p' effects := by
  cases does_of_step hstep with
  | register w r =>
    unfold register
    split
    · exact .other rfl (List.Subset.refl _) fun _ hg _ => hg
    · split <;> exact .other rfl (List.Subset.refl _) fun _ hg _ => hg
  | giveUp w =>
    refine .other rfl ?_ fun g hg hstays => ?_
    · simp [orders, giveUp, List.map_map, Function.comp_def]
    · rw [held_giveUp]
      exact List.mem_map.2 ⟨g, hg, if_neg fun heq => hstays (congrArg Event.giveUp heq.symm)⟩
  | shutdown => exact .other rfl (List.Subset.refl _) fun _ hg _ => hg
  | move hm =>
    obtain ⟨due, hresting⟩ := resting_of_mem_moves hm
    rw [rests, hresting] at hasks
    cases hasks
  | toldOne o hphase =>
    rw [answeredOne_eq now hphase]
    exact .toldOne o hphase
  | toldAll answer hphase => exact .toldAll answer hphase
  | relist hperm =>
    exact .other rfl (hperm.map _).subset fun g hg _ => (hperm.flatMap_right _).mem_iff.2 hg

/-! ## Rounds -/

/-- `Round p t asked answer h now q`: the poller `p` asks for the orders `asked` one after the other
from the time `t` on, is told the answers, and is `q` at the time `now` when the round is over. -/
structure Round (p : Poller) (t : Nat) (asked : List String) (answer : String → Outcome)
    (h : History) (now : Nat) (q : Poller) : Prop where
  run : Run machine (fun _ _ => True) t (p.askNext t asked).1 h now q
  events : h.map (·.event) = asked.map fun r => .toldOne r (answer r)

namespace Round

/-- A round without questions is over at once. -/
theorem nil (hround : Round p t [] answer h now q) : h = [] ∧ now = t ∧ q = p.endRound t := by
  obtain rfl : h = [] := List.map_eq_nil_iff.1 hround.events
  obtain ⟨rfl, rfl⟩ := hround.run.eq_start
  exact ⟨rfl, rfl, rfl⟩

/-- A round goes on after its first answer as a round that begins then. -/
theorem cons_iff :
    Round p t (r :: rest) answer h now q ↔ ∃ tr h', h = tr :: h' ∧ t ≤ tr.time ∧
      tr.before = (p.askNext t (r :: rest)).1 ∧ tr.event = .toldOne r (answer r) ∧
      (let step := p.takeOne tr.time r (answer r)
      tr.after = (step.1.askNext tr.time rest).1 ∧
        tr.effects = step.2 ++ (step.1.askNext tr.time rest).2 ∧
        Round step.1 tr.time rest answer h' now q) := by
  have hstep (τ : Nat) : machine τ (p.askNext t (r :: rest)).1 (.toldOne r (answer r)) =
      some (((p.takeOne τ r (answer r)).1.askNext τ rest).1,
        (p.takeOne τ r (answer r)).2 ++ ((p.takeOne τ r (answer r)).1.askNext τ rest).2) := by
    have heq := answeredOne_eq (p := { p with phase := .single r rest }) τ rfl (answer r)
    rw [takeOne_phase, askNext_phase] at heq
    exact (if_pos rfl).trans (congrArg some heq)
  constructor
  · rintro ⟨run, hevents⟩
    cases h with
    | nil => cases hevents
    | cons tr h =>
      obtain ⟨hevent, hevents⟩ := List.cons.inj hevents
      obtain ⟨⟨ht, hbefore, -, hm⟩, hrest⟩ := Run.cons_iff.1 run
      simp only at hevent
      rw [hevent, hstep, Option.some.injEq, Prod.mk.injEq] at hm
      exact ⟨tr, h, rfl, ht, hbefore, hevent, hm.1.symm, hm.2.symm, hm.1.symm ▸ hrest, hevents⟩
  · rintro ⟨tr, h, rfl, ht, hbefore, hevent, hafter, heffects, hrest, hevents⟩
    refine ⟨Run.cons_iff.2 ⟨⟨ht, hbefore, trivial, ?_⟩, hafter ▸ hrest⟩, ?_⟩
    · rw [hevent, hstep, hafter, heffects]
    · rw [List.map_cons, List.map_cons, hevent, hevents]

/-- A question answers nobody. -/
theorem answersOf_askNext (p : Poller) (now : Nat) (asked : List String) :
    answersOf (p.askNext now asked).2 = [] := by
  cases asked <;> rfl

/-- **What a round does** is to take its answers, one after the other, and to prune at the end. -/
theorem eq_takeEach {asked : List String} (hround : Round p t asked answer h now q) :
    q = (p.takeEach ((h.map (·.time)).zip (asked.map fun r => (r, answer r)))).1.endRound now ∧
      answers h =
        answersOf (p.takeEach ((h.map (·.time)).zip (asked.map fun r => (r, answer r)))).2 ∧
      t ≤ now ∧ ∀ τ ∈ h.map (·.time), t ≤ τ := by
  induction asked generalizing p t h with
  | nil =>
    obtain ⟨rfl, rfl, rfl⟩ := hround.nil
    exact ⟨rfl, rfl, Nat.le_refl _, by simp⟩
  | cons r rest ih =>
    obtain ⟨tr, h, rfl, ht, -, -, -, heffects, hrest⟩ := cons_iff.1 hround
    obtain ⟨hend, hanswers, hnow, htimes⟩ := ih hrest
    simp only [List.map_cons, List.zip_cons_cons, takeEach]
    refine ⟨hend, ?_, Nat.le_trans ht hnow, ?_⟩
    · rw [answersOf_append, ← hanswers, answers, List.flatMap_cons, heffects, answersOf_append,
        answersOf_askNext, List.append_nil, answers]
    · intro τ hτ
      rcases List.mem_cons.1 hτ with rfl | hτ
      · exact ht
      · exact Nat.le_trans ht (htimes τ hτ)

/-- Every round can be held, whatever the answers. -/
theorem exists_at (p : Poller) (t : Nat) (asked : List String) (answer : String → Outcome) :
    ∃ h q, Round p t asked answer h t q := by
  induction asked generalizing p with
  | nil => exact ⟨[], p.endRound t, .start, rfl⟩
  | cons r rest ih =>
    obtain ⟨h, q, hrest⟩ := ih (p.takeOne t r (answer r)).1
    let step := p.takeOne t r (answer r)
    let tr : Transition Poller Event Effect := ⟨t, (p.askNext t (r :: rest)).1,
      .toldOne r (answer r), (step.1.askNext t rest).1, step.2 ++ (step.1.askNext t rest).2⟩
    exact ⟨tr :: h, q, cons_iff.2 ⟨tr, h, rfl, Nat.le_refl t, rfl, rfl, rfl, rfl, hrest⟩⟩

end Round

end

end OrderBroker.Freja.Poller
