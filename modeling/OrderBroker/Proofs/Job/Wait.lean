import OrderBroker.Wait

/-!
# What becomes of a wait

A wait goes on while no answer decides. Once it is over it stays so, and it has cancelled its order
exactly if its rule says so and none of the answers that it took decided (`Guard`).

`Guard` compares a wait with the answers that it has taken and with everything that it has done;
each of the operations keeps it.
-/

namespace OrderBroker.Wait

variable {ρ : Type}

/-- One of the answers ends the wait: it shows that the order is over or, if the rule asks for
changes, another substate than the first. -/
def Decided (rule : Rule ρ) (shown : List (Sighting ρ)) : Prop :=
  ∃ s ∈ shown, s.isOver = true ∨
    rule.endsOnChange = true ∧ ∃ first, shown.head? = some first ∧ first.substate ≠ s.substate

/-- The effect cancels the order. -/
def Effect.cancels : Effect ρ → Bool
  | .cancelOrder => true
  | _ => false

/-- The effect gives the result. -/
def Effect.finishes : Effect ρ → Bool
  | .finish _ => true
  | _ => false

/-- `Guard rule shown left effects w`: the wait `w` goes by `rule`, has taken answers that showed
`shown`, and has done `effects`; `left` says that its caller has left. -/
structure Guard (rule : Rule ρ) (shown : List (Sighting ρ)) (left : Prop)
    (effects : List (Effect ρ)) (w : Wait ρ) : Prop where
  follows : w.rule = rule
  undecided : w.phase ≠ .over → ¬ Decided rule shown
  baseline : w.phase ≠ .over → w.baseline = shown.head?.map (·.substate)
  silent : w.phase ≠ .over → effects.countP (·.cancels) = 0
  ended : w.phase = .over ↔ left ∨ effects.any (·.finishes) = true
  cancelled : w.phase = .over →
    (effects.countP (·.cancels) = 1 ↔ rule.cancelsAbandoned = true ∧ ¬ Decided rule shown) ∧
      effects.countP (·.cancels) ≤ 1

section
variable {rule : Rule ρ} {shown : List (Sighting ρ)} {left : Prop} {effects : List (Effect ρ)}
  {w : Wait ρ} {s : Sighting ρ} {now : Nat}

/-- It does not matter how it is said that the caller has left. -/
theorem Guard.of_iff {left' : Prop} (h : Guard rule shown left effects w) (hiff : left ↔ left') :
    Guard rule shown left' effects w := propext hiff ▸ h

/-- A wait that goes on has nothing to account for but its answers. -/
theorem Guard.of_goes (hfollows : w.rule = rule) (hgoes : w.phase ≠ .over)
    (hundecided : ¬ Decided rule shown) (hbaseline : w.baseline = shown.head?.map (·.substate))
    (hsilent : effects.countP (·.cancels) = 0)
    (hopen : ¬ (left ∨ effects.any (·.finishes) = true)) : Guard rule shown left effects w :=
  ⟨hfollows, fun _ => hundecided, fun _ => hbaseline, fun _ => hsilent,
    ⟨fun hover => absurd hover hgoes, fun hends => absurd hends hopen⟩,
    fun hover => absurd hover hgoes⟩

/-- A wait that is over has to account for its end and for the cancelling. -/
theorem Guard.of_over (hfollows : w.rule = rule) (hover : w.phase = .over)
    (hends : left ∨ effects.any (·.finishes) = true)
    (hiff : effects.countP (·.cancels) = 1 ↔
      rule.cancelsAbandoned = true ∧ ¬ Decided rule shown)
    (hle : effects.countP (·.cancels) ≤ 1) : Guard rule shown left effects w :=
  ⟨hfollows, fun hgoes => absurd hover hgoes, fun hgoes => absurd hover hgoes,
    fun hgoes => absurd hover hgoes, ⟨fun _ => hends, fun _ => hover⟩, fun _ => ⟨hiff, hle⟩⟩

/-- Another answer decides exactly if the wait takes it as deciding. -/
theorem decided_snoc (h : Guard rule shown left effects w) (hgoes : w.phase ≠ .over) :
    Decided rule (shown ++ [s]) ↔ w.decides s = true := by
  have hbaseline := h.baseline hgoes
  have hundecided := h.undecided hgoes
  rw [decides, h.follows, Bool.or_eq_true, Bool.and_eq_true, hbaseline]
  cases hshown : shown with
  | nil => simp [Decided]
  | cons first rest =>
    rw [hshown] at hundecided
    constructor
    · rintro ⟨s', hs', hdecides⟩
      rcases List.mem_append.1 hs' with hs' | hs'
      · exact absurd ⟨s', hs', hdecides⟩ hundecided
      · rw [List.mem_singleton] at hs'
        subst hs'
        refine hdecides.imp_right fun ⟨hchange, first', hfirst, hne⟩ => ⟨hchange, ?_⟩
        simp only [List.cons_append, List.head?_cons, Option.some.injEq] at hfirst
        simpa [hfirst] using hne
    · intro hdecides
      refine ⟨s, by simp, hdecides.imp_right fun ⟨hchange, hne⟩ => ⟨hchange, first, rfl, ?_⟩⟩
      simpa using hne

/-- A wait that has gone on so far ends without a deciding answer. -/
theorem guard_abandon (h : Guard rule shown left effects w) (hgoes : w.phase ≠ .over)
    {left' : Prop} {more : List (Effect ρ)} (hmore : more.countP (·.cancels) = 0)
    (hends : left' ∨ more.any (·.finishes) = true) :
    Guard rule shown left' (effects ++ (w.abandon more).2) (w.abandon more).1 := by
  have hundecided := h.undecided hgoes
  have hcount : (effects ++ (w.abandon more).2).countP (·.cancels) =
      if rule.cancelsAbandoned then 1 else 0 := by
    rw [abandon, List.countP_append, List.countP_append, h.silent hgoes, hmore, h.follows]
    cases rule.cancelsAbandoned <;> rfl
  refine .of_over h.follows rfl (hends.imp_right fun hmore => ?_) ?_ ?_
  · simp [abandon, hmore]
  · rw [hcount]
    cases rule.cancelsAbandoned <;> simp [hundecided]
  · rw [hcount]
    cases rule.cancelsAbandoned <;> simp

/-- A wait that goes on rests, or ends because its caller has given up. -/
theorem guard_rest (h : Guard rule shown left effects w) (hgoes : w.phase ≠ .over) :
    Guard rule shown left (effects ++ (w.rest now).2) (w.rest now).1 := by
  unfold rest
  split
  · exact guard_abandon h hgoes rfl (.inr rfl)
  · rw [List.append_nil]
    exact .of_goes h.follows (by simp) (h.undecided hgoes) (h.baseline hgoes) (h.silent hgoes)
      (mt h.ended.2 hgoes)

/-- A wait that goes on asks. -/
theorem guard_ask (h : Guard rule shown left effects w) (hgoes : w.phase ≠ .over) :
    Guard rule shown left (effects ++ w.ask.2) w.ask.1 := by
  refine .of_goes h.follows (by simp [ask]) (h.undecided hgoes) (h.baseline hgoes) ?_
    fun hends => hgoes (h.ended.2 (hends.imp_right fun hany => ?_))
  · rw [List.countP_append, h.silent hgoes]
    rfl
  · simpa [ask, Effect.finishes] using hany

/-- The start of a wait. -/
theorem guard_start (now : Nat) (rule : Rule ρ) (givenUp : Bool) :
    Guard rule [] False (Wait.start now rule givenUp).2 (Wait.start now rule givenUp).1 := by
  -- Before its first move a wait rests, as it were.
  have hfirst : Guard rule [] False [] { rule, phase := .resting now, givenUp } :=
    .of_goes rfl (by simp) (by simp [Decided]) rfl rfl (by simp)
  have hgoes : ({ rule, phase := .resting now, givenUp } : Wait ρ).phase ≠ .over := by simp
  unfold Wait.start
  split
  · exact guard_ask hfirst hgoes
  · cases givenUp <;> exact guard_rest hfirst hgoes

/-- A failure ends a wait that asks. -/
theorem answered_error (hasks : w.phase = .asking) (x : ρ) :
    w.answered now (.error x) = w.abandon [.finish x] := by
  simp only [answered, hasks]

/-- An answer ends a wait that asks, or is remembered if it is the first. -/
theorem answered_ok (hasks : w.phase = .asking) (s : Sighting ρ) :
    w.answered now (.ok s) =
      if w.decides s then ({ w with phase := .over }, [.finish s.result])
      else rest now { w with baseline := some (w.baseline.getD s.substate) } := by
  simp only [answered, hasks]

/-- A wait that does not ask takes no answer. -/
theorem answered_idle (hidle : w.phase ≠ .asking) (answer : Except ρ (Sighting ρ)) :
    w.answered now answer = (w, []) := by
  unfold answered
  split
  · next _ hasks => exact absurd hasks hidle
  · next _ hasks => exact absurd hasks hidle
  · rfl

/-- An answer that is a failure ends the wait. -/
theorem guard_failed (h : Guard rule shown left effects w) (hasks : w.phase = .asking) (x : ρ) :
    Guard rule shown left (effects ++ (w.answered now (.error x)).2)
      (w.answered now (.error x)).1 := by
  rw [answered_error hasks]
  exact guard_abandon h (by simp [hasks]) rfl (.inr rfl)

/-- An answer that shows the order ends the wait, or is the first that later ones are compared
with. -/
theorem guard_shown (h : Guard rule shown left effects w) (hasks : w.phase = .asking)
    (s : Sighting ρ) :
    Guard rule (shown ++ [s]) left (effects ++ (w.answered now (.ok s)).2)
      (w.answered now (.ok s)).1 := by
  have hgoes : w.phase ≠ .over := by simp [hasks]
  have hdecided := decided_snoc (s := s) h hgoes
  rw [answered_ok hasks]
  cases hdecides : w.decides s with
  | true =>
    rw [if_pos rfl]
    have hcount : (effects ++ [Effect.finish s.result]).countP (·.cancels) = 0 := by
      rw [List.countP_append, h.silent hgoes]
      rfl
    refine .of_over h.follows rfl (.inr ?_) ?_ ?_
    · simp [Effect.finishes]
    · simp [hcount, hdecided.2 hdecides]
    · simp [hcount]
  | false =>
    rw [if_neg (by simp)]
    refine guard_rest (.of_goes h.follows hgoes (by simp [hdecided, hdecides]) ?_
      (h.silent hgoes) (mt h.ended.2 hgoes)) hgoes
    rw [h.baseline hgoes]
    cases shown <;> rfl

/-- The end of a rest. -/
theorem guard_advance (h : Guard rule shown left effects w) {step : Wait ρ × List (Effect ρ)}
    (hstep : w.advance now = some step) : Guard rule shown left (effects ++ step.2) step.1 := by
  unfold advance at hstep
  split at hstep
  · next due hrests =>
    simp only [Option.ite_none_right_eq_some, Option.some.injEq] at hstep
    rw [← hstep.2]
    exact guard_ask h (by simp [hrests])
  · cases hstep

/-- The caller gives up. -/
theorem guard_giveUp (h : Guard rule shown left effects w) :
    Guard rule shown left (effects ++ w.giveUp.2) w.giveUp.1 := by
  have hmarked (hgoes : w.phase ≠ .over) :
      Guard rule shown left effects { w with givenUp := true } :=
    ⟨h.follows, h.undecided, h.baseline, h.silent, h.ended, h.cancelled⟩
  unfold giveUp
  split
  · next due hrests =>
    have hgoes : w.phase ≠ .over := by simp [hrests]
    exact guard_abandon (hmarked hgoes) hgoes rfl (.inr rfl)
  · next hasks =>
    rw [List.append_nil]
    exact hmarked (by simp [hasks])
  · rw [List.append_nil]
    exact h

/-- The caller leaves. -/
theorem guard_drop (h : Guard rule shown left effects w) :
    Guard rule shown True (effects ++ w.drop.2) w.drop.1 := by
  unfold drop
  split
  · next hover =>
    rw [List.append_nil]
    exact ⟨h.follows, h.undecided, h.baseline, h.silent, ⟨fun _ => .inl trivial, fun _ => hover⟩,
      h.cancelled⟩
  · next hgoes => exact guard_abandon h (by simpa using hgoes) rfl (.inl trivial)

end

/-! ## The rule -/

section
variable {w : Wait ρ} {now : Nat}

@[simp] theorem rule_rest : (w.rest now).1.rule = w.rule := by
  unfold rest
  split <;> rfl

@[simp] theorem rule_answered (answer : Except ρ (Sighting ρ)) :
    (w.answered now answer).1.rule = w.rule := by
  unfold answered
  split
  · rfl
  · split
    · rfl
    · exact rule_rest
  · rfl

@[simp] theorem rule_giveUp : w.giveUp.1.rule = w.rule := by
  unfold giveUp
  split <;> rfl

@[simp] theorem rule_drop : w.drop.1.rule = w.rule := by
  unfold drop
  split <;> rfl

@[simp] theorem rule_start (rule : Rule ρ) (givenUp : Bool) :
    (Wait.start now rule givenUp).1.rule = rule := by
  unfold Wait.start
  split
  · rfl
  · exact rule_rest

theorem rule_advance {step : Wait ρ × List (Effect ρ)} (hstep : w.advance now = some step) :
    step.1.rule = w.rule := by
  unfold advance at hstep
  split at hstep
  · simp only [Option.ite_none_right_eq_some, Option.some.injEq] at hstep
    rw [← hstep.2]
    rfl
  · cases hstep

end

/-! ## Results -/

section
variable {w : Wait ρ} {x : ρ} {now : Nat} {answer : Except ρ (Sighting ρ)}

/-- Abandoning the order gives no result of its own. -/
theorem finish_of_abandon {effects : List (Effect ρ)} (h : .finish x ∈ (w.abandon effects).2) :
    .finish x ∈ effects := by
  rcases List.mem_append.1 h with h | h
  · exact h
  · split at h <;> simp at h

/-- A wait that does not rest gives what it gives to a caller who has given up. -/
theorem finish_of_rest (h : .finish x ∈ (w.rest now).2) : x = w.rule.cancelled := by
  unfold rest at h
  split at h
  · simpa using finish_of_abandon h
  · cases h

/-- What a wait gives when an answer comes: the failure that the answer is, what it shows, or what a
caller gets who has given up, and then the order was not over. -/
theorem finish_of_answered (h : .finish x ∈ (w.answered now answer).2) :
    answer = .error x ∨ ∃ s, answer = .ok s ∧
      (x = s.result ∨ s.isOver = false ∧ x = w.rule.cancelled) := by
  by_cases hasks : w.phase = .asking
  · cases answer with
    | error y =>
      rw [answered_error hasks] at h
      have hy : Effect.finish x = Effect.finish y := List.mem_singleton.1 (finish_of_abandon h)
      injection hy with hy
      exact .inl (by rw [hy])
    | ok s =>
      rw [answered_ok hasks] at h
      refine .inr ⟨s, rfl, ?_⟩
      split at h
      · have hx : Effect.finish x = Effect.finish s.result := List.mem_singleton.1 h
        injection hx with hx
        exact .inl hx
      · next hdecides =>
        have hover : s.isOver = false := by
          simp only [decides, Bool.or_eq_true, not_or, Bool.not_eq_true] at hdecides
          exact hdecides.1
        have hx := finish_of_rest h
        exact .inr ⟨hover, hx⟩
  · rw [answered_idle hasks] at h
    cases h

/-- What a wait gives to a caller who gives up. -/
theorem finish_of_giveUp (h : .finish x ∈ w.giveUp.2) : x = w.rule.cancelled := by
  unfold giveUp at h
  split at h
  · simpa using finish_of_abandon h
  · cases h
  · cases h

/-- A wait gives nothing to a caller who leaves. -/
theorem finish_of_drop (h : .finish x ∈ w.drop.2) : False := by
  unfold drop at h
  split at h
  · cases h
  · cases finish_of_abandon h

/-- What a wait gives at its start. -/
theorem finish_of_start {rule : Rule ρ} {givenUp : Bool}
    (h : .finish x ∈ (Wait.start now rule givenUp).2) : x = rule.cancelled := by
  unfold Wait.start at h
  split at h
  · simp [ask] at h
  · exact finish_of_rest h

/-- Asking gives nothing. -/
theorem finish_of_advance {step : Wait ρ × List (Effect ρ)} (hstep : w.advance now = some step)
    (h : .finish x ∈ step.2) : False := by
  unfold advance at hstep
  split at hstep
  · simp only [Option.ite_none_right_eq_some, Option.some.injEq] at hstep
    rw [← hstep.2] at h
    simp [ask] at h
  · cases hstep

end

end OrderBroker.Wait
