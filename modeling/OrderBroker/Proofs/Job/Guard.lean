import OrderBroker.Proofs.Job.Activities

/-!
# When a job cancels its order

A job that waits for an order cancels it once, and exactly if the caller wishes so and the job has
ended without an answer that it waits for. Here this is said of the runs of a job: `wait_cancels` of
the waits that poll, `collect_cancels` of those that leave the polling to Freja's poller.
-/

namespace OrderBroker.Job

variable {ρ : Type}

/-! ## What a job has seen and done -/

/-- The job waits for the answer to a request. -/
def asks : Job ρ → Bool
  | .exchange _ => true
  | .wait w .. => w.phase = .asking
  | _ => false

/-- The job waits for the poller. -/
def collects : Job ρ → Bool
  | .collect c .. => c.phase ≠ .over
  | _ => false

/-- The answers that a job waited for when they came. -/
def taken (h : History ρ) : List Answer :=
  h.filterMap fun tr =>
    match tr.event with
    | .answered _ answer => if tr.before.asks then some answer else none
    | _ => none

/-- The results that a job waited for when the poller told them. -/
def results (h : History ρ) : List Freja.Result :=
  h.filterMap fun tr =>
    match tr.event with
    | .polled (.ok result) => if tr.before.collects then some result else none
    | _ => none

/-- The caller has left. -/
def Left (h : History ρ) : Prop := ∃ tr ∈ h, tr.event = .drop

/-- The effect gives the result. -/
def Effect.finishes : Effect ρ → Bool
  | .finish _ => true
  | _ => false

/-- The request that is sent without waiting for its answer. -/
def Effect.away? : Effect ρ → Option Call
  | .sendAway call => some call
  | _ => none

/-- A job that has done `effects` has ended: it has given its result, or its caller has left. -/
def Ended (h : History ρ) (effects : List (Effect ρ)) : Prop :=
  Left h ∨ effects.any (·.finishes) = true

section
variable {h : History ρ} {tr : Transition (Job ρ) Event (Effect ρ)} {question : Except ρ Call}
  {call cancel : Call} {slot : Nat}

/-- Who left before, or leaves now. -/
theorem left_snoc : Left (h ++ [tr]) ↔ Left h ∨ tr.event = .drop := by
  simp [Left, or_and_right, exists_or]

/-- A job that has ended had ended before, or ends now. -/
theorem ended_snoc {effects : List (Effect ρ)} :
    Ended (h ++ [tr]) (effects ++ tr.effects) ↔
      Ended h effects ∨ tr.event = .drop ∨ tr.effects.any (·.finishes) = true := by
  rw [Ended, Ended, left_snoc, List.any_append, Bool.or_eq_true]
  exact or_or_or_comm

/-- The requests that a wait sends away are its cancellings. -/
theorem aways_waitEffects (question : Except ρ Call) (cancel : Call)
    (effects : List (Wait.Effect ρ)) :
    (waitEffects question (some cancel) effects).filterMap (·.away?) =
      List.replicate (effects.countP (·.cancels)) cancel := by
  induction effects with
  | nil => rfl
  | cons effect rest ih =>
    cases effect with
    | ask => cases question <;> simpa [waitEffects, Effect.away?, Wait.Effect.cancels] using ih
    | finish result => simpa [waitEffects, Effect.away?, Wait.Effect.cancels] using ih
    | cancelOrder =>
      rw [List.countP_cons_of_pos rfl, List.replicate_succ, ← ih]
      rfl

/-- The requests that collecting sends away are its cancellings. -/
theorem aways_collectEffects (mode : Order.Mode) (reference : String) (cancel : Call)
    (effects : List (Freja.Collect.Effect ρ)) :
    (collectEffects mode reference (some cancel) effects).filterMap (·.away?) =
      List.replicate (effects.countP (·.cancels)) cancel := by
  induction effects with
  | nil => rfl
  | cons effect rest ih =>
    cases effect with
    | cancelOrder =>
      rw [List.countP_cons_of_pos rfl, List.replicate_succ, ← ih]
      rfl
    | _ => simpa [collectEffects, Effect.away?, Freja.Collect.Effect.cancels] using ih

/-- A job gives a result where its wait does. -/
theorem finishes_waitEffects {cancel : Option Call} (effects : List (Wait.Effect ρ)) :
    (waitEffects question cancel effects).any (·.finishes) = effects.any (·.finishes) := by
  induction effects with
  | nil => rfl
  | cons effect rest ih =>
    cases effect with
    | ask => cases question <;> simpa [waitEffects, Effect.finishes, Wait.Effect.finishes] using ih
    | finish result => simp [waitEffects, Effect.finishes, Wait.Effect.finishes]
    | cancelOrder =>
      cases cancel <;> simpa [waitEffects, Effect.finishes, Wait.Effect.finishes] using ih

/-- A job gives a result where collecting does. -/
theorem finishes_collectEffects {mode : Order.Mode} {reference : String} {cancel : Option Call}
    (effects : List (Freja.Collect.Effect ρ)) :
    (collectEffects mode reference cancel effects).any (·.finishes) =
      effects.any (·.finishes) := by
  induction effects with
  | nil => rfl
  | cons effect rest ih =>
    cases effect with
    | finish result => simp [collectEffects, Effect.finishes, Freja.Collect.Effect.finishes]
    | cancelOrder =>
      cases cancel <;>
        simpa [collectEffects, Effect.finishes, Freja.Collect.Effect.finishes] using ih
    | _ => simpa [collectEffects, Effect.finishes, Freja.Collect.Effect.finishes] using ih

end

/-! ## Waits -/

section
variable {rule : Wait.Rule ρ} {call cancel : Call} {read : Answer → Except ρ (Sighting ρ)}
  {t₀ now : Nat} {givenUp : Bool} {h : History ρ} {j : Job ρ}

/-- What the answers show that a job has taken. -/
def shown (read : Answer → Except ρ (Sighting ρ)) (h : History ρ) : List (Sighting ρ) :=
  (taken h).filterMap fun answer => (read answer).toOption

section
variable {tr : Transition (Job ρ) Event (Effect ρ)}

/-- What an answer shows that the job waits for. -/
theorem shown_snoc {slot : Nat} {answer : Answer} (hevent : tr.event = .answered slot answer)
    (hasks : tr.before.asks = true) :
    shown read (h ++ [tr]) = shown read h ++ (read answer).toOption.toList := by
  have htaken : taken (h ++ [tr]) = taken h ++ [answer] := by
    simp [taken, hevent, hasks]
  rw [shown, htaken, List.filterMap_append, ← shown]
  cases hread : read answer <;> simp [hread, Except.toOption]

/-- Nothing is shown by anything else. -/
theorem shown_snoc_other
    (hother : ∀ slot answer, tr.event = .answered slot answer → tr.before.asks = false) :
    shown read (h ++ [tr]) = shown read h := by
  have htaken : taken (h ++ [tr]) = taken h := by
    cases hevent : tr.event with
    | answered slot answer => simp [taken, hevent, hother slot answer hevent]
    | _ => simp [taken, hevent]
  rw [shown, shown, htaken]

/-- A caller who does not leave now has left before or not. -/
theorem left_snoc_other (hstays : tr.event ≠ .drop) : Left h ↔ Left (h ++ [tr]) := by
  rw [left_snoc]
  exact ⟨.inl, fun hleft => hleft.resolve_right hstays⟩

end

/-- The job `j` is a wait, guarded as the wait is. -/
def WaitGuarded (t₀ : Nat) (givenUp : Bool) (rule : Wait.Rule ρ) (call : Call)
    (read : Answer → Except ρ (Sighting ρ)) (cancel : Call) (h : History ρ) (j : Job ρ) : Prop :=
  ∃ w effects, j = .wait w (.ok call) read (some cancel) ∧
    doings t₀ givenUp (.wait rule (.ok call) read (some cancel)) h =
      waitEffects (.ok call) (some cancel) effects ∧
    Wait.Guard rule (shown read h) (Left h) effects w

/-- Every step keeps a wait guarded. -/
theorem WaitGuarded.step (tr : Transition (Job ρ) Event (Effect ρ))
    (hj : WaitGuarded t₀ givenUp rule call read cancel h tr.before)
    (hstep : machine tr.time tr.before tr.event = some (tr.after, tr.effects)) :
    WaitGuarded t₀ givenUp rule call read cancel (h ++ [tr]) tr.after := by
  obtain ⟨now, j, e, j', effects'⟩ := tr
  obtain ⟨w, effects, hw, hdoings, hguard⟩ := hj
  simp only at hw hstep ⊢
  subst hw
  generalize htr : (⟨now, .wait w (.ok call) read (some cancel), e, j', effects'⟩ :
    Transition (Job ρ) Event (Effect ρ)) = tr
  have hevent : tr.event = e := by rw [← htr]
  have hasks : tr.before.asks = decide (w.phase = .asking) := by rw [← htr]; rfl
  have heffects : tr.effects = effects' := by rw [← htr]
  -- Whatever happens is something that happens to the wait.
  have hmoved (step : Wait ρ × List (Wait.Effect ρ))
      (hs : ofWait now (.ok call) read (some cancel) step = (j', effects'))
      (hnext : Wait.Guard rule (shown read (h ++ [tr])) (Left (h ++ [tr])) (effects ++ step.2)
        step.1) : WaitGuarded t₀ givenUp rule call read cancel (h ++ [tr]) j' := by
    rw [ofWait_ok] at hs
    obtain ⟨hj', heffects'⟩ := Prod.mk.inj hs
    refine ⟨step.1, effects ++ step.2, hj'.symm, ?_, hnext⟩
    rw [doings_snoc, hdoings, waitEffects_append, heffects, heffects']
  have hquiet (hs : (.wait w (.ok call) read (some cancel), []) = (j', effects'))
      (hstays : e ≠ .drop) (hother : ∀ slot answer, e ≠ .answered slot answer) :
      WaitGuarded t₀ givenUp rule call read cancel (h ++ [tr]) j' := by
    refine hmoved (w, []) (by rw [ofWait_ok]; exact hs) ?_
    rw [shown_snoc_other fun slot answer heq => absurd (hevent ▸ heq) (hother slot answer),
      List.append_nil]
    exact hguard.of_iff (left_snoc_other (hevent ▸ hstays))
  cases e with
  | registered => exact hquiet (Option.some.inj hstep) (by simp) (by simp)
  | polled outcome => exact hquiet (Option.some.inj hstep) (by simp) (by simp)
  | answered slot answer =>
    refine hmoved (w.answered now (read answer)) (Option.some.inj hstep)
      (Wait.Guard.of_iff ?_ (left_snoc_other (by simp [hevent])))
    by_cases hphase : w.phase = .asking
    · rw [shown_snoc hevent (by simpa [hasks] using hphase)]
      cases hread : read answer with
      | error x =>
        rw [show shown read h ++ (Except.error x : Except ρ (Sighting ρ)).toOption.toList =
          shown read h from List.append_nil _]
        exact Wait.guard_failed hguard hphase x
      | ok s => exact Wait.guard_shown hguard hphase s
    · rw [shown_snoc_other fun _ _ _ => by simpa [hasks] using hphase,
        Wait.answered_idle hphase, List.append_nil]
      exact hguard
  | advance =>
    obtain ⟨step, hadvance, hs⟩ := Option.map_eq_some_iff.1 hstep
    refine hmoved step hs (Wait.Guard.of_iff ?_ (left_snoc_other (by simp [hevent])))
    rw [shown_snoc_other (by simp [hevent])]
    exact Wait.guard_advance hguard hadvance
  | giveUp =>
    refine hmoved w.giveUp (Option.some.inj hstep)
      (Wait.Guard.of_iff ?_ (left_snoc_other (by simp [hevent])))
    rw [shown_snoc_other (by simp [hevent])]
    exact Wait.guard_giveUp hguard
  | drop =>
    have hleft : True ↔ Left (h ++ [tr]) := by simp [left_snoc, hevent]
    refine hmoved w.drop (Option.some.inj hstep) (Wait.Guard.of_iff ?_ hleft)
    rw [shown_snoc_other (by simp [hevent])]
    exact Wait.guard_drop hguard

/-- The job of a wait is guarded after every run. -/
theorem guarded_of_wait
    (run : Runs t₀ givenUp (.wait rule (.ok call) read (some cancel)) h now j) :
    WaitGuarded t₀ givenUp rule call read cancel h j := by
  induction run with
  | start =>
    have hstart : start t₀ givenUp (.wait rule (.ok call) read (some cancel)) =
        (.wait _ (.ok call) read (some cancel), waitEffects (.ok call) (some cancel) _) :=
      ofWait_ok (Wait.start t₀ rule givenUp)
    refine ⟨_, _, congrArg Prod.fst hstart, ?_,
      (Wait.guard_start t₀ rule givenUp).of_iff (by simp [Left])⟩
    rw [doings_nil, hstart]
  | next _ _ _ hstep ih => exact .step ⟨_, _, _, _, _⟩ ih hstep

/-- `Cancels effects cancel missed`: among the effects there is one cancelling, by `cancel`, if an
answer was missed, and there is none otherwise. -/
def Cancels (effects : List (Effect ρ)) (cancel : Call) (missed : Prop) : Prop :=
  effects.filterMap (·.away?) = [cancel] ∧ missed ∨ effects.filterMap (·.away?) = [] ∧ ¬ missed

/-- Every request that is sent away is the cancelling. -/
theorem Cancels.eq_of_mem {effects : List (Effect ρ)} {missed : Prop} {call : Call}
    (h : Cancels effects cancel missed) (hmem : .sendAway call ∈ effects) : call = cancel := by
  have haways : call ∈ effects.filterMap (·.away?) := List.mem_filterMap.2 ⟨_, hmem, rfl⟩
  rcases h with ⟨hone, -⟩ | ⟨hnone, -⟩
  · rw [hone] at haways
    exact List.mem_singleton.1 haways
  · rw [hnone] at haways
    cases haways

/-- A job that cancels nothing before it is done and at most once by then cancels once it has ended,
or never. -/
theorem Cancels.of_done {effects : List (Effect ρ)} {done wished missed : Prop} {n : Nat}
    (haways : effects.filterMap (·.away?) = List.replicate n cancel)
    (hended : done ↔ Ended h effects) (hsilent : ¬ done → n = 0)
    (hcancelled : done → (n = 1 ↔ wished ∧ missed) ∧ n ≤ 1) :
    Cancels effects cancel (wished ∧ Ended h effects ∧ missed) := by
  by_cases hdone : done
  · obtain ⟨hiff, hle⟩ := hcancelled hdone
    rcases Nat.le_one_iff_eq_zero_or_eq_one.1 hle with rfl | rfl
    · exact .inr ⟨haways, fun ⟨hwished, _, hmissed⟩ =>
        absurd (hiff.2 ⟨hwished, hmissed⟩) Nat.zero_ne_one⟩
    · obtain ⟨hwished, hmissed⟩ := hiff.1 rfl
      exact .inl ⟨haways, hwished, hended.1 hdone, hmissed⟩
  · rw [hsilent hdone] at haways
    exact .inr ⟨haways, fun ⟨_, hends, _⟩ => hdone (hended.2 hends)⟩

/-- **A wait cancels its order** once, if its rule says so and it has ended without an answer that
decides, and otherwise never. -/
theorem wait_cancels
    (run : Runs t₀ givenUp (.wait rule (.ok call) read (some cancel)) h now j)
    {effects : List (Effect ρ)}
    (hdone : doings t₀ givenUp (.wait rule (.ok call) read (some cancel)) h = effects) :
    Cancels effects cancel (rule.cancelsAbandoned = true ∧ Ended h effects ∧
      ¬ Wait.Decided rule (shown read h)) := by
  obtain ⟨w, waited, -, hdoings, hguard⟩ := guarded_of_wait run
  rw [hdoings] at hdone
  subst hdone
  refine .of_done (aways_waitEffects (.ok call) cancel waited) ?_ hguard.silent hguard.cancelled
  rw [hguard.ended, Ended, finishes_waitEffects]

end

/-! ## Collecting -/

section
variable {mode : Order.Mode} {reference : String} {read : Except Failure Freja.Result → ρ}
  {cancels : Bool} {cancel : Call} {t₀ now : Nat} {givenUp : Bool} {h : History ρ} {j : Job ρ}
  {tr : Transition (Job ρ) Event (Effect ρ)}

/-- A result that the job waits for. -/
theorem results_snoc {result : Freja.Result} (hevent : tr.event = .polled (.ok result))
    (hcollects : tr.before.collects = true) : results (h ++ [tr]) = results h ++ [result] := by
  simp [results, hevent, hcollects]

/-- Nothing else is a result. -/
theorem results_snoc_other
    (hother : ∀ result, tr.event = .polled (.ok result) → tr.before.collects = false) :
    results (h ++ [tr]) = results h := by
  cases hevent : tr.event with
  | polled outcome =>
    cases outcome with
    | ok result => simp [results, hevent, hother result hevent]
    | error failure => simp [results, hevent]
  | _ => simp [results, hevent]

/-- The job `j` is the collecting of an order, guarded as that is. -/
def CollectGuarded (t₀ : Nat) (givenUp : Bool) (mode : Order.Mode) (reference : String)
    (read : Except Failure Freja.Result → ρ) (cancels : Bool) (cancel : Call) (h : History ρ)
    (j : Job ρ) : Prop :=
  ∃ c effects, j = .collect c mode reference (some cancel) ∧
    doings t₀ givenUp (.collect mode reference read cancels (some cancel)) h =
      collectEffects mode reference (some cancel) effects ∧
    Freja.Collect.Guard read cancels (results h) (Left h) effects c

/-- Every step keeps the collecting of an order guarded. -/
theorem CollectGuarded.step (tr : Transition (Job ρ) Event (Effect ρ))
    (hj : CollectGuarded t₀ givenUp mode reference read cancels cancel h tr.before)
    (hstep : machine tr.time tr.before tr.event = some (tr.after, tr.effects)) :
    CollectGuarded t₀ givenUp mode reference read cancels cancel (h ++ [tr]) tr.after := by
  obtain ⟨now, j, e, j', effects'⟩ := tr
  obtain ⟨c, effects, hc, hdoings, hguard⟩ := hj
  simp only at hc hstep ⊢
  subst hc
  generalize htr : (⟨now, .collect c mode reference (some cancel), e, j', effects'⟩ :
    Transition (Job ρ) Event (Effect ρ)) = tr
  have hevent : tr.event = e := by rw [← htr]
  have hcollects : tr.before.collects = decide (c.phase ≠ .over) := by rw [← htr]; rfl
  have heffects : tr.effects = effects' := by rw [← htr]
  -- Whatever happens is something that happens to the collecting.
  have hmoved (step : Freja.Collect ρ × List (Freja.Collect.Effect ρ))
      (hs : ofCollect mode reference (some cancel) step = (j', effects'))
      (hnext : Freja.Collect.Guard read cancels (results (h ++ [tr])) (Left (h ++ [tr]))
        (effects ++ step.2) step.1) :
      CollectGuarded t₀ givenUp mode reference read cancels cancel (h ++ [tr]) j' := by
    obtain ⟨hj', heffects'⟩ := Prod.mk.inj hs
    refine ⟨step.1, effects ++ step.2, hj'.symm, ?_, hnext⟩
    rw [doings_snoc, hdoings, collectEffects_append, heffects, heffects']
  cases e with
  | registered =>
    refine hmoved c.registered (Option.some.inj hstep)
      (Freja.Collect.Guard.of_iff ?_ (left_snoc_other (by simp [hevent])))
    rw [results_snoc_other (by simp [hevent])]
    exact Freja.Collect.guard_registered hguard
  | polled outcome =>
    refine hmoved (c.answered outcome) (Option.some.inj hstep)
      (Freja.Collect.Guard.of_iff ?_ (left_snoc_other (by simp [hevent])))
    by_cases hover : c.phase = .over
    · rw [results_snoc_other fun _ _ => by simp [hcollects, hover],
        Freja.Collect.answered_over hover, List.append_nil]
      exact hguard
    · cases outcome with
      | ok result =>
        rw [results_snoc hevent (by simp [hcollects, hover])]
        exact Freja.Collect.guard_result hguard hover result
      | error failure =>
        rw [results_snoc_other (by simp [hevent])]
        exact Freja.Collect.guard_failed hguard hover failure
  | giveUp =>
    refine hmoved c.giveUp (Option.some.inj hstep)
      (Freja.Collect.Guard.of_iff ?_ (left_snoc_other (by simp [hevent])))
    rw [results_snoc_other (by simp [hevent])]
    exact Freja.Collect.guard_giveUp hguard
  | drop =>
    have hleft : True ↔ Left (h ++ [tr]) := by simp [left_snoc, hevent]
    refine hmoved c.drop (Option.some.inj hstep) (Freja.Collect.Guard.of_iff ?_ hleft)
    rw [results_snoc_other (by simp [hevent])]
    exact Freja.Collect.guard_drop hguard
  | answered slot answer =>
    refine hmoved (c, []) (Option.some.inj hstep) ?_
    rw [results_snoc_other (by simp [hevent]), List.append_nil]
    exact hguard.of_iff (left_snoc_other (by simp [hevent]))
  | advance => cases hstep

/-- The collecting of an order is guarded after every run. -/
theorem guarded_of_collect
    (run : Runs t₀ givenUp (.collect mode reference read cancels (some cancel)) h now j) :
    CollectGuarded t₀ givenUp mode reference read cancels cancel h j := by
  induction run with
  | start =>
    exact ⟨_, _, rfl, by rw [doings_nil]; rfl,
      (Freja.Collect.guard_start read cancels givenUp).of_iff (by simp [Left])⟩
  | next _ _ _ hstep ih => exact .step ⟨_, _, _, _, _⟩ ih hstep

/-- **Collecting an order cancels it** once, if the caller wishes so and collecting has ended
without a result, and otherwise never. -/
theorem collect_cancels
    (run : Runs t₀ givenUp (.collect mode reference read cancels (some cancel)) h now j)
    {effects : List (Effect ρ)}
    (hdone : doings t₀ givenUp (.collect mode reference read cancels (some cancel)) h = effects) :
    Cancels effects cancel (cancels = true ∧ Ended h effects ∧ results h = []) := by
  obtain ⟨c, collected, -, hdoings, hguard⟩ := guarded_of_collect run
  rw [hdoings] at hdone
  subst hdone
  refine .of_done (aways_collectEffects mode reference cancel collected) ?_ hguard.silent
    hguard.cancelled
  rw [hguard.ended, Ended, finishes_collectEffects]

end

end OrderBroker.Job
