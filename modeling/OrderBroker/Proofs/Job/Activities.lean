import OrderBroker.Proofs.Job.Steps

/-!
# Activities and their jobs

What an activity leads to can be read off the activity: which question its job asks
(`send_of_runs`), and whether it goes to Freja's poller, which it does at its start or never
(`register_of_start`, `register_of_step`). An activity for a caller who is given something else
gives just that (`gives_of_map`); so it is enough to look at the activities of the providers, which
exchange or poll (`gives_of_exchange`, `gives_of_polling`).
-/

namespace OrderBroker

/-- The question that an activity with one result asks, if it may be asked. -/
def Activity.question? {ρ : Type} : Activity ρ → Option Call
  | .exchange call _ => some call
  | .wait _ (.ok call) _ _ => some call
  | _ => none

namespace Job

variable {ρ σ α : Type}

/-! ## Questions -/

section
variable {a : Activity ρ} {j j' : Job ρ} {e : Event} {effects : List (Effect ρ)} {now slot : Nat}
  {call : Call} {question : Except ρ Call} {cancel : Option Call}

/-- What a wait does, as its job does it. -/
theorem mem_waitEffects {waited : List (Wait.Effect ρ)} {effect : Effect ρ}
    (h : effect ∈ waitEffects question cancel waited) :
    (∃ call, question = .ok call ∧ effect = .send 0 call) ∨ (∃ x, effect = .finish x) ∨
      ∃ call, effect = .sendAway call := by
  induction waited with
  | nil => cases h
  | cons first rest ih =>
    cases first with
    | ask =>
      cases question with
      | ok call =>
        rcases List.mem_cons.1 h with rfl | h
        · exact .inl ⟨call, rfl, rfl⟩
        · exact ih h
      | error failure => exact ih h
    | finish result =>
      rcases List.mem_cons.1 h with rfl | h
      · exact .inr (.inl ⟨result, rfl⟩)
      · exact ih h
    | cancelOrder =>
      rcases List.mem_append.1 h with h | h
      · cases cancel with
        | none => cases h
        | some call => exact .inr (.inr ⟨call, List.mem_singleton.1 h⟩)
      · exact ih h

/-- What collecting does, as its job does it. -/
theorem mem_collectEffects {mode : Order.Mode} {reference : String}
    {collected : List (Freja.Collect.Effect ρ)} {effect : Effect ρ}
    (h : effect ∈ collectEffects mode reference cancel collected) :
    (.register ∈ collected ∧ effect = .register mode reference) ∨ effect = .leave mode ∨
      (∃ x, effect = .finish x) ∨ ∃ call, effect = .sendAway call := by
  induction collected with
  | nil => cases h
  | cons first rest ih =>
    have hrest (h : effect ∈ collectEffects mode reference cancel rest) :
        (.register ∈ first :: rest ∧ effect = .register mode reference) ∨ effect = .leave mode ∨
          (∃ x, effect = .finish x) ∨ ∃ call, effect = .sendAway call :=
      (ih h).imp_left fun hregister => ⟨.tail _ hregister.1, hregister.2⟩
    cases first with
    | register =>
      rcases List.mem_cons.1 h with rfl | h
      · exact .inl ⟨.head _, rfl⟩
      · exact hrest h
    | leave =>
      rcases List.mem_cons.1 h with rfl | h
      · exact .inr (.inl rfl)
      · exact hrest h
    | finish result =>
      rcases List.mem_cons.1 h with rfl | h
      · exact .inr (.inr (.inl ⟨result, rfl⟩))
      · exact hrest h
    | cancelOrder =>
      rcases List.mem_append.1 h with h | h
      · cases cancel with
        | none => cases h
        | some call => exact .inr (.inr (.inr ⟨call, List.mem_singleton.1 h⟩))
      · exact hrest h

/-- A wait that has moved does what a wait does. -/
theorem ofWait_effects (now : Nat) (question : Except ρ Call)
    (read : Answer → Except ρ (Sighting ρ)) (cancel : Option Call)
    (step : Wait ρ × List (Wait.Effect ρ)) :
    ∃ waited, (ofWait now question read cancel step).2 = waitEffects question cancel waited := by
  obtain ⟨w, effects⟩ := step
  simp only [ofWait]
  split
  · exact ⟨_, rfl⟩
  · exact ⟨_, rfl⟩

/-- What a wait sends when it has moved is its question. -/
theorem send_of_ofWait {rule : Wait.Rule ρ} {read : Answer → Except ρ (Sighting ρ)}
    {step : Wait ρ × List (Wait.Effect ρ)}
    (h : .send slot call ∈ (ofWait now question read cancel step).2) :
    slot = 0 ∧ Activity.question? (.wait rule question read cancel) = some call := by
  obtain ⟨waited, hwaited⟩ := ofWait_effects now question read cancel step
  rw [hwaited] at h
  rcases mem_waitEffects h with ⟨asked, rfl, heq⟩ | ⟨x, heq⟩ | ⟨sent, heq⟩
  · injection heq with hslot hcall
    exact ⟨hslot, congrArg some hcall.symm⟩
  · cases heq
  · cases heq

/-- Collecting sends nothing that it waits for an answer to. -/
theorem send_not_mem_collectEffects {mode : Order.Mode} {reference : String}
    {collected : List (Freja.Collect.Effect ρ)} :
    .send slot call ∉ collectEffects mode reference cancel collected := by
  intro h
  rcases mem_collectEffects h with ⟨-, heq⟩ | heq | ⟨x, heq⟩ | ⟨sent, heq⟩ <;> cases heq

/-- What is sent at the start is the question. -/
theorem send_of_start (hplain : a.IsPlain) {givenUp : Bool}
    (h : .send slot call ∈ (start now givenUp a).2) : slot = 0 ∧ a.question? = some call := by
  cases a with
  | settled result => simp [start] at h
  | exchange asked read =>
    have hsend := List.mem_singleton.1 h
    injection hsend with hslot hcall
    exact ⟨hslot, congrArg some hcall.symm⟩
  | wait rule question read cancel => exact send_of_ofWait h
  | collect mode reference read cancels cancel => exact absurd h send_not_mem_collectEffects
  | _ => exact hplain.elim

/-- What is sent in a step is the question. -/
theorem send_of_step (hj : Under a j) (hstep : machine now j e = some (j', effects))
    (h : .send slot call ∈ effects) : slot = 0 ∧ a.question? = some call := by
  have hnone {j : Job ρ} (heq : some (j, ([] : List (Effect ρ))) = some (j', effects)) :
      slot = 0 ∧ a.question? = some call := by
    obtain ⟨-, rfl⟩ := Prod.mk.inj (Option.some.inj heq)
    cases h
  cases hj with
  | «over» =>
    cases e with
    | advance => cases hstep
    | _ => exact hnone hstep
  | exchange =>
    cases e with
    | answered slot answer =>
      obtain ⟨-, rfl⟩ := Prod.mk.inj (Option.some.inj hstep)
      simp at h
    | advance => cases hstep
    | _ => exact hnone hstep
  | wait =>
    cases e with
    | registered => exact hnone hstep
    | polled outcome => exact hnone hstep
    | advance =>
      obtain ⟨step, -, hs⟩ := Option.map_eq_some_iff.1 hstep
      rw [show effects = _ from congrArg Prod.snd hs.symm] at h
      exact send_of_ofWait h
    | _ =>
      rw [show effects = _ from congrArg Prod.snd (Option.some.inj hstep).symm] at h
      exact send_of_ofWait h
  | collect =>
    cases e with
    | answered slot answer => exact hnone hstep
    | advance => cases hstep
    | _ =>
      rw [show effects = _ from congrArg Prod.snd (Option.some.inj hstep).symm] at h
      exact absurd h send_not_mem_collectEffects

/-- **A job asks the question of its activity**, and nothing else. -/
theorem send_of_runs (hplain : a.IsPlain) {t₀ : Nat} {givenUp : Bool} {h : History ρ}
    (run : Runs t₀ givenUp a h now j) (hsend : .send slot call ∈ doings t₀ givenUp a h) :
    slot = 0 ∧ a.question? = some call := by
  induction run with
  | start => exact send_of_start hplain (by simpa using hsend)
  | next run _ _ hstep ih =>
    rw [doings_snoc] at hsend
    rcases List.mem_append.1 hsend with hsend | hsend
    · exact ih hsend
    · exact send_of_step (under_of_runs hplain run) hstep hsend

end

/-! ## Registrations -/

section
variable {a : Activity ρ} {j j' : Job ρ} {e : Event} {effects : List (Effect ρ)} {now : Nat}
  {mode : Order.Mode} {reference : String}

/-- Only the start of collecting registers. -/
theorem register_not_mem_collect (c : Freja.Collect ρ) :
    .register ∉ c.registered.2 ∧ (∀ outcome, .register ∉ (c.answered outcome).2) ∧
      .register ∉ c.giveUp.2 ∧ .register ∉ c.drop.2 := by
  have habandon (effects : List (Freja.Collect.Effect ρ)) (h : .register ∉ effects) :
      .register ∉ (c.abandon effects).2 := by
    simp only [Freja.Collect.abandon]
    split <;> simp [h]
  refine ⟨?_, fun outcome => ?_, ?_, ?_⟩
  · unfold Freja.Collect.registered
    split
    · split
      · exact habandon _ (by simp)
      · simp
    · simp
  · unfold Freja.Collect.answered
    split
    · simp
    · simp
    · exact habandon _ (by simp)
  · unfold Freja.Collect.giveUp
    split
    · simp
    · exact habandon _ (by simp)
    · simp
  · unfold Freja.Collect.drop
    split
    · simp
    · exact habandon _ (by simp)

/-- A wait does not go to the poller. -/
theorem register_not_mem_ofWait {question : Except ρ Call}
    {read : Answer → Except ρ (Sighting ρ)} {cancel : Option Call}
    {step : Wait ρ × List (Wait.Effect ρ)} :
    .register mode reference ∉ (ofWait now question read cancel step).2 := by
  intro h
  obtain ⟨waited, hwaited⟩ := ofWait_effects now question read cancel step
  rw [hwaited] at h
  rcases mem_waitEffects h with ⟨asked, -, heq⟩ | ⟨x, heq⟩ | ⟨sent, heq⟩ <;> cases heq

/-- An order is registered with the poller when collecting starts. -/
theorem register_of_start {givenUp : Bool}
    (h : .register mode reference ∈ (start now givenUp a).2) :
    ∃ read cancels cancel, a = .collect mode reference read cancels cancel := by
  cases a with
  | settled result => simp [start] at h
  | exchange call read => simp [start] at h
  | survey calls read =>
    simp only [start] at h
    split at h <;> simp at h
  | wait rule question read cancel => exact absurd h register_not_mem_ofWait
  | collect mode' reference' read cancels cancel =>
    rcases mem_collectEffects h with ⟨-, heq⟩ | heq | ⟨x, heq⟩ | ⟨sent, heq⟩
    · injection heq with hmode hreference
      exact ⟨read, cancels, cancel, by rw [hmode, hreference]⟩
    · cases heq
    · cases heq
    · cases heq
  | orderStream client call read style head chunk => simp [start] at h
  | watch client orderRef read closed =>
    simp only [start] at h
    split at h <;> simp at h

/-- Collecting goes to the poller where it registers. -/
theorem register_not_mem_collectEffects {mode' : Order.Mode} {reference' : String}
    {cancel : Option Call} {collected : List (Freja.Collect.Effect ρ)}
    (hnone : .register ∉ collected) :
    .register mode reference ∉ collectEffects mode' reference' cancel collected := by
  intro h
  rcases mem_collectEffects h with ⟨hmem, -⟩ | heq | ⟨x, heq⟩ | ⟨sent, heq⟩
  · exact hnone hmem
  · cases heq
  · cases heq
  · cases heq

/-- A stream does not go to the poller. -/
theorem register_not_mem_ofStream {client : BankId.Client} {head : ρ} {chunk : String → ρ}
    {s : Http.OrderStream} {asks : Bool} :
    .register mode reference ∉ (ofStream now client head chunk s asks).2 := by
  unfold ofStream
  split
  · split <;> simp
  · simp

/-- A watch does not go to the poller. -/
theorem register_not_mem_ofWatch {client : BankId.Client} {orderRef : String}
    {read : Except Failure BankId.Progress → ρ} {closed : ρ} {w : BankId.Watch} {asks : Bool} :
    .register mode reference ∉ (ofWatch now client orderRef read closed w asks).2 := by
  unfold ofWatch
  split
  · split <;> simp
  · simp

/-- **No order is registered later**, whatever happens to a job. -/
theorem register_of_step (hstep : machine now j e = some (j', effects)) :
    .register mode reference ∉ effects := by
  intro h
  have hmem {step : Job ρ × List (Effect ρ)} (heq : step = (j', effects)) :
      .register mode reference ∈ step.2 := by
    rw [heq]
    exact h
  cases e with
  | registered =>
    have h := hmem (Option.some.inj hstep)
    cases j with
    | collect c _ _ _ => exact register_not_mem_collectEffects (register_not_mem_collect c).1 h
    | _ => cases h
  | polled outcome =>
    have h := hmem (Option.some.inj hstep)
    cases j with
    | collect c _ _ _ =>
      exact register_not_mem_collectEffects ((register_not_mem_collect c).2.1 outcome) h
    | _ => cases h
  | answered slot answer =>
    have h := hmem (Option.some.inj hstep)
    cases j with
    | wait w question read cancel => exact register_not_mem_ofWait h
    | exchange read => simp [answered] at h
    | survey answers read =>
      simp only [answered] at h
      split at h <;> simp at h
    | startStream client read style head chunk =>
      simp only [answered] at h
      split at h
      · simp at h
      · rcases List.mem_cons.1 h with heq | h
        · cases heq
        · exact register_not_mem_ofStream h
    | stream client s head chunk => exact register_not_mem_ofStream h
    | startWatch client orderRef read closed stopped =>
      simp only [answered] at h
      split at h
      · simp at h
      · exact register_not_mem_ofWatch h
    | watch client orderRef w read closed => exact register_not_mem_ofWatch h
    | _ => cases h
  | advance =>
    cases j with
    | wait w question read cancel =>
      obtain ⟨step, -, hs⟩ := Option.map_eq_some_iff.1 hstep
      have h := hmem hs
      exact register_not_mem_ofWait h
    | stream client s head chunk =>
      obtain ⟨step, -, hs⟩ := Option.map_eq_some_iff.1 hstep
      have h := hmem hs
      exact register_not_mem_ofStream h
    | watch client orderRef w read closed =>
      obtain ⟨step, -, hs⟩ := Option.map_eq_some_iff.1 hstep
      have h := hmem hs
      exact register_not_mem_ofWatch h
    | _ => cases hstep
  | giveUp =>
    have h := hmem (Option.some.inj hstep)
    cases j with
    | wait w question read cancel => exact register_not_mem_ofWait h
    | collect c _ _ _ => exact register_not_mem_collectEffects (register_not_mem_collect c).2.2.1 h
    | _ => cases h
  | drop =>
    have h := hmem (Option.some.inj hstep)
    cases j with
    | wait w question read cancel => exact register_not_mem_ofWait h
    | collect c _ _ _ => exact register_not_mem_collectEffects (register_not_mem_collect c).2.2.2 h
    | _ => cases h

end

/-! ## What activities give -/

section
variable {rule : Wait.Rule ρ} {question : Except ρ Call} {read : Answer → Except ρ (Sighting ρ)}
  {cancel : Option Call} {e : Option Event} {x : ρ}

/-- What a wait gives: why the question may not be asked, what an answer says, or that the caller
has given up. -/
theorem gives_wait (h : Gives (.wait rule question read cancel) e x) :
    question = .error x ∨
      (∃ slot answer, e = some (.answered slot answer) ∧
        (read answer = .error x ∨ ∃ s, read answer = .ok s ∧ x = s.result)) ∨
      x = rule.cancelled ∧ ∀ slot answer s, e = some (.answered slot answer) →
        read answer = .ok s → s.isOver = false := by
  cases h with
  | unasked => exact .inl rfl
  | failed hread => exact .inr (.inl ⟨_, _, rfl, .inl hread⟩)
  | shown hread => exact .inr (.inl ⟨_, _, rfl, .inr ⟨_, hread, rfl⟩⟩)
  | stopped hopen => exact .inr (.inr ⟨rfl, hopen⟩)

/-- A caller who is given something else is given just that for the same reason. -/
theorem gives_of_map {a : Activity ρ} {f : ρ → σ} {x : σ} (h : Gives (a.map f) e x) :
    ∃ y, x = f y ∧ Gives a e y := by
  cases a with
  | settled result =>
    cases h with
    | settled => exact ⟨_, rfl, .settled⟩
  | exchange call read =>
    cases h with
    | exchange => exact ⟨_, rfl, .exchange⟩
  | wait rule question read cancel =>
    rcases gives_wait h with hquestion | ⟨slot, answer, rfl, hread⟩ | ⟨rfl, hopen⟩
    · cases question with
      | ok call => cases hquestion
      | error y =>
        injection hquestion with hx
        exact ⟨y, hx.symm, .unasked⟩
    · cases hanswer : read answer with
      | error y =>
        refine ⟨y, ?_, .failed hanswer⟩
        simpa [hanswer, Activity.mapFailure, Except.map, eq_comm] using hread
      | ok s =>
        refine ⟨s.result, ?_, .shown hanswer⟩
        simpa [hanswer, Activity.mapFailure, Except.map, Activity.mapSighting, eq_comm] using hread
    · refine ⟨rule.cancelled, rfl, .stopped fun slot answer s heq hread => ?_⟩
      refine hopen slot answer (Activity.mapSighting f s) heq ?_
      rw [hread]
      rfl
  | collect mode reference read cancels cancel =>
    cases h with
    | polled => exact ⟨_, rfl, .polled⟩
    | unpolled hnone => exact ⟨_, rfl, .unpolled hnone⟩
  | _ => cases h

/-- What one exchange gives: what its answer says, or why the request may not be sent. -/
theorem gives_of_exchange {q : Except Failure (Exchange α)} {y : Except Failure α}
    (h : Gives (.ofExchange q) e y) :
    (∃ failure, q = .error failure ∧ y = .error failure) ∨
      ∃ x slot answer, q = .ok x ∧ e = some (.answered slot answer) ∧ y = x.read answer := by
  cases q with
  | ok x =>
    cases h with
    | exchange => exact .inr ⟨x, _, _, rfl, rfl, rfl⟩
  | error failure =>
    cases h with
    | settled => exact .inl ⟨failure, rfl, rfl⟩

/-- What polling gives: a failure, where no answer shows that the order is over, or what an answer
says. -/
theorem gives_of_polling {rule : Wait.Rule (Except Failure σ)} {q : Except Failure (Exchange α)}
    {sight : α → Sighting (Except Failure σ)} {cancel : Except Failure (Exchange Unit)}
    {y : Except Failure σ} (hrule : ∃ failure, rule.cancelled = .error failure)
    (h : Gives (.polling rule q sight cancel) e y) :
    ((∃ failure, y = .error failure) ∧ ∀ x slot answer r, q = .ok x →
        e = some (.answered slot answer) → x.read answer = .ok r → (sight r).isOver = false) ∨
      ∃ x slot answer r, q = .ok x ∧ e = some (.answered slot answer) ∧ x.read answer = .ok r ∧
        y = (sight r).result := by
  cases q with
  | error failure =>
    refine .inl ⟨?_, fun x _ _ _ hq => by cases hq⟩
    rcases gives_wait h with hquestion | ⟨slot, answer, -, hread | ⟨s, hread, -⟩⟩ | ⟨rfl, -⟩
    · injection hquestion with hy
      exact ⟨failure, hy.symm⟩
    · injection hread with hy
      exact ⟨failure, hy.symm⟩
    · cases hread
    · exact hrule
  | ok x =>
    rcases gives_wait h with hquestion | ⟨slot, answer, rfl, hread⟩ | ⟨rfl, hopen⟩
    · cases hquestion
    · cases hanswer : x.read answer with
      | error failure =>
        refine .inl ⟨⟨failure, ?_⟩, fun x' slot' answer' r hq heq hok => ?_⟩
        · simpa [hanswer, eq_comm] using hread
        · cases hq
          cases heq
          rw [hanswer] at hok
          cases hok
      | ok r =>
        refine .inr ⟨x, slot, answer, r, rfl, rfl, hanswer, ?_⟩
        simpa [hanswer, eq_comm] using hread
    · refine .inl ⟨hrule, fun x' slot answer r hq heq hok => ?_⟩
      cases hq
      exact hopen slot answer (sight r) heq (by rw [hok])

end

end Job

end OrderBroker
