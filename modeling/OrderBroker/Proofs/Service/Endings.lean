import OrderBroker.Proofs.Service.Visits

/-!
# How visits end

A visit has a result because its job gave one, at the caller's coming or when something happened to
the job, and for a reason that the activity names (`given_of_runs`). What happened is often an
answer: it came to the one question that the activity asks (`asked_of_runs`).
-/

namespace OrderBroker.Service

variable {ρ : Type}

/-! ## Coming -/

section
variable {h : History ρ} {t₀ now id : Nat} {registry : Registry} {s : Service ρ}

/-- Nobody comes twice. -/
theorem arrival_unique (run : Runs t₀ registry h now s)
    {tr tr' : Transition (Service ρ) (Event ρ) Outgoing} (htr : tr ∈ h) (htr' : tr' ∈ h)
    {a a' : Activity ρ} {readFrom readFrom' : Nat} {givenUp givenUp' : Bool}
    (hevent : tr.event = .arrive id a readFrom givenUp)
    (hevent' : tr'.event = .arrive id a' readFrom' givenUp') : tr = tr' := by
  induction run with
  | start => cases htr
  | @next h t now s s' e effects run ht hmay hstep ih =>
    rcases List.mem_append.1 htr with hold | hlast <;>
      rcases List.mem_append.1 htr' with hold' | hlast'
    · exact ih hold hold'
    · obtain rfl := List.mem_singleton.1 hlast'
      obtain rfl : e = _ := hevent'
      exact absurd ⟨tr, hold, _, _, _, hevent⟩ hmay
    · obtain rfl := List.mem_singleton.1 hlast
      obtain rfl : e = _ := hevent
      exact absurd ⟨tr', hold', _, _, _, hevent'⟩ hmay
    · rw [List.mem_singleton.1 hlast, List.mem_singleton.1 hlast']

end

/-! ## Questions -/

section
variable {h : History ρ} {t₀ now id slot : Nat} {registry : Registry} {s s' : Service ρ}
  {e : Event ρ} {o : Outgoing} {a : Activity ρ}

/-- The requests of a job that it waits for an answer to are sent under the job's number. -/
theorem addressee_request {effects : List (Job.Effect ρ)} {i : Nat}
    (ho : o ∈ effects.filterMap (·.request? i)) (haddressee : o.addressee = some (.job id slot)) :
    i = id := by
  obtain ⟨effect, -, heffect⟩ := List.mem_filterMap.1 ho
  cases effect with
  | send slot' call =>
    obtain rfl := Option.some.inj heffect
    injection haddressee with haddressee
    injection haddressee
  | sendAway call =>
    obtain rfl := Option.some.inj heffect
    cases haddressee
  | _ => cases heffect

/-- A request under the number of a job is sent by the visit of that number. -/
theorem visitor_of_request (hdoes : Does now s e s') (houtbox : s.outbox = []) (ho : o ∈ s'.outbox)
    (haddressee : o.addressee = some (.job id slot)) : e.visitor s = some id := by
  have hnobody (hsame : s'.outbox = s.outbox) : False := by
    rw [hsame, houtbox] at ho
    cases ho
  cases hdoes with
  | @arrive i readFrom a givenUp =>
    rw [(carries_arrive now s i readFrom a givenUp).outbox] at ho
    have hmem : o ∈ (Job.start now givenUp a).2.filterMap (·.request? i) := by
      simpa [houtbox] using ho
    rw [addressee_request hmem haddressee]
    rfl
  | @job _ i je v v₀ j effects mail hje _ _ _ _ =>
    have hcarries : Carries now i ({ s with mail }.setVisit i { v₀ with job := j }) effects
        ({ s with mail }.moved now i v₀ (j, effects)) := carries_performs effects
    rw [hcarries.outbox] at ho
    have hmem : o ∈ effects.filterMap (·.request? i) := by
      simpa [setVisit, houtbox] using ho
    obtain rfl := addressee_request hmem haddressee
    cases e with
    | arrive => cases hje
    | _ => exact congrArg (Option.map (·.1)) hje
  | @poller _ mode pe p p' effects mail _ _ _ _ _ =>
    have hcarries : PollerCarries mode ({ s with mail }.setPoller mode p') effects
        ({ s with mail }.movedPoller mode (p', effects)) := pollerCarries_performs effects
    obtain ⟨sent, hout, hsent⟩ := hcarries.outbox
    have hempty : ({ s with mail }.setPoller mode p').outbox = [] := by
      cases mode <;> exact houtbox
    rw [hout, hempty, List.nil_append] at ho
    have haddressed := hsent o ho
    rw [haddressee] at haddressed
    cases haddressed
  | take htaken =>
    rcases take_cases htaken with ⟨v, v', -, rfl, -⟩ | ⟨v, -, rfl, -⟩
    · exact (hnobody rfl).elim
    · exact (hnobody rfl).elim
  | _ => exact (hnobody rfl).elim

/-- What was sent under the number of a job was sent by its visit. -/
theorem mem_sentBy (run : Runs t₀ registry h now s) (hsent : Sent h o)
    (haddressee : o.addressee = some (.job id slot)) : o ∈ sentBy h id := by
  obtain ⟨tr, htr, ho⟩ := hsent
  obtain ⟨past, later, t, rfl, hpast, -, -, hstep⟩ := run.of_mem htr
  obtain ⟨s', hreact, -, heffects⟩ := react_of_machine hstep
  rw [← heffects] at ho
  have hvisitor := visitor_of_request (does_of_react hreact) (outbox_of_runs hpast) ho haddressee
  refine List.mem_flatMap.2 ⟨tr, htr, ?_⟩
  rw [if_pos hvisitor, ← heffects]
  exact ho

end

/-! ## Answers -/

section
variable {s : Service ρ} {e : Event ρ} {id slot : Nat} {answer : Answer}

/-- A job takes an answer when one comes to a request of that number. -/
theorem reply_of_answered (h : e.job? s = some (id, .answered slot answer)) :
    ∃ call, e = .reply ⟨some (.job id slot), call⟩ answer := by
  cases e with
  | reply o answer' =>
    obtain ⟨addressee, call⟩ := o
    rcases addressee with _ | ⟨id', slot'⟩ | mode
    · cases h
    · obtain ⟨rfl, heq⟩ := Prod.mk.inj (Option.some.inj h)
      injection heq with hslot hanswer
      exact ⟨call, by rw [hslot, hanswer]⟩
    · cases h
  | deliver n =>
    simp only [Event.job?] at h
    split at h <;> simp at h
  | leave id' =>
    simp only [Event.job?] at h
    split at h <;> simp at h
  | _ => cases h

/-- A job takes the poller's answer when a message with it is delivered. -/
theorem deliver_of_polled {outcome : Except Failure Freja.Result}
    (h : e.job? s = some (id, .polled outcome)) :
    ∃ n, e = .deliver n ∧ s.mail[n]? = some (.polled id outcome) := by
  cases e with
  | deliver n =>
    simp only [Event.job?] at h
    split at h
    · simp at h
    · next id' outcome' hmail =>
      obtain ⟨rfl, heq⟩ := Prod.mk.inj (Option.some.inj h)
      injection heq with houtcome
      exact ⟨n, rfl, houtcome ▸ hmail⟩
    · cases h
  | reply o answer' =>
    obtain ⟨addressee, call⟩ := o
    rcases addressee with _ | ⟨id', slot'⟩ | mode <;> simp [Event.job?] at h
  | leave id' =>
    simp only [Event.job?] at h
    split at h <;> simp at h
  | _ => cases h

end

/-! ## Results -/

section
variable {h : History ρ} {t₀ now id t : Nat} {registry : Registry} {s : Service ρ}
  {a : Activity ρ} {v : Visit ρ} {x : ρ}

/-- `Given h id a t x`: when something happened at the time `t` to the visit, its job gave the
result, for a reason that the activity names. -/
def Given (h : History ρ) (id : Nat) (a : Activity ρ) (t : Nat) (x : ρ) : Prop :=
  ∃ past tr later je?, h = past ++ tr :: later ∧ tr.time = t ∧
    tr.event.visitor tr.before = some id ∧
    tr.event.job? tr.before = (je? : Option Job.Event).map (id, ·) ∧ Job.Gives a je? x

/-- What was given before is still given. -/
theorem Given.later (hgiven : Given h id a t x)
    (last : Transition (Service ρ) (Event ρ) Outgoing) : Given (h ++ [last]) id a t x := by
  obtain ⟨past, tr, later, je?, rfl, hrest⟩ := hgiven
  exact ⟨past, tr, later ++ [last], je?, by simp, hrest⟩

/-- **A visit that has a result** was given it. -/
theorem given_of_runs (run : Runs t₀ registry h now s) (hplain : a.IsPlain)
    {tr : Transition (Service ρ) (Event ρ) Outgoing} (htr : tr ∈ h) {readFrom : Nat}
    {givenUp : Bool} (harrive : tr.event = .arrive id a readFrom givenUp)
    (hv : s.visit? id = some v) (hend : v.ending = some (.done t x)) : Given h id a t x := by
  induction run generalizing v with
  | start => cases htr
  | @next h t' now s s₁ e sent run ht hmay hstep ih =>
    obtain ⟨s', hreact, rfl, rfl⟩ := react_of_machine hstep
    have hv' : s'.visit? id = some v := hv
    rcases List.mem_append.1 htr with hold | hlast
    · have hstays : ∀ a readFrom givenUp, e ≠ .arrive id a readFrom givenUp := by
        rintro a' readFrom' givenUp' rfl
        exact hmay ⟨tr, hold, a, readFrom, givenUp, harrive⟩
      have hdoes := does_of_react hreact
      cases hbefore : s.visit? id with
      | none =>
        rw [(absent_of_does hdoes hbefore hstays).1] at hv'
        cases hv'
      | some u =>
        obtain ⟨t'', j, -, hruns, hjob⟩ := (follows_of_runs run hplain hold harrive).runs
        have hunder : Job.Under a u.job := hjob u hbefore ▸ Job.under_of_runs hplain hruns
        cases fares_of_does hdoes hbefore hunder hstays with
        | same _ hsame _ hending =>
          obtain rfl := Option.some.inj (hsame.symm.trans hv')
          exact (ih hold hbefore (hending ▸ hend)).later _
        | gone _ hnone _ =>
          rw [hnone] at hv'
          cases hv'
        | @job je v₀ j' effects hje hmachine hleft hvisit _ =>
          obtain rfl := Option.some.inj (hvisit.symm.trans hv')
          rcases hleft with ⟨-, rfl⟩ | ⟨-, -, rfl⟩
          · by_cases hopen : v₀.ending = none
            · have hopen' : ({ v₀ with job := j' } : Visit ρ).ending = none := hopen
              rcases @Visit.ending_performs ρ now _ effects hopen' with ⟨hnone, -⟩ | ⟨y, hy, hdone⟩
              · rw [hnone] at hend
                cases hend
              · rw [hdone] at hend
                injection hend with hend
                injection hend with htime hresult
                subst htime hresult
                refine ⟨h, _, [], some je, rfl, rfl, (visitor_eq hstays).2 ⟨je, hje⟩, hje, ?_⟩
                exact (Job.under_step hunder hmachine).2 y hy
            · have hopen' : ({ v₀ with job := j' } : Visit ρ).ending ≠ none := hopen
              rw [Visit.ending_performs_of_ended hopen'] at hend
              exact (ih hold hbefore hend).later _
          · rw [Visit.ending_performs_of_ended (by simp)] at hend
            cases hend
    · obtain rfl := List.mem_singleton.1 hlast
      obtain rfl : e = .arrive id a readFrom givenUp := harrive
      rw [← Option.some.inj hreact,
        visit?_arrive_own s id readFrom a givenUp (unknown_of_runs run hmay).1] at hv'
      obtain rfl := Option.some.inj hv'
      have hopen : ({ job := (Job.start now givenUp a).1, readFrom } : Visit ρ).ending = none := rfl
      rcases Visit.ending_performs hopen with ⟨hnone, -⟩ | ⟨y, hy, hdone⟩
      · rw [hnone] at hend
        cases hend
      · rw [hdone] at hend
        injection hend with hend
        injection hend with htime hresult
        subst htime hresult
        exact ⟨h, _, [], none, rfl, rfl, rfl, rfl, Job.gives_of_start hplain hy⟩

end

end OrderBroker.Service
