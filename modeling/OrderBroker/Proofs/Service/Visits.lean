import OrderBroker.Proofs.Job.Guard
import OrderBroker.Proofs.Service.Effects

/-!
# Visits

What happens to one visit while the service runs is a run of its job: `jobHistory` reads it off the
history of the service, and `sentBy` the requests that the visit sent. `follows_of_runs` says that
the two belong together, whatever else the service is doing, for every activity that gives one
result.
-/

namespace OrderBroker.Service

variable {ρ : Type}

/-! ## The history of a visit -/

/-- Whose visit an event concerns. -/
def Event.visitor (s : Service ρ) : Event ρ → Option Nat
  | .arrive id _ _ _ => some id
  | e => (e.job? s).map (·.1)

/-- The requests that a visit sent. -/
def sentBy (h : History ρ) (id : Nat) : List Outgoing :=
  h.flatMap fun tr => if tr.event.visitor tr.before = some id then tr.effects else []

/-- What a transition of the service is for the job of a visit. -/
def jobStep (id : Nat) (tr : Transition (Service ρ) (Event ρ) Outgoing) :
    Option (Transition (Job ρ) Job.Event (Job.Effect ρ)) :=
  match tr.event.job? tr.before, tr.before.visit? id with
  | some (i, je), some v =>
    if i = id then (Job.machine tr.time v.job je).map fun r => ⟨tr.time, v.job, je, r.1, r.2⟩
    else none
  | _, _ => none

/-- What has happened to the job of a visit. -/
def jobHistory (h : History ρ) (id : Nat) : Job.History ρ := h.filterMap (jobStep id)

section
variable {h : History ρ} {tr : Transition (Service ρ) (Event ρ) Outgoing} {id : Nat}

/-- What a visit has sent, and sends now. -/
theorem sentBy_snoc : sentBy (h ++ [tr]) id =
    sentBy h id ++ if tr.event.visitor tr.before = some id then tr.effects else [] := by
  simp [sentBy]

/-- What has happened to a job, and happens now. -/
theorem jobHistory_snoc :
    jobHistory (h ++ [tr]) id = jobHistory h id ++ (jobStep id tr).toList := by
  rw [jobHistory, List.filterMap_append]
  cases hstep : jobStep id tr <;> simp [jobHistory, hstep]

/-- What happens to a job is what the event is for it. -/
theorem event_of_jobStep {jtr : Transition (Job ρ) Job.Event (Job.Effect ρ)}
    (hstep : jobStep id tr = some jtr) : tr.event.job? tr.before = some (id, jtr.event) := by
  unfold jobStep at hstep
  split at hstep
  · next i je v hje _ =>
    split at hstep
    · next hi =>
      obtain ⟨r, -, rfl⟩ := Option.map_eq_some_iff.1 hstep
      rw [hje, hi]
    · cases hstep
  · cases hstep

/-- Nothing happens to a job that the event does not concern. -/
theorem jobStep_none (hother : ∀ je, tr.event.job? tr.before ≠ some (id, je)) :
    jobStep id tr = none := by
  unfold jobStep
  split
  · next i je v heq _ =>
    rw [if_neg]
    rintro rfl
    exact hother je heq
  · rfl

/-- Nothing happens to the job of nobody. -/
theorem jobStep_absent (habsent : tr.before.visit? id = none) : jobStep id tr = none := by
  unfold jobStep
  split
  · next heq =>
    rw [habsent] at heq
    cases heq
  · rfl

/-- An event that is no coming concerns the visit whose job it concerns. -/
theorem visitor_eq {s : Service ρ} {e : Event ρ}
    (hstays : ∀ a readFrom givenUp, e ≠ .arrive id a readFrom givenUp) :
    e.visitor s = some id ↔ ∃ je, e.job? s = some (id, je) := by
  cases e with
  | arrive i a readFrom givenUp =>
    refine ⟨fun heq => ?_, fun ⟨je, heq⟩ => by cases heq⟩
    injection heq with heq
    exact absurd (heq ▸ rfl) (hstays a readFrom givenUp)
  | _ => simp [Event.visitor]

end

/-! ## One step -/

section
variable {s s' : Service ρ} {now id : Nat} {v : Visit ρ} {e : Event ρ} {a : Activity ρ}

/-- A visit that is not kept any longer is gone, and no other. -/
theorem visit?_forget (s : Service ρ) (id i : Nat) :
    (s.forget id).visit? i = if i = id then none else s.visit? i := by
  suffices H : ∀ visits : List (Nat × Visit ρ),
      (visits.filter (·.1 ≠ id)).lookup i = if i = id then none else visits.lookup i from H s.visits
  intro visits
  induction visits with
  | nil => simp
  | cons entry rest ih =>
    obtain ⟨k, old⟩ := entry
    by_cases hk : k = id
    · rw [List.filter_cons_of_neg (by simpa using hk), ih]
      by_cases hi : i = id
      · rw [if_pos hi, if_pos hi]
      · have hne : (i == k) = false := beq_eq_false_iff_ne.2 fun heq => hi (heq.trans hk)
        rw [if_neg hi, if_neg hi, List.lookup_cons, hne]
    · rw [List.filter_cons_of_pos (by simpa using hk), List.lookup_cons, List.lookup_cons, ih]
      by_cases hi : i = k
      · have hne : i ≠ id := fun heq => hk (hi ▸ heq)
        simp [hi, hk]
      · have hne : (i == k) = false := beq_eq_false_iff_ne.2 hi
        rw [hne]

/-- A job with one result has no items. -/
theorem take_of_under {j : Job ρ} (hj : Job.Under a j) : j.take = none ∧ j.closing? = none := by
  cases hj <;> exact ⟨rfl, rfl⟩

/-- What a step of the service is for a visit: a step of its job, or nothing, or its end if it had
ended. -/
inductive Fares (now : Nat) (s : Service ρ) (e : Event ρ) (id : Nat) (v : Visit ρ)
    (s' : Service ρ) : Prop
  | job {je : Job.Event} {v₀ : Visit ρ} {j : Job ρ} {effects : List (Job.Effect ρ)} :
      e.job? s = some (id, je) → Job.machine now v.job je = some (j, effects) →
      (je ≠ .drop ∧ v₀ = v ∨
        je = .drop ∧ v.ending = none ∧ v₀ = { v with ending := some (.left now) }) →
      s'.visit? id = some (effects.foldl (Visit.perform now) { v₀ with job := j }) →
      s'.outbox = s.outbox ++ effects.filterMap (·.request? id) → Fares now s e id v s'
  | same {v' : Visit ρ} : (∀ je, e.job? s ≠ some (id, je)) → s'.visit? id = some v' →
      v'.job = v.job → v'.ending = v.ending → Fares now s e id v s'
  | gone : (∀ je, e.job? s ≠ some (id, je)) → s'.visit? id = none → v.ending ≠ none →
      Fares now s e id v s'

/-- A job that moves leaves every other visit as it is. -/
theorem visit?_moved (s : Service ρ) (id i : Nat) (v : Visit ρ) (j : Job ρ)
    (effects : List (Job.Effect ρ)) (hi : i ≠ id) :
    (s.moved now id v (j, effects)).visit? i = s.visit? i := by
  have hcarries : Carries now id (s.setVisit id { v with job := j }) effects
      (s.moved now id v (j, effects)) := carries_performs effects
  rw [hcarries.others i hi, visit?_setVisit, if_neg hi]

/-- A poller that moves leaves every visit as it is. -/
theorem visit?_movedPoller (s : Service ρ) (mode : Order.Mode) (id : Nat) (p : Freja.Poller)
    (effects : List Freja.Poller.Effect) :
    (s.movedPoller mode (p, effects)).visit? id = s.visit? id := by
  have hcarries : PollerCarries mode (s.setPoller mode p) effects
      (s.movedPoller mode (p, effects)) := pollerCarries_performs effects
  rw [visit?, hcarries.visits]
  cases mode <;> rfl

/-- What does not happen to a visit and leaves it as it is. -/
theorem Fares.unseen (hv : s.visit? id = some v) (hother : ∀ je, e.job? s ≠ some (id, je))
    (hsame : s'.visit? id = s.visit? id) : Fares now s e id v s' :=
  .same hother (hsame.trans hv) rfl rfl

/-- The service after somebody has come, in terms of what his job does at its start. -/
theorem carries_arrive (now : Nat) (s : Service ρ) (id readFrom : Nat) (a : Activity ρ)
    (givenUp : Bool) :
    Carries now id
      { s with visits := s.visits ++ [(id, { job := (Job.start now givenUp a).1, readFrom })] }
      (Job.start now givenUp a).2 (s.arrive now id a readFrom givenUp) := carries_performs _

/-- A caller who comes leaves every other visit as it is. -/
theorem visit?_arrive (s : Service ρ) (id i readFrom : Nat) (a : Activity ρ) (givenUp : Bool)
    (hi : i ≠ id) : (s.arrive now id a readFrom givenUp).visit? i = s.visit? i := by
  have hne : (i == id) = false := beq_eq_false_iff_ne.2 hi
  rw [(carries_arrive now s id readFrom a givenUp).others i hi, visit?, List.lookup_append,
    List.lookup_cons, hne]
  simp [visit?]

/-- The visit of a caller who comes has the job of his activity. -/
theorem visit?_arrive_own (s : Service ρ) (id readFrom : Nat) (a : Activity ρ) (givenUp : Bool)
    (habsent : s.visit? id = none) :
    (s.arrive now id a readFrom givenUp).visit? id =
      some ((Job.start now givenUp a).2.foldl (Visit.perform now)
        { job := (Job.start now givenUp a).1, readFrom }) := by
  have hlookup : s.visits.lookup id = none := habsent
  rw [(carries_arrive now s id readFrom a givenUp).own, visit?, List.lookup_append, hlookup,
    List.lookup_cons_self]
  rfl

/-- To take what has come for a caller changes a visit, or ends it. -/
theorem take_cases {x : ρ × Bool} (htake : s.take id = some (x, s')) :
    (∃ v v', s.visit? id = some v ∧ s' = s.setVisit id v' ∧
      (v'.job = v.job ∧ v'.ending = v.ending ∨ v.job.take.isSome = true)) ∨
      ∃ v, s.visit? id = some v ∧ s' = s.forget id ∧
        (v.ending ≠ none ∨ v.job.closing?.isSome = true) := by
  unfold take at htake
  split at htake
  · cases htake
  · next v hv =>
    split at htake
    · obtain ⟨-, rfl⟩ := Prod.mk.inj (Option.some.inj htake)
      exact .inl ⟨v, _, hv, rfl, .inl ⟨rfl, rfl⟩⟩
    · next hending =>
      obtain ⟨-, rfl⟩ := Prod.mk.inj (Option.some.inj htake)
      exact .inr ⟨v, hv, rfl, .inl (by simp [hending])⟩
    · cases htake
    · next hitem =>
      obtain ⟨-, rfl⟩ := Prod.mk.inj (Option.some.inj htake)
      exact .inl ⟨v, _, hv, rfl, .inr (by simp [hitem])⟩
    · obtain ⟨result, hresult, heq⟩ := Option.map_eq_some_iff.1 htake
      obtain ⟨-, rfl⟩ := Prod.mk.inj heq
      exact .inr ⟨v, hv, rfl, .inr (by simp [hresult])⟩

/-- **A step of the service** is this for a visit with one result. -/
theorem fares_of_does (hdoes : Does now s e s') (hv : s.visit? id = some v)
    (hunder : Job.Under a v.job)
    (hstays : ∀ a readFrom givenUp, e ≠ .arrive id a readFrom givenUp) :
    Fares now s e id v s' := by
  obtain ⟨htake, hclosing⟩ := take_of_under hunder
  cases hdoes with
  | @arrive i readFrom a givenUp =>
    have hi : id ≠ i := fun heq => hstays a readFrom givenUp (heq ▸ rfl)
    exact .unseen hv (fun je heq => by cases heq) (visit?_arrive _ _ _ _ _ _ hi)
  | @job _ i je u v₀ j effects mail hje hu hstep _ hleft =>
    by_cases hi : id = i
    · subst hi
      rw [hv, Option.some.injEq] at hu
      subst hu
      have hcarries : Carries now id ({ s with mail }.setVisit id { v₀ with job := j }) effects
          ({ s with mail }.moved now id v₀ (j, effects)) := carries_performs effects
      refine .job hje hstep hleft ?_ hcarries.outbox
      have hlookup : ({ s with mail } : Service ρ).visit? id = some v := hv
      rw [hcarries.own, visit?_setVisit, if_pos rfl, hlookup]
      rfl
    · refine .unseen hv (fun je' heq => ?_) (visit?_moved _ _ _ _ _ _ hi)
      rw [hje, Option.some.injEq, Prod.mk.injEq] at heq
      exact hi heq.1.symm
  | @poller _ mode pe p p' effects mail hpe hp hstep hje _ =>
    exact .unseen hv (fun je heq => by rw [hje] at heq; cases heq)
      (visit?_movedPoller { s with mail } mode id p' effects)
  | shutdown => exact .unseen hv (fun je heq => by cases heq) rfl
  | @forget i u hu hended =>
    by_cases hi : id = i
    · subst hi
      rw [hv, Option.some.injEq] at hu
      subst hu
      refine .gone (fun je heq => by cases heq) (by rw [visit?_forget, if_pos rfl]) ?_
      exact Option.isSome_iff_ne_none.1 hended
    · exact .unseen hv (fun je heq => by cases heq) (by rw [visit?_forget, if_neg hi])
  | @read i u u' hu hread =>
    by_cases hi : id = i
    · subst hi
      rw [hv, Option.some.injEq] at hu
      subst hu
      simp [Visit.read?, htake, hclosing] at hread
    · exact .unseen hv (fun je heq => by cases heq) (by rw [visit?_setVisit, if_neg hi])
  | @take i _ x htaken =>
    have hno : ∀ je, (Event.take i : Event ρ).job? s ≠ some (id, je) := fun je heq => by cases heq
    rcases take_cases htaken with ⟨u, u', hu, rfl, hu'⟩ | ⟨u, hu, rfl, hends⟩
    · by_cases hi : id = i
      · subst hi
        rw [hv, Option.some.injEq] at hu
        subst hu
        obtain ⟨hjob, hending⟩ := hu'.resolve_right (by simp [htake])
        exact .same hno (by rw [visit?_setVisit, if_pos rfl, hv]; rfl) hjob hending
      · exact .unseen hv hno (by rw [visit?_setVisit, if_neg hi])
    · by_cases hi : id = i
      · subst hi
        rw [hv, Option.some.injEq] at hu
        subst hu
        exact .gone hno (by rw [visit?_forget, if_pos rfl])
          (hends.resolve_right (by simp [hclosing]))
      · exact .unseen hv hno (by rw [visit?_forget, if_neg hi])
  | @quiet _ mail hmail hnobody =>
    refine .unseen hv (fun je heq => ?_) rfl
    rw [hnobody id je heq] at hv
    cases hv

/-- A step of the service leaves the visit of nobody absent, and sends nothing for it. -/
theorem absent_of_does (hdoes : Does now s e s') (habsent : s.visit? id = none)
    (hstays : ∀ a readFrom givenUp, e ≠ .arrive id a readFrom givenUp) :
    s'.visit? id = none ∧ (e.visitor s = some id → s'.outbox = s.outbox) := by
  have hother (hje : ∀ je, e.job? s ≠ some (id, je)) : e.visitor s ≠ some id := fun heq =>
    have ⟨je, hjob⟩ := (visitor_eq hstays).1 heq
    hje je hjob
  cases hdoes with
  | @arrive i readFrom a givenUp =>
    have hi : id ≠ i := fun heq => hstays a readFrom givenUp (heq ▸ rfl)
    refine ⟨(visit?_arrive _ _ _ _ _ _ hi).trans habsent, fun heq => ?_⟩
    exact absurd heq (hother fun je heq => by cases heq)
  | @job _ i je u v₀ j effects mail hje hu _ _ _ =>
    have hi : id ≠ i := by
      rintro rfl
      rw [habsent] at hu
      cases hu
    refine ⟨(visit?_moved _ _ _ _ _ _ hi).trans habsent, fun heq => ?_⟩
    refine absurd heq (hother fun je' heq => ?_)
    rw [hje, Option.some.injEq, Prod.mk.injEq] at heq
    exact hi heq.1.symm
  | @poller _ mode pe p p' effects mail hpe hp hstep hje _ =>
    exact ⟨(visit?_movedPoller { s with mail } mode id p' effects).trans habsent, fun heq =>
      absurd heq (hother fun je heq => by rw [hje] at heq; cases heq)⟩
  | shutdown => exact ⟨habsent, fun _ => rfl⟩
  | @forget i u hu hended =>
    refine ⟨?_, fun _ => rfl⟩
    rw [visit?_forget]
    split
    · rfl
    · exact habsent
  | @read i u u' hu hread =>
    refine ⟨?_, fun _ => rfl⟩
    rw [visit?_setVisit, habsent]
    split <;> rfl
  | @take i _ x htaken =>
    rcases take_cases htaken with ⟨u, u', hu, rfl, -⟩ | ⟨u, hu, rfl, -⟩
    · refine ⟨?_, fun _ => rfl⟩
      rw [visit?_setVisit, habsent]
      split <;> rfl
    · refine ⟨?_, fun _ => rfl⟩
      rw [visit?_forget]
      split
      · rfl
      · exact habsent
  | quiet => exact ⟨habsent, fun _ => rfl⟩

end

/-! ## Every run -/

section
variable {h : History ρ} {t₀ now id : Nat} {registry : Registry} {s : Service ρ} {a : Activity ρ}
  {givenUp : Bool} {t₁ : Nat}

/-- The outbox is empty between steps. -/
theorem outbox_of_runs (run : Runs t₀ registry h now s) : s.outbox = [] := by
  cases run with
  | start => rfl
  | next _ _ _ hstep =>
    obtain ⟨s₁, -, rfl, -⟩ := react_of_machine hstep
    rfl

/-- Of somebody who has not come, there is no trace. -/
theorem unknown_of_runs (run : Runs t₀ registry h now s) (hunknown : ¬ Came h id) :
    s.visit? id = none ∧ sentBy h id = [] ∧ jobHistory h id = [] := by
  induction run with
  | start => exact ⟨rfl, rfl, rfl⟩
  | @next h t now s s' e sent run _ _ hstep ih =>
    have hstays : ∀ a readFrom givenUp, e ≠ .arrive id a readFrom givenUp := by
      rintro a readFrom givenUp rfl
      exact hunknown ⟨_, List.mem_append_right _ (.head _), a, readFrom, givenUp, rfl⟩
    obtain ⟨habsent, hsent, hjob⟩ := ih fun ⟨tr, htr, hcame⟩ =>
      hunknown ⟨tr, List.mem_append_left _ htr, hcame⟩
    obtain ⟨s₁, hreact, rfl, rfl⟩ := react_of_machine hstep
    obtain ⟨hstill, hquiet⟩ := absent_of_does (does_of_react hreact) habsent hstays
    refine ⟨hstill, ?_, ?_⟩
    · rw [sentBy_snoc, hsent, List.nil_append]
      split
      · next hvisitor => exact (hquiet hvisitor).trans (outbox_of_runs run)
      · rfl
    · rw [jobHistory_snoc, hjob, jobStep_absent habsent]
      rfl

/-- `Follows h now s id t₁ givenUp a`: what has happened to the visit of a caller, who came at `t₁`
with the activity `a`, is a run of its job, and the visit has sent what the job has sent. It has
ended if the job has. -/
structure Follows (h : History ρ) (now : Nat) (s : Service ρ) (id t₁ : Nat) (givenUp : Bool)
    (a : Activity ρ) : Prop where
  runs : ∃ t j, t ≤ now ∧ Job.Runs t₁ givenUp a (jobHistory h id) t j ∧
    ∀ v, s.visit? id = some v → v.job = j
  sent : sentBy h id =
    (Job.doings t₁ givenUp a (jobHistory h id)).filterMap (·.request? id)
  opened : ∀ v, s.visit? id = some v → (v.ending = none ↔
    ¬ Job.Ended (jobHistory h id) (Job.doings t₁ givenUp a (jobHistory h id)))
  gone : s.visit? id = none →
    Job.Ended (jobHistory h id) (Job.doings t₁ givenUp a (jobHistory h id))

/-- A visit that has not ended ends when its job gives a result. -/
theorem ending_none_iff {v : Visit ρ} {effects : List (Job.Effect ρ)} (hopen : v.ending = none) :
    (effects.foldl (Visit.perform now) v).ending = none ↔
      ¬ effects.any (·.finishes) = true := by
  have hany : effects.any (·.finishes) = true ↔ ∃ x, .finish x ∈ effects := by
    rw [List.any_eq_true]
    constructor
    · rintro ⟨effect, heffect, hfinishes⟩
      cases effect with
      | finish x => exact ⟨x, heffect⟩
      | _ => cases hfinishes
    · rintro ⟨x, hx⟩
      exact ⟨_, hx, rfl⟩
  rw [hany]
  rcases @Visit.ending_performs ρ now v effects hopen with ⟨hnone, hno⟩ | ⟨x, hx, hend⟩
  · simp [hnone, hno]
  · simp only [hend, reduceCtorEq, false_iff, not_not]
    exact ⟨x, hx⟩

/-- Somebody comes. -/
theorem follows_arrive {s₁ : Service ρ} {sent : List Outgoing} {readFrom t : Nat}
    (run : Runs t₀ registry h t s) (hunknown : ¬ Came h id)
    (hs : ({ s.arrive now id a readFrom givenUp with outbox := [] },
      (s.arrive now id a readFrom givenUp).outbox) = (s₁, sent)) :
    Follows (h ++ [⟨now, s, .arrive id a readFrom givenUp, s₁, sent⟩]) now s₁ id now givenUp a := by
  obtain ⟨rfl, rfl⟩ := Prod.mk.inj hs
  obtain ⟨habsent, hsent, hjob⟩ := unknown_of_runs run hunknown
  have hhistory : jobHistory (h ++ [⟨now, s, .arrive id a readFrom givenUp,
      { s.arrive now id a readFrom givenUp with outbox := [] },
      (s.arrive now id a readFrom givenUp).outbox⟩]) id = [] := by
    rw [jobHistory_snoc, hjob, jobStep_absent habsent]
    rfl
  have hvisit : ({ s.arrive now id a readFrom givenUp with outbox := [] } : Service ρ).visit? id =
      some ((Job.start now givenUp a).2.foldl (Visit.perform now)
        { job := (Job.start now givenUp a).1, readFrom }) :=
    visit?_arrive_own s id readFrom a givenUp habsent
  have hstart : Job.Runs now givenUp a [] now (Job.start now givenUp a).1 := .start
  rw [← hhistory] at hstart
  refine ⟨⟨now, _, Nat.le_refl _, hstart, fun v hv => ?_⟩, ?_, fun v hv => ?_,
    fun hgone => ?_⟩
  · rw [hvisit, Option.some.injEq] at hv
    rw [← hv]
    exact Visit.job_performs
  · have houtbox := (carries_arrive now s id readFrom a givenUp).outbox
    rw [hhistory, sentBy_snoc, hsent, Job.doings_nil]
    simpa [Event.visitor, outbox_of_runs run] using houtbox
  · rw [hvisit, Option.some.injEq] at hv
    rw [← hv, hhistory, Job.doings_nil, ending_none_iff rfl]
    simp [Job.Ended, Job.Left]
  · rw [hvisit] at hgone
    cases hgone

section
variable {s' : Service ρ} {e : Event ρ} {t : Nat} {v v₀ : Visit ρ} {je : Job.Event} {j : Job ρ}
  {effects : List (Job.Effect ρ)}

/-- A step that is none of the visit's job changes neither its history nor what it has sent. -/
theorem Follows.quiet (hfollows : Follows h t s id t₁ givenUp a) (ht : t ≤ now)
    (hnone : jobStep id ⟨now, s, e, { s' with outbox := [] }, s'.outbox⟩ = none)
    (hsent : e.visitor s = some id → s'.outbox = [])
    (hvisit : ∀ v', s'.visit? id = some v' → ∃ v, s.visit? id = some v ∧ v'.job = v.job ∧
      v'.ending = v.ending)
    (hgone : s'.visit? id = none →
      Job.Ended (jobHistory h id) (Job.doings t₁ givenUp a (jobHistory h id))) :
    Follows (h ++ [⟨now, s, e, { s' with outbox := [] }, s'.outbox⟩]) now
      { s' with outbox := [] } id t₁ givenUp a := by
  obtain ⟨t', j, ht', hruns, hjob⟩ := hfollows.runs
  have hhistory : jobHistory (h ++ [⟨now, s, e, { s' with outbox := [] }, s'.outbox⟩]) id =
      jobHistory h id := by
    rw [jobHistory_snoc, hnone]
    exact List.append_nil _
  refine ⟨⟨t', j, Nat.le_trans ht' ht, hhistory ▸ hruns, fun v' hv' => ?_⟩, ?_, fun v' hv' => ?_,
    fun hnow => hhistory ▸ hgone hnow⟩
  · obtain ⟨v, hv, hsame, -⟩ := hvisit v' hv'
    rw [hsame, hjob v hv]
  · rw [hhistory, sentBy_snoc, ← hfollows.sent]
    split
    · next hvisitor => rw [hsent hvisitor, List.append_nil]
    · exact List.append_nil _
  · obtain ⟨v, hv, -, hsame⟩ := hvisit v' hv'
    rw [hhistory, hsame]
    exact hfollows.opened v hv

/-- After a step of its job a visit is open exactly if the job has not ended. -/
theorem Follows.opened_job (hfollows : Follows h t s id t₁ givenUp a)
    (hv : s.visit? id = some v)
    (hleft : (je ≠ .drop ∧ v₀ = v ∨
      je = .drop ∧ v.ending = none ∧ v₀ = { v with ending := some (.left now) })) :
    (effects.foldl (Visit.perform now) { v₀ with job := j }).ending = none ↔
      ¬ Job.Ended (jobHistory h id ++ [⟨now, v.job, je, j, effects⟩])
        (Job.doings t₁ givenUp a (jobHistory h id) ++ effects) := by
  rw [Job.ended_snoc]
  rcases hleft with ⟨hstay, rfl⟩ | ⟨rfl, -, rfl⟩
  · by_cases hopen : v₀.ending = none
    · have hnot := (hfollows.opened v₀ hv).1 hopen
      have hopen' : ({ v₀ with job := j } : Visit ρ).ending = none := hopen
      rw [ending_none_iff hopen']
      simp [hnot, hstay]
    · have hended : Job.Ended (jobHistory h id)
          (Job.doings t₁ givenUp a (jobHistory h id)) := by
        by_contra hnot
        exact hopen ((hfollows.opened v₀ hv).2 hnot)
      have hopen' : ({ v₀ with job := j } : Visit ρ).ending ≠ none := hopen
      rw [Visit.ending_performs_of_ended hopen']
      exact iff_of_false hopen (not_not_intro (.inl hended))
  · rw [Visit.ending_performs_of_ended (by simp)]
    simp

/-- A step of the visit's job is a step of the run that has happened to the visit. -/
theorem Follows.job (hfollows : Follows h t s id t₁ givenUp a) (houtbox : s.outbox = [])
    (ht : t ≤ now) (hv : s.visit? id = some v) (hje : e.job? s = some (id, je))
    (hvisitor : e.visitor s = some id) (hmachine : Job.machine now v.job je = some (j, effects))
    (hleft : (je ≠ .drop ∧ v₀ = v ∨
      je = .drop ∧ v.ending = none ∧ v₀ = { v with ending := some (.left now) }))
    (hvisit : s'.visit? id = some (effects.foldl (Visit.perform now) { v₀ with job := j }))
    (hout : s'.outbox = s.outbox ++ effects.filterMap (·.request? id)) :
    Follows (h ++ [⟨now, s, e, { s' with outbox := [] }, s'.outbox⟩]) now
      { s' with outbox := [] } id t₁ givenUp a := by
  obtain ⟨t', j₀, ht', hruns, hjob⟩ := hfollows.runs
  have hjobStep : jobStep id ⟨now, s, e, { s' with outbox := [] }, s'.outbox⟩ =
      some ⟨now, v.job, je, j, effects⟩ := by
    simp [jobStep, hje, hv, hmachine]
  have hhistory : jobHistory (h ++ [⟨now, s, e, { s' with outbox := [] }, s'.outbox⟩]) id =
      jobHistory h id ++ [⟨now, v.job, je, j, effects⟩] := by
    rw [jobHistory_snoc, hjobStep]
    rfl
  have hnext : Job.Runs t₁ givenUp a (jobHistory h id ++ [⟨now, v.job, je, j, effects⟩]) now j :=
    .next (hjob v hv ▸ hruns) (Nat.le_trans ht' ht) trivial hmachine
  refine ⟨⟨now, j, Nat.le_refl _, hhistory ▸ hnext, fun u hu => ?_⟩, ?_, fun u hu => ?_,
    fun hnone => ?_⟩
  · obtain rfl := Option.some.inj (hvisit.symm.trans hu)
    exact Visit.job_performs
  · rw [hhistory, sentBy_snoc, if_pos hvisitor, Job.doings_snoc, List.filterMap_append,
      ← hfollows.sent, hout, houtbox, List.nil_append]
  · obtain rfl := Option.some.inj (hvisit.symm.trans hu)
    rw [hhistory, Job.doings_snoc]
    exact hfollows.opened_job hv hleft
  · rw [show s'.visit? id = none from hnone] at hvisit
    cases hvisit

/-- Something happens, perhaps to the visit of a caller who has come. -/
theorem Follows.step {s₁ : Service ρ} {sent : List Outgoing}
    (hfollows : Follows h t s id t₁ givenUp a) (hplain : a.IsPlain) (houtbox : s.outbox = [])
    (ht : t ≤ now) (hstep : machine now s e = some (s₁, sent))
    (hstays : ∀ a readFrom givenUp, e ≠ .arrive id a readFrom givenUp) :
    Follows (h ++ [⟨now, s, e, s₁, sent⟩]) now s₁ id t₁ givenUp a := by
  obtain ⟨s', hreact, rfl, rfl⟩ := react_of_machine hstep
  have hdoes := does_of_react hreact
  obtain ⟨t', j, -, hruns, hjob⟩ := hfollows.runs
  cases hv : s.visit? id with
  | none =>
    obtain ⟨hstill, hsame⟩ := absent_of_does hdoes hv hstays
    refine hfollows.quiet ht (jobStep_absent hv)
      (fun hvisitor => (hsame hvisitor).trans houtbox) (fun v' hv' => ?_)
      fun _ => hfollows.gone hv
    rw [hstill] at hv'
    cases hv'
  | some v =>
    have hunder : Job.Under a v.job := hjob v hv ▸ Job.under_of_runs hplain hruns
    have hsilent (hother : ∀ je, e.job? s ≠ some (id, je)) :
        e.visitor s = some id → s'.outbox = [] := fun heq =>
      have ⟨je, hje⟩ := (visitor_eq hstays).1 heq
      absurd hje (hother je)
    cases fares_of_does hdoes hv hunder hstays with
    | same hother hv' hsame hending =>
      refine hfollows.quiet ht (jobStep_none hother) (hsilent hother) (fun u hu => ?_)
        fun hnone => ?_
      · rw [hv', Option.some.injEq] at hu
        exact ⟨v, hv, hu ▸ hsame, hu ▸ hending⟩
      · rw [hv'] at hnone
        cases hnone
    | gone hother hnone hended =>
      refine hfollows.quiet ht (jobStep_none hother) (hsilent hother) (fun u hu => ?_)
        fun _ => ?_
      · rw [hnone] at hu
        cases hu
      · by_contra hopen
        exact hended ((hfollows.opened v hv).2 hopen)
    | job hje hmachine hleft hvisit hout =>
      exact hfollows.job houtbox ht hv hje ((visitor_eq hstays).2 ⟨_, hje⟩) hmachine hleft hvisit
        hout

end

/-- **What happens to a visit** is a run of its job, from the caller's coming on, whatever else the
service does. -/
theorem follows_of_runs (run : Runs t₀ registry h now s) (hplain : a.IsPlain)
    {tr : Transition (Service ρ) (Event ρ) Outgoing} (htr : tr ∈ h) {readFrom : Nat}
    (harrive : tr.event = .arrive id a readFrom givenUp) :
    Follows h now s id tr.time givenUp a := by
  induction run with
  | start => cases htr
  | @next h t now s s' e sent run ht hmay hstep ih =>
    rcases List.mem_append.1 htr with htr | htr
    · have hcame : Came h id := ⟨tr, htr, a, readFrom, givenUp, harrive⟩
      refine (ih htr).step hplain (outbox_of_runs run) ht hstep ?_
      rintro a' readFrom' givenUp' rfl
      exact hmay hcame
    · obtain rfl := List.mem_singleton.1 htr
      obtain rfl : e = .arrive id a readFrom givenUp := harrive
      exact follows_arrive run hmay (Option.some.inj hstep)

end

end OrderBroker.Service
