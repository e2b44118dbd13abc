import OrderBroker.Proofs.Job.Times
import OrderBroker.Proofs.Service.Polling

/-!
# When visits ask and how they end

A visit asks when its job asks, and ends as its job ends and at that time, whatever else the service
is doing (`asked_of_runs_eq`, `ending_of_runs`).
-/

namespace OrderBroker

variable {ρ : Type}

/-- The request, if the job of the visit waits for the answer. -/
def Outgoing.question? (id : Nat) (o : Outgoing) : Option Call :=
  match o.addressee with
  | some (.job i _) => if i = id then some o.call else none
  | _ => none

/-- The questions among the requests of a job. -/
theorem Job.questions_of_requests (effects : List (Job.Effect ρ)) (id : Nat) :
    (effects.filterMap (·.request? id)).filterMap (·.question? id) =
      effects.filterMap (·.question?) := by
  rw [List.filterMap_filterMap]
  refine List.filterMap_congr fun effect _ => ?_
  cases effect with
  | send slot call => exact if_pos rfl
  | _ => rfl

/-- A visit that has ended stays so; one that has not ends with the first result of its job. -/
theorem Visit.ending_performs_eq (now : Nat) (v : Visit ρ) (effects : List (Job.Effect ρ)) :
    (effects.foldl (perform now) v).ending =
      v.ending.or ((effects.findSome? (·.result?)).map (.done now)) := by
  induction effects generalizing v with
  | nil => exact (Option.or_none).symm
  | cons effect rest ih =>
    rw [List.foldl_cons, ih, List.findSome?_cons]
    cases effect with
    | finish x =>
      rw [perform, finish]
      cases hending : v.ending with
      | none => rfl
      | some ending => simp [hending]
    | _ => rfl

namespace Service

/-- The requests that the job of a visit waits for answers to, and when they were sent. -/
def asked (h : History ρ) (id : Nat) : List (Nat × Call) :=
  h.flatMap fun tr => (tr.effects.filterMap (·.question? id)).map (tr.time, ·)

/-- The caller has given up, at his coming or since. -/
def GaveUp (h : History ρ) (id : Nat) (givenUp : Bool) : Prop :=
  givenUp = true ∨ ∃ tr ∈ h, tr.event = .giveUp id

section
variable {h : History ρ} {t₀ now id : Nat} {registry : Registry} {s : Service ρ} {a : Activity ρ}
  {givenUp : Bool} {tr arrival : Transition (Service ρ) (Event ρ) Outgoing} {v : Visit ρ}

/-- What happens to a job happens when the event does. -/
theorem time_of_jobStep {jtr : Transition (Job ρ) Job.Event (Job.Effect ρ)}
    (hstep : jobStep id tr = some jtr) : jtr.time = tr.time := by
  unfold jobStep at hstep
  split at hstep
  · split at hstep
    · obtain ⟨r, -, rfl⟩ := Option.map_eq_some_iff.1 hstep
      rfl
    · cases hstep
  · cases hstep

/-- Who gives up with his job gives up. -/
theorem gaveUp_of_job (hgave : Job.GaveUp givenUp (jobHistory h id)) : GaveUp h id givenUp := by
  refine hgave.imp_right ?_
  rintro ⟨jtr, hjtr, hevent⟩
  obtain ⟨tr, htr, hstep⟩ := List.mem_filterMap.1 hjtr
  have hjob := event_of_jobStep hstep
  rw [hevent] at hjob
  exact ⟨tr, htr, giveUp_of_job hjob⟩

theorem asked_snoc : asked (h ++ [tr]) id =
    asked h id ++ (tr.effects.filterMap (·.question? id)).map (tr.time, ·) := by
  simp [asked]

/-- What is sent that the job of a visit waits for is sent by the visit. -/
theorem questions_of_step (run : Runs t₀ registry h now s) {t : Nat} {s₁ : Service ρ} {e : Event ρ}
    {sent : List Outgoing} (hstep : machine t s e = some (s₁, sent)) :
    sent.filterMap (·.question? id) =
      (if e.visitor s = some id then sent else []).filterMap (·.question? id) := by
  split
  · rfl
  · next hother =>
    obtain ⟨s', hreact, -, rfl⟩ := react_of_machine hstep
    refine List.filterMap_eq_nil_iff.2 fun o ho => ?_
    unfold Outgoing.question?
    split
    · next i slot haddressee =>
      refine if_neg ?_
      rintro rfl
      exact hother (visitor_of_request (does_of_react hreact) (outbox_of_runs run) ho haddressee)
    · rfl

/-- Nothing is sent for the job of somebody who has not come. -/
theorem asked_of_unknown (run : Runs t₀ registry h now s) (hunknown : ¬ Came h id) :
    asked h id = [] := by
  refine List.flatMap_eq_nil_iff.2 fun tr htr => List.map_eq_nil_iff.2 ?_
  refine List.filterMap_eq_nil_iff.2 fun o ho => ?_
  unfold Outgoing.question?
  split
  · next i slot haddressee =>
    refine if_neg ?_
    rintro rfl
    have hsent := mem_sentBy run ⟨tr, htr, ho⟩ haddressee
    rw [(unknown_of_runs run hunknown).2.1] at hsent
    cases hsent
  · rfl

/-- **A visit asks** when its job asks. -/
theorem asked_of_runs_eq (run : Runs t₀ registry h now s) (hplain : a.IsPlain)
    (harrival : arrival ∈ h) {readFrom : Nat}
    (harrive : arrival.event = .arrive id a readFrom givenUp) :
    asked h id = Job.asked arrival.time givenUp a (jobHistory h id) := by
  induction run with
  | start => cases harrival
  | @next h t now s s₁ e sent run ht hmay hstep ih =>
    have hnext := run.next ht hmay hstep
    have hsent := (follows_of_runs hnext hplain harrival harrive).sent
    rw [sentBy_snoc] at hsent
    rw [asked_snoc, questions_of_step run hstep]
    rcases List.mem_append.1 harrival with hold | hlast
    · rw [ih hold]
      rw [(follows_of_runs run hplain hold harrive).sent] at hsent
      cases hjob : jobStep id ⟨now, s, e, s₁, sent⟩ with
      | none =>
        rw [jobHistory_snoc, hjob] at hsent ⊢
        simp only [Option.toList_none, List.append_nil] at hsent ⊢
        rw [List.append_right_eq_self.1 hsent]
        exact List.append_nil _
      | some jtr =>
        rw [jobHistory_snoc, hjob] at hsent ⊢
        simp only [Option.toList_some] at hsent ⊢
        rw [Job.doings_snoc, List.filterMap_append] at hsent
        rw [Job.asked_snoc, time_of_jobStep hjob, List.append_cancel_left hsent,
          Job.questions_of_requests]
    · obtain rfl := List.mem_singleton.1 hlast
      obtain rfl : e = .arrive id a readFrom givenUp := harrive
      obtain ⟨habsent, hnothing, hno⟩ := unknown_of_runs run hmay
      have hhistory : jobHistory (h ++ [⟨now, s, .arrive id a readFrom givenUp, s₁, sent⟩]) id =
          [] := by
        rw [jobHistory_snoc, hno, jobStep_absent habsent]
        rfl
      rw [hhistory, hnothing, List.nil_append, Job.doings_nil] at hsent
      rw [asked_of_unknown run hmay, hhistory, Job.asked_nil, hsent, Job.questions_of_requests]
      rfl

/-- **A visit ends** as its job ends. -/
theorem ending_of_runs (run : Runs t₀ registry h now s) (hplain : a.IsPlain)
    (harrival : arrival ∈ h) {readFrom : Nat}
    (harrive : arrival.event = .arrive id a readFrom givenUp) (hv : s.visit? id = some v) :
    v.ending = Job.ending? arrival.time givenUp a (jobHistory h id) := by
  induction run generalizing v with
  | start => cases harrival
  | @next h t now s s₁ e sent run ht hmay hstep ih =>
    obtain ⟨s', hreact, rfl, rfl⟩ := react_of_machine hstep
    have hv' : s'.visit? id = some v := hv
    rcases List.mem_append.1 harrival with hold | hlast
    · have hstays : ∀ a readFrom givenUp, e ≠ .arrive id a readFrom givenUp := by
        rintro a' readFrom' givenUp' rfl
        exact hmay ⟨arrival, hold, a, readFrom, givenUp, harrive⟩
      have hdoes := does_of_react hreact
      cases hbefore : s.visit? id with
      | none =>
        rw [(absent_of_does hdoes hbefore hstays).1] at hv'
        cases hv'
      | some u =>
        obtain ⟨t', j, -, hruns, hjob⟩ := (follows_of_runs run hplain hold harrive).runs
        have hunder : Job.Under a u.job := hjob u hbefore ▸ Job.under_of_runs hplain hruns
        have hu := ih hold hbefore
        cases fares_of_does hdoes hbefore hunder hstays with
        | same hother hsame _ hending =>
          obtain rfl := Option.some.inj (hsame.symm.trans hv')
          rw [jobHistory_snoc, jobStep_none hother, hending]
          simpa using hu
        | gone _ hnone _ =>
          rw [hnone] at hv'
          cases hv'
        | @job je v₀ j' effects hje hmachine hleft hvisit _ =>
          obtain rfl := Option.some.inj (hvisit.symm.trans hv')
          have hjobStep : jobStep id ⟨now, s, e, { s' with outbox := [] }, s'.outbox⟩ =
              some ⟨now, u.job, je, j', effects⟩ := by
            simp [jobStep, hje, hbefore, hmachine]
          rw [jobHistory_snoc, hjobStep, Option.toList_some, Job.ending?_snoc, ← hu]
          rw [Visit.ending_performs_eq]
          rcases hleft with ⟨hstay, rfl⟩ | ⟨rfl, hopen, rfl⟩
          · rw [Job.endsBy?_of_ne hstay]
          · rw [hopen]
            rfl
    · obtain rfl := List.mem_singleton.1 hlast
      obtain rfl : e = .arrive id a readFrom givenUp := harrive
      obtain ⟨habsent, -, hno⟩ := unknown_of_runs run hmay
      rw [← Option.some.inj hreact, visit?_arrive_own s id readFrom a givenUp habsent] at hv'
      rw [jobHistory_snoc, hno, jobStep_absent habsent, ← Option.some.inj hv',
        Visit.ending_performs_eq]
      exact Job.ending?_nil.symm

end

end Service

end OrderBroker
