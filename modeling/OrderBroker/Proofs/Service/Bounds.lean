import OrderBroker.Proofs.Job.Bounds
import OrderBroker.Proofs.Service.Endings

/-!
# What visits do and give

A visit stays within the bounds of its activity (`within_of_runs`), whatever else the service is
doing: what is sent for it (`sends_of_runs`), and what its caller is given before the items, as an
item or as the result (`gives_of_runs`). In particular nothing is sent for it but the requests that
stand in its activity (`holds_of_runs`).
-/

namespace OrderBroker

variable {ρ : Type}

/-! ## Visits -/

/-- The visit is within bounds: its job is, and what its caller has been given. -/
structure Visit.Within (b : Job.Bounds ρ) (v : Visit ρ) : Prop where
  job : v.job.Within b
  head : ∀ x, v.head = some x → b.gives x
  items : ∀ item ∈ v.items, b.gives item.2
  result : ∀ t x, v.ending = some (.done t x) → b.gives x

namespace Visit

variable {b : Job.Bounds ρ} {v v' : Visit ρ} {now : Nat} {x : ρ}

/-- The end of a visit is within bounds if its result is. -/
theorem Within.finish (hv : v.Within b) (hx : b.gives x) (now : Nat) : (v.finish now x).Within b := by
  unfold Visit.finish
  split
  · refine ⟨hv.job, hv.head, hv.items, fun t y hy => ?_⟩
    injection hy with hy
    injection hy with _ hy
    exact hy ▸ hx
  · exact hv

/-- What a job does leaves its visit within bounds. -/
theorem Within.performs {effects : List (Job.Effect ρ)} (hv : v.Within b)
    (heffects : ∀ effect ∈ effects, effect.Within b) :
    (effects.foldl (perform now) v).Within b := by
  induction effects generalizing v with
  | nil => exact hv
  | cons effect rest ih =>
    obtain ⟨hfirst, hrest⟩ := List.forall_mem_cons.1 heffects
    refine ih ?_ hrest
    cases effect with
    | head y => exact ⟨hv.job, fun z hz => Option.some.inj hz ▸ hfirst, hv.items, hv.result⟩
    | finish y => exact hv.finish hfirst now
    | _ => exact hv

/-- So does the reading of an item, or of what comes after the last one. -/
theorem Within.read (hv : v.Within b) (hread : v.read? now = some v') : v'.Within b := by
  unfold read? at hread
  split at hread
  · split at hread
    · next item job htake =>
      obtain ⟨hitem, hjob⟩ := Job.within_take hv.job htake
      rw [← Option.some.inj hread]
      exact ⟨hjob, hv.head, List.forall_mem_cons.2 ⟨hitem, hv.items⟩, hv.result⟩
    · obtain ⟨result, hclosing, rfl⟩ := Option.map_eq_some_iff.1 hread
      exact hv.finish (Job.gives_closing hv.job hclosing) now
  · cases hread

end Visit

namespace Service

section
variable {b : Job.Bounds ρ} {s s' : Service ρ} {now id : Nat} {v : Visit ρ} {e : Event ρ}
  {x : ρ × Bool}

/-- What is taken from a visit is within its bounds, and so is the visit afterwards. -/
theorem within_take (hs : ∀ v, s.visit? id = some v → v.Within b)
    (htake : s.take id = some (x, s')) :
    b.gives x.1 ∧ ∀ v, s'.visit? id = some v → v.Within b := by
  have hset {u u' : Visit ρ} (hu : s.visit? id = some u) (hu' : u'.Within b) :
      ∀ v, (s.setVisit id u').visit? id = some v → v.Within b := by
    intro v hv
    rw [visit?_setVisit, if_pos rfl, hu] at hv
    exact Option.some.inj hv ▸ hu'
  have hforget : ∀ v, (s.forget id).visit? id = some v → v.Within b := by
    intro v hv
    rw [visit?_forget, if_pos rfl] at hv
    cases hv
  unfold take at htake
  split at htake
  · cases htake
  · next u hu =>
    have hwithin := hs u hu
    split at htake
    · next hhead =>
      obtain ⟨rfl, rfl⟩ := Prod.mk.inj (Option.some.inj htake)
      exact ⟨hwithin.head _ hhead,
        hset hu ⟨hwithin.job, by simp, hwithin.items, hwithin.result⟩⟩
    · next hending =>
      obtain ⟨rfl, rfl⟩ := Prod.mk.inj (Option.some.inj htake)
      exact ⟨hwithin.result _ _ hending, hforget⟩
    · cases htake
    · next hitem =>
      obtain ⟨rfl, rfl⟩ := Prod.mk.inj (Option.some.inj htake)
      obtain ⟨hgives, hjob⟩ := Job.within_take hwithin.job hitem
      exact ⟨hgives, hset hu ⟨hjob, hwithin.head, hwithin.items, hwithin.result⟩⟩
    · obtain ⟨result, hclosing, heq⟩ := Option.map_eq_some_iff.1 htake
      obtain ⟨rfl, rfl⟩ := Prod.mk.inj heq
      exact ⟨Job.gives_closing hwithin.job hclosing, hforget⟩

/-- The requests of effects that are within bounds are. -/
theorem sends_of_effects {effects : List (Job.Effect ρ)} {o : Outgoing}
    (heffects : ∀ effect ∈ effects, effect.Within b)
    (ho : o ∈ effects.filterMap (·.request? id)) : b.sends o.call := by
  obtain ⟨effect, heffect, hrequest⟩ := List.mem_filterMap.1 ho
  have hwithin := heffects effect heffect
  cases effect with
  | send slot call => exact Option.some.inj hrequest ▸ hwithin
  | sendAway call => exact Option.some.inj hrequest ▸ hwithin
  | _ => cases hrequest

/-! ## Every run -/

/-- Somebody comes for an activity within bounds. -/
theorem within_of_arrive {a : Activity ρ} {readFrom : Nat} {givenUp : Bool}
    (habsent : s.visit? id = none) (houtbox : s.outbox = []) (ha : a.Within b)
    (hpatient : givenUp = true → ¬ b.patient) :
    (∀ v, (s.arrive now id a readFrom givenUp).visit? id = some v → v.Within b) ∧
      ∀ o ∈ (s.arrive now id a readFrom givenUp).outbox, b.sends o.call := by
  obtain ⟨hjob, heffects⟩ := Job.keeps_start ha hpatient now
  refine ⟨fun v hv => ?_, fun o ho => ?_⟩
  · rw [visit?_arrive_own s id readFrom a givenUp habsent] at hv
    rw [← Option.some.inj hv]
    have hnew : ({ job := (Job.start now givenUp a).1, readFrom } : Visit ρ).Within b :=
      ⟨hjob, by simp, by simp, by simp⟩
    exact hnew.performs heffects
  · rw [(carries_arrive now s id readFrom a givenUp).outbox] at ho
    have hmem : o ∈ (Job.start now givenUp a).2.filterMap (·.request? id) := by
      simpa [houtbox] using ho
    exact sends_of_effects heffects hmem

/-- **Every step of the service** leaves a visit within its bounds, and sends nothing else for it. -/
theorem within_of_does (hdoes : Does now s e s') (houtbox : s.outbox = [])
    (hs : ∀ v, s.visit? id = some v → v.Within b)
    (hmay : ∀ je, e.job? s = some (id, je) → b.May je)
    (hstays : ∀ a readFrom givenUp, e ≠ .arrive id a readFrom givenUp) :
    (∀ v, s'.visit? id = some v → v.Within b) ∧
      (e.visitor s = some id → ∀ o ∈ s'.outbox, b.sends o.call) := by
  have hsilent (hsame : s'.outbox = s.outbox) :
      e.visitor s = some id → ∀ o ∈ s'.outbox, b.sends o.call := by
    intro _ o ho
    rw [hsame, houtbox] at ho
    cases ho
  have hother (hje : ∀ je, e.job? s ≠ some (id, je)) :
      e.visitor s = some id → ∀ o ∈ s'.outbox, b.sends o.call := fun heq =>
    have ⟨je, hjob⟩ := (visitor_eq hstays).1 heq
    absurd hjob (hje je)
  cases hdoes with
  | @arrive i readFrom a givenUp =>
    have hi : id ≠ i := fun heq => hstays a readFrom givenUp (heq ▸ rfl)
    exact ⟨fun v hv => hs v ((visit?_arrive s i id readFrom a givenUp hi).symm.trans hv),
      hother fun je heq => by cases heq⟩
  | @job _ i je u v₀ j effects mail hje hu hstep _ hleft =>
    by_cases hi : id = i
    · subst hi
      have hu' := hs u hu
      obtain ⟨hjob, heffects⟩ := Job.keeps_step hu'.job (hmay je hje) hstep
      have hcarries : Carries now id ({ s with mail }.setVisit id { v₀ with job := j }) effects
          ({ s with mail }.moved now id v₀ (j, effects)) := carries_performs effects
      have hopened : ({ v₀ with job := j } : Visit ρ).Within b := by
        rcases hleft with ⟨-, rfl⟩ | ⟨-, -, rfl⟩
        · exact ⟨hjob, hu'.head, hu'.items, hu'.result⟩
        · exact ⟨hjob, hu'.head, hu'.items, by simp⟩
      refine ⟨fun v hv => ?_, fun _ o ho => ?_⟩
      · have hlookup : ({ s with mail } : Service ρ).visit? id = some u := hu
        rw [hcarries.own, visit?_setVisit, if_pos rfl, hlookup] at hv
        rw [← Option.some.inj hv]
        exact hopened.performs heffects
      · rw [hcarries.outbox] at ho
        have hmem : o ∈ effects.filterMap (·.request? id) := by
          simpa [setVisit, houtbox] using ho
        exact sends_of_effects heffects hmem
    · refine ⟨fun v hv => hs v ?_, hother fun je' heq => ?_⟩
      · rw [visit?_moved _ _ _ _ _ _ hi] at hv
        exact hv
      · rw [hje, Option.some.injEq, Prod.mk.injEq] at heq
        exact hi heq.1.symm
  | @poller _ mode pe p p' effects mail hpe hp hstep hje _ =>
    refine ⟨fun v hv => hs v ?_, hother fun je heq => by rw [hje] at heq; cases heq⟩
    rw [visit?_movedPoller { s with mail } mode id p' effects] at hv
    exact hv
  | shutdown => exact ⟨hs, hsilent rfl⟩
  | @forget i u hu hended =>
    refine ⟨fun v hv => ?_, hsilent rfl⟩
    rw [visit?_forget] at hv
    split at hv
    · cases hv
    · exact hs v hv
  | @read i u u' hu hread =>
    refine ⟨fun v hv => ?_, hsilent rfl⟩
    rw [visit?_setVisit] at hv
    split at hv
    · next hi =>
      subst hi
      rw [hu] at hv
      exact Option.some.inj hv ▸ (hs u hu).read hread
    · exact hs v hv
  | @take i _ x htaken =>
    by_cases hi : id = i
    · subst hi
      refine ⟨(within_take hs htaken).2, ?_⟩
      rcases take_cases htaken with ⟨u, u', -, rfl, -⟩ | ⟨u, -, rfl, -⟩ <;> exact hsilent rfl
    · rcases take_cases htaken with ⟨u, u', -, rfl, -⟩ | ⟨u, -, rfl, -⟩
      · refine ⟨fun v hv => hs v ?_, hsilent rfl⟩
        rwa [visit?_setVisit, if_neg hi] at hv
      · refine ⟨fun v hv => hs v ?_, hsilent rfl⟩
        rwa [visit?_forget, if_neg hi] at hv
  | @quiet _ mail hmail hnobody => exact ⟨hs, hsilent rfl⟩

end

section
variable {b : Job.Bounds ρ} {h : History ρ} {t₀ now id : Nat} {registry : Registry}
  {s : Service ρ} {x : ρ}

/-- Whoever comes under the number comes for something within bounds, and only what may happen then
happens. -/
structure Held (b : Job.Bounds ρ) (h : History ρ) (id : Nat) : Prop where
  comes : ∀ tr ∈ h, ∀ a readFrom givenUp, tr.event = .arrive id a readFrom givenUp →
    a.Within b ∧ (givenUp = true → ¬ b.patient)
  may : ∀ tr ∈ h, ∀ je, tr.event.job? tr.before = some (id, je) → b.May je

/-- What was within bounds was so before. -/
theorem Held.prefix {later : History ρ} (hheld : Held b (h ++ later) id) : Held b h id :=
  ⟨fun tr htr => hheld.comes tr (List.mem_append_left _ htr),
    fun tr htr => hheld.may tr (List.mem_append_left _ htr)⟩

/-- **A visit stays within its bounds**, and so does what is sent for it. -/
theorem within_of_runs (run : Runs t₀ registry h now s) (hheld : Held b h id) :
    (∀ v, s.visit? id = some v → v.Within b) ∧ ∀ o ∈ sentBy h id, b.sends o.call := by
  induction run with
  | start => exact ⟨by simp [start, visit?], by simp [sentBy]⟩
  | @next h t now s s₁ e sent run ht hmay hstep ih =>
    obtain ⟨hs, hsent⟩ := ih hheld.prefix
    obtain ⟨s', hreact, rfl, rfl⟩ := react_of_machine hstep
    have hlast : (⟨now, s, e, { s' with outbox := [] }, s'.outbox⟩ :
        Transition (Service ρ) (Event ρ) Outgoing) ∈
        h ++ [⟨now, s, e, { s' with outbox := [] }, s'.outbox⟩] :=
      List.mem_append_right _ (.head _)
    suffices H : (∀ v, s'.visit? id = some v → v.Within b) ∧
        (e.visitor s = some id → ∀ o ∈ s'.outbox, b.sends o.call) by
      refine ⟨H.1, fun o ho => ?_⟩
      rw [sentBy_snoc] at ho
      rcases List.mem_append.1 ho with ho | ho
      · exact hsent o ho
      · split at ho
        · next hvisitor => exact H.2 hvisitor o ho
        · cases ho
    by_cases harrive : ∃ a readFrom givenUp, e = .arrive id a readFrom givenUp
    · obtain ⟨a, readFrom, givenUp, rfl⟩ := harrive
      obtain ⟨ha, hpatient⟩ := hheld.comes _ hlast a readFrom givenUp rfl
      obtain ⟨hvisit, hout⟩ := within_of_arrive (unknown_of_runs run hmay).1
        (outbox_of_runs run) ha hpatient
      rw [← Option.some.inj hreact]
      exact ⟨hvisit, fun _ => hout⟩
    · exact within_of_does (does_of_react hreact) (outbox_of_runs run) hs (hheld.may _ hlast)
        fun a readFrom givenUp heq => harrive ⟨a, readFrom, givenUp, heq⟩

/-! ## What a caller is given -/

/-- The caller of a visit is given something: before the items, as an item, or as the result. -/
inductive Receives (h : History ρ) (id : Nat) (x : ρ) : Prop
  | head {tr : Transition (Service ρ) (Event ρ) Outgoing} {v : Visit ρ} : tr ∈ h →
      tr.after.visit? id = some v → v.head = some x → Receives h id x
  | item {tr : Transition (Service ρ) (Event ρ) Outgoing} {v : Visit ρ} {t : Nat} : tr ∈ h →
      tr.after.visit? id = some v → (t, x) ∈ v.items → Receives h id x
  | result {tr : Transition (Service ρ) (Event ρ) Outgoing} {v : Visit ρ} {t : Nat} : tr ∈ h →
      tr.after.visit? id = some v → v.ending = some (.done t x) → Receives h id x
  | taken {tr : Transition (Service ρ) (Event ρ) Outgoing} {last : Bool} {s' : Service ρ} : tr ∈ h →
      tr.event = .take id → tr.before.take id = some ((x, last), s') → Receives h id x

/-- **What a caller is given** is within the bounds of his visit. -/
theorem gives_of_runs (run : Runs t₀ registry h now s) (hheld : Held b h id)
    (hx : Receives h id x) : b.gives x := by
  have hafter {tr : Transition (Service ρ) (Event ρ) Outgoing} {v : Visit ρ} (htr : tr ∈ h)
      (hv : tr.after.visit? id = some v) : v.Within b := by
    obtain ⟨past, later, t, rfl, hpast, ht, hmay, hstep⟩ := run.of_mem htr
    rw [List.append_cons] at hheld
    exact (within_of_runs (hpast.next ht hmay hstep) hheld.prefix).1 v hv
  cases hx with
  | head htr hv hhead => exact (hafter htr hv).head x hhead
  | item htr hv hitem => exact (hafter htr hv).items _ hitem
  | result htr hv hend => exact (hafter htr hv).result _ x hend
  | taken htr _ htake =>
    obtain ⟨past, later, t, rfl, hpast, -⟩ := run.of_mem htr
    exact (within_take (within_of_runs hpast hheld.prefix).1 htake).1

/-- **Nothing is sent for a visit** but the requests that stand in its activity. -/
theorem holds_of_runs (run : Runs t₀ registry h now s)
    {tr : Transition (Service ρ) (Event ρ) Outgoing} (htr : tr ∈ h) {a : Activity ρ}
    {readFrom : Nat} {givenUp : Bool} (harrive : tr.event = .arrive id a readFrom givenUp)
    {o : Outgoing} (ho : o ∈ sentBy h id) : a.Holds o.call := by
  refine (within_of_runs (b := .sending a.Holds) run ⟨?_, ?_⟩).2 o ho
  · intro tr' htr' a' readFrom' givenUp' harrive'
    obtain rfl := arrival_unique run htr htr' harrive harrive'
    rw [harrive] at harrive'
    injection harrive' with _ ha
    exact ⟨ha ▸ a.within_holds, fun _ => not_false⟩
  · intro tr' _ je _
    cases je with
    | giveUp => exact not_false
    | _ => trivial

end

end Service

end OrderBroker
