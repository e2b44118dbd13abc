import OrderBroker.Proofs.Job.Steps
import OrderBroker.Proofs.Poller.Steps
import OrderBroker.Service

/-!
# Steps of the service

The service as a machine, whose effects are the requests that it sends. Messages are delivered in
any order, and whatever may move does so at any time; answers come to requests that were sent, in
any order, late or never.

`does_of_react` says once what a step of the service can be: something that happens to one job, or
to one poller, a caller's coming and going, or nothing.
-/

namespace OrderBroker.Service

variable {ρ : Type}

/-! ## The machine -/

/-- What happens to the service. -/
inductive Event (ρ : Type) where
  /-- A caller comes, who may have given up already. -/
  | arrive (id : Nat) (activity : Activity ρ) (readFrom : Nat) (givenUp : Bool)
  /-- A caller gives up, and waits for the result that says so. -/
  | giveUp (id : Nat)
  /-- A caller leaves. -/
  | leave (id : Nat)
  /-- A visit that has ended is not kept any longer. -/
  | forget (id : Nat)
  | shutdown
  /-- The answer to a request comes. -/
  | reply (o : Outgoing) (answer : Answer)
  /-- One of the messages is delivered. -/
  | deliver (n : Nat)
  /-- A job moves by itself. -/
  | advance (id : Nat)
  /-- A poller moves by itself. -/
  | move (mode : Order.Mode) (m : Freja.Poller.Move)
  /-- The table of a poller is listed in another order. -/
  | relist (mode : Order.Mode) (waiting : List (String × List Freja.Poller.Waiter))
  /-- A caller takes an item. -/
  | read (id : Nat)
  /-- What has come for a caller is taken. -/
  | take (id : Nat)

/-- What the service makes of an event, if that can happen. -/
def react (now : Nat) (s : Service ρ) : Event ρ → Option (Service ρ)
  | .arrive id activity readFrom givenUp => some (s.arrive now id activity readFrom givenUp)
  | .giveUp id => some (s.giveUp now id)
  | .leave id => some (s.leave now id)
  | .forget id =>
    (s.visit? id).bind fun v => if v.ending.isSome then some (s.forget id) else none
  | .shutdown => some s.shutdown
  | .reply o answer =>
    match o.addressee with
    | some addressee => some (s.answered now addressee answer)
    | none => some s
  | .deliver n => s.mail[n]?.map ({ s with mail := s.mail.eraseIdx n }.deliver now ·)
  | .advance id => (s.visit? id).bind fun v => (v.job.advance now).map (s.moved now id v)
  | .move mode m =>
    (s.poller? mode).bind fun p =>
      if m ∈ p.moves now then some (s.movedPoller mode (p.make now m)) else none
  | .relist mode waiting =>
    (s.poller? mode).bind fun p =>
      if waiting.Perm p.waiting then some (s.setPoller mode { p with waiting }) else none
  | .read id => (s.visit? id).bind fun v => (v.read? now).map (s.setVisit id)
  | .take id => (s.take id).map (·.2)

/-- The service as a machine. Its effects are the requests that it sends. -/
def machine : Machine (Service ρ) (Event ρ) Outgoing := fun now s e =>
  (react now s e).map fun s => ({ s with outbox := [] }, s.outbox)

/-- What has happened to the service. -/
abbrev History (ρ : Type) : Type := List (Transition (Service ρ) (Event ρ) Outgoing)

/-- The number is a caller's who has come. -/
def Came (h : History ρ) (id : Nat) : Prop :=
  ∃ tr ∈ h, ∃ activity readFrom givenUp, tr.event = .arrive id activity readFrom givenUp

/-- The request was sent. -/
def Sent (h : History ρ) (o : Outgoing) : Prop := ∃ tr ∈ h, o ∈ tr.effects

/-- What may happen: every caller has a number of his own, and answers come to requests that were
sent. -/
def May (h : History ρ) : Event ρ → Prop
  | .arrive id _ _ _ => ¬ Came h id
  | .reply o _ => Sent h o
  | _ => True

/-- The runs of a service from its start. -/
abbrev Runs (t₀ : Nat) (registry : Registry) : History ρ → Nat → Service ρ → Prop :=
  Run machine May t₀ (Service.start t₀ registry)

section
variable {h : History ρ} {t₀ now : Nat} {registry : Registry} {s s₁ : Service ρ} {e : Event ρ}
  {sent : List Outgoing}

/-- A step of the machine is one of the service, whose requests leave it. -/
theorem react_of_machine (hstep : machine now s e = some (s₁, sent)) :
    ∃ s', react now s e = some s' ∧ { s' with outbox := [] } = s₁ ∧ s'.outbox = sent := by
  obtain ⟨s', hreact, heq⟩ := Option.map_eq_some_iff.1 hstep
  exact ⟨s', hreact, Prod.mk.inj heq⟩

end

/-! ## Whom an event concerns -/

/-- Whose job an event concerns, and what happens to it. -/
def Event.job? (s : Service ρ) : Event ρ → Option (Nat × Job.Event)
  | .giveUp id => some (id, .giveUp)
  | .leave id => if ((s.visit? id).bind (·.ending)).isSome then none else some (id, .drop)
  | .reply o answer =>
    match o.addressee with
    | some (.job id slot) => some (id, .answered slot answer)
    | _ => none
  | .deliver n =>
    match s.mail[n]? with
    | some (.registered id) => some (id, .registered)
    | some (.polled id outcome) => some (id, .polled outcome)
    | _ => none
  | .advance id => some (id, .advance)
  | _ => none

/-- `Polls s e mode pe`: where `e` happens to the service `s`, `pe` happens to the poller of the
mode. -/
inductive Polls (s : Service ρ) : Event ρ → Order.Mode → Freja.Poller.Event → Prop
  | register {n id : Nat} {mode : Order.Mode} {reference : String} :
      s.mail[n]? = some (.register id mode reference) →
      Polls s (.deliver n) mode (.register id reference)
  | giveUp {n id : Nat} {mode : Order.Mode} :
      s.mail[n]? = some (.giveUp id mode) → Polls s (.deliver n) mode (.giveUp id)
  | move {mode : Order.Mode} {m : Freja.Poller.Move} : Polls s (.move mode m) mode (.move m)
  | relist {mode : Order.Mode} {waiting : List (String × List Freja.Poller.Waiter)} :
      Polls s (.relist mode waiting) mode (.relist waiting)
  | toldOne {mode : Order.Mode} {client : Freja.Client} {call : Call} {answer : Answer}
      {reference : String} : s.registry.freja = some client →
      Polls s (.reply ⟨some (.poller mode), call⟩ answer) mode
        (.toldOne reference ((client.oneResult mode reference).bind (·.read answer)))
  | toldAll {mode : Order.Mode} {client : Freja.Client} {call : Call} {answer : Answer} :
      s.registry.freja = some client →
      Polls s (.reply ⟨some (.poller mode), call⟩ answer) mode
        (.toldAll ((client.allResults mode).read answer))

/-- **What a step can be.** -/
inductive Does (now : Nat) (s : Service ρ) : Event ρ → Service ρ → Prop
  | arrive {id readFrom : Nat} {a : Activity ρ} {givenUp : Bool} :
      Does now s (.arrive id a readFrom givenUp) (s.arrive now id a readFrom givenUp)
  /-- Something happens to a job. A caller who leaves has left before his job notices. -/
  | job {e : Event ρ} {id : Nat} {je : Job.Event} {v v₀ : Visit ρ} {j : Job ρ}
      {effects : List (Job.Effect ρ)} {mail : List Mail} : e.job? s = some (id, je) →
      s.visit? id = some v → Job.machine now v.job je = some (j, effects) →
      mail.Sublist s.mail →
      (je ≠ .drop ∧ v₀ = v ∨
        je = .drop ∧ v.ending = none ∧ v₀ = { v with ending := some (.left now) }) →
      Does now s e ({ s with mail }.moved now id v₀ (j, effects))
  /-- Something happens to a poller. -/
  | poller {e : Event ρ} {mode : Order.Mode} {pe : Freja.Poller.Event} {p p' : Freja.Poller}
      {effects : List Freja.Poller.Effect} {mail : List Mail} : Polls s e mode pe →
      s.poller? mode = some p → Freja.Poller.machine now p pe = some (p', effects) →
      e.job? s = none → mail.Sublist s.mail →
      Does now s e ({ s with mail }.movedPoller mode (p', effects))
  | shutdown : Does now s .shutdown s.shutdown
  | forget {id : Nat} {v : Visit ρ} : s.visit? id = some v → v.ending.isSome = true →
      Does now s (.forget id) (s.forget id)
  | read {id : Nat} {v v' : Visit ρ} : s.visit? id = some v → v.read? now = some v' →
      Does now s (.read id) (s.setVisit id v')
  | take {id : Nat} {s' : Service ρ} {x : ρ × Bool} : s.take id = some (x, s') →
      Does now s (.take id) s'
  /-- Nobody is there whom the event concerns. -/
  | quiet {e : Event ρ} {mail : List Mail} : mail.Sublist s.mail →
      (∀ id je, e.job? s = some (id, je) → s.visit? id = none) → Does now s e { s with mail }

section
variable {now : Nat} {s s' : Service ρ} {e : Event ρ}

/-- A poller that is put back is where it was. -/
theorem setPoller_same {mode : Order.Mode} {p : Freja.Poller} (hp : s.poller? mode = some p) :
    s.setPoller mode p = s := by
  cases mode with
  | auth =>
    have hsame : some p = s.authPoller := hp.symm
    simp [setPoller, hsame]
  | sign =>
    have hsame : some p = s.signPoller := hp.symm
    simp [setPoller, hsame]

/-- Something happens to the job of a number, if there is one. -/
theorem does_onJob {id : Nat} {je : Job.Event} {mail : List Mail} (hmail : mail.Sublist s.mail)
    (hje : e.job? s = some (id, je)) (hdrop : je ≠ .drop)
    {f : Job ρ → Job ρ × List (Job.Effect ρ)}
    (hf : ∀ j, Job.machine now j je = some (f j)) :
    Does now s e ({ s with mail }.onJob now id f) := by
  unfold onJob
  split
  · next v hv => exact .job hje hv (hf v.job) hmail (.inl ⟨hdrop, rfl⟩)
  · next hnone =>
    refine .quiet hmail fun id' je' heq => ?_
    rw [hje, Option.some.injEq, Prod.mk.injEq] at heq
    rw [← heq.1]
    exact hnone

/-- Something happens to the poller of a mode, if there is one. -/
theorem does_onPoller {mode : Order.Mode} {pe : Freja.Poller.Event} {mail : List Mail}
    (hmail : mail.Sublist s.mail) (hpe : Polls s e mode pe) (hje : e.job? s = none)
    {f : Freja.Poller → Freja.Poller × List Freja.Poller.Effect}
    (hf : ∀ p, Freja.Poller.machine now p pe = some (f p)) :
    Does now s e ({ s with mail }.onPoller mode f) := by
  unfold onPoller
  split
  · next p hp => exact .poller hpe hp (hf p) hje hmail
  · exact .quiet hmail fun id je heq => by rw [hje] at heq; cases heq

/-- The answer to the question of a poller. -/
theorem does_answerPoller (now : Nat) (s : Service ρ) (mode : Order.Mode) (call : Call)
    (answer : Answer) :
    Does now s (.reply ⟨some (.poller mode), call⟩ answer) (s.answerPoller now mode answer) := by
  have hquiet : Does now s (.reply ⟨some (.poller mode), call⟩ answer) s :=
    .quiet (List.Sublist.refl _) fun id je heq => by cases heq
  unfold answerPoller
  split
  · exact hquiet
  · next client hclient =>
    unfold onPoller
    split
    · next p hp =>
      cases hphase : p.phase with
      | single reference later =>
        have hstep (answer : Except Failure Freja.Result) :
            Freja.Poller.machine now p (.toldOne reference answer) =
              some (p.answeredOne now answer) := by
          simp only [Freja.Poller.machine, hphase, if_true]
        simp only [hphase]
        exact .poller (.toldOne hclient) hp (hstep _) rfl (List.Sublist.refl _)
      | bulk =>
        have hstep (answer : Except Failure (List Freja.Result)) :
            Freja.Poller.machine now p (.toldAll answer) = some (p.answeredAll now answer) := by
          simp only [Freja.Poller.machine, hphase, if_true]
        simp only [hphase]
        exact .poller (.toldAll hclient) hp (hstep _) rfl (List.Sublist.refl _)
      | resting due =>
        simp only [Freja.Poller.answeredAll, hphase]
        rw [show s.movedPoller mode (p, []) = s from setPoller_same hp]
        exact hquiet
      | stopped =>
        simp only [Freja.Poller.answeredAll, hphase]
        rw [show s.movedPoller mode (p, []) = s from setPoller_same hp]
        exact hquiet
    · exact hquiet

/-- The delivery of a message. -/
theorem does_deliver {n : Nat} {m : Mail} (hm : s.mail[n]? = some m) :
    Does now s (.deliver n) ({ s with mail := s.mail.eraseIdx n }.deliver now m) := by
  have hmail : (s.mail.eraseIdx n).Sublist s.mail := List.eraseIdx_sublist _ _
  cases m with
  | register id mode reference =>
    exact does_onPoller hmail (.register hm) (by simp [Event.job?, hm]) fun _ => rfl
  | giveUp id mode =>
    exact does_onPoller hmail (.giveUp hm) (by simp [Event.job?, hm]) fun _ => rfl
  | registered id =>
    exact does_onJob hmail (by simp [Event.job?, hm]; rfl) (by simp) fun _ => rfl
  | polled id outcome =>
    exact does_onJob hmail (by simp [Event.job?, hm]; rfl) (by simp) fun _ => rfl

/-- The leaving of a caller. -/
theorem does_leave (now : Nat) (s : Service ρ) (id : Nat) :
    Does now s (.leave id) (s.leave now id) := by
  unfold leave
  split
  · next v hv =>
    split
    · next ending hending =>
      refine .quiet (List.Sublist.refl _) fun id' je heq => ?_
      simp [Event.job?, hv, hending] at heq
    · next hending =>
      exact .job (by simp [Event.job?, hv, hending]) hv rfl
        (List.Sublist.refl _) (.inr ⟨rfl, hending, rfl⟩)
  · next hnone =>
    refine .quiet (List.Sublist.refl _) fun id' je heq => ?_
    simp only [Event.job?, hnone, Option.bind_none, Option.isSome_none, Bool.false_eq_true,
      if_false, Option.some.injEq, Prod.mk.injEq] at heq
    rw [← heq.1]
    exact hnone

/-- Every step of the service is one of these. -/
theorem does_of_react (hreact : react now s e = some s') : Does now s e s' := by
  cases e with
  | arrive id a readFrom givenUp =>
    rw [← Option.some.inj hreact]
    exact .arrive
  | giveUp id =>
    rw [← Option.some.inj hreact]
    exact does_onJob (List.Sublist.refl _) rfl (by simp) fun _ => rfl
  | leave id =>
    rw [← Option.some.inj hreact]
    exact does_leave now s id
  | forget id =>
    obtain ⟨v, hv, hs'⟩ := Option.bind_eq_some_iff.1 hreact
    simp only [Option.ite_none_right_eq_some, Option.some.injEq] at hs'
    rw [← hs'.2]
    exact .forget hv hs'.1
  | shutdown =>
    rw [← Option.some.inj hreact]
    exact .shutdown
  | reply o answer =>
    obtain ⟨addressee, call⟩ := o
    cases addressee with
    | none =>
      rw [← Option.some.inj hreact]
      exact .quiet (List.Sublist.refl _) fun id je heq => by cases heq
    | some addressee =>
      rw [← Option.some.inj hreact]
      cases addressee with
      | job id slot =>
        exact does_onJob (List.Sublist.refl _) rfl (by simp) fun _ => rfl
      | poller mode => exact does_answerPoller now s mode call answer
  | deliver n =>
    obtain ⟨m, hm, hs'⟩ := Option.map_eq_some_iff.1 hreact
    rw [← hs']
    exact does_deliver hm
  | advance id =>
    obtain ⟨v, hv, hs'⟩ := Option.bind_eq_some_iff.1 hreact
    obtain ⟨⟨j, effects⟩, hj, rfl⟩ := Option.map_eq_some_iff.1 hs'
    exact .job rfl hv hj (List.Sublist.refl _) (.inl ⟨by simp, rfl⟩)
  | move mode m =>
    obtain ⟨p, hp, hs'⟩ := Option.bind_eq_some_iff.1 hreact
    simp only [Option.ite_none_right_eq_some, Option.some.injEq] at hs'
    rw [← hs'.2]
    exact .poller .move hp (if_pos hs'.1) rfl (List.Sublist.refl _)
  | relist mode waiting =>
    obtain ⟨p, hp, hs'⟩ := Option.bind_eq_some_iff.1 hreact
    simp only [Option.ite_none_right_eq_some, Option.some.injEq] at hs'
    rw [← hs'.2]
    have hstep : Freja.Poller.machine now p (.relist waiting) = some ({ p with waiting }, []) :=
      if_pos hs'.1
    exact .poller .relist hp hstep rfl (List.Sublist.refl _)
  | read id =>
    obtain ⟨v, hv, hs'⟩ := Option.bind_eq_some_iff.1 hreact
    obtain ⟨v', hv', rfl⟩ := Option.map_eq_some_iff.1 hs'
    exact .read hv hv'
  | take id =>
    obtain ⟨⟨x, s''⟩, htake, rfl⟩ := Option.map_eq_some_iff.1 hreact
    exact .take htake

end

end OrderBroker.Service
