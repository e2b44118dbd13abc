import OrderBroker.Proofs.Poller.Memory
import OrderBroker.Proofs.Service.Endings

/-!
# Where the pollers' results come from

A result that one of Freja's pollers posts to a caller was told by Freja before, in an answer to the
poller's own question; it is final, and of the order for which that caller came. This is an
invariant of the service (`Honest`): of its pollers, and of the messages that are under way.
-/

namespace OrderBroker

/-- An answer to one of the questions of a poller tells the result. -/
inductive Freja.Client.Tells (c : Freja.Client) (mode : Order.Mode) (answer : Answer)
    (x : Freja.Result) : Prop
  | one {reference : String} {q : Exchange Freja.Result} : c.oneResult mode reference = .ok q →
      q.read answer = .ok x → Tells c mode answer x
  | all {xs : List Freja.Result} : (c.allResults mode).read answer = .ok xs → x ∈ xs →
      Tells c mode answer x

namespace Service

variable {ρ : Type}

/-! ## The invariant -/

/-- A caller came to wait for the order with the poller. -/
def Wanted (h : History ρ) (mode : Order.Mode) (id : Nat) (reference : String) : Prop :=
  ∃ tr ∈ h, ∃ read cancels cancel readFrom givenUp,
    tr.event = .arrive id (.collect mode reference read cancels cancel) readFrom givenUp

/-- Freja told the poller the result. -/
def Told (h : History ρ) (registry : Registry) (mode : Order.Mode) (x : Freja.Result) : Prop :=
  ∃ client, registry.freja = some client ∧ ∃ tr ∈ h, ∃ call answer,
    tr.event = .reply ⟨some (.poller mode), call⟩ answer ∧ client.Tells mode answer x

/-- A poller whose waiters are callers who came, and whose results were told. -/
structure HonestPoller (h : History ρ) (registry : Registry) (mode : Order.Mode)
    (p : Freja.Poller) : Prop where
  sound : Freja.Poller.Sound p
  pending : ∀ g ∈ p.pending, Wanted h mode g.waiter.id g.reference
  seen : ∀ x ∈ p.seen, Told h registry mode x.result

/-- A message that speaks of a caller who came, and of a result that was told. -/
inductive HonestMail (h : History ρ) (registry : Registry) : Mail → Prop
  | register {id : Nat} {mode : Order.Mode} {reference : String} : Wanted h mode id reference →
      HonestMail h registry (.register id mode reference)
  | giveUp {id : Nat} {mode : Order.Mode} : HonestMail h registry (.giveUp id mode)
  | registered {id : Nat} : HonestMail h registry (.registered id)
  | result {id : Nat} {mode : Order.Mode} {x : Freja.Result} : Wanted h mode id x.reference →
      x.status.isFinal = true → Told h registry mode x → HonestMail h registry (.polled id (.ok x))
  | failed {id : Nat} {failure : Failure} : HonestMail h registry (.polled id (.error failure))

/-- The invariant of results: the pollers are honest, and all messages that are under way. -/
structure Honest (h : History ρ) (registry : Registry) (s : Service ρ) : Prop where
  providers : s.registry = registry
  poller : ∀ mode p, s.poller? mode = some p → HonestPoller h registry mode p
  mail : ∀ m ∈ s.mail, HonestMail h registry m

section
variable {h : History ρ} {tr : Transition (Service ρ) (Event ρ) Outgoing} {registry : Registry}
  {mode : Order.Mode} {id : Nat} {reference : String} {x : Freja.Result} {p : Freja.Poller}
  {m : Mail} {s s' : Service ρ} {now : Nat} {e : Event ρ}

/-! ## As time goes by -/

/-- Who has come has come. -/
theorem Wanted.later (hw : Wanted h mode id reference) : Wanted (h ++ [tr]) mode id reference := by
  obtain ⟨tr', htr', hevent⟩ := hw
  exact ⟨tr', List.mem_append_left _ htr', hevent⟩

/-- What was told was told. -/
theorem Told.later (ht : Told h registry mode x) : Told (h ++ [tr]) registry mode x := by
  obtain ⟨client, hclient, tr', htr', hevent⟩ := ht
  exact ⟨client, hclient, tr', List.mem_append_left _ htr', hevent⟩

/-- A poller that is left alone stays honest. -/
theorem HonestPoller.later (hp : HonestPoller h registry mode p) :
    HonestPoller (h ++ [tr]) registry mode p :=
  ⟨hp.sound, fun g hg => (hp.pending g hg).later, fun x hx => (hp.seen x hx).later⟩

/-- So does a message. -/
theorem HonestMail.later (hm : HonestMail h registry m) : HonestMail (h ++ [tr]) registry m := by
  cases hm with
  | register hw => exact .register hw.later
  | giveUp => exact .giveUp
  | registered => exact .registered
  | result hw hfinal ht => exact .result hw.later hfinal ht.later
  | failed => exact .failed

/-- At the start nobody waits, and nothing is under way. -/
theorem honest_start (now : Nat) (registry : Registry) :
    Honest ([] : History ρ) registry (Service.start now registry) := by
  refine ⟨rfl, fun mode p hp => ?_, by simp [Service.start]⟩
  have hstart : ∃ interval, p = Freja.Poller.start now interval := by
    have hpoller : registry.freja.map
        (fun client => Freja.Poller.start now client.pollInterval) = some p := by
      cases mode <;> exact hp
    obtain ⟨client, -, rfl⟩ := Option.map_eq_some_iff.1 hpoller
    exact ⟨_, rfl⟩
  obtain ⟨interval, rfl⟩ := hstart
  refine ⟨Freja.Poller.sound_start now interval, ?_, ?_⟩
  · simp [Freja.Poller.start, Freja.Poller.pending, Freja.Poller.held, Freja.Poller.heldIn]
  · simp [Freja.Poller.start]

/-! ## Steps -/

/-- A step that leaves the pollers alone is honest if the messages are that it posts. -/
theorem Honest.posts (hs : Honest h registry s) (hregistry : s'.registry = s.registry)
    (hpoller : ∀ mode, s'.poller? mode = s.poller? mode)
    (hmail : ∀ m ∈ s'.mail, m ∈ s.mail ∨ HonestMail (h ++ [tr]) registry m) :
    Honest (h ++ [tr]) registry s' := by
  refine ⟨hregistry.trans hs.providers, fun mode p hp => ?_, fun m hm => ?_⟩
  · exact (hs.poller mode p (hpoller mode ▸ hp)).later
  · rcases hmail m hm with hold | hnew
    · exact (hs.mail m hold).later
    · exact hnew

/-- What a poller takes comes from a message, or from Freja. -/
theorem Polls.sources {pe : Freja.Poller.Event} (hpolls : Polls s e mode pe)
    (hs : Honest h registry s) (hevent : tr.event = e) :
    (∀ g ∈ pe.newcomers, Wanted h mode g.waiter.id g.reference) ∧
      ∀ x ∈ pe.results, Told (h ++ [tr]) registry mode x := by
  have htr : tr ∈ h ++ [tr] := List.mem_append_right _ (.head _)
  cases hpolls with
  | @register n id _ reference hm =>
    refine ⟨fun g hg => ?_, by simp [Freja.Poller.Event.results]⟩
    obtain rfl := List.mem_singleton.1 hg
    cases hs.mail _ (List.mem_of_getElem? hm) with
    | register hw => exact hw
  | giveUp _ =>
    exact ⟨by simp [Freja.Poller.Event.newcomers], by simp [Freja.Poller.Event.results]⟩
  | move => exact ⟨by simp [Freja.Poller.Event.newcomers], by simp [Freja.Poller.Event.results]⟩
  | relist => exact ⟨by simp [Freja.Poller.Event.newcomers], by simp [Freja.Poller.Event.results]⟩
  | @toldOne _ client call answer reference hclient =>
    refine ⟨by simp [Freja.Poller.Event.newcomers], fun x hx => ?_⟩
    refine ⟨client, hs.providers ▸ hclient, tr, htr, call, answer, hevent, ?_⟩
    cases hq : client.oneResult mode reference with
    | error failure => simp [hq, Freja.Poller.Event.results, Except.bind] at hx
    | ok q =>
      cases hread : q.read answer with
      | error failure => simp [hq, hread, Freja.Poller.Event.results, Except.bind] at hx
      | ok y =>
        have hxy : x = y := by simpa [hq, hread, Freja.Poller.Event.results, Except.bind] using hx
        exact .one hq (hxy ▸ hread)
  | @toldAll _ client call answer hclient =>
    refine ⟨by simp [Freja.Poller.Event.newcomers], fun x hx => ?_⟩
    refine ⟨client, hs.providers ▸ hclient, tr, htr, call, answer, hevent, ?_⟩
    cases hread : (client.allResults mode).read answer with
    | error failure => simp [hread, Freja.Poller.Event.results] at hx
    | ok ys => exact .all hread (by simpa [hread, Freja.Poller.Event.results] using hx)

/-- A step of a poller is honest. -/
theorem HonestPoller.step {pe : Freja.Poller.Event} {p' : Freja.Poller}
    {effects : List Freja.Poller.Effect} (hp : HonestPoller h registry mode p)
    (hstep : Freja.Poller.machine now p pe = some (p', effects))
    (hnew : ∀ g ∈ pe.newcomers, Wanted h mode g.waiter.id g.reference)
    (hresults : ∀ x ∈ pe.results, Told (h ++ [tr]) registry mode x) :
    HonestPoller (h ++ [tr]) registry mode p' ∧
      ∀ m ∈ effects.filterMap (·.mail?), HonestMail (h ++ [tr]) registry m := by
  have hcame : ∀ g ∈ p.pending ++ pe.newcomers, Wanted (h ++ [tr]) mode g.waiter.id g.reference :=
    fun g hg => ((List.mem_append.1 hg).elim (hp.pending g) (hnew g)).later
  refine ⟨⟨Freja.Poller.sound_of_step hp.sound hstep, fun g hg => ?_, fun x hx => ?_⟩,
    fun m hm => ?_⟩
  · obtain ⟨g₀, hg₀, hid, href⟩ := Freja.Poller.pending_of_step hp.sound hstep hg
    rw [hid, href]
    exact hcame g₀ hg₀
  · rcases Freja.Poller.mem_seen_of_step hstep hx with hold | ⟨-, -, hfirst⟩
    · exact (hp.seen x hold).later
    · exact hresults _ (Freja.Poller.firstFinal_spec hfirst).1
  · obtain ⟨effect, heffect, hmail⟩ := List.mem_filterMap.1 hm
    cases effect with
    | registered w =>
      obtain rfl := Option.some.inj hmail
      exact .registered
    | answer w outcome =>
      obtain rfl := Option.some.inj hmail
      cases outcome with
      | error failure => exact .failed
      | ok x =>
        have hx : (w, .ok x) ∈ Freja.Poller.answersOf effects :=
          List.mem_filterMap.2 ⟨_, heffect, rfl⟩
        obtain ⟨hfinal, hsource, g, hg, rfl, href⟩ :=
          Freja.Poller.source_of_step hp.sound hstep hx
        refine .result (href ▸ hcame g hg) hfinal ?_
        rcases hsource with hnow | ⟨seen, hseen, rfl⟩
        · exact hresults x hnow
        · exact (hp.seen seen hseen).later
    | _ => cases hmail

/-- Another job or ending of a visit leaves the pollers alone. -/
theorem poller?_setVisit (s : Service ρ) (i : Nat) (v : Visit ρ) (mode : Order.Mode) :
    (s.setVisit i v).poller? mode = s.poller? mode := by
  cases mode <;> rfl

/-- So does the end of a visit. -/
theorem poller?_forget (s : Service ρ) (i : Nat) (mode : Order.Mode) :
    (s.forget i).poller? mode = s.poller? mode := by
  cases mode <;> rfl

/-- Somebody comes: only his coming registers an order with a poller. -/
theorem Honest.arrive (hs : Honest h registry s) {a : Activity ρ} {readFrom : Nat}
    {givenUp : Bool} (hevent : tr.event = .arrive id a readFrom givenUp) :
    Honest (h ++ [tr]) registry (s.arrive now id a readFrom givenUp) := by
  have hcarries := carries_arrive now s id readFrom a givenUp
  refine hs.posts hcarries.registry (fun mode => ?_) fun m hm => ?_
  · rw [hcarries.poller]
    cases mode <;> rfl
  · rw [hcarries.mail] at hm
    refine (List.mem_append.1 hm).imp_right fun hm => ?_
    obtain ⟨effect, heffect, hmail⟩ := List.mem_filterMap.1 hm
    cases effect with
    | register mode reference =>
      obtain rfl := Option.some.inj hmail
      obtain ⟨read, cancels, cancel, rfl⟩ := Job.register_of_start heffect
      exact .register ⟨tr, List.mem_append_right _ (.head _), read, cancels, cancel, readFrom,
        givenUp, hevent⟩
    | leave mode =>
      obtain rfl := Option.some.inj hmail
      exact .giveUp
    | _ => cases hmail

/-- A job moves: it posts nothing but that its caller gives up. -/
theorem Honest.job (hs : Honest h registry s) {je : Job.Event} {v₀ : Visit ρ} {j j' : Job ρ}
    {effects : List (Job.Effect ρ)} {mail : List Mail}
    (hstep : Job.machine now j je = some (j', effects)) (hsub : mail.Sublist s.mail) :
    Honest (h ++ [tr]) registry ({ s with mail }.moved now id v₀ (j', effects)) := by
  have hcarries : Carries now id ({ s with mail }.setVisit id { v₀ with job := j' }) effects
      ({ s with mail }.moved now id v₀ (j', effects)) := carries_performs effects
  refine hs.posts hcarries.registry (fun mode => ?_) fun m hm => ?_
  · rw [hcarries.poller, poller?_setVisit]
    cases mode <;> rfl
  · rw [hcarries.mail] at hm
    rcases List.mem_append.1 hm with hm | hm
    · exact .inl (hsub.subset hm)
    · obtain ⟨effect, heffect, hmail⟩ := List.mem_filterMap.1 hm
      cases effect with
      | register mode reference => exact absurd heffect (Job.register_of_step hstep)
      | leave mode =>
        obtain rfl := Option.some.inj hmail
        exact .inr .giveUp
      | _ => cases hmail

/-- A poller moves: it posts what it was told. -/
theorem Honest.poller_step (hs : Honest h registry s) {pe : Freja.Poller.Event}
    {p p' : Freja.Poller} {effects : List Freja.Poller.Effect} {mail : List Mail}
    (hpolls : Polls s e mode pe) (hevent : tr.event = e) (hp : s.poller? mode = some p)
    (hstep : Freja.Poller.machine now p pe = some (p', effects))
    (hsub : mail.Sublist s.mail) :
    Honest (h ++ [tr]) registry ({ s with mail }.movedPoller mode (p', effects)) := by
  have hcarries : PollerCarries mode ({ s with mail }.setPoller mode p') effects
      ({ s with mail }.movedPoller mode (p', effects)) := pollerCarries_performs effects
  obtain ⟨hnew, hresults⟩ := hpolls.sources hs hevent
  obtain ⟨hp', hposts⟩ := (hs.poller mode p hp).step hstep hnew hresults
  have hregistry : ({ s with mail }.setPoller mode p').registry = registry := by
    cases mode <;> exact hs.providers
  have hmail : ({ s with mail }.setPoller mode p').mail = mail := by
    cases mode <;> rfl
  refine ⟨hcarries.registry.trans hregistry, fun mode' q hq => ?_, fun m hm => ?_⟩
  · rw [hcarries.poller, poller?_setPoller] at hq
    split at hq
    · next hmode =>
      rw [hmode, ← Option.some.inj hq]
      exact hp'
    · have hold : s.poller? mode' = some q := by
        cases mode' <;> exact hq
      exact (hs.poller mode' q hold).later
  · rw [hcarries.mail, hmail] at hm
    rcases List.mem_append.1 hm with hm | hm
    · exact (hs.mail m (hsub.subset hm)).later
    · exact hposts m hm

/-- The service is told to stop, and so are its pollers. -/
theorem Honest.shutdown (hs : Honest h registry s) : Honest (h ++ [tr]) registry s.shutdown := by
  refine ⟨hs.providers, fun mode p hp => ?_, fun m hm => (hs.mail m hm).later⟩
  have hstopped : (s.poller? mode).map Freja.Poller.shutdown = some p := by
    cases mode <;> exact hp
  obtain ⟨q, hq, rfl⟩ := Option.map_eq_some_iff.1 hstopped
  have hhonest : HonestPoller (h ++ [tr]) registry mode q := (hs.poller mode q hq).later
  have hstep : Freja.Poller.machine tr.time q .shutdown = some (q.shutdown, []) := rfl
  exact ⟨Freja.Poller.sound_of_step hhonest.sound hstep, hhonest.pending, hhonest.seen⟩

/-- **Every step is honest.** -/
theorem Honest.step (hs : Honest h registry s) (hdoes : Does now s e s') (hevent : tr.event = e) :
    Honest (h ++ [tr]) registry s' := by
  have hsame (m : Mail) (hm : m ∈ s.mail) : m ∈ s.mail ∨ HonestMail (h ++ [tr]) registry m :=
    .inl hm
  cases hdoes with
  | arrive => exact hs.arrive hevent
  | job _ _ hstep hsub _ => exact hs.job hstep hsub
  | poller hpolls hp hstep _ hsub => exact hs.poller_step hpolls hevent hp hstep hsub
  | shutdown => exact hs.shutdown
  | forget _ _ => exact hs.posts rfl (poller?_forget s _) hsame
  | read _ _ => exact hs.posts rfl (poller?_setVisit s _ _) hsame
  | take htaken =>
    rcases take_cases htaken with ⟨v, v', -, rfl, -⟩ | ⟨v, -, rfl, -⟩
    · exact hs.posts rfl (poller?_setVisit s _ _) hsame
    · exact hs.posts rfl (poller?_forget s _) hsame
  | quiet hsub _ =>
    exact hs.posts rfl (fun mode => by cases mode <;> rfl) fun m hm => .inl (hsub.subset hm)

/-- The service is honest after every run. -/
theorem honest_of_runs {t₀ : Nat} (run : Runs t₀ registry h now s) : Honest h registry s := by
  induction run with
  | start => exact honest_start t₀ registry
  | @next h t now s _ e sent _ _ _ hstep ih =>
    obtain ⟨s', hreact, rfl, rfl⟩ := react_of_machine hstep
    have hnext : Honest (h ++ [⟨now, s, e, { s' with outbox := [] }, s'.outbox⟩]) registry s' :=
      ih.step (does_of_react hreact) rfl
    exact ⟨hnext.providers, fun mode p hp => hnext.poller mode p (by cases mode <;> exact hp),
      hnext.mail⟩

/-- **What a caller is told of by a poller** is a final result of the order for which he came, which
Freja told the poller before. -/
theorem result_of_mail {t₀ : Nat} {past later : History ρ}
    {told : Transition (Service ρ) (Event ρ) Outgoing}
    (run : Runs t₀ registry (past ++ told :: later) now s) (htr : tr ∈ past ++ told :: later)
    {read : Except Failure Freja.Result → ρ} {cancels : Bool} {cancel : Option Call}
    {readFrom : Nat} {givenUp : Bool}
    (harrive : tr.event =
      .arrive id (.collect mode reference read cancels cancel) readFrom givenUp)
    (hmail : .polled id (.ok x) ∈ told.before.mail) :
    x.reference = reference ∧ x.status.isFinal = true ∧ Told past registry mode x := by
  obtain ⟨t, hpast, -⟩ := run.split
  cases (honest_of_runs hpast).mail _ hmail with
  | result hw hfinal htold =>
    obtain ⟨tr', htr', read', cancels', cancel', readFrom', givenUp', hevent⟩ := hw
    obtain rfl := arrival_unique run htr (List.mem_append_left _ htr') harrive hevent
    rw [harrive] at hevent
    injection hevent with _ hactivity
    injection hactivity with hmode href
    exact ⟨href.symm, hfinal, hmode ▸ htold⟩

end

end Service

end OrderBroker
