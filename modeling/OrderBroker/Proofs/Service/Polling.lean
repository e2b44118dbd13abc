import OrderBroker.Proofs.Poller.Rounds
import OrderBroker.Proofs.Service.Bounds
import OrderBroker.Proofs.Service.Results

/-!
# What is asked and refused on behalf of a visit

Requests are made for a visit by its own job, and by a poller that it waits with (`SentFor`). Those
of a poller are about the order for which the caller came, or about no order in particular
(`sentFor_of_runs`).

A failure that a poller posts to a caller has one of two reasons: the poller has stopped, or Freja,
asked for the caller's order, does not know it (`failure_of_mail`).
-/

namespace OrderBroker

namespace Freja.Poller

/-! ## Questions of a poller -/

/-- What a poller is asking now. -/
def question? (p : Poller) : Option Effect :=
  match p.phase with
  | .single reference _ => some (.askOne reference)
  | .bulk => some .askAll
  | _ => none

/-- The question that a poller asks now is about the order, or about all orders. -/
def AsksFor (p : Poller) (reference : String) : Prop :=
  p.question? = some (.askOne reference) ∨ p.question? = some .askAll

section
variable {p p' : Poller} {now : Nat} {e : Event} {effects : List Effect} {effect : Effect}

/-- The next question of a round is asked now. -/
theorem question?_askNext {references : List String}
    (h : effect ∈ (p.askNext now references).2) :
    (p.askNext now references).1.question? = some effect := by
  cases references with
  | nil => cases h
  | cons reference later => rw [List.mem_singleton.1 h]; rfl

/-- So is the first. -/
theorem question?_startRound (h : effect ∈ (p.startRound now).2) :
    (p.startRound now).1.question? = some effect := by
  unfold startRound at h ⊢
  split at h
  · next hfew =>
    rw [if_pos hfew]
    exact question?_askNext h
  · next hmany =>
    rw [if_neg hmany, List.mem_singleton.1 h]
    rfl

/-- **What a step asks** is what the poller asks afterwards. -/
theorem question?_of_step (hstep : machine now p e = some (p', effects)) (h : effect ∈ effects)
    (hasks : effect.asks = true) : p'.question? = some effect := by
  have hno {P : Prop} (hquiet : effect.asks = false) : P := by
    rw [hquiet] at hasks
    cases hasks
  cases does_of_step hstep with
  | register w r =>
    unfold register at h
    split at h
    · exact hno (List.mem_singleton.1 h ▸ rfl)
    · split at h
      · exact hno (List.mem_singleton.1 h ▸ rfl)
      · cases h
  | @move m hm =>
    cases m with
    | stop => exact hno (asks_answerAll h)
    | round => exact question?_startRound h
    | accept =>
      simp only [make, acceptNext] at h ⊢
      split at h
      · rcases List.mem_append.1 h with h | h
        · exact hno (asks_fillQueue h)
        · unfold accept at h ⊢
          split at h
          · exact hno (asks_answerAll h)
          · exact question?_startRound h
      · cases h
  | toldOne answer hphase =>
    rw [answeredOne_eq now hphase] at h ⊢
    rcases List.mem_append.1 h with h | h
    · refine hno ?_
      cases answer with
      | ok x => exact asks_process h
      | error failure =>
        simp only [takeOne] at h
        split at h
        · exact asks_answerAll h
        · cases h
    · exact question?_askNext h
  | toldAll answer hphase =>
    simp only [answeredAll, hphase] at h ⊢
    cases answer with
    | ok xs => exact hno (asks_processAll h)
    | error failure => cases h
  | _ => cases h

end

end Freja.Poller

namespace Service

variable {ρ : Type}

/-! ## What a step posts and asks -/

section
variable {s s' : Service ρ} {now id : Nat} {e : Event ρ} {mode : Order.Mode}

/-- Only a poller tells a result or a failure. -/
theorem polled_of_does (hdoes : Does now s e s') {outcome : Except Failure Freja.Result}
    (hm : .polled id outcome ∈ s'.mail) :
    .polled id outcome ∈ s.mail ∨ ∃ mode pe p p' effects, Polls s e mode pe ∧
      s.poller? mode = some p ∧ Freja.Poller.machine now p pe = some (p', effects) ∧
      .answer id outcome ∈ effects := by
  have hjob {effects : List (Job.Effect ρ)} {i : Nat} :
      .polled id outcome ∉ effects.filterMap (·.mail? i) := by
    intro hmem
    obtain ⟨effect, -, hmail⟩ := List.mem_filterMap.1 hmem
    cases effect with
    | register => cases hmail
    | leave => cases hmail
    | _ => cases hmail
  cases hdoes with
  | @arrive i readFrom a givenUp =>
    rw [(carries_arrive now s i readFrom a givenUp).mail] at hm
    exact .inl ((List.mem_append.1 hm).resolve_right hjob)
  | @job _ i je v v₀ j effects mail _ _ _ hsub _ =>
    have hcarries : Carries now i ({ s with mail }.setVisit i { v₀ with job := j }) effects
        ({ s with mail }.moved now i v₀ (j, effects)) := carries_performs effects
    rw [hcarries.mail] at hm
    exact .inl (hsub.subset ((List.mem_append.1 hm).resolve_right hjob))
  | @poller _ mode pe p p' effects mail hpolls hp hstep _ hsub =>
    have hcarries : PollerCarries mode ({ s with mail }.setPoller mode p') effects
        ({ s with mail }.movedPoller mode (p', effects)) := pollerCarries_performs effects
    have hsame : ({ s with mail }.setPoller mode p').mail = mail := by
      cases mode <;> rfl
    rw [hcarries.mail, hsame] at hm
    rcases List.mem_append.1 hm with hm | hm
    · exact .inl (hsub.subset hm)
    · obtain ⟨effect, heffect, hmail⟩ := List.mem_filterMap.1 hm
      refine .inr ⟨mode, pe, p, p', effects, hpolls, hp, hstep, ?_⟩
      cases effect with
      | answer w outcome' =>
        obtain ⟨rfl, rfl⟩ := Mail.polled.inj (Option.some.inj hmail)
        exact heffect
      | _ => cases hmail
  | shutdown => exact .inl hm
  | forget => exact .inl hm
  | read => exact .inl hm
  | take htaken =>
    rcases take_cases htaken with ⟨v, v', -, rfl, -⟩ | ⟨v, -, rfl, -⟩ <;> exact .inl hm
  | quiet hsub _ => exact .inl (hsub.subset hm)

/-- The request that a poller's effect sends. -/
def questionCall? (client : Freja.Client) (mode : Order.Mode) : Freja.Poller.Effect → Option Call
  | .askOne reference => (client.oneResult mode reference).toOption.map (·.call)
  | .askAll => some (client.allResults mode).call
  | _ => none

/-- Only questions are requests. -/
theorem asks_of_questionCall? {client : Freja.Client} {effect : Freja.Poller.Effect} {call : Call}
    (h : questionCall? client mode effect = some call) : effect.asks = true := by
  cases effect with
  | askOne reference => rfl
  | askAll => rfl
  | _ => cases h

/-- What the effects of a poller send. -/
theorem outbox_performPollers (effects : List Freja.Poller.Effect) {o : Outgoing}
    (ho : o ∈ (effects.foldl (performPoller mode) s).outbox) :
    o ∈ s.outbox ∨ ∃ client, s.registry.freja = some client ∧
      ∃ effect ∈ effects, questionCall? client mode effect = some o.call := by
  induction effects generalizing s with
  | nil => exact .inl ho
  | cons effect rest ih =>
    have hregistry : (s.performPoller mode effect).registry = s.registry :=
      (pollerCarries_performPoller effect).registry
    rcases ih ho with ho | ⟨client, hclient, later, hlater, hcall⟩
    · have hsend {client : Freja.Client} (hclient : s.registry.freja = some client) {call : Call}
          (hcall : questionCall? client mode effect = some call)
          (ho : o ∈ (s.send (some (.poller mode)) call).outbox) :
          o ∈ s.outbox ∨ ∃ client, s.registry.freja = some client ∧
            ∃ effect' ∈ effect :: rest, questionCall? client mode effect' = some o.call := by
        rcases List.mem_append.1 ho with ho | ho
        · exact .inl ho
        · obtain rfl := List.mem_singleton.1 ho
          exact .inr ⟨client, hclient, effect, .head _, hcall⟩
      cases effect with
      | askOne reference =>
        simp only [performPoller] at ho
        split at ho
        · next client hclient =>
          split at ho
          · next x hx => exact hsend hclient (by rw [questionCall?, hx]; rfl) ho
          · exact .inl ho
        · exact .inl ho
      | askAll =>
        simp only [performPoller] at ho
        split at ho
        · next client hclient => exact hsend hclient rfl ho
        · exact .inl ho
      | registered w => exact .inl ho
      | answer w outcome => exact .inl ho
    · exact .inr ⟨client, hregistry ▸ hclient, later, .tail _ hlater, hcall⟩

/-- What is sent for a poller is what it asks afterwards. -/
theorem asked_of_does (hdoes : Does now s e s') (houtbox : s.outbox = []) {o : Outgoing}
    (ho : o ∈ s'.outbox) (haddressee : o.addressee = some (.poller mode)) :
    ∃ client p effect, s.registry.freja = some client ∧ s'.poller? mode = some p ∧
      p.question? = some effect ∧ questionCall? client mode effect = some o.call := by
  have hjob (effects : List (Job.Effect ρ)) (i : Nat)
      (hmem : o ∈ effects.filterMap (·.request? i)) : False := by
    obtain ⟨effect, -, hrequest⟩ := List.mem_filterMap.1 hmem
    cases effect with
    | send slot call =>
      rw [← Option.some.inj hrequest] at haddressee
      cases haddressee
    | sendAway call =>
      rw [← Option.some.inj hrequest] at haddressee
      cases haddressee
    | _ => cases hrequest
  have hnobody (hsame : s'.outbox = s.outbox) : False := by
    rw [hsame, houtbox] at ho
    cases ho
  cases hdoes with
  | @arrive i readFrom a givenUp =>
    rw [(carries_arrive now s i readFrom a givenUp).outbox] at ho
    refine (hjob (Job.start now givenUp a).2 i ?_).elim
    simpa [houtbox] using ho
  | @job _ i je v v₀ j effects mail _ _ _ _ _ =>
    have hcarries : Carries now i ({ s with mail }.setVisit i { v₀ with job := j }) effects
        ({ s with mail }.moved now i v₀ (j, effects)) := carries_performs effects
    rw [hcarries.outbox] at ho
    refine (hjob effects i ?_).elim
    simpa [setVisit, houtbox] using ho
  | @poller _ mode' pe p p' effects mail hpolls hp hstep _ _ =>
    have hcarries : PollerCarries mode' ({ s with mail }.setPoller mode' p') effects
        ({ s with mail }.movedPoller mode' (p', effects)) := pollerCarries_performs effects
    have hempty : ({ s with mail }.setPoller mode' p').outbox = [] := by
      cases mode' <;> exact houtbox
    have hregistry : ({ s with mail }.setPoller mode' p').registry = s.registry := by
      cases mode' <;> rfl
    obtain ⟨sent, hout, hsent⟩ := hcarries.outbox
    have hmode : mode = mode' := by
      rw [hout, hempty, List.nil_append] at ho
      have heq := (hsent o ho).symm.trans haddressee
      injection heq with heq
      injection heq with heq
      exact heq.symm
    subst hmode
    rcases outbox_performPollers effects ho with ho | ⟨client, hclient, effect, heffect, hcall⟩
    · rw [hempty] at ho
      cases ho
    · refine ⟨client, p', effect, hregistry ▸ hclient, ?_,
        Freja.Poller.question?_of_step hstep heffect (asks_of_questionCall? hcall), hcall⟩
      rw [hcarries.poller, poller?_setPoller, if_pos rfl]
  | take htaken =>
    rcases take_cases htaken with ⟨v, v', -, rfl, -⟩ | ⟨v, -, rfl, -⟩
    · exact (hnobody rfl).elim
    · exact (hnobody rfl).elim
  | _ => exact (hnobody rfl).elim

end

/-! ## Requests that are made for a visit -/

section
variable {h : History ρ} {t₀ now id : Nat} {registry : Registry} {s : Service ρ} {call : Call}

/-- The request is made for the visit: by its job, or by a poller that asks for the order under which
the visit stands in its table, or for all orders. -/
inductive SentFor (h : History ρ) (id : Nat) : Call → Prop
  | job {o : Outgoing} : o ∈ sentBy h id → SentFor h id o.call
  | poller {tr : Transition (Service ρ) (Event ρ) Outgoing} {o : Outgoing} {mode : Order.Mode}
      {p : Freja.Poller} {g : Freja.Poller.Registration} : tr ∈ h → o ∈ tr.effects →
      o.addressee = some (.poller mode) → tr.after.poller? mode = some p → g ∈ p.held →
      g.waiter.id = id → p.AsksFor g.reference → SentFor h id o.call

/-- The request of a poller that somebody waits with for an order. -/
inductive Polling (client : Freja.Client) (mode : Order.Mode) (reference : String) : Call → Prop
  | one {x : Exchange Freja.Result} : client.oneResult mode reference = .ok x →
      Polling client mode reference x.call
  | all : Polling client mode reference (client.allResults mode).call

/-- **What is asked for a visit** stands in its activity, or is what its poller asks about the order
for which the caller came, or about all orders. -/
theorem sentFor_of_runs (run : Runs t₀ registry h now s)
    {tr : Transition (Service ρ) (Event ρ) Outgoing} (htr : tr ∈ h) {a : Activity ρ}
    {readFrom : Nat} {givenUp : Bool} (harrive : tr.event = .arrive id a readFrom givenUp)
    (hsent : SentFor h id call) :
    a.Holds call ∨ ∃ mode reference read cancels cancel client,
      a = .collect mode reference read cancels cancel ∧ registry.freja = some client ∧
        Polling client mode reference call := by
  cases hsent with
  | job ho => exact .inl (holds_of_runs run htr harrive ho)
  | @poller tr' o mode p g htr' ho haddressee hp hg hid hasks =>
    refine .inr ?_
    obtain ⟨past, later, t, rfl, hpast, ht, hmay, hstep⟩ := run.of_mem htr'
    obtain ⟨s', hreact, hafter, heffects⟩ := react_of_machine hstep
    -- The visit stands in the table because somebody came for the order under its number.
    have hhonest := honest_of_runs (hpast.next ht hmay hstep)
    obtain ⟨tr'', htr'', read, cancels, cancel, readFrom', givenUp', hevent⟩ :=
      (hhonest.poller mode p hp).pending g (List.mem_append_right _ hg)
    have hcame : tr'' ∈ past ++ tr' :: later := by
      rw [List.append_cons]
      exact List.mem_append_left _ htr''
    rw [hid] at hevent
    obtain rfl := arrival_unique run htr hcame harrive hevent
    rw [harrive] at hevent
    injection hevent with _ hactivity
    -- What was sent is the question that the poller asks.
    rw [← heffects] at ho
    obtain ⟨client, q, effect, hclient, hq, hquestion, hcall⟩ :=
      asked_of_does (does_of_react hreact) (outbox_of_runs hpast) ho haddressee
    have hsame : tr'.after.poller? mode = s'.poller? mode := by
      rw [← hafter]
      cases mode <;> rfl
    obtain rfl : p = q := Option.some.inj (hp.symm.trans (hsame.trans hq))
    refine ⟨mode, g.reference, read, cancels, cancel, client, hactivity,
      (honest_of_runs hpast).providers ▸ hclient, ?_⟩
    rcases hasks with hone | hall
    · obtain rfl := Option.some.inj (hquestion.symm.trans hone)
      obtain ⟨x, hx, hcall⟩ := Option.map_eq_some_iff.1 hcall
      cases hresult : client.oneResult mode g.reference with
      | error failure =>
        rw [hresult] at hx
        cases hx
      | ok y =>
        rw [hresult] at hx
        rw [← hcall, ← Option.some.inj hx]
        exact .one hresult
    · obtain rfl := Option.some.inj (hquestion.symm.trans hall)
      rw [← Option.some.inj hcall]
      exact .all

end

/-! ## Failures that pollers tell -/

section
variable {h : History ρ} {t₀ now id : Nat} {registry : Registry} {s : Service ρ}
  {failure : Failure} {mode : Order.Mode} {reference : String}

/-- Freja said, asked for the order by the poller, that it does not know it. -/
structure Denied (h : History ρ) (registry : Registry) (mode : Order.Mode) (reference : String)
    (failure : Failure) : Prop where
  unknown : Freja.Poller.saysUnknown failure = true
  said : ∃ client x, registry.freja = some client ∧ client.oneResult mode reference = .ok x ∧
    ∃ tr ∈ h, ∃ call answer p, tr.event = .reply ⟨some (.poller mode), call⟩ answer ∧
      tr.before.poller? mode = some p ∧ p.question? = some (.askOne reference) ∧
      x.read answer = .error failure

/-- What was said was said. -/
theorem Denied.later (hd : Denied h registry mode reference failure) {later : History ρ} :
    Denied (h ++ later) registry mode reference failure := by
  obtain ⟨hunknown, client, x, hclient, hx, tr, htr, hreply⟩ := hd
  exact ⟨hunknown, client, x, hclient, hx, tr, List.mem_append_left _ htr, hreply⟩

/-- Why a poller tells somebody that there will be no result. -/
def Excused (h : History ρ) (registry : Registry) (id : Nat) (failure : Failure) : Prop :=
  failure = .at .freja .pollerStopped ∨
    ∃ mode reference, Wanted h mode id reference ∧ Denied h registry mode reference failure

/-- A reason remains one. -/
theorem Excused.later (he : Excused h registry id failure) (later : History ρ) :
    Excused (h ++ later) registry id failure := by
  rcases he with hstopped | ⟨mode, reference, ⟨tr, htr, hcame⟩, hdenied⟩
  · exact .inl hstopped
  · exact .inr ⟨mode, reference, ⟨tr, List.mem_append_left _ htr, hcame⟩, hdenied.later⟩

/-- A poller tells a failure for one of these reasons. -/
theorem excused_of_step {tr : Transition (Service ρ) (Event ρ) Outgoing}
    {pe : Freja.Poller.Event} {p p' : Freja.Poller} {effects : List Freja.Poller.Effect}
    (hs : Honest h registry s) (hbefore : tr.before = s) (hpolls : Polls s tr.event mode pe)
    (hp : s.poller? mode = some p)
    (hstep : Freja.Poller.machine tr.time p pe = some (p', effects))
    (hanswer : .answer id (.error failure) ∈ effects) :
    Excused (h ++ [tr]) registry id failure := by
  have hhonest := hs.poller mode p hp
  have hmem : (id, .error failure) ∈ Freja.Poller.answersOf effects :=
    List.mem_filterMap.2 ⟨_, hanswer, rfl⟩
  have hstays : ∀ w, pe ≠ .giveUp w := by
    rintro w rfl
    rw [show effects = [] from congrArg Prod.snd (Option.some.inj hstep).symm] at hanswer
    cases hanswer
  obtain ⟨g, hg, -, hid, htold⟩ :=
    (Freja.Poller.moves_of_step hhonest.sound hstep hstays).settles.answered hmem
  simp only at hid htold
  generalize houtcome : (Except.error failure : Except Failure Freja.Result) = outcome at htold
  cases htold with
  | result => cases houtcome
  | remembered => cases houtcome
  | stop => exact .inl (Except.error.inj houtcome)
  | late => exact .inl (Except.error.inj houtcome)
  | unknown hheld hevent hunknown =>
    obtain rfl := Except.error.inj houtcome
    subst hevent
    have hwanted : Wanted h mode id g.reference :=
      hid ▸ hhonest.pending g (List.mem_append_right _ hheld)
    refine .inr ⟨mode, g.reference, hwanted.later, hunknown, ?_⟩
    generalize hevent : tr.event = e at hpolls
    generalize hpe : Freja.Poller.Event.toldOne g.reference (.error failure) = pe at hpolls
    cases hpolls with
    | @toldOne _ client call answer asked hclient =>
      injection hpe with hasked hread
      subst hasked
      cases hx : client.oneResult mode g.reference with
      | error cause =>
        -- A request that may not be sent is no word of Freja's.
        rw [hx] at hread
        obtain rfl : failure = cause := Except.error.inj hread
        unfold Freja.Client.oneResult Freja.Client.orderName at hx
        split at hx
        · obtain rfl := Except.error.inj hx
          cases hunknown
        · cases hx
      | ok x =>
        rw [hx] at hread
        refine ⟨client, x, hs.providers ▸ hclient, hx, tr, List.mem_append_right _ (.head _), call,
          answer, p, hevent, hbefore ▸ hp, ?_, hread.symm⟩
        cases Freja.Poller.does_of_step hstep with
        | toldOne _ hphase => rw [Freja.Poller.question?, hphase]
    | _ => cases hpe

/-- **A failure that is under way to a caller** has one of these reasons. -/
theorem excused_of_runs (run : Runs t₀ registry h now s)
    (hm : .polled id (.error failure) ∈ s.mail) : Excused h registry id failure := by
  induction run with
  | start => simp [Service.start] at hm
  | @next h t now s s₁ e sent run _ _ hstep ih =>
    obtain ⟨s', hreact, rfl, rfl⟩ := react_of_machine hstep
    rcases polled_of_does (does_of_react hreact) hm with
      hold | ⟨mode, pe, p, p', effects, hpolls, hp, hpstep, hanswer⟩
    · exact (ih hold).later _
    · exact excused_of_step (honest_of_runs run) rfl hpolls hp hpstep hanswer

/-- **A failure that a caller is told by a poller**: the poller has stopped, or Freja does not know
the order for which he came. -/
theorem failure_of_mail {past later : History ρ}
    {told tr : Transition (Service ρ) (Event ρ) Outgoing}
    (run : Runs t₀ registry (past ++ told :: later) now s) (htr : tr ∈ past ++ told :: later)
    {read : Except Failure Freja.Result → ρ} {cancels : Bool} {cancel : Option Call}
    {readFrom : Nat} {givenUp : Bool}
    (harrive : tr.event =
      .arrive id (.collect mode reference read cancels cancel) readFrom givenUp)
    (hmail : .polled id (.error failure) ∈ told.before.mail) :
    failure = .at .freja .pollerStopped ∨ Denied past registry mode reference failure := by
  obtain ⟨t, hpast, -⟩ := run.split
  refine (excused_of_runs hpast hmail).imp_right ?_
  rintro ⟨mode', reference', ⟨tr', htr', read', cancels', cancel', readFrom', givenUp', hevent⟩,
    hdenied⟩
  obtain rfl := arrival_unique run htr (List.mem_append_left _ htr') harrive hevent
  rw [harrive] at hevent
  injection hevent with _ hactivity
  injection hactivity with hmode href
  exact hmode ▸ href ▸ hdenied

/-! ## Callers who do not give up -/

/-- A caller gives up where he says so. -/
theorem giveUp_of_job {e : Event ρ} (h : e.job? s = some (id, .giveUp)) : e = .giveUp id := by
  cases e with
  | giveUp i =>
    obtain ⟨rfl, -⟩ := Prod.mk.inj (Option.some.inj h)
    rfl
  | reply o answer =>
    obtain ⟨addressee, call⟩ := o
    rcases addressee with _ | ⟨i, slot⟩ | mode <;> simp [Event.job?] at h
  | deliver n =>
    simp only [Event.job?] at h
    split at h <;> simp at h
  | leave i =>
    simp only [Event.job?] at h
    split at h <;> simp at h
  | _ => cases h

/-- **A caller who does not give up** stays within the bounds of his activity, if they allow the
answers that come to it, the results of the pollers, and the reasons why there is none. -/
theorem held_of_patient {b : Job.Bounds ρ} (run : Runs t₀ registry h now s)
    {tr : Transition (Service ρ) (Event ρ) Outgoing} (htr : tr ∈ h) {a : Activity ρ}
    {readFrom : Nat} (harrive : tr.event = .arrive id a readFrom false)
    (hstays : ∀ tr' ∈ h, tr'.event ≠ .giveUp id) (ha : a.Within b)
    (hhears : ∀ tr' ∈ h, ∀ slot call answer,
      tr'.event = .reply ⟨some (.job id slot), call⟩ answer → b.hears answer)
    (hresults : ∀ x, b.learns (.ok x))
    (hlearns : ∀ failure, Excused h registry id failure → b.learns (.error failure)) :
    Held b h id := by
  constructor
  · intro tr' htr' a' readFrom' givenUp' harrive'
    obtain rfl := arrival_unique run htr htr' harrive harrive'
    rw [harrive] at harrive'
    injection harrive' with _ hsame _ hgiven
    exact ⟨hsame ▸ ha, fun heq => by rw [← hgiven] at heq; cases heq⟩
  · intro tr' htr' je hje
    cases je with
    | answered slot answer =>
      obtain ⟨call, hevent⟩ := reply_of_answered hje
      exact hhears tr' htr' slot call answer hevent
    | polled outcome =>
      cases outcome with
      | ok x => exact hresults x
      | error failure =>
        obtain ⟨n, -, hmail⟩ := deliver_of_polled hje
        obtain ⟨past, later, t, rfl, hpast, -⟩ := run.of_mem htr'
        exact hlearns failure ((excused_of_runs hpast (List.mem_of_getElem? hmail)).later _)
    | giveUp => exact absurd (giveUp_of_job hje) (hstays tr' htr')
    | _ => trivial

end

end Service

end OrderBroker
