import OrderBroker.Proofs.Freja.Modes
import OrderBroker.Proofs.Inquiry
import OrderBroker.Proofs.Job.Guard
import OrderBroker.Proofs.Service.Results

/-!
# Cancelling abandoned orders

Whoever waits for an order may wish that it is cancelled when the wait fails. The order is then
cancelled once, if the wait has ended in whatever way without a reply that it waits for, and not
otherwise; and nobody learns what becomes of the cancelling (`cancelled_once`).
-/

namespace OrderBroker

open OrderBroker.Order (Handle Outcome)

/-! ## Replies that a wait waits for -/

/-- Among the replies there is one that qualifies: the order is over or, where changes are waited
for, stands elsewhere than at first. -/
def Qualifying {α β : Type} (isOver : α → Bool) (substate : α → β) (changes : Bool)
    (replies : List α) : Prop :=
  ∃ r ∈ replies, isOver r = true ∨
    changes = true ∧ ∃ first, replies.head? = some first ∧ substate first ≠ substate r

/-- What the answers say that can be read. -/
def readable {α : Type} (read : Answer → Except Failure α) (answers : List Answer) : List α :=
  answers.filterMap fun answer => (read answer).toOption

namespace Inquiry

variable {ρ : Type}

/-- An abandoned order is cancelled. -/
def cancelsOnError : Inquiry → Bool
  | .peek => false
  | .collect cancelOnError => cancelOnError
  | .change cancelOnError => cancelOnError

/-- A change of the order is waited for. -/
def waitsForChange : Inquiry → Bool
  | .change _ => true
  | _ => false

/-- The job of an inquiry has observed a reply that it waits for. Collecting an order of Freja's, it
observes what the poller tells; otherwise the answers to its own question. -/
def Observed (q : Inquiry) (handle : Handle) (h : Job.History ρ) : ProviderClient → Prop
  | .bankId client =>
    Qualifying (·.status.isFinished) (·.hintCode) q.waitsForChange
      (readable (Job.readProgress client handle.reference) (Job.taken h))
  | .freja client =>
    match q with
    | .collect _ =>
      ∃ r ∈ Job.results h, r.status.isFinal = true ∧ r.reference = handle.reference
    | q =>
      Qualifying (·.status.isFinal) (·.status) q.waitsForChange
        (readable (fun answer =>
          (client.oneResult handle.mode handle.reference).bind (·.read answer)) (Job.taken h))

end Inquiry

/-- The request that cancels an order at the provider: at Freja one of the order's mode, with the
document in base64. -/
def ProviderClient.cancelCall (handle : Handle) : ProviderClient → Call
  | .bankId client => {
      vendor := .bankId, method := .post, url := client.baseUrl ++ "/rp/v6.0/cancel"
      contentType := "application/json"
      body := (Json.object [("orderRef", .string handle.reference)]).render }
  | .freja client =>
    let order : Json := .object [(Freja.modeKey handle.mode, .string handle.reference)]
    { vendor := .freja, method := .post
      url := client.baseUrl ++ (Freja.modePath handle.mode ++ "/cancel")
      contentType := "text"
      body := Freja.cancelName handle.mode ++ "=" ++
        Base64.standard.encode order.render.toUTF8 }

namespace Job

variable {α ρ σ : Type}

section
variable {rule : Wait.Rule ρ} {f : ρ → σ}

/-- A wait decides alike for another caller. -/
theorem decided_map (sightings : List (Sighting ρ)) :
    Wait.Decided (Activity.mapRule f rule) (sightings.map (Activity.mapSighting f)) ↔
      Wait.Decided rule sightings := by
  simp only [Wait.Decided, List.mem_map, List.head?_map, Option.map_eq_some_iff]
  constructor
  · rintro ⟨_, ⟨s, hs, rfl⟩, hover | ⟨hchange, _, ⟨first, hfirst, rfl⟩, hne⟩⟩
    · exact ⟨s, hs, .inl hover⟩
    · exact ⟨s, hs, .inr ⟨hchange, first, hfirst, hne⟩⟩
  · rintro ⟨s, hs, hover | ⟨hchange, first, hfirst, hne⟩⟩
    · exact ⟨_, ⟨s, hs, rfl⟩, .inl hover⟩
    · exact ⟨_, ⟨s, hs, rfl⟩, .inr ⟨hchange, _, ⟨first, hfirst, rfl⟩, hne⟩⟩

end

section
variable {rule : Wait.Rule (Except Failure α)} {f : Except Failure α → σ} {h : History σ}
  {t₀ now : Nat} {givenUp : Bool} {j : Job σ} {x : Exchange ρ} {cancel : Exchange Unit}
  {sight : ρ → Sighting (Except Failure α)}

/-- Sightings decide where replies qualify. -/
theorem decided_iff {β : Type} {isOver : ρ → Bool} {substate : ρ → β}
    (hover : ∀ r, (sight r).isOver = isOver r)
    (hsubstate : ∀ r r', (sight r).substate = (sight r').substate ↔ substate r = substate r')
    (replies : List ρ) :
    Wait.Decided rule (replies.map sight) ↔
      Qualifying isOver substate rule.endsOnChange replies := by
  simp only [Wait.Decided, Qualifying, List.mem_map, List.head?_map, Option.map_eq_some_iff]
  constructor
  · rintro ⟨_, ⟨r, hr, rfl⟩, hends | ⟨hchange, _, ⟨first, hfirst, rfl⟩, hne⟩⟩
    · exact ⟨r, hr, .inl (hover r ▸ hends)⟩
    · exact ⟨r, hr, .inr ⟨hchange, first, hfirst, fun heq => hne ((hsubstate _ _).2 heq)⟩⟩
  · rintro ⟨r, hr, hends | ⟨hchange, first, hfirst, hne⟩⟩
    · exact ⟨_, ⟨r, hr, rfl⟩, .inl ((hover r).trans hends)⟩
    · exact ⟨_, ⟨r, hr, rfl⟩, .inr ⟨hchange, _, ⟨first, hfirst, rfl⟩,
        fun heq => hne ((hsubstate _ _).1 heq)⟩⟩

/-- **Polling cancels its order** once, if the caller wishes so and polling has ended without a
reply that qualifies, and otherwise never. -/
theorem polling_cancels {β : Type} (isOver : ρ → Bool) (substate : ρ → β)
    (hover : ∀ r, (sight r).isOver = isOver r)
    (hsubstate : ∀ r r', (sight r).substate = (sight r').substate ↔ substate r = substate r')
    (run : Runs t₀ givenUp ((Activity.polling rule (.ok x) sight (.ok cancel)).map f) h now j) :
    Cancels (doings t₀ givenUp ((Activity.polling rule (.ok x) sight (.ok cancel)).map f) h)
      cancel.call (rule.cancelsAbandoned = true ∧
        Ended h (doings t₀ givenUp
          ((Activity.polling rule (.ok x) sight (.ok cancel)).map f) h) ∧
        ¬ Qualifying isOver substate rule.endsOnChange (readable x.read (taken h))) := by
  have hdecided {read : Answer → Except σ (Sighting σ)}
      (hread : ∀ answer, (read answer).toOption =
        (x.read answer).toOption.map fun r => Activity.mapSighting f (sight r)) :
      Wait.Decided (Activity.mapRule f rule) (shown read h) ↔
        Qualifying isOver substate rule.endsOnChange (readable x.read (taken h)) := by
    have hshown : shown read h =
        ((readable x.read (taken h)).map sight).map (Activity.mapSighting f) := by
      rw [shown, readable, List.map_map, List.map_filterMap]
      exact List.filterMap_congr fun answer _ => hread answer
    rw [hshown, decided_map, decided_iff hover hsubstate]
  have hcancels := wait_cancels run rfl
  rw [hdecided] at hcancels
  · exact hcancels
  · intro answer
    cases hread : x.read answer <;> simp [hread] <;> rfl

end

end Job

/-! ## Both providers -/

namespace Inquiry

variable {ρ : Type}

section
variable {q : Inquiry} {handle : Handle} {f : Except Failure Outcome → ρ} {h : Job.History ρ}
  {t₀ now : Nat} {givenUp : Bool} {j : Job ρ} {p : ProviderClient} {call : Call}

/-- An address is no other of another length. -/
theorem url_ne {base path path' : String} (hlength : path.length ≠ path'.length) :
    base ++ path ≠ base ++ path' := by
  intro heq
  have hlengths := congrArg String.length heq
  rw [String.length_append, String.length_append] at hlengths
  omega

/-- A question is no cancelling. -/
theorem question_ne_cancelCall (hquestion : (p.inquire q handle).question? = some call) :
    call ≠ p.cancelCall handle := by
  cases p with
  | bankId client =>
    by_cases href : handle.reference = ""
    · have hnone : ((ProviderClient.bankId client).inquire q handle).question? = none := by
        cases q <;>
          simp [ProviderClient.inquire, BankId.Client.peekOrder, BankId.Client.collectOrder,
            BankId.Client.collectWith, BankId.Client.changeOrder, BankId.Client.changeWith,
            BankId.Client.collectOnce, href, Activity.ofExchange, Activity.polling, Activity.map,
            Activity.question?]
      rw [hnone] at hquestion
      cases hquestion
    · rw [bankId_question (if_neg href)] at hquestion
      injection hquestion with hcall
      subst hcall
      intro heq
      exact url_ne (by decide) (congrArg Call.url heq)
  | freja client =>
    cases hx : client.oneResult handle.mode handle.reference with
    | error failure =>
      cases q with
      | collect cancelOnError => cases hquestion
      | _ =>
        simp [ProviderClient.inquire, Freja.Client.peekOrder, Freja.Client.changeOrder, hx,
          Activity.ofExchange, Activity.polling, Activity.map, Activity.question?] at hquestion
    | ok x =>
      by_cases hdirect : ∃ cancelOnError, q = .collect cancelOnError
      · obtain ⟨cancelOnError, rfl⟩ := hdirect
        cases hquestion
      · rw [freja_question hx fun c hq => hdirect ⟨c, hq⟩] at hquestion
        injection hquestion with hcall
        subst hcall
        obtain ⟨name, -, rfl⟩ : ∃ name, Freja.Client.orderName handle.mode handle.reference =
            .ok name ∧ _ = x := by
          rw [Freja.Client.oneResult] at hx
          cases hname : Freja.Client.orderName handle.mode handle.reference with
          | error failure =>
            rw [hname] at hx
            cases hx
          | ok name =>
            rw [hname] at hx
            exact ⟨name, rfl, Except.ok.inj hx⟩
        have hlength : (Freja.endpoints handle.mode).oneResult.length ≠
            (Freja.modePath handle.mode ++ "/cancel").length := by
          cases handle.mode <;> decide
        intro heq
        exact url_ne hlength (congrArg Call.url heq)

/-- What is read of an answer does not depend on how the question was put. -/
theorem readProgress_eq {client : BankId.Client} {x : Exchange BankId.Progress}
    (hx : client.collectOnce handle.reference = .ok x) :
    Job.readProgress client handle.reference = x.read := by
  funext answer
  rw [Job.readProgress, hx]
  rfl

/-- **BankID's orders are cancelled** once where they are abandoned. -/
theorem bankId_cancels {client : BankId.Client}
    (run : Job.Runs t₀ givenUp (((ProviderClient.bankId client).inquire q handle).map f) h now j)
    (href : handle.reference ≠ "") (hq : q ≠ .peek) {effects : List (Job.Effect ρ)}
    (hdone : Job.doings t₀ givenUp
      (((ProviderClient.bankId client).inquire q handle).map f) h = effects) :
    Job.Cancels effects ((ProviderClient.bankId client).cancelCall handle)
      (q.cancelsOnError = true ∧ Job.Ended h effects ∧ ¬ q.Observed handle h (.bankId client)) := by
  obtain ⟨x, hx⟩ : ∃ x, client.collectOnce handle.reference = .ok x := ⟨_, if_neg href⟩
  obtain ⟨cancel, hcancel, hcall⟩ : ∃ cancel, client.cancel handle.reference = .ok cancel ∧
      cancel.call = (ProviderClient.bankId client).cancelCall handle := ⟨_, if_neg href, rfl⟩
  have hpolling {rule : Wait.Rule (Except Failure Outcome)}
      (hinquire : (ProviderClient.bankId client).inquire q handle =
        .polling rule (client.collectOnce handle.reference)
          (BankId.sightingOf (BankId.outcomeOf handle)) (client.cancel handle.reference))
      (hcancels : rule.cancelsAbandoned = q.cancelsOnError)
      (hchange : rule.endsOnChange = q.waitsForChange) :
      Job.Cancels effects ((ProviderClient.bankId client).cancelCall handle)
        (q.cancelsOnError = true ∧ Job.Ended h effects ∧
          ¬ q.Observed handle h (.bankId client)) := by
    rw [hinquire, hx, hcancel] at run hdone
    have hpolled := Job.polling_cancels (fun r : BankId.Progress => r.status.isFinished)
      (fun r => r.hintCode) (fun _ => rfl) (fun _ _ => Iff.rfl) run
    rw [hdone, hcancels, hchange, hcall, ← readProgress_eq hx] at hpolled
    exact hpolled
  cases q with
  | peek => exact absurd rfl hq
  | collect cancelOnError => exact hpolling rfl rfl rfl
  | change cancelOnError => exact hpolling rfl rfl rfl

/-- Statuses of one name are one. -/
theorem name_inj {status status' : Freja.ResultStatus} :
    status.name = status'.name ↔ status = status' := by
  refine ⟨fun heq => ?_, fun heq => heq ▸ rfl⟩
  cases status <;> cases status' <;> first | rfl | exact absurd heq (by decide)

/-- **Freja's orders are cancelled** once where they are abandoned. The results that the poller
tells are final, and of this order. -/
theorem freja_cancels {client : Freja.Client}
    (run : Job.Runs t₀ givenUp (((ProviderClient.freja client).inquire q handle).map f) h now j)
    (href : handle.reference ≠ "") (hq : q ≠ .peek)
    (hresults : ∀ cancelOnError, q = .collect cancelOnError → ∀ r ∈ Job.results h,
      r.status.isFinal = true ∧ r.reference = handle.reference)
    {effects : List (Job.Effect ρ)}
    (hdone : Job.doings t₀ givenUp
      (((ProviderClient.freja client).inquire q handle).map f) h = effects) :
    Job.Cancels effects ((ProviderClient.freja client).cancelCall handle)
      (q.cancelsOnError = true ∧ Job.Ended h effects ∧ ¬ q.Observed handle h (.freja client)) := by
  have hname : Freja.Client.orderName handle.mode handle.reference =
      .ok (.object [((Freja.endpoints handle.mode).refKey, .string handle.reference)]) :=
    if_neg href
  obtain ⟨cancel, hcancel, hcall⟩ :
      ∃ cancel, client.cancel handle.mode handle.reference = .ok cancel ∧
        cancel.call = (ProviderClient.freja client).cancelCall handle := by
    rw [Freja.Client.cancel, hname]
    obtain ⟨-, -, hpath, hrequest, hkey⟩ := Freja.endpoints_eq handle.mode
    refine ⟨_, rfl, ?_⟩
    simp only [Freja.Client.post, Freja.encodeBody, ProviderClient.cancelCall, hpath, hrequest,
      hkey]
  cases q with
  | peek => exact absurd rfl hq
  | collect cancelOnError =>
    have hinquire : (ProviderClient.freja client).inquire (.collect cancelOnError) handle =
        .collect handle.mode handle.reference (·.bind (Freja.outcomeOf client handle)) cancelOnError
          (some cancel.call) := by
      simp [ProviderClient.inquire, Freja.Client.collectOrder, hcancel, Activity.cancelCall?,
        Except.toOption]
    rw [hinquire] at run hdone
    have hcollected := Job.collect_cancels run hdone
    have hobserved : Job.results h = [] ↔
        ¬ Observed (.collect cancelOnError) handle h (.freja client) := by
      rw [List.eq_nil_iff_forall_not_mem]
      constructor
      · rintro hnone ⟨r, hr, -⟩
        exact hnone r hr
      · intro hnot r hr
        exact hnot ⟨r, hr, hresults cancelOnError rfl r hr⟩
    rw [hobserved, hcall] at hcollected
    exact hcollected
  | change cancelOnError =>
    obtain ⟨x, hx⟩ : ∃ x, client.oneResult handle.mode handle.reference = .ok x := by
      rw [Freja.Client.oneResult, hname]
      exact ⟨_, rfl⟩
    have hread : (fun answer =>
        (client.oneResult handle.mode handle.reference).bind (·.read answer)) = x.read := by
      rw [hx]
      rfl
    have hinquire : (ProviderClient.freja client).inquire (.change cancelOnError) handle =
        .polling
          { asksAtOnce := true, endsOnChange := true, interval := client.pollInterval
            cancelsAbandoned := cancelOnError, cancelled := .error (.at .freja .cancelled) }
          (client.oneResult handle.mode handle.reference) (Freja.sightingOf client handle)
          (client.cancel handle.mode handle.reference) := rfl
    rw [hinquire, hx, hcancel] at run hdone
    have hpolled := Job.polling_cancels (fun r : Freja.Result => r.status.isFinal)
      (fun r => r.status) (fun _ => rfl) (fun _ _ => name_inj) run
    rw [hdone, hcall, ← hread] at hpolled
    exact hpolled

end

end Inquiry

/-! ## The service -/

namespace Service

variable {ρ : Type}

/-- The visit has ended: it has a result, its caller has left, or it is not kept any longer. -/
def HasEnded (s : Service ρ) (id : Nat) : Prop := ∀ v, s.visit? id = some v → v.ending ≠ none

/-- What comes of an event to anybody. Nobody waits for the answer to a cancelling. -/
def Event.isHeard : Event ρ → Bool
  | .reply o _ => o.addressee.isSome
  | _ => true

/-- What has happened and when, without the answers that nobody waits for. -/
def heard (h : History ρ) : List (Nat × Event ρ) :=
  (h.filter (·.event.isHeard)).map fun tr => (tr.time, tr.event)

section
variable {h h' : History ρ} {t₀ now now' id t readFrom : Nat} {registry : Registry}
  {handle : Handle} {q : Inquiry} {f : Except Failure Outcome → ρ} {givenUp : Bool}
  {s s' : Service ρ} {p : ProviderClient} {arrival : Transition (Service ρ) (Event ρ) Outgoing}

/-- The cancellings among the requests of a job. -/
theorem cancels_of_requests {effects : List (Job.Effect ρ)} {cancel : Call}
    (hsend : ∀ slot call, .send slot call ∈ effects → call ≠ cancel)
    (haway : ∀ call, .sendAway call ∈ effects → call = cancel) :
    (effects.filterMap (·.request? id)).filter (·.call = cancel) =
      (effects.filterMap (·.away?)).map fun call => ⟨none, call⟩ := by
  induction effects with
  | nil => rfl
  | cons effect rest ih =>
    have hrest := ih (fun slot call hmem => hsend slot call (.tail _ hmem)) fun call hmem =>
      haway call (.tail _ hmem)
    cases effect with
    | send slot call =>
      have hne := hsend slot call (.head _)
      refine Eq.trans (List.filter_cons_of_neg ?_) hrest
      simpa using hne
    | sendAway call =>
      have heq := haway call (.head _)
      refine Eq.trans (List.filter_cons_of_pos ?_) (congrArg _ hrest)
      simpa using heq
    | _ => exact hrest

/-- What the service is after a history is found by repeating what has come of it to anybody. -/
theorem repeat_of_runs (run : Runs t₀ registry h now s) :
    (heard h).foldl (fun s? te => s?.bind fun s => (machine te.1 s te.2).map (·.1))
      (some (Service.start t₀ registry)) = some s := by
  induction run with
  | start => rfl
  | @next h t now s s' e sent run ht hmay hstep ih =>
    by_cases hheard : e.isHeard = true
    · have hlast : heard (h ++ [⟨now, s, e, s', sent⟩]) = heard h ++ [(now, e)] := by
        simp [heard, hheard]
      rw [hlast, List.foldl_append, ih]
      simp [hstep]
    · have hlast : heard (h ++ [⟨now, s, e, s', sent⟩]) = heard h := by
        simp [heard, hheard]
      -- Nobody waits for this answer, so that nothing comes of it.
      have hsame : s' = s := by
        cases e with
        | reply o answer =>
          obtain ⟨addressee, call⟩ := o
          cases addressee with
          | some addressee => exact absurd rfl hheard
          | none =>
            have hs := congrArg Prod.fst (Option.some.inj hstep)
            have houtbox := outbox_of_runs run
            obtain ⟨_, _, _, _, _, outbox⟩ := s
            subst houtbox
            exact hs.symm
        | _ => exact absurd rfl hheard
      rw [hlast, ih, hsame]

/-- A visit has ended when its job has. -/
theorem hasEnded_iff {a : Activity ρ} {t₁ : Nat} (hfollows : Follows h now s id t₁ givenUp a) :
    HasEnded s id ↔ Job.Ended (jobHistory h id) (Job.doings t₁ givenUp a (jobHistory h id)) := by
  constructor
  · intro hended
    cases hv : s.visit? id with
    | none => exact hfollows.gone hv
    | some v =>
      by_contra hopen
      exact hended v hv ((hfollows.opened v hv).2 hopen)
  · intro hended v hv hopen
    exact (hfollows.opened v hv).1 hopen hended

/-- The results that a job has taken were in the mail. -/
theorem mail_of_results {r : Freja.Result} (hr : r ∈ Job.results (jobHistory h id)) :
    ∃ past tr later, h = past ++ tr :: later ∧ .polled id (.ok r) ∈ tr.before.mail := by
  obtain ⟨jtr, hjtr, hresult⟩ := List.mem_filterMap.1 hr
  obtain ⟨tr, htr, hstep⟩ := List.mem_filterMap.1 hjtr
  obtain ⟨past, later, rfl⟩ := List.append_of_mem htr
  refine ⟨past, tr, later, rfl, ?_⟩
  have hevent : jtr.event = .polled (.ok r) := by
    split at hresult
    · next result hpolled =>
      split at hresult
      · rw [hpolled, Option.some.inj hresult]
      · cases hresult
    · cases hresult
  have hjob := event_of_jobStep hstep
  rw [hevent] at hjob
  obtain ⟨n, -, hmail⟩ := deliver_of_polled hjob
  exact List.mem_of_getElem? hmail

/-- Who collects an order of Freja's takes final results of this order. -/
theorem results_of_visit {client : Freja.Client} {cancelOnError : Bool}
    (run : Runs t₀ registry h now s) (harrival : arrival ∈ h)
    (harrive : arrival.event = .arrive id
      (((Inquiry.collect cancelOnError).activity registry handle).map f) readFrom givenUp)
    (hp : registry.provider handle.providerName = .ok (.freja client)) {r : Freja.Result}
    (hr : r ∈ Job.results (jobHistory h id)) :
    r.status.isFinal = true ∧ r.reference = handle.reference := by
  obtain ⟨past, tr, later, rfl, hmail⟩ := mail_of_results hr
  rw [Inquiry.activity_of_provider hp] at harrive
  obtain ⟨href, hfinal, -⟩ := result_of_mail run harrival harrive hmail
  exact ⟨hfinal, href⟩

/-- The job of a visit asks the question of its inquiry, and cancels nothing by that. -/
theorem send_of_visit (run : Runs t₀ registry h now s) (harrival : arrival ∈ h)
    (harrive : arrival.event =
      .arrive id ((q.activity registry handle).map f) readFrom givenUp)
    (hp : registry.provider handle.providerName = .ok p) {slot : Nat} {call : Call}
    (hsend : .send slot call ∈ Job.doings arrival.time givenUp
      ((q.activity registry handle).map f) (jobHistory h id)) :
    slot = 0 ∧ (p.inquire q handle).question? = some call ∧ call ≠ p.cancelCall handle := by
  have hplain : ((q.activity registry handle).map f).IsPlain :=
    Inquiry.isPlain_map.2 (Inquiry.isPlain_activity q registry handle)
  obtain ⟨t, j, -, hruns, -⟩ := (follows_of_runs run hplain harrival harrive).runs
  obtain ⟨hslot, hquestion⟩ := Job.send_of_runs hplain hruns hsend
  rw [Inquiry.question?_map, Inquiry.activity_of_provider hp] at hquestion
  exact ⟨hslot, hquestion, Inquiry.question_ne_cancelCall hquestion⟩

/-- The job of a visit cancels the order where it is abandoned. -/
theorem cancels_of_visit (run : Runs t₀ registry h now s) (harrival : arrival ∈ h)
    (harrive : arrival.event =
      .arrive id ((q.activity registry handle).map f) readFrom givenUp)
    (hp : registry.provider handle.providerName = .ok p) (href : handle.reference ≠ "")
    (hq : q ≠ .peek) {effects : List (Job.Effect ρ)}
    (hdone : Job.doings arrival.time givenUp ((q.activity registry handle).map f)
      (jobHistory h id) = effects) :
    Job.Cancels effects (p.cancelCall handle)
      (q.cancelsOnError = true ∧ Job.Ended (jobHistory h id) effects ∧
        ¬ q.Observed handle (jobHistory h id) p) := by
  have hplain : ((q.activity registry handle).map f).IsPlain :=
    Inquiry.isPlain_map.2 (Inquiry.isPlain_activity q registry handle)
  obtain ⟨t, j, -, hruns, -⟩ := (follows_of_runs run hplain harrival harrive).runs
  rw [Inquiry.activity_of_provider hp] at hruns hdone
  cases p with
  | bankId client => exact Inquiry.bankId_cancels hruns href hq hdone
  | freja client =>
    refine Inquiry.freja_cancels hruns href hq (fun cancelOnError hcollect r hr => ?_) hdone
    subst hcollect
    exact results_of_visit run harrival harrive hp hr

/-- **An abandoned order is cancelled once.** Somebody waits for an order of either provider until
it is over or changes. Each request of this visit is the question about the order or the cancelling
of this order. There is one cancelling, if the caller wishes so and the visit has ended without a
reply that it waits for, and there is none otherwise. Whatever the vendors answer to cancellings,
and whenever they do, the service is the same: two histories that differ in nothing else lead to the
same visits, with the same results at the same times. -/
theorem cancelled_once (run : Runs t₀ registry h now s) (harrival : arrival ∈ h)
    (harrive : arrival.event =
      .arrive id ((q.activity registry handle).map f) readFrom givenUp)
    (hp : registry.provider handle.providerName = .ok p) (href : handle.reference ≠ "")
    (hq : q ≠ .peek) :
    (∀ o ∈ sentBy h id, o = ⟨none, p.cancelCall handle⟩ ∨
      o.addressee = some (.job id 0) ∧ (p.inquire q handle).question? = some o.call ∧
        o.call ≠ p.cancelCall handle) ∧
      ((sentBy h id).filter (·.call = p.cancelCall handle) = [⟨none, p.cancelCall handle⟩] ∧
          (q.cancelsOnError = true ∧ HasEnded s id ∧ ¬ q.Observed handle (jobHistory h id) p) ∨
        (sentBy h id).filter (·.call = p.cancelCall handle) = [] ∧
          ¬ (q.cancelsOnError = true ∧ HasEnded s id ∧
            ¬ q.Observed handle (jobHistory h id) p)) ∧
      ∀ h' now' s', Runs t₀ registry h' now' s' → heard h' = heard h → s' = s := by
  have hfollows := follows_of_runs run (Inquiry.isPlain_map.2
    (Inquiry.isPlain_activity q registry handle)) harrival harrive
  have hended := hasEnded_iff hfollows
  have hsent := hfollows.sent
  generalize hdone : Job.doings arrival.time givenUp ((q.activity registry handle).map f)
    (jobHistory h id) = effects at hended hsent
  have hcancels := cancels_of_visit run harrival harrive hp href hq hdone
  have hfilter : (sentBy h id).filter (·.call = p.cancelCall handle) =
      (effects.filterMap (·.away?)).map fun call => ⟨none, call⟩ := by
    rw [hsent]
    exact cancels_of_requests (fun slot call hmem =>
      (send_of_visit run harrival harrive hp (hdone ▸ hmem)).2.2) fun call hmem =>
        hcancels.eq_of_mem hmem
  refine ⟨fun o ho => ?_, ?_, fun h' now' s' run' heq => ?_⟩
  · rw [hsent] at ho
    obtain ⟨effect, heffect, hrequest⟩ := List.mem_filterMap.1 ho
    cases effect with
    | send slot call =>
      obtain rfl := Option.some.inj hrequest
      obtain ⟨rfl, hquestion, hne⟩ := send_of_visit run harrival harrive hp (hdone ▸ heffect)
      exact .inr ⟨rfl, hquestion, hne⟩
    | sendAway call =>
      obtain rfl := Option.some.inj hrequest
      exact .inl (by rw [hcancels.eq_of_mem heffect])
    | _ => cases hrequest
  · rw [hfilter, hended]
    rcases hcancels with ⟨hone, hmissed⟩ | ⟨hnone, hmissed⟩
    · exact .inl ⟨by rw [hone]; rfl, hmissed⟩
    · exact .inr ⟨by rw [hnone]; rfl, hmissed⟩
  · have hrepeat := repeat_of_runs run'
    rw [heq, repeat_of_runs run] at hrepeat
    exact (Option.some.inj hrepeat).symm

end

/-- Somebody collects an order at BankID and leaves. The order is cancelled, and what BankID says to
that changes nothing. -/
theorem order_left_cancelled :
    ∃ (registry : Registry) (handle : Handle) (p : ProviderClient)
      (h h' : History (Except Failure Outcome)) (s s' : Service (Except Failure Outcome)),
      Runs 0 registry h 3 s ∧ HasEnded s 7 ∧
        ¬ (Inquiry.collect true).Observed handle (jobHistory h 7) p ∧
        (sentBy h 7).filter (·.call = p.cancelCall handle) = [⟨none, p.cancelCall handle⟩] ∧
        Runs 0 registry h' 4 s' ∧ h'.length = 3 ∧ s' = s := by
  let client : BankId.Client := ⟨"https://appapi2.bankid.com", 1000, 15000⟩
  let registry : Registry := { bankId := some client }
  let handle : Handle :=
    { request := { provider := { name := "BankID" } }, mode := .auth, reference := "131daac9" }
  let cancel : Call := (ProviderClient.bankId client).cancelCall handle
  let a : Activity (Except Failure Outcome) :=
    ((Inquiry.collect true).activity registry handle).map id
  have hcame : May ([] : History (Except Failure Outcome)) (.arrive 7 a 0 false) := by
    rintro ⟨tr, htr, -⟩
    cases htr
  have hsent (s₀ s₁ s₂ : Service (Except Failure Outcome)) :
      May [⟨0, s₀, .arrive 7 a 0 false, s₁, []⟩, ⟨3, s₁, .leave 7, s₂, [⟨none, cancel⟩]⟩]
        (.reply ⟨none, cancel⟩ (.lost "no answer in time")) :=
    ⟨_, .tail _ (.head _), .head _⟩
  have h₁ : Runs 0 registry [⟨0, _, .arrive 7 a 0 false, _, []⟩] 0 _ :=
    Run.next .start (Nat.le_refl 0) hcame rfl
  have h₂ : Runs 0 registry
      [⟨0, _, .arrive 7 a 0 false, _, []⟩, ⟨3, _, .leave 7, _, [⟨none, cancel⟩]⟩] 3 _ :=
    h₁.next (Nat.le_add_right 0 3) trivial rfl
  obtain ⟨h, h', s, s', run, run', ⟨s₀, s₁, harrival⟩, ⟨v, hv, hend⟩, htaken, hheard, hlength⟩ :
      ∃ (h h' : History (Except Failure Outcome)) (s s' : Service (Except Failure Outcome)),
        Runs 0 registry h 3 s ∧ Runs 0 registry h' 4 s' ∧
        (∃ s₀ s₁, ⟨0, s₀, .arrive 7 a 0 false, s₁, []⟩ ∈ h) ∧
        (∃ v, s.visit? 7 = some v ∧ v.ending = some (.left 3)) ∧
        Job.taken (jobHistory h 7) = [] ∧ heard h' = heard h ∧ h'.length = 3 :=
    ⟨_, _, _, _, h₂, h₂.next (Nat.le_add_right 3 1) (hsent _ _ _) rfl, ⟨_, _, .head _⟩,
      ⟨_, rfl, rfl⟩, rfl, rfl, rfl⟩
  obtain ⟨-, hcancels, hsame⟩ :=
    cancelled_once run harrival rfl (p := .bankId client) rfl (by decide) (by simp)
  have hended : HasEnded s 7 := by
    intro u hu
    rw [hv] at hu
    rw [← Option.some.inj hu, hend]
    simp
  have hmissed : ¬ (Inquiry.collect true).Observed handle (jobHistory h 7) (.bankId client) := by
    simp [Inquiry.Observed, Qualifying, readable, htaken]
  rcases hcancels with ⟨hone, -⟩ | ⟨-, hnone⟩
  · exact ⟨registry, handle, .bankId client, h, h', s, s', run, hended, hmissed, hone, run',
      hlength, hsame h' 4 s' run' hheard⟩
  · exact absurd ⟨rfl, hended, hmissed⟩ hnone

end Service

end OrderBroker
