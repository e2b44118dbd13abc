import OrderBroker.Proofs.Cancellation
import OrderBroker.Proofs.Job.Pace
import OrderBroker.Proofs.Service.Times

/-!
# Waiting for orders

Whoever polls an order asks one question at a time, an interval after the start or after the last
answer, until the first answer that decides; that answer is what the visit gives. `Waits` says so of
a visit, and `waits_of_runs` proves it of every wait.
-/

namespace OrderBroker

open OrderBroker.Order (Handle Outcome)

variable {ρ : Type}

/-! ## What the vendors are asked -/

/-- How an order is asked about by an exchange. A failure decides, a reply that shows that the order
is over, and one that differs from the first. -/
def Asking.ofExchange {α β : Type} (x : Exchange β) (asksAtOnce : Bool) (interval : Nat)
    (isOver : β → Prop) (differs : (first reply : β) → Prop) (result : β → Except Failure α)
    (cancelled : Failure) (f : Except Failure α → ρ) : Asking ρ where
  call := x.call
  asksAtOnce
  interval
  decides first answer :=
    match x.read answer with
    | .error _ => True
    | .ok b => isOver b ∨ ∃ b₀, x.read first = .ok b₀ ∧ differs b₀ b
  outcome answer := f ((x.read answer).bind result)
  cancelled := f (.error cancelled)

namespace BankId.Client

variable {α : Type}

/-- How somebody asks who waits for the end of a BankID order. -/
def collecting (c : Client) (x : Exchange Progress) (result : Progress → α)
    (f : Except Failure α → ρ) : Asking ρ :=
  .ofExchange x false c.pollInterval (fun p => p.status = .complete ∨ p.status = .failed)
    (fun _ _ => False) (fun p => .ok (result p)) (.at .bankId .cancelled) f

/-- How somebody asks who waits for a change of a BankID order. -/
def changing (c : Client) (q : ChangeQuery) (x : Exchange Progress) (result : Progress → α)
    (f : Except Failure α → ρ) : Asking ρ :=
  .ofExchange x true c.pollInterval (fun p => p.status = .complete ∨ p.status = .failed)
    (fun first p => q.untilFinished = false ∧ p.hintCode ≠ first.hintCode)
    (fun p => .ok (result p)) (.at .bankId .cancelled) f

end BankId.Client

/-- How somebody asks who waits for a change of a Freja order. -/
def Freja.Client.changing (c : Client) (handle : Handle) (x : Exchange Result)
    (f : Except Failure Outcome → ρ) : Asking ρ :=
  .ofExchange x true c.pollInterval (fun r => r.status.isFinal = true)
    (fun first r => r.status ≠ first.status) (outcomeOf c handle) (.at .freja .cancelled) f

/-- `a.Asks k`: the activity is a wait that goes as `k` says. -/
def Activity.Asks (a : Activity ρ) (k : Asking ρ) : Prop :=
  ∃ rule read cancel, a = .wait rule (.ok k.call) read cancel ∧ Asking.ofRule rule k.call read = k

section
variable {α β : Type} {rule : Wait.Rule (Except Failure α)} {x : Exchange β}
  {sight : β → Sighting (Except Failure α)} {cancel : Except Failure (Exchange Unit)}

/-- What somebody sees in an answer who polls by the exchange. -/
def Activity.seenBy (x : Exchange β) (sight : β → Sighting (Except Failure α))
    (f : Except Failure α → ρ) (answer : Answer) : Except ρ (Sighting ρ) :=
  match x.read answer with
  | .ok b => .ok (mapSighting f (sight b))
  | .error failure => .error (f (.error failure))

/-- Polling by a question that may be sent is a wait. -/
theorem Activity.polling_ok (f : Except Failure α → ρ) :
    (Activity.polling rule (.ok x) sight cancel).map f =
      .wait (mapRule f rule) (.ok x.call) (seenBy x sight f) (cancelCall? cancel) := by
  simp only [polling, map, mapFailure, Activity.wait.injEq, true_and, and_true]
  funext answer
  unfold seenBy
  cases x.read answer <;> rfl

/-- Polling goes by the exchange. -/
theorem Activity.asks_polling
    {isOver : β → Prop} {differs : β → β → Prop} {result : β → Except Failure α}
    {cancelled : Failure} {f : Except Failure α → ρ}
    (hover : ∀ b, (sight b).isOver = true ↔ isOver b)
    (hdiffers : ∀ first b,
      rule.endsOnChange = true ∧ (sight first).substate ≠ (sight b).substate ↔ differs first b)
    (hresult : ∀ b, (sight b).result = result b) (hcancelled : rule.cancelled = .error cancelled) :
    ((Activity.polling rule (.ok x) sight cancel).map f).Asks
      (.ofExchange x rule.asksAtOnce rule.interval isOver differs result cancelled f) := by
  refine ⟨_, _, _, polling_ok f, ?_⟩
  simp only [Asking.ofRule, Asking.ofExchange, mapRule, Asking.mk.injEq, true_and]
  refine ⟨?_, ?_, ?_⟩
  · funext first answer
    unfold seenBy
    cases x.read answer with
    | error failure => rfl
    | ok b =>
      refine propext (or_congr (hover b) ?_)
      cases x.read first with
      | error failure => simp
      | ok b₀ => simpa [mapSighting] using hdiffers b₀ b
  · funext answer
    unfold seenBy
    cases x.read answer with
    | error failure => rfl
    | ok b => exact congrArg f (hresult b)
  · rw [hcancelled]

end

section
variable {α : Type} (cancelOnError : Bool)

/-- A status that ends an order. -/
theorem BankId.isFinished_iff {status : BankId.OrderStatus} :
    status.isFinished = true ↔ status = .complete ∨ status = .failed := by
  cases status <;> simp [BankId.OrderStatus.isFinished]

/-- Who waits for the end of a BankID order asks so. -/
theorem BankId.asks_collectWith (client : BankId.Client) {orderRef : String} (href : orderRef ≠ "")
    (result : BankId.Progress → α) (f : Except Failure α → ρ) :
    ∃ x, client.collectOnce orderRef = .ok x ∧
      ((client.collectWith orderRef cancelOnError result).map f).Asks
        (client.collecting x result f) := by
  refine ⟨_, if_neg href, ?_⟩
  rw [BankId.Client.collectWith, BankId.Client.collectOnce, if_neg href]
  exact Activity.asks_polling (fun p => BankId.isFinished_iff) (by simp) (fun _ => rfl) rfl

/-- Who waits for a change of a BankID order asks so. -/
theorem BankId.asks_changeWith (client : BankId.Client) {q : BankId.ChangeQuery}
    (href : q.orderRef ≠ "") (result : BankId.Progress → α) (f : Except Failure α → ρ) :
    ∃ x, client.collectOnce q.orderRef = .ok x ∧
      ((client.changeWith q cancelOnError result).map f).Asks (client.changing q x result f) := by
  refine ⟨_, if_neg href, ?_⟩
  rw [BankId.Client.changeWith, BankId.Client.collectOnce, if_neg href]
  refine Activity.asks_polling (fun p => BankId.isFinished_iff) (fun first p => ?_) (fun _ => rfl)
    rfl
  rw [Bool.not_eq_true', ne_comm]
  exact Iff.rfl

/-- Who waits for a change of a Freja order asks so. -/
theorem Freja.asks_changeOrder (client : Freja.Client) {handle : Handle}
    (href : handle.reference ≠ "") (f : Except Failure Outcome → ρ) :
    ∃ x, client.oneResult handle.mode handle.reference = .ok x ∧
      ((client.changeOrder handle cancelOnError).map f).Asks (client.changing handle x f) := by
  obtain ⟨x, hx⟩ : ∃ x, client.oneResult handle.mode handle.reference = .ok x := by
    rw [Freja.Client.oneResult, Freja.Client.orderName, if_neg href]
    exact ⟨_, rfl⟩
  refine ⟨x, hx, ?_⟩
  rw [Freja.Client.changeOrder, hx]
  refine Activity.asks_polling (fun r => Iff.rfl) (fun first r => ?_) (fun _ => rfl) rfl
  rw [ne_comm, Ne, Freja.sightingOf, Freja.sightingOf, Inquiry.name_inj]
  exact and_iff_right rfl

end

namespace Service

/-! ## The record of a visit -/

/-- The answers that the job of a visit waited for, and when they came. -/
def replies (h : History ρ) (id : Nat) : List (Nat × Answer) := Job.replies (jobHistory h id)

/-- Nothing happens after the end of a rest of the visit but what ends the rest. -/
def OnTime (h : History ρ) (id : Nat) : Prop :=
  ∀ tr ∈ h, ∀ v due, tr.before.visit? id = some v → v.job.due? = some due → tr.time ≤ due

/-- `Waits k h s id t₁ givenUp`: the visit, whose caller came at `t₁`, has asked and been answered
as `k` says. -/
structure Waits (k : Asking ρ) (h : History ρ) (s : Service ρ) (id t₁ : Nat) (givenUp : Bool) :
    Prop where
  question : ∀ q ∈ asked h id, q.2 = k.call
  atOnce : k.asksAtOnce = true → (asked h id).head? = some (t₁, k.call)
  /-- No question is asked before it is due, and none later unless a rest is overslept. -/
  paced : k.Paced t₁ (OnTime h id) ((asked h id).map (·.1)) (replies h id)
  /-- One question at a time. -/
  single : (asked h id).length ≤ (replies h id).length + 1
  /-- The visit does not outlive an answer that decides. -/
  early : ∀ r ∈ (replies h id).dropLast, ¬ k.Decides (replies h id) r.2
  decided : ∀ r, (replies h id).getLast? = some r → k.Decides (replies h id) r.2 →
    (asked h id).length = (replies h id).length ∧
      ∀ v, s.visit? id = some v → v.ending = some (.done r.1 (k.outcome r.2))
  /-- A visit that goes on waits for an answer, or rests and then asks. -/
  goes : ∀ v, s.visit? id = some v → v.ending = none →
    k.Undecided (replies h id) ∧
      ((asked h id).length = (replies h id).length + 1 ∨
        (asked h id).length = (replies h id).length ∧
          ∃ due, (k.dues t₁ (replies h id))[(asked h id).length]? = some due ∧
            v.job.due? = some due ∧
            ∀ t, due ≤ t → ∃ j, v.job.advance t = some (j, [.send 0 k.call]))
  /-- What is given is what an answer decides, unless the caller has given up. -/
  given : ∀ v t x, s.visit? id = some v → v.ending = some (.done t x) →
    (∃ r, (replies h id).getLast? = some r ∧ k.Decides (replies h id) r.2 ∧ t = r.1 ∧
        x = k.outcome r.2) ∨
      GaveUp h id givenUp ∧ k.Undecided (replies h id) ∧ x = k.cancelled
  /-- Who gives up while the visit rests ends it, and nothing more is asked. -/
  stopped : ∀ past tr later v₀ due, h = past ++ tr :: later → tr.event = .giveUp id →
    tr.before.visit? id = some v₀ → v₀.job.due? = some due →
    asked h id = asked past id ∧
      ∀ v, s.visit? id = some v → v.ending = some (.done tr.time k.cancelled)

section
variable {rule : Wait.Rule ρ} {call : Call} {read : Answer → Except ρ (Sighting ρ)}
  {cancel : Option Call} {h : History ρ} {t₀ now id readFrom : Nat} {registry : Registry}
  {s : Service ρ} {givenUp : Bool} {arrival : Transition (Service ρ) (Event ρ) Outgoing}

/-- A visit that is on time has a job that is. -/
theorem punctual_of_onTime (hontime : OnTime h id) : Job.Punctual (jobHistory h id) := by
  intro jtr hjtr due hdue
  obtain ⟨tr, htr, hstep⟩ := List.mem_filterMap.1 hjtr
  rw [time_of_jobStep hstep]
  unfold jobStep at hstep
  split at hstep
  · next i je v hje hv =>
    split at hstep
    · obtain ⟨r, -, rfl⟩ := Option.map_eq_some_iff.1 hstep
      exact hontime tr htr v due hv hdue
    · cases hstep
  · cases hstep

/-- Who gives up while his visit rests ends it. -/
theorem stopped_of_runs {past later : History ρ}
    {tr : Transition (Service ρ) (Event ρ) Outgoing} {v₀ : Visit ρ} {due : Nat}
    (run : Runs t₀ registry (past ++ tr :: later) now s) (harrival : arrival ∈ past ++ tr :: later)
    (harrive : arrival.event = .arrive id (.wait rule (.ok call) read cancel) readFrom givenUp)
    (hevent : tr.event = .giveUp id) (hv₀ : tr.before.visit? id = some v₀)
    (hrests : v₀.job.due? = some due) :
    asked (past ++ tr :: later) id = asked past id ∧
      ∀ v, s.visit? id = some v → v.ending = some (.done tr.time rule.cancelled) := by
  have hplain : (Activity.wait rule (.ok call) read cancel).IsPlain := trivial
  obtain ⟨t, hpast, -⟩ := run.split
  have hcame : Came past id := by
    by_contra hunknown
    rw [(unknown_of_runs hpast hunknown).1] at hv₀
    cases hv₀
  obtain ⟨tr', htr', a, readFrom', givenUp', harrive'⟩ := hcame
  have hmem : arrival ∈ past := by
    rw [arrival_unique run harrival (List.mem_append_left _ htr') harrive harrive']
    exact htr'
  have hstep : jobStep id tr =
      some ⟨tr.time, v₀.job, .giveUp, (v₀.job.giveUp tr.time).1, (v₀.job.giveUp tr.time).2⟩ := by
    simp [jobStep, hevent, Event.job?, hv₀, Job.machine]
  have hhistory : jobHistory (past ++ tr :: later) id =
      jobHistory past id ++ ⟨tr.time, v₀.job, .giveUp, (v₀.job.giveUp tr.time).1,
        (v₀.job.giveUp tr.time).2⟩ :: jobHistory later id := by
    rw [jobHistory, List.filterMap_append, List.filterMap_cons_some hstep]
    rfl
  obtain ⟨t', j, -, hruns, -⟩ := (follows_of_runs run hplain harrival harrive).runs
  have hending (v : Visit ρ) (hv : s.visit? id = some v) :
      v.ending = Job.ending? arrival.time givenUp (.wait rule (.ok call) read cancel)
        (jobHistory (past ++ tr :: later) id) := ending_of_runs run hplain harrival harrive hv
  have hasked := asked_of_runs_eq run hplain harrival harrive
  rw [hhistory] at hruns hending hasked
  obtain ⟨hsame, hends⟩ := Job.cancelled_of_giveUp hruns rfl hrests
  constructor
  · rw [hasked, hsame, asked_of_runs_eq hpast hplain hmem harrive]
  · intro v hv
    rw [hending v hv, hends]

/-- **Every wait** asks and ends as its rule says. -/
theorem waits_of_runs (run : Runs t₀ registry h now s) (harrival : arrival ∈ h)
    (harrive : arrival.event = .arrive id (.wait rule (.ok call) read cancel) readFrom givenUp) :
    Waits (.ofRule rule call read) h s id arrival.time givenUp := by
  have hplain : (Activity.wait rule (.ok call) read cancel).IsPlain := trivial
  obtain ⟨t, j, -, hruns, hjob⟩ := (follows_of_runs run hplain harrival harrive).runs
  obtain ⟨w, times, rfl, hasked, hcourse⟩ := Job.coursing_of_runs hruns
  have heq := asked_of_runs_eq run hplain harrival harrive
  rw [← heq] at hasked
  have hlength : (asked h id).length = times.length := by
    rw [hasked, List.length_map]
  have hstands := hcourse.stands
  rw [← hlength] at hstands
  have hending {v : Visit ρ} (hv : s.visit? id = some v) :
      v.ending = Job.ending? arrival.time givenUp (.wait rule (.ok call) read cancel)
        (jobHistory h id) := ending_of_runs run hplain harrival harrive hv
  constructor
  case question =>
    intro q hq
    rw [hasked] at hq
    obtain ⟨t, -, rfl⟩ := List.mem_map.1 hq
    rfl
  case atOnce =>
    intro hatOnce
    rw [heq]
    exact Job.asked_atOnce hatOnce
  case paced =>
    have htimes : (asked h id).map (·.1) = times := by
      rw [hasked, List.map_map]
      exact List.map_id _
    rw [htimes]
    exact hcourse.paced.mono punctual_of_onTime
  case single =>
    rw [hlength]
    exact hcourse.paced.length_le
  case early => exact hcourse.early
  case decided =>
    intro r hlast hdecides
    obtain ⟨hn, hends⟩ := hstands.ends hlast hdecides
    exact ⟨hn, fun v hv => (hending hv).trans hends⟩
  case goes =>
    intro v hv hopen
    rw [← hending hv, hopen] at hstands
    cases hstands with
    | @rests due hphase hn hdue hundecided =>
      refine ⟨hundecided, .inr ⟨hn, due, hdue, ?_, fun t ht => ?_⟩⟩
      · rw [hjob v hv, Job.due?, Wait.due?, hphase]
      · rw [hjob v hv]
        exact ⟨_, Job.advance_resting hphase ht⟩
    | asks _ hn hundecided => exact ⟨hundecided, .inl hn⟩
  case given =>
    intro v t x hv hdone
    rw [← hending hv, hdone] at hstands
    cases hstands with
    | decided _ _ hlast hdecides => exact .inl ⟨_, hlast, hdecides, rfl, rfl⟩
    | cancelled _ hgave _ hundecided => exact .inr ⟨gaveUp_of_job hgave, hundecided, rfl⟩
  case stopped =>
    rintro past tr later v₀ due rfl hevent hv₀ hrests
    exact stopped_of_runs run harrival harrive hevent hv₀ hrests

/-- What an activity asks, the service asks. -/
theorem waits_of_asks {a : Activity ρ} {k : Asking ρ} (ha : a.Asks k)
    (run : Runs t₀ registry h now s) (harrival : arrival ∈ h)
    (harrive : arrival.event = .arrive id a readFrom givenUp) :
    Waits k h s id arrival.time givenUp := by
  obtain ⟨rule, read, cancel, rfl, heq⟩ := ha
  rw [← heq]
  exact waits_of_runs run harrival harrive

end

/-! ## The statuses that collecting gives -/

/-- Where BankID has ended an order, the outcome is final. -/
theorem isFinal_outcomeOf (handle : Handle) {p : BankId.Progress}
    (hover : p.status = .complete ∨ p.status = .failed) :
    (BankId.outcomeOf handle p).status.isFinal = true := by
  have hstatus : (BankId.outcomeOf handle p).status = BankId.commonStatus p.status p.hintCode := by
    unfold BankId.outcomeOf
    split
    · next happroved => exact happroved.symm
    · rfl
  rw [hstatus]
  rcases hover with hcomplete | hfailed
  · rw [hcomplete]
    rfl
  · rw [hfailed]
    simp only [BankId.commonStatus]
    repeat (split; · rfl)
    rfl

/-- Freja's statuses are final as the common ones are. -/
theorem isFinal_common {status : Freja.ResultStatus} :
    status.common.isFinal = status.isFinal := by
  cases status <;> rfl

/-- Where Freja has ended an order, the outcome is final, if there is one. -/
theorem isFinal_of_outcomeOf {client : Freja.Client} {handle : Handle} {r : Freja.Result}
    {o : Outcome} (hfinal : r.status.isFinal = true)
    (ho : Freja.outcomeOf client handle r = .ok o) : o.status.isFinal = true := by
  unfold Freja.outcomeOf at ho
  split at ho
  · split at ho
    · obtain rfl := Except.ok.inj ho
      rfl
    · cases ho
  · obtain rfl := Except.ok.inj ho
    exact isFinal_common.trans hfinal

section
variable {h : History ρ} {t₀ now id readFrom t : Nat} {registry : Registry} {s : Service ρ}
  {givenUp cancelOnError : Bool} {arrival : Transition (Service ρ) (Event ρ) Outgoing}
  {handle : Handle} {f : Except Failure Outcome → ρ} {v : Visit ρ} {x : ρ}

/-- What is given to somebody who waits for the end of a BankID order is final. -/
theorem isFinal_of_bankId {client : BankId.Client} (run : Runs t₀ registry h now s)
    (harrival : arrival ∈ h) (harrive : arrival.event =
      .arrive id ((client.collectOrder handle cancelOnError).map f) readFrom givenUp)
    (hv : s.visit? id = some v) (hdone : v.ending = some (.done t x)) :
    ∃ y, x = f y ∧ ∀ o, y = .ok o → o.status.isFinal = true := by
  by_cases href : handle.reference = ""
  · have hplain : ((client.collectOrder handle cancelOnError).map f).IsPlain :=
      Inquiry.isPlain_map.2 (Inquiry.isPlain_polling _ _ _ _)
    obtain ⟨_, _, _, e?, _, _, _, _, hgives⟩ :=
      given_of_runs run hplain harrival harrive hv hdone
    obtain ⟨y, rfl, hy⟩ := Job.gives_of_map hgives
    refine ⟨y, rfl, fun o ho => ?_⟩
    rcases Inquiry.bankId_gives (q := .collect cancelOnError) hy with
      ⟨failure, rfl⟩ | ⟨p, hreplies, -⟩
    · cases ho
    · cases hreplies with
      | answered hx _ =>
        rw [BankId.Client.collectOnce, if_pos href] at hx
        cases hx
  · obtain ⟨q, -, hasks⟩ :=
      BankId.asks_collectWith cancelOnError client href (BankId.outcomeOf handle) f
    rcases (waits_of_asks hasks run harrival harrive).given v t x hv hdone with
      ⟨r, -, ⟨first, -, hdecides⟩, -, rfl⟩ | ⟨-, -, rfl⟩
    · refine ⟨_, rfl, fun o ho => ?_⟩
      simp only [BankId.Client.collecting, Asking.ofExchange] at hdecides
      cases hread : q.read r.2 with
      | error failure =>
        rw [hread] at ho
        cases ho
      | ok p =>
        rw [hread] at ho hdecides
        obtain rfl := Except.ok.inj ho
        rcases hdecides with hover | ⟨_, _, hno⟩
        · exact isFinal_outcomeOf handle hover
        · exact hno.elim
    · exact ⟨_, rfl, fun o ho => by cases ho⟩

/-- What is given to somebody who waits for the result of a Freja order is final. -/
theorem isFinal_of_freja {client : Freja.Client} (run : Runs t₀ registry h now s)
    (harrival : arrival ∈ h) (harrive : arrival.event =
      .arrive id ((client.collectOrder handle cancelOnError).map f) readFrom givenUp)
    (hv : s.visit? id = some v) (hdone : v.ending = some (.done t x)) :
    ∃ y, x = f y ∧ ∀ o, y = .ok o → o.status.isFinal = true := by
  have hplain : ((client.collectOrder handle cancelOnError).map f).IsPlain := trivial
  obtain ⟨past, tr, later, e?, rfl, -, -, he, hgives⟩ :=
    given_of_runs run hplain harrival harrive hv hdone
  obtain ⟨y, rfl, hy⟩ := Job.gives_of_map hgives
  refine ⟨y, rfl, fun o ho => ?_⟩
  cases hy with
  | unpolled => cases ho
  | @polled _ _ _ _ _ outcome =>
    obtain ⟨n, -, hmail⟩ := deliver_of_polled he
    cases outcome with
    | error failure => cases ho
    | ok r =>
      obtain ⟨-, hfinal, -⟩ := result_of_mail run harrival harrive (List.mem_of_getElem? hmail)
      exact isFinal_of_outcomeOf hfinal ho

/-- **Waits stop at the first answer that decides.** Who waits for an order that has a name asks one
question at a time: the first one at once, or after an interval where the end of a BankID order is
waited for, and the next one an interval after each answer. The first answer that is a failure, that
shows that the order is over or that, where changes are waited for, differs from the first is what
the visit gives; no question follows it. Who gives up during a rest is told so, and nothing more is
asked. And whatever outcome is given to somebody who waits for the end of an order, of either
provider, its status is final. -/
theorem waits_until_decided {α : Type} (run : Runs t₀ registry h now s) (harrival : arrival ∈ h) :
    (∀ (client : BankId.Client) orderRef cancelOnError (result : BankId.Progress → α)
        (f : Except Failure α → ρ), orderRef ≠ "" →
      arrival.event = .arrive id ((client.collectWith orderRef cancelOnError result).map f) readFrom
        givenUp →
      ∃ x, client.collectOnce orderRef = .ok x ∧
        Waits (client.collecting x result f) h s id arrival.time givenUp) ∧
    (∀ (client : BankId.Client) (q : BankId.ChangeQuery) cancelOnError
        (result : BankId.Progress → α) (f : Except Failure α → ρ), q.orderRef ≠ "" →
      arrival.event = .arrive id ((client.changeWith q cancelOnError result).map f) readFrom
        givenUp →
      ∃ x, client.collectOnce q.orderRef = .ok x ∧
        Waits (client.changing q x result f) h s id arrival.time givenUp) ∧
    (∀ (client : Freja.Client) handle cancelOnError (f : Except Failure Outcome → ρ),
      handle.reference ≠ "" →
      arrival.event = .arrive id ((client.changeOrder handle cancelOnError).map f) readFrom
        givenUp →
      ∃ x, client.oneResult handle.mode handle.reference = .ok x ∧
        Waits (client.changing handle x f) h s id arrival.time givenUp) ∧
    (∀ handle cancelOnError (f : Except Failure Outcome → ρ) v t x,
      arrival.event = .arrive id
        (((Inquiry.collect cancelOnError).activity registry handle).map f) readFrom givenUp →
      s.visit? id = some v → v.ending = some (.done t x) →
      ∃ y, x = f y ∧ ∀ o, y = .ok o → o.status.isFinal = true) := by
  refine ⟨?_, ?_, ?_, ?_⟩
  · intro client orderRef cancelOnError result f href harrive
    obtain ⟨x, hx, hasks⟩ := BankId.asks_collectWith cancelOnError client href result f
    exact ⟨x, hx, waits_of_asks hasks run harrival harrive⟩
  · intro client q cancelOnError result f href harrive
    obtain ⟨x, hx, hasks⟩ := BankId.asks_changeWith cancelOnError client href result f
    exact ⟨x, hx, waits_of_asks hasks run harrival harrive⟩
  · intro client handle cancelOnError f href harrive
    obtain ⟨x, hx, hasks⟩ := Freja.asks_changeOrder cancelOnError client href f
    exact ⟨x, hx, waits_of_asks hasks run harrival harrive⟩
  · intro handle cancelOnError f v t x harrive hv hdone
    cases hp : registry.provider handle.providerName with
    | error failure =>
      rw [Inquiry.activity_of_failure hp] at harrive
      obtain ⟨_, _, _, _, -, -, -, -, hgives⟩ :=
        given_of_runs run (by trivial) harrival harrive hv hdone
      cases hgives
      exact ⟨_, rfl, fun o ho => by cases ho⟩
    | ok p =>
      rw [Inquiry.activity_of_provider hp] at harrive
      cases p with
      | bankId client => exact isFinal_of_bankId run harrival harrive hv hdone
      | freja client => exact isFinal_of_freja run harrival harrive hv hdone

end

/-! ## A change -/

/-- A job that waits takes the answer. -/
theorem machine_answered {s : Service ρ} {id slot : Nat} {call : Call} {answer : Answer}
    {v : Visit ρ} {w : Wait ρ} {question : Except ρ Call} {read : Answer → Except ρ (Sighting ρ)}
    {cancel : Option Call} {r : Except ρ (Sighting ρ)} (now : Nat) (hv : s.visit? id = some v)
    (hjob : v.job = .wait w question read cancel) (hread : read answer = r) :
    machine now s (.reply ⟨some (.job id slot), call⟩ answer) =
      some ({ s.moved now id v (Job.ofWait now question read cancel (w.answered now r)) with
          outbox := [] },
        (s.moved now id v (Job.ofWait now question read cancel (w.answered now r))).outbox) := by
  subst hread
  simp only [machine, react, answered, onJob, hv, hjob, Job.answered, Option.map_some]

/-- Somebody waits for a change of a BankID order, and is given the second reply, whose hint code is
another than that of the first. -/
theorem change_awaited :
    ∃ (client : BankId.Client) (q : BankId.ChangeQuery) (x : Exchange BankId.Progress)
      (h : History (Except Failure BankId.Progress)) (s : Service (Except Failure BankId.Progress))
      (v : Visit (Except Failure BankId.Progress)) (p : BankId.Progress),
      Runs 0 { bankId := some client } h 1200 s ∧ Waits (client.changing q x id id) h s 7 0 false ∧
        s.visit? 7 = some v ∧ v.ending = some (.done 1200 (.ok p)) ∧ p.hintCode = "started" ∧
        (asked h 7).map (·.1) = [0, 1100] := by
  let client : BankId.Client := ⟨"https://appapi2.bankid.com", 1000, 15000⟩
  let registry : Registry := { bankId := some client }
  let q : BankId.ChangeQuery := { orderRef := "131daac9" }
  let a : Activity (Except Failure BankId.Progress) := (client.changeWith q false id).map id
  let x : Exchange BankId.Progress :=
    client.post BankId.collectPath (Wire.toJson (BankId.OrderName.mk "131daac9")) Wire.ofTree?
  let pending (hint : String) : BankId.Progress :=
    { orderRef := "131daac9", status := .pending, hintCode := hint }
  let told (hint : String) : Answer := .replied 200 ("\x7b\"orderRef\":\"131daac9\"," ++
    "\"status\":\"pending\",\"hintCode\":\"" ++ hint ++ "\"\x7d").toUTF8
  have hfirst : BankId.readAnswer (α := BankId.Progress) Wire.ofTree? (told "userSign") =
      .ok (pending "userSign") := by decide +kernel
  have hsecond : BankId.readAnswer (α := BankId.Progress) Wire.ofTree? (told "started") =
      .ok (pending "started") := by decide +kernel
  let rule : Wait.Rule (Except Failure BankId.Progress) :=
    { asksAtOnce := true, endsOnChange := true, interval := 1000, cancelsAbandoned := false
      cancelled := BankId.cancelled }
  let read : Answer → Except (Except Failure BankId.Progress) (Sighting _) :=
    Activity.seenBy x (BankId.sightingOf id) id
  let job (phase : Wait.Phase) (baseline : Option String) : Job (Except Failure BankId.Progress) :=
    .wait { rule, phase, baseline } (.ok x.call) read
      (Activity.cancelCall? (client.cancel "131daac9"))
  have ha : a = .wait rule (.ok x.call) read (Activity.cancelCall? (client.cancel "131daac9")) :=
    Activity.polling_ok id
  have hread (answer : Answer) (p : BankId.Progress) (h : x.read answer = .ok p) :
      read answer = .ok (BankId.sightingOf id p) := by
    simp only [read, Activity.seenBy, h]
    rfl
  let asks : Visit (Except Failure BankId.Progress) := { job := job .asking none }
  let rests : Visit (Except Failure BankId.Progress) :=
    { job := job (.resting 1100) (some "userSign") }
  let asksAgain : Visit (Except Failure BankId.Progress) := { job := job .asking (some "userSign") }
  let done : Visit (Except Failure BankId.Progress) :=
    { job := job .over (some "userSign"), ending := some (.done 1200 (.ok (pending "started"))) }
  let question : Outgoing := ⟨some (.job 7 0), x.call⟩
  let s₁ : Service (Except Failure BankId.Progress) := { registry, visits := [(7, asks)] }
  let s₂ : Service (Except Failure BankId.Progress) := { registry, visits := [(7, rests)] }
  let s₃ : Service (Except Failure BankId.Progress) := { registry, visits := [(7, asksAgain)] }
  let s₄ : Service (Except Failure BankId.Progress) := { registry, visits := [(7, done)] }
  have hcomes : machine 0 (Service.start 0 registry) (.arrive 7 a 0 false) =
      some (s₁, [question]) := by
    rw [ha]
    rfl
  have hrests : machine 100 s₁ (.reply question (told "userSign")) = some (s₂, []) :=
    (machine_answered (s := s₁) 100 rfl rfl
      (hread (told "userSign") (pending "userSign") hfirst)).trans rfl
  have hasks : machine 1100 s₂ (.advance 7) = some (s₃, [question]) := rfl
  have hends : machine 1200 s₃ (.reply question (told "started")) = some (s₄, []) :=
    (machine_answered (s := s₃) 1200 rfl rfl
      (hread (told "started") (pending "started") hsecond)).trans rfl
  have run₁ : Runs 0 registry [⟨0, _, .arrive 7 a 0 false, s₁, [question]⟩] 0 s₁ :=
    Run.start.next (Nat.le_refl 0) (by rintro ⟨tr, htr, -⟩; cases htr) hcomes
  have run₂ := run₁.next (Nat.le_add_right 0 100) (by exact ⟨_, .head _, .head _⟩) hrests
  have run₃ := run₂.next (Nat.le_add_right 100 1000) (by trivial) hasks
  have run₄ := run₃.next (Nat.le_add_right 1100 100) (by exact ⟨_, .head _, .head _⟩) hends
  obtain ⟨-, hchange, -⟩ := waits_until_decided (α := BankId.Progress) run₄ (.head _)
  obtain ⟨x', hx', hwaits⟩ := hchange client q false id id (by decide) rfl
  obtain rfl : x = x' := Except.ok.inj hx'
  exact ⟨client, q, x, _, s₄, done, pending "started", run₄, hwaits, rfl, rfl, rfl, rfl⟩

end Service

end OrderBroker
