import OrderBroker.Proofs.Exchanges
import OrderBroker.Proofs.Inquiry
import OrderBroker.Proofs.Job.Bounds
import OrderBroker.Proofs.Job.Refusals

/-!
# Operations at a provider

To start an order, to ask about it and to cancel it: whatever is done at a provider is one exchange,
polling by one question, or waiting with Freja's poller (`ProviderClient.Performs`). From this alone
follows where the requests go (`Performs.toward`), and that an operation either sends nothing and
waits with nobody, or gives nothing but values and the failures of the vendor's answers
(`Performs.mute_or_within`).
-/

namespace OrderBroker

open OrderBroker.Order (Handle Mode Outcome)

variable {α β ρ σ : Type}

/-! ## Requests -/

namespace Activity

/-- Nothing is sent, and nobody waits with a poller. -/
structure Mute (a : Activity ρ) : Prop where
  silent : ∀ call, ¬ a.Holds call
  alone : ∀ mode reference read cancels cancel, a ≠ .collect mode reference read cancels cancel

/-- Requests go to the provider alone, and only Freja's poller is waited with. -/
structure Toward (p : ProviderClient) (a : Activity ρ) : Prop where
  takes : ∀ call, a.Holds call → p.Takes call
  polls : ∀ mode reference read cancels cancel, a = .collect mode reference read cancels cancel →
    ∃ client, p = .freja client

/-- A result that is there at once is mute. -/
theorem mute_settled (x : ρ) : (Activity.settled x).Mute := by
  constructor
  · intro call hcall
    cases hcall
  · intro mode reference read cancels cancel heq
    cases heq

/-- Another caller's activity waits with a poller if this one does. -/
theorem exists_collect_of_map {a : Activity ρ} {f : ρ → σ} {mode : Mode} {reference : String}
    {read : Except Failure Freja.Result → σ} {cancels : Bool} {cancel : Option Call}
    (h : a.map f = .collect mode reference read cancels cancel) :
    ∃ read', a = .collect mode reference read' cancels cancel := by
  cases a with
  | collect mode' reference' read' cancels' cancel' =>
    injection h with hmode href _ hcancels hcancel
    exact ⟨read', by rw [hmode, href, hcancels, hcancel]⟩
  | _ => cases h

/-- Another caller's activity is as mute. -/
theorem Mute.map {a : Activity ρ} (ha : a.Mute) (f : ρ → σ) : (a.map f).Mute := by
  constructor
  · exact fun call hcall => ha.silent call (holds_map.1 hcall)
  · intro mode reference read cancels cancel heq
    obtain ⟨read', rfl⟩ := exists_collect_of_map heq
    exact ha.alone _ _ _ _ _ rfl

/-- What is mute reports whatever is wished. -/
theorem Mute.reports {a : Activity ρ} (ha : a.Mute) (vendor : Vendor) (told failed : Failure → ρ) :
    a.Reports vendor told failed := by
  cases a with
  | exchange call read => exact absurd .exchange (ha.silent call)
  | wait rule question read cancel =>
    intro call hcall
    subst hcall
    exact absurd .asks (ha.silent call)
  | collect mode reference read cancels cancel => exact absurd rfl (ha.alone _ _ _ _ _)
  | orderStream client call read style head chunk => exact absurd .starts (ha.silent call)
  | _ => trivial

/-- Another caller's activity asks the same provider. -/
theorem Toward.map {p : ProviderClient} {a : Activity ρ} (ha : a.Toward p) (f : ρ → σ) :
    (a.map f).Toward p := by
  constructor
  · exact fun call hcall => ha.takes call (holds_map.1 hcall)
  · intro mode reference read cancels cancel heq
    obtain ⟨read', rfl⟩ := exists_collect_of_map heq
    exact ha.polls _ _ _ _ _ rfl

/-- What is mute asks any provider. -/
theorem Mute.toward {a : Activity ρ} (ha : a.Mute) (p : ProviderClient) : a.Toward p :=
  ⟨fun call hcall => absurd hcall (ha.silent call),
    fun _ _ _ _ _ heq => absurd heq (ha.alone _ _ _ _ _)⟩

/-- The request of one exchange. -/
theorem holds_ofExchange {x : Except Failure (Exchange α)} {call : Call}
    (h : (Activity.ofExchange x).Holds call) : ∃ y, x = .ok y ∧ call = y.call := by
  cases x with
  | ok y =>
    cases h with
    | exchange => exact ⟨y, rfl, rfl⟩
  | error failure => cases h

/-- The request by which an order is cancelled. -/
theorem eq_of_cancelCall? {cancel : Except Failure (Exchange Unit)} {call : Call}
    (h : cancelCall? cancel = some call) : ∃ y, cancel = .ok y ∧ call = y.call := by
  cases cancel with
  | ok y => exact ⟨y, rfl, (Option.some.inj h).symm⟩
  | error failure => cases h

/-- The requests of polling: its question, and the one by which its order is cancelled. -/
theorem holds_polling {rule : Wait.Rule (Except Failure α)} {question : Except Failure (Exchange β)}
    {sight : β → Sighting (Except Failure α)} {cancel : Except Failure (Exchange Unit)} {call : Call}
    (h : (Activity.polling rule question sight cancel).Holds call) :
    (∃ y, question = .ok y ∧ call = y.call) ∨ ∃ y, cancel = .ok y ∧ call = y.call := by
  cases question with
  | ok y =>
    simp only [polling] at h
    generalize hcancel : cancelCall? cancel = cancel? at h
    cases h with
    | asks => exact .inl ⟨y, rfl, rfl⟩
    | cancels => exact .inr (eq_of_cancelCall? hcancel)
  | error failure =>
    simp only [polling] at h
    generalize hcancel : cancelCall? cancel = cancel? at h
    cases h with
    | cancels => exact .inr (eq_of_cancelCall? hcancel)

/-- The request of waiting with a poller: the one by which the order is cancelled. -/
theorem holds_collect {mode : Mode} {reference : String} {read : Except Failure Freja.Result → ρ}
    {cancels : Bool} {cancel : Except Failure (Exchange Unit)} {call : Call}
    (h : (Activity.collect mode reference read cancels (cancelCall? cancel)).Holds call) :
    ∃ y, cancel = .ok y ∧ call = y.call := by
  generalize hcancel : cancelCall? cancel = cancel? at h
  cases h with
  | collect => exact eq_of_cancelCall? hcancel

end Activity

/-! ## Operations -/

/-- What is read off a good answer: a value, unless a signature does not hold. -/
def Fair (y : Except Failure α) : Prop :=
  ∀ failure, y = .error failure → ∃ reason, failure = .at .freja (.unverified reason)

/-- A value is fair. -/
theorem fair_ok (a : α) : Fair (.ok a : Except Failure α) := by
  intro failure heq
  cases heq

/-- So is what becomes of a result of Freja's. -/
theorem fair_outcomeOf (client : Freja.Client) (handle : Handle) (r : Freja.Result) :
    Fair (Freja.outcomeOf client handle r) := by
  intro failure heq
  unfold Freja.outcomeOf Freja.Client.verify at heq
  split at heq
  · split at heq
    · cases heq
    · next hverify =>
      obtain rfl := Except.error.inj heq
      split at hverify
      · cases hverify
      · split at hverify
        · cases hverify
        · exact ⟨_, (Except.error.inj hverify).symm⟩
  · cases heq

/-- What may be done at a provider. -/
inductive ProviderClient.Performs (p : ProviderClient) :
    (α : Type) → Activity (Except Failure α) → Prop
  | exchange {α : Type} {x : Except Failure (Exchange α)} : p.Permits x →
      Performs p α (.ofExchange x)
  /-- Who may not ask about an order may not cancel it either. -/
  | polling {α β : Type} {rule : Wait.Rule (Except Failure α)}
      {question : Except Failure (Exchange β)} {sight : β → Sighting (Except Failure α)}
      {cancel : Except Failure (Exchange Unit)} : p.Permits question → p.Permits cancel →
      (∀ failure, question = .error failure → ∃ cause, cancel = .error cause) →
      (∀ b, Fair (sight b).result) → Performs p α (.polling rule question sight cancel)
  | collect {α : Type} {client : Freja.Client} {mode : Mode} {reference : String}
      {read : Except Failure Freja.Result → Except Failure α} {cancels : Bool}
      {cancel : Except Failure (Exchange Unit)} : p = .freja client → p.Permits cancel →
      (∀ r, Fair (read (.ok r))) → (∀ failure, read (.error failure) = .error failure) →
      Performs p α (.collect mode reference read cancels (Activity.cancelCall? cancel))
  | map {α β : Type} {a : Activity (Except Failure α)} {f : Except Failure α → Except Failure β} :
      Performs p α a → (∀ x, Fair (f (.ok x))) →
      (∀ failure, f (.error failure) = .error failure ∨ ∃ y, f (.error failure) = .ok y) →
      Performs p β (a.map f)

namespace ProviderClient

section
variable {p : ProviderClient} {a : Activity (Except Failure α)}

/-- An exchange that is permitted goes to the provider. -/
theorem Permits.takes {x : Except Failure (Exchange α)} (hx : p.Permits x) {y : Exchange α}
    (hy : x = .ok y) : p.Takes y.call := (hx.offers hy).takes

/-- **The requests of an operation** go to its provider. -/
theorem Performs.toward (ha : p.Performs α a) : a.Toward p := by
  induction ha with
  | @exchange _ x hx =>
    constructor
    · intro call hcall
      obtain ⟨y, hy, rfl⟩ := Activity.holds_ofExchange hcall
      exact hx.takes hy
    · intro mode reference read cancels cancel heq
      cases x <;> cases heq
  | @polling _ _ _ question _ _ hquestion hcancel _ _ =>
    constructor
    · intro call hcall
      rcases Activity.holds_polling hcall with ⟨y, hy, rfl⟩ | ⟨y, hy, rfl⟩
      · exact hquestion.takes hy
      · exact hcancel.takes hy
    · intro mode reference read cancels cancel heq
      cases question <;> cases heq
  | collect hp hcancel _ _ =>
    constructor
    · intro call hcall
      obtain ⟨y, hy, rfl⟩ := Activity.holds_collect hcall
      exact hcancel.takes hy
    · exact fun _ _ _ _ _ _ => ⟨_, hp⟩
  | map _ _ _ ih => exact ih.map _

end

end ProviderClient

/-! ## Results -/

/-- The bounds suit the provider: everything may be sent, and every value given, and every failure
that an answer of the vendor, or the poller, brings. The caller does not give up. -/
structure Job.Bounds.Suits (b : Job.Bounds (Except Failure α)) (p : ProviderClient) : Prop where
  sends : ∀ call, b.sends call
  patient : b.patient
  values : ∀ y, Fair y → b.gives y
  fails : ∀ answer failure, b.hears answer → answer.Fails p.vendor failure →
    b.gives (.error failure)
  learns : ∀ failure, b.learns (.error failure) → b.gives (.error failure)

namespace ProviderClient

section
variable {p : ProviderClient} {a : Activity (Except Failure α)}

/-- Bounds that suit a provider suit it for another caller. -/
theorem suits_comap {b : Job.Bounds (Except Failure β)} (hb : b.Suits p)
    {f : Except Failure α → Except Failure β} (hvalues : ∀ x, Fair (f (.ok x)))
    (hfailures : ∀ failure, f (.error failure) = .error failure ∨
      ∃ y, f (.error failure) = .ok y) : (b.comap f).Suits p := by
  have hfailure {failure : Failure} (hgives : b.gives (.error failure)) :
      b.gives (f (.error failure)) := by
    rcases hfailures failure with heq | ⟨y, heq⟩
    · exact heq ▸ hgives
    · exact heq ▸ hb.values _ (fair_ok y)
  refine ⟨hb.sends, hb.patient, fun y hy => ?_, fun answer failure hhears hfails =>
    hfailure (hb.fails answer failure hhears hfails), fun failure hlearns =>
    hfailure (hb.learns failure hlearns)⟩
  cases y with
  | ok x => exact hb.values _ (hvalues x)
  | error failure =>
    obtain ⟨reason, rfl⟩ := hy failure rfl
    refine hfailure (hb.values _ fun failure heq => ?_)
    exact ⟨reason, (Except.error.inj heq).symm⟩

/-- **An operation** sends nothing and waits with nobody, or it stays within all bounds that suit its
provider. -/
theorem Performs.mute_or_within (ha : p.Performs α a) :
    a.Mute ∨ ∀ b : Job.Bounds (Except Failure α), b.Suits p → a.Within b := by
  induction ha with
  | @exchange α x hx =>
    cases x with
    | error failure => exact .inl (Activity.mute_settled _)
    | ok y =>
      have hoffers : p.Offers y := hx
      refine .inr fun b hb => ⟨hb.sends _, fun answer hhears => ?_⟩
      cases hread : y.read answer with
      | ok x => exact hb.values _ (fair_ok x)
      | error failure => exact hb.fails answer failure hhears (hoffers.fails answer failure hread)
  | @polling α β rule question sight cancel hquestion _ hcancel hsight =>
    cases question with
    | error failure =>
      refine .inl ⟨fun call hcall => ?_, fun _ _ _ _ _ heq => by cases heq⟩
      obtain ⟨cause, rfl⟩ := hcancel failure rfl
      rcases Activity.holds_polling hcall with ⟨y, hy, -⟩ | ⟨y, hy, -⟩ <;> cases hy
    | ok y =>
      have hoffers : p.Offers y := hquestion
      refine .inr fun b hb => ⟨fun _ _ => hb.sends _, fun x hx => (by cases hx),
        fun answer x hhears hx => ?_, fun answer s hhears hs => ?_,
        fun hgives => absurd hb.patient hgives, fun _ _ => hb.sends _⟩
      · split at hx
        · cases hx
        · next failure hread =>
          obtain rfl := Except.error.inj hx
          exact hb.fails answer failure hhears (hoffers.fails answer failure hread)
      · split at hs
        · next r _ =>
          obtain rfl := Except.ok.inj hs
          exact hb.values _ (hsight r)
        · cases hs
  | collect _ _ hvalues hfailures =>
    refine .inr fun b hb => ⟨fun outcome hlearns => ?_, fun hgives => absurd hb.patient hgives,
      fun _ _ => hb.sends _⟩
    cases outcome with
    | ok r => exact hb.values _ (hvalues r)
    | error failure => exact hfailures failure ▸ hb.learns failure hlearns
  | map _ hvalues hfailures ih =>
    rcases ih with hmute | hwithin
    · exact .inl (hmute.map _)
    · exact .inr fun b hb => (hwithin _ (suits_comap hb hvalues hfailures)).map

end

/-! ## The operations of the providers -/

/-- Starts an order at a provider. -/
def start (mode : Mode) (q : Order.Request) :
    ProviderClient → Activity (Except Failure Handle)
  | .bankId client =>
    match mode with
    | .auth => client.startAuth q
    | .sign => client.startSign q
  | .freja client =>
    match mode with
    | .auth => client.startAuth q
    | .sign => client.startSign q

/-- Cancels an order at a provider. -/
def cancelOrder (handle : Handle) : ProviderClient → Activity (Except Failure Unit)
  | .bankId client => client.cancelOrder handle
  | .freja client => client.cancelOrder handle

section
variable {p : ProviderClient}

/-- A value made of another leaves failures alone. -/
theorem Performs.mapValue {a : Activity (Except Failure α)} (ha : p.Performs α a) (f : α → β) :
    p.Performs β (a.map (·.map f)) :=
  ha.map (fun x => fair_ok (f x)) fun _ => .inl rfl

/-- Starting an order is an operation. -/
theorem performs_start (p : ProviderClient) (mode : Mode) (q : Order.Request) :
    p.Performs Handle (p.start mode q) := by
  cases p with
  | bankId client =>
    cases mode with
    | auth => exact (Performs.exchange (permits_bankId_auth _)).mapValue _
    | sign => exact (Performs.exchange (permits_bankId_sign _)).mapValue _
  | freja client =>
    cases mode with
    | auth => exact (Performs.exchange (permits_initAuth _)).mapValue _
    | sign => exact (Performs.exchange (permits_signRequest _)).mapValue _

/-- BankID is not asked about an order without a name, nor to cancel it. -/
theorem bankId_unnamed {client : BankId.Client} {orderRef : String} {failure : Failure}
    (h : client.collectOnce orderRef = .error failure) :
    ∃ cause, client.cancel orderRef = .error cause := by
  unfold BankId.Client.collectOnce at h
  split at h
  · next hempty =>
    unfold BankId.Client.cancel
    exact ⟨_, if_pos hempty⟩
  · cases h

/-- Nor is Freja. -/
theorem freja_unnamed {client : Freja.Client} {mode : Mode} {reference : String} {failure : Failure}
    (h : client.oneResult mode reference = .error failure) :
    ∃ cause, client.cancel mode reference = .error cause := by
  unfold Freja.Client.oneResult at h
  cases hname : Freja.Client.orderName mode reference with
  | ok name =>
    rw [hname] at h
    cases h
  | error cause => exact ⟨cause, by rw [Freja.Client.cancel, hname]; rfl⟩

/-- Polling BankID is an operation. -/
theorem performs_bankId_polling {client : BankId.Client} {orderRef : String}
    {rule : Wait.Rule (Except Failure α)} (result : BankId.Progress → α) :
    (ProviderClient.bankId client).Performs α
      (.polling rule (client.collectOnce orderRef) (BankId.sightingOf result)
        (client.cancel orderRef)) :=
  .polling (permits_collectOnce _) (permits_bankId_cancel _) (fun _ => bankId_unnamed)
    fun r => fair_ok (result r)

/-- An inquiry is an operation. -/
theorem performs_inquire (p : ProviderClient) (q : Inquiry) (handle : Handle) :
    p.Performs Outcome (p.inquire q handle) := by
  cases p with
  | bankId client =>
    cases q with
    | peek => exact (Performs.exchange (permits_collectOnce _)).mapValue _
    | collect cancelOnError => exact performs_bankId_polling _
    | change cancelOnError => exact performs_bankId_polling _
  | freja client =>
    cases q with
    | peek =>
      exact (Performs.exchange (permits_oneResult _ _)).map
        (fun r => fair_outcomeOf client handle r) fun _ => .inl rfl
    | collect cancelOnError =>
      exact .collect rfl (permits_freja_cancel _ _) (fun r => fair_outcomeOf client handle r)
        fun _ => rfl
    | change cancelOnError =>
      exact .polling (permits_oneResult _ _) (permits_freja_cancel _ _) (fun _ => freja_unnamed)
        fun r => fair_outcomeOf client handle r

/-- Cancelling an order is an operation. -/
theorem performs_cancelOrder (p : ProviderClient) (handle : Handle) :
    p.Performs Unit (p.cancelOrder handle) := by
  cases p with
  | bankId client =>
    refine (Performs.exchange (permits_bankId_cancel _)).map (fun _ => fair_ok ()) fun failure => ?_
    by_cases hover : BankId.saysOver failure = true
    · exact .inr ⟨(), if_pos hover⟩
    · exact .inl (if_neg hover)
  | freja client =>
    refine (Performs.exchange (permits_freja_cancel _ _)).map (fun _ => fair_ok ()) fun failure => ?_
    by_cases hover : Freja.saysOver failure = true
    · exact .inr ⟨(), if_pos hover⟩
    · exact .inl (if_neg hover)

/-! ### What operations report -/

/-- A provider's refusal says that the order to be cancelled is over. -/
def saysOver : ProviderClient → Failure → Bool
  | .bankId _ => BankId.saysOver
  | .freja _ => Freja.saysOver

/-- The starting of an order reports what the vendor refuses. -/
theorem reports_start (p : ProviderClient) (mode : Mode) (q : Order.Request) :
    (p.start mode q).Reports p.vendor .error .error := by
  cases p with
  | bankId client =>
    cases mode with
    | auth => exact Activity.reports_map_ofExchange (permits_bankId_auth _) _ _
    | sign => exact Activity.reports_map_ofExchange (permits_bankId_sign _) _ _
  | freja client =>
    cases mode with
    | auth => exact Activity.reports_map_ofExchange (permits_initAuth _) _ _
    | sign => exact Activity.reports_map_ofExchange (permits_signRequest _) _ _

/-- So does polling BankID. -/
theorem reports_bankId_polling {client : BankId.Client} {orderRef : String}
    {rule : Wait.Rule (Except Failure α)} (result : BankId.Progress → α) :
    (Activity.polling rule (client.collectOnce orderRef) (BankId.sightingOf result)
      (client.cancel orderRef)).Reports (ProviderClient.bankId client).vendor .error .error :=
  Activity.reports_polling (permits_collectOnce _) _

/-- So does an inquiry. -/
theorem reports_inquire (p : ProviderClient) (q : Inquiry) (handle : Handle) :
    (p.inquire q handle).Reports p.vendor .error .error := by
  cases p with
  | bankId client =>
    cases q with
    | peek => exact Activity.reports_map_ofExchange (permits_collectOnce _) _ _
    | collect cancelOnError => exact reports_bankId_polling _
    | change cancelOnError => exact reports_bankId_polling _
  | freja client =>
    cases q with
    | peek => exact Activity.reports_map_ofExchange (permits_oneResult _ _) _ _
    | collect cancelOnError => exact fun failure => rfl
    | change cancelOnError => exact Activity.reports_polling (permits_oneResult _ _) _

/-- So does the cancelling of an order, unless the order is over. -/
theorem reports_cancelOrder (p : ProviderClient) (handle : Handle) :
    (p.cancelOrder handle).Reports p.vendor
      (fun failure => if p.saysOver failure then .ok () else .error failure) .error := by
  cases p with
  | bankId client => exact Activity.reports_map_ofExchange (permits_bankId_cancel _) _ _
  | freja client => exact Activity.reports_map_ofExchange (permits_freja_cancel _ _) _ _

end

end ProviderClient

/-! ## The way to a provider -/

namespace Registry

variable {r : Registry} {p : ProviderClient} {name : String}

/-- Starts an order. -/
def start (r : Registry) (mode : Mode) (q : Order.Request) : Activity (Except Failure Handle) :=
  match mode with
  | .auth => r.auth q
  | .sign => r.sign q

/-- Either there is no provider of the name and nothing is done, or the provider is asked. -/
theorem atProvider_cases (r : Registry) (name : String)
    (operation : ProviderClient → Activity (Except Failure α)) :
    (∃ failure, r.provider name = .error failure ∧
      r.atProvider name operation = .settled (.error failure)) ∨
      ∃ p, r.provider name = .ok p ∧ r.atProvider name operation = operation p := by
  cases hp : r.provider name with
  | ok p => exact .inr ⟨p, rfl, by rw [atProvider, hp]⟩
  | error failure => exact .inl ⟨failure, rfl, by rw [atProvider, hp]⟩

/-- An order is started at the provider that the request names. -/
theorem start_eq (r : Registry) (mode : Mode) (q : Order.Request) :
    r.start mode q = r.atProvider q.provider.name fun p => p.start mode q := by
  cases mode <;> refine congrArg (r.atProvider _) (funext fun p => ?_) <;> cases p <;> rfl

/-- An inquiry goes to the provider that the handle names. -/
theorem inquire_eq (r : Registry) (q : Inquiry) (handle : Handle) :
    q.activity r handle = r.atProvider handle.providerName fun p => p.inquire q handle := by
  cases q <;> refine congrArg (r.atProvider _) (funext fun p => ?_) <;> cases p <;> rfl

/-- An order is cancelled at the provider that the handle names. -/
theorem cancel_eq (r : Registry) (handle : Handle) :
    r.cancel handle = r.atProvider handle.providerName fun p => p.cancelOrder handle :=
  congrArg (r.atProvider _) (funext fun p => by cases p <;> rfl)

/-- The provider of a name has this name, and is enabled. -/
theorem name_of_provider (hp : r.provider name = .ok p) :
    p.vendor.name = name ∧ p ∈ r.providers := by
  unfold provider at hp
  split at hp
  · cases hp
  · split at hp
    · next found hfound =>
      obtain rfl := Except.ok.inj hp
      exact ⟨by simpa using List.find?_some hfound, List.mem_of_find?_eq_some hfound⟩
    · cases hp

/-- Freja's client is the one that is enabled. -/
theorem freja_of_mem {client : Freja.Client} (h : .freja client ∈ r.providers) :
    r.freja = some client := by
  rcases List.mem_append.1 h with h | h
  · obtain ⟨c, -, heq⟩ := Option.map_eq_some_iff.1 (Option.mem_toList.1 h)
    cases heq
  · obtain ⟨c, hc, heq⟩ := Option.map_eq_some_iff.1 (Option.mem_toList.1 h)
    injection heq with heq
    exact heq ▸ hc

end Registry

end OrderBroker
