import OrderBroker.Http.Site
import OrderBroker.Proofs.Operations

/-!
# What requests lead to

A request to the site leads to nothing at all at the vendors, to the survey of all of them, or to
an operation at one provider: the one that its body names, or BankID (`Site.leads_route`). What an
endpoint answers is then a page, a value, or a failure of that provider.
-/

namespace OrderBroker.Http

open OrderBroker.Order (Handle)

/-! ## The provider of a request -/

/-- The endpoints of BankID's own operations. -/
def Action.isBankId : Action → Bool
  | .bankIdAuth | .bankIdSign | .bankIdCollect | .bankIdChange | .bankIdCancel => true
  | _ => false

/-- The pages that survey the vendors. -/
def Page.surveys : Page → Bool
  | .health | .readiness => true
  | _ => false

/-- The provider that the body of a request to a common endpoint names. -/
def Request.providerName? (q : Request) : Action → Option String
  | .auth | .sign =>
    (q.read (Wire.ofTree? : Json.Tree → Option Order.Request)).toOption.map (·.provider.name)
  | .peek | .collect | .change | .cancel =>
    (q.read (Wire.ofTree? : Json.Tree → Option Handle)).toOption.map (·.providerName)
  | _ => none

/-- `site.Asks q action p`: what is asked for is done at the provider. -/
inductive Site.Asks (site : Site) (q : Request) (action : Action) (p : ProviderClient) : Prop
  | common {name : String} : q.providerName? action = some name →
      site.registry.provider name = .ok p → Asks site q action p
  | bankId {client : BankId.Client} : action.isBankId = true →
      site.registry.bankId = some client → p = .bankId client → Asks site q action p

/-! ## Answers -/

/-- The answer where the vendor refuses. The common operation that cancels an order succeeds where
the order is over. -/
def Action.refused (action : Action) (p : ProviderClient) (failure : Failure) : Response :=
  if action = .cancel ∧ p.saysOver failure = true then .noContent
  else .problem (.ofFailure failure)

/-- The refusal of anything else is a problem. -/
theorem Action.refused_of_ne {action : Action} (h : action ≠ .cancel) (p : ProviderClient)
    (failure : Failure) : action.refused p failure = .problem (.ofFailure failure) :=
  if_neg fun hcancel => h hcancel.1

/-- BankID's own operations are something else. -/
theorem Action.ne_cancel {action : Action} (h : action.isBankId = true) : action ≠ .cancel := by
  rintro rfl
  cases h

/-- A value is no error. -/
theorem Response.status_value {α : Type} [Wire α] (a : α) : (Response.value a).status < 300 :=
  show 200 < 300 by decide

/-- Nor is it one to have nothing to say. -/
theorem Response.status_noContent : Response.noContent.status < 300 := show 204 < 300 by decide

/-- Nor the head of a stream. -/
theorem Response.status_stream (format : Stream.Format) : (Response.stream format).status < 300 :=
  show 200 < 300 by decide

/-- The bounds suit what the site serves of a provider: everything may be sent, and every value
given, and every failure that an answer of the vendor, or the poller, brings. The caller does not
give up. -/
structure Serves (b : Job.Bounds Message) (p : ProviderClient) : Prop where
  sends : ∀ call, b.sends call
  patient : b.patient
  values : ∀ r : Response, r.status < 300 → b.gives (.response r)
  unverified : ∀ reason,
    b.gives (.response (.problem (.ofFailure (.at .freja (.unverified reason)))))
  fails : ∀ answer failure, b.hears answer → answer.Fails p.vendor failure →
    b.gives (.response (.problem (.ofFailure failure)))
  learns : ∀ failure, b.learns (.error failure) →
    b.gives (.response (.problem (.ofFailure failure)))
  /-- Only orders of BankID are streamed. -/
  chunks : p.vendor = .bankId → ∀ text, OrderStream.Worded b.words text → b.gives (.chunk text)

/-- The bounds suit the survey of the vendors. -/
structure Surveys (b : Job.Bounds Message) : Prop where
  sends : ∀ call, b.sends call
  gives : ∀ r : Response, r.status = 200 ∨ r.status = 503 → b.gives (.response r)

/-- What a request leads to. -/
inductive Leads (site : Site) (q : Request) (a : Activity Message) : Prop
  | mute : a.Mute → Leads site q a
  | survey {page : Page} : Endpoint.at? q.path = some (.page page) → page.surveys = true →
      (∀ vendor told failed, a.Reports vendor told failed) →
      (∀ b, Surveys b → a.Within b) → Leads site q a
  | asks {action : Action} {p : ProviderClient} : Endpoint.at? q.path = some (.action action) →
      site.Asks q action p → a.Toward p → (a.Mute ∨ ∀ b, Serves b p → a.Within b) →
      a.Reports p.vendor (fun failure => .response (action.refused p failure))
        (fun failure => .response (.problem (.ofFailure failure))) → Leads site q a

namespace Site

variable {α : Type} {site : Site} {q : Request} {p : ProviderClient} {action : Action}

/-- What an operation gives is served as its value or its failure. -/
theorem suits_respond {b : Job.Bounds Message} (hb : Serves b p) {value : α → Response}
    (hvalue : ∀ a, (value a).status < 300) :
    (b.comap fun result => .response (.ofResult value result)).Suits p := by
  refine ⟨hb.sends, hb.patient, fun y hy => ?_, hb.fails, hb.learns⟩
  cases y with
  | ok a => exact hb.values _ (hvalue a)
  | error failure =>
    obtain ⟨reason, rfl⟩ := hy failure rfl
    exact hb.unverified reason

/-- `Operates action p a`: the activity asks nobody but the provider, is mute or serves what it
gives, and answers a refusal as the action does, and what the poller tells as a problem. -/
structure Operates (action : Action) (p : ProviderClient) (a : Activity Message) : Prop where
  toward : a.Toward p
  serves : a.Mute ∨ ∀ b, Serves b p → a.Within b
  reports : a.Reports p.vendor (fun failure => .response (action.refused p failure))
    fun failure => .response (.problem (.ofFailure failure))

/-- An operation at a provider. -/
theorem operates_respond {a : Activity (Except Failure α)} (ha : p.Performs α a)
    {value : α → Response} (hvalue : ∀ x, (value x).status < 300)
    {told : Failure → Except Failure α} (hreports : a.Reports p.vendor told .error)
    (htold : ∀ failure, Response.ofResult value (told failure) = action.refused p failure) :
    Operates action p (respond value a) := by
  refine ⟨ha.toward.map _, ha.mute_or_within.imp (·.map _) fun hwithin b hb => ?_, ?_⟩
  · exact (hwithin _ (suits_respond hb hvalue)).map
  · have hanswers : (fun failure => Message.response (action.refused p failure)) =
        (fun result => .response (.ofResult value result)) ∘ told :=
      funext fun failure => congrArg Message.response (htold failure).symm
    rw [hanswers]
    exact hreports.map _

/-- An operation other than the cancelling of an order. -/
theorem operates_inquiry (haction : action ≠ .cancel) {a : Activity (Except Failure α)}
    (ha : p.Performs α a) {value : α → Response} (hvalue : ∀ x, (value x).status < 300)
    (hreports : a.Reports p.vendor .error .error) : Operates action p (respond value a) :=
  operates_respond ha hvalue hreports fun failure => (action.refused_of_ne haction p failure).symm

/-- An answer that is there at once. -/
theorem mute_now (r : Response) : (now r).Mute := Activity.mute_settled _

/-- So is a failure. -/
theorem mute_respond (failure : Failure) (value : α → Response) :
    (respond value (.settled (.error failure))).Mute := Activity.mute_settled _

/-- What is asked for is nothing at the vendors, or an operation at the provider of the request. -/
inductive Acts (site : Site) (q : Request) (action : Action) (a : Activity Message) : Prop
  | mute : a.Mute → Acts site q action a
  | operates {p : ProviderClient} : site.Asks q action p → Operates action p a →
      Acts site q action a

/-- Where the body cannot be read, nothing is done. -/
theorem acts_withBody {read : Json.Tree → Option α}
    {operation : α → Activity Message}
    (h : ∀ a, q.read read = .ok a → Acts site q action (operation a)) :
    Acts site q action (withBody q read operation) := by
  unfold withBody
  split
  · next a ha => exact h a ha
  · exact .mute (mute_now _)

/-- Where the query cannot be read, nothing is done. -/
theorem acts_withFlag {name : String} {operation : Bool → Activity Message}
    (h : ∀ flag, Acts site q action (operation flag)) :
    Acts site q action (withFlag q name operation) := by
  unfold withFlag
  split
  · exact h _
  · exact .mute (mute_now _)

/-- Where there is no BankID, nothing is done. -/
theorem acts_withBankId {operation : BankId.Client → Activity Message}
    (haction : action.isBankId = true)
    (h : ∀ client, (operation client).Mute ∨ Operates action (.bankId client) (operation client)) :
    Acts site q action (site.withBankId operation) := by
  unfold withBankId
  split
  · next client hclient =>
    rcases h client with hmute | hoperates
    · exact .mute hmute
    · exact .operates (.bankId haction hclient rfl) hoperates
  · exact .mute (mute_now _)

/-- An operation at the provider of a name. -/
theorem acts_atProvider {name : String} {value : α → Response}
    {operation : ProviderClient → Activity (Except Failure α)}
    (hname : q.providerName? action = some name)
    (hoperates : ∀ p : ProviderClient, Operates action p (respond value (operation p))) :
    Acts site q action (respond value (site.registry.atProvider name operation)) := by
  rcases site.registry.atProvider_cases name operation with ⟨failure, -, heq⟩ | ⟨p, hp, heq⟩
  · rw [heq]
    exact .mute (mute_respond failure value)
  · rw [heq]
    exact .operates (.common hname hp) (hoperates p)

/-- An order that BankID streams. -/
theorem operates_orderStream (haction : action ≠ .cancel) {client : BankId.Client}
    {x : Exchange BankId.StartedOrder} (hx : (ProviderClient.bankId client).Offers x)
    (style : StreamStyle) :
    Operates action (.bankId client) (.orderStream client x.call
      (fun answer => match x.read answer with
        | .ok order => .ok order
        | .error failure => .error (.response (.problem (.ofFailure failure))))
      style (.response (.stream style.format)) .chunk) := by
  refine ⟨⟨fun call hcall => ?_, fun _ _ _ _ _ heq => by cases heq⟩, .inr fun b hb =>
    ⟨hb.sends _,
      ⟨fun _ _ _ => hb.sends _, hb.values _ (Response.status_stream _), hb.chunks rfl⟩,
      fun answer m hhears hread => ?_⟩, fun status body hstatus => ?_⟩
  · cases hcall with
    | starts => exact hx.takes
    | streams hasks => exact (ProviderClient.permits_collectOnce _).takes hasks
  · simp only at hread
    split at hread
    · cases hread
    · next failure hfailure =>
      obtain rfl := Except.error.inj hread
      exact hb.fails answer failure hhears (hx.fails answer failure hfailure)
  · simp only [hx.refuses status body hstatus, action.refused_of_ne haction]

/-- The start of a BankID order. -/
theorem acts_startBankId (haction : action.isBankId = true)
    {start : BankId.Client → BankId.StartRequest → Except Failure (Exchange BankId.StartedOrder)}
    (hstart : ∀ client request, (ProviderClient.bankId client).Permits (start client request)) :
    Acts site q action (site.startBankId q start) := by
  have hne := action.ne_cancel haction
  unfold startBankId
  split
  · exact .mute (mute_now _)
  · refine acts_withBody fun request _ => acts_withBankId haction fun client => ?_
    split
    · exact .inl (mute_now _)
    · next x hx =>
      have hoffers : (ProviderClient.bankId client).Permits (.ok x) := hx ▸ hstart client request
      split
      · exact .inr (operates_inquiry hne (.exchange hoffers) (fun _ => Response.status_value _)
          (Activity.reports_ofExchange hoffers _))
      · exact .inr (operates_orderStream hne hoffers _)

/-- A question about a BankID order. -/
theorem operates_collectBankId (haction : action ≠ .cancel) (client : BankId.Client)
    (query : BankId.CollectQuery) :
    Operates action (.bankId client) (collectBankId client query) := by
  unfold collectBankId
  split
  · exact operates_inquiry haction (ProviderClient.performs_bankId_polling _)
      Response.status_value (ProviderClient.reports_bankId_polling _)
  · exact operates_inquiry haction (.exchange (ProviderClient.permits_collectOnce _))
      Response.status_value (Activity.reports_ofExchange (ProviderClient.permits_collectOnce _) _)

/-- The cancelling of an order, whoever is its provider. -/
theorem operates_cancel (p : ProviderClient) (handle : Handle) :
    Operates .cancel p (respond (fun _ => .noContent) (p.cancelOrder handle)) := by
  refine operates_respond (p.performs_cancelOrder handle) (fun _ => Response.status_noContent)
    (p.reports_cancelOrder handle) fun failure => ?_
  simp only [Action.refused, true_and]
  split <;> rfl

/-- **What is asked for** is nothing at the vendors, or an operation at the provider of the
request. -/
theorem acts_act (site : Site) (q : Request) (action : Action) :
    Acts site q action (site.act q action) := by
  have hread {α : Type} {read : Json.Tree → Option α} {a : α} {f : α → String}
      (ha : q.read read = .ok a) : (q.read read).toOption.map f = some (f a) := by
    rw [ha]
    rfl
  have hstart (mode : Order.Mode) {request : Order.Request} (haction : action ≠ .cancel)
      (hname : q.providerName? action = some request.provider.name) :
      Acts site q action (respond .value (site.registry.start mode request)) := by
    rw [Registry.start_eq]
    exact acts_atProvider hname fun p => operates_inquiry haction (p.performs_start mode request)
      Response.status_value (p.reports_start mode request)
  have hinquire (inquiry : Inquiry) {handle : Handle} (haction : action ≠ .cancel)
      (hname : q.providerName? action = some handle.providerName) :
      Acts site q action (respond .value (inquiry.activity site.registry handle)) := by
    rw [Registry.inquire_eq]
    exact acts_atProvider hname fun p => operates_inquiry haction (p.performs_inquire inquiry handle)
      Response.status_value (p.reports_inquire inquiry handle)
  cases action with
  | auth => exact acts_withBody fun r hr => hstart .auth nofun (hread hr)
  | sign => exact acts_withBody fun r hr => hstart .sign nofun (hread hr)
  | peek => exact acts_withBody fun r hr => hinquire .peek nofun (hread hr)
  | collect =>
    unfold act
    exact acts_withFlag fun flag => acts_withBody fun r hr =>
      hinquire (.collect flag) nofun (hread hr)
  | change =>
    unfold act
    exact acts_withFlag fun flag => acts_withBody fun r hr =>
      hinquire (.change flag) nofun (hread hr)
  | cancel =>
    refine acts_withBody fun r hr => ?_
    rw [Registry.cancel_eq]
    exact acts_atProvider (hread hr) fun p => operates_cancel p r
  | bankIdAuth =>
    unfold act
    exact acts_startBankId rfl fun _ _ => ProviderClient.permits_bankId_auth _
  | bankIdSign =>
    unfold act
    exact acts_startBankId rfl fun _ _ => ProviderClient.permits_bankId_sign _
  | bankIdCollect =>
    exact acts_withBody fun query _ => acts_withBankId rfl fun client =>
      .inr (operates_collectBankId (by decide) client query)
  | bankIdChange =>
    exact acts_withBody fun query _ => acts_withBankId rfl fun client =>
      .inr (operates_inquiry (by decide) (ProviderClient.performs_bankId_polling _)
        Response.status_value (ProviderClient.reports_bankId_polling _))
  | bankIdCancel =>
    exact acts_withBody fun query _ => acts_withBankId rfl fun client =>
      .inr (operates_inquiry (by decide) (.exchange (ProviderClient.permits_bankId_cancel _))
        (fun _ => Response.status_noContent)
        (Activity.reports_ofExchange (ProviderClient.permits_bankId_cancel _) _))

/-! ## Pages and paths -/

/-- The survey of the vendors. -/
theorem within_health {b : Job.Bounds Message} (hb : Surveys b) : site.health.Within b := by
  refine ⟨fun _ _ => hb.sends _, fun answers _ => hb.gives _ ?_⟩
  simp only [Response.document, Readiness.httpStatus]
  split
  · exact .inl rfl
  · exact .inr rfl

/-- A page leads to nothing at the vendors, or to their survey. -/
theorem leads_page {page : Page} (hat : Endpoint.at? q.path = some (.page page)) :
    Leads site q (site.page page) := by
  have hhealth (hpage : page.surveys = true) : Leads site q site.health :=
    .survey hat hpage (fun _ _ _ => trivial) fun _ => within_health
  cases page with
  | providers => exact .mute (mute_now _)
  | health => exact hhealth rfl
  | liveness => exact .mute (mute_now _)
  | readiness => exact hhealth rfl

/-- The head of a page leads to what the page leads to. -/
theorem leads_head {page : Page} (hat : Endpoint.at? q.path = some (.page page)) :
    Leads site q ((site.page page).map (·.mapResponse fun r => { r with body := "" })) := by
  have hhealth (hpage : page.surveys = true) : Leads site q
      (site.health.map (·.mapResponse fun r => { r with body := "" })) := by
    refine .survey hat hpage (fun _ _ _ => trivial) fun b hb => ?_
    have hcomap : Surveys (b.comap (·.mapResponse fun r => { r with body := "" })) :=
      ⟨hb.sends, fun r hr => hb.gives _ hr⟩
    exact (within_health hcomap).map
  cases page with
  | providers => exact .mute (Activity.mute_settled _)
  | health => exact hhealth rfl
  | liveness => exact .mute (Activity.mute_settled _)
  | readiness => exact hhealth rfl

/-- **What a request leads to.** -/
theorem leads_route (site : Site) (q : Request) : Leads site q (site.route q) := by
  unfold route
  dsimp only
  split
  · exact .mute (mute_now _)
  · split
    · next endpoint hat =>
      unfold serve
      split
      · next page =>
        split
        · exact leads_page hat
        · split
          · exact leads_head hat
          · exact .mute (mute_now _)
      · next action =>
        split
        · cases acts_act site q action with
          | mute hmute => exact .mute hmute
          | operates hasks hoperates =>
            exact .asks hat hasks hoperates.toward hoperates.serves hoperates.reports
        · exact .mute (mute_now _)
    · exact .mute (mute_now _)

end Site

end OrderBroker.Http
