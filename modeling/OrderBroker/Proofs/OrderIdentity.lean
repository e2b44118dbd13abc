import OrderBroker.Proofs.Calls
import OrderBroker.Proofs.Http.Requests
import OrderBroker.Proofs.Json.Fields
import OrderBroker.Proofs.Wire.Order

/-!
# The identity of an order

The broker keeps no orders. A handle says under which name the vendor knows the order, of which
provider and of which mode it is, and what was asked for; it goes to the caller, comes back as text,
and is all that a later operation has. Nothing of this gets lost or mixed up on the way
(`order_identity`).
-/

namespace OrderBroker

open OrderBroker.Order (Handle Mode Outcome Person)
open Service (Runs SentFor Receives)

/-! ## Started orders -/

/-- For whom an order is: whoever answers, where nobody is named. BankID is told an address. -/
def ProviderClient.addressee (p : ProviderClient) (q : Order.Request) : Person :=
  let who := q.who.getD { inferred := true }
  match p with
  | .bankId _ => { who with ip := some (who.ip.getD (.v4 127 0 0 1)) }
  | .freja _ => who

/-- The handle is one of a request for an order, and keeps what was asked for. -/
structure ProviderClient.Keeps (p : ProviderClient) (mode : Mode) (q : Order.Request)
    (handle : Handle) : Prop where
  mode : handle.mode = mode
  provider : handle.request.provider = q.provider
  who : handle.request.who = some (p.addressee q)
  payload : handle.request.payload = q.payload

/-- `p.Grants mode answer reference`: the vendor's answer says that an order of the mode is started,
and what its name is. -/
inductive ProviderClient.Grants : ProviderClient → Mode → Answer → String → Prop
  | bankId {client : BankId.Client} {mode : Mode} {status : Nat} {body : ByteArray}
      {reply value : Json.Tree} {reference : String} : 200 ≤ status → status < 300 →
      Json.Tree.ofBytes? body.data.toList = some reply →
      Json.Tree.Gives "orderRef" 0 value reply → value.text? = some reference →
      Grants (.bankId client) mode (.replied status body) reference
  | freja {client : Freja.Client} {mode : Mode} {status : Nat} {body : ByteArray} {reply : Json}
      {reference : String} : 200 ≤ status → status < 300 →
      Json.ofText? (Text.lossyText body) = some reply →
      reply.get? (Freja.modeKey mode) = some (.string reference) →
      Grants (.freja client) mode (.replied status body) reference

/-- `Issued registry h id mode q handle`: the request for an order is one to a provider, which was
asked for it by the visit; the handle keeps what was asked for, and has the name that the vendor
gave to the order. -/
def Issued {ρ : Type} (registry : Registry) (h : Service.History ρ) (id : Nat) (mode : Mode)
    (q : Order.Request) (handle : Handle) : Prop :=
  ∃ p, registry.provider q.provider.name = .ok p ∧ p.Keeps mode q handle ∧
    ∃ tr ∈ h, ∃ slot call answer, tr.event = .reply ⟨some (.job id slot), call⟩ answer ∧
      p.Takes call ∧ p.Grants mode answer handle.reference

/-- BankID's handles keep what was asked for. -/
theorem keeps_bankId (client : BankId.Client) (mode : Mode) (q : Order.Request)
    (order : BankId.StartedOrder) :
    (ProviderClient.bankId client).Keeps mode q (BankId.handleOf q mode order) :=
  ⟨rfl, rfl, rfl, rfl⟩

/-- So do Freja's. -/
theorem keeps_freja (client : Freja.Client) (mode : Mode) (q : Order.Request) (reference : String) :
    (ProviderClient.freja client).Keeps mode q (Freja.handleOf q mode reference) :=
  ⟨rfl, rfl, rfl, rfl⟩

/-- An answer that is read is none of an error. -/
theorem bounds_of_isSuccess {status : Nat} (h : isSuccess status = true) :
    200 ≤ status ∧ status < 300 := by
  simpa [isSuccess] using h

/-- The name of an order is what the document gives for it. -/
theorem gives_orderRef {reply : Json.Tree} {order : BankId.StartedOrder}
    (h : Wire.ofTree? reply = some order) :
    ∃ value, Json.Tree.Gives "orderRef" 0 value reply ∧ value.text? = some order.orderRef := by
  obtain ⟨r, hr, h⟩ := Option.bind_eq_some_iff.1 h
  obtain ⟨orderRef, horderRef, h⟩ := Option.bind_eq_some_iff.1 h
  obtain ⟨autoStartToken, -, h⟩ := Option.bind_eq_some_iff.1 h
  obtain ⟨qrStartToken, -, h⟩ := Option.bind_eq_some_iff.1 h
  obtain ⟨qrStartSecret, -, h⟩ := Option.bind_eq_some_iff.1 h
  obtain rfl := Option.some.inj h
  exact Json.gives_of_required (by decide) rfl hr horderRef

/-- BankID's answer names the order. -/
theorem grants_bankId {client : BankId.Client} {path : String} {body : Json} {mode : Mode}
    {answer : Answer} {order : BankId.StartedOrder}
    (h : (client.post path body Wire.ofTree?).read answer = .ok order) :
    (ProviderClient.bankId client).Grants mode answer order.orderRef := by
  cases answer with
  | lost reason => cases h
  | replied status body =>
    simp only [BankId.Client.post, BankId.readAnswer] at h
    split at h
    · next hstatus =>
      split at h
      · next found hread =>
        obtain rfl := Except.ok.inj h
        obtain ⟨reply, hreply, hfound⟩ := Option.bind_eq_some_iff.1 hread
        obtain ⟨value, hvalue, htext⟩ := gives_orderRef hfound
        obtain ⟨hlow, hhigh⟩ := bounds_of_isSuccess hstatus
        exact .bankId hlow hhigh hreply hvalue htext
      · cases h
    · cases h

/-- An answer that has a field is not blank: it is a document itself. -/
theorem document_of_readText {text key : String} {reply value : Json}
    (h : Freja.readText Wire.ofTree? text = .ok reply) (hkey : reply.get? key = some value) :
    Json.ofText? text = some reply := by
  unfold Freja.readText at h
  dsimp only at h
  split at h
  · next found hread =>
    obtain rfl := Except.ok.inj h
    split at hread
    · have hempty : Json.ofText? "\x7b\x7d" = some (.object []) :=
        Json.Kept.ofBytes?_render (.object .nil (by simp))
      obtain rfl : .object [] = found := Option.some.inj (hempty.symm.trans hread)
      cases hkey
    · exact hread
  · cases h

/-- The field that names an order. -/
theorem get?_of_referenceOf {key reference : String} {reply : Json}
    (h : Freja.referenceOf key reply = .ok reference) :
    reply.get? key = some (.string reference) := by
  unfold Freja.referenceOf at h
  split at h
  · next found hfound =>
    obtain ⟨value, hvalue, htext⟩ := Option.bind_eq_some_iff.1 hfound
    split at h
    · cases h
    · obtain rfl := Except.ok.inj h
      cases value with
      | string text => exact Option.some.inj htext ▸ hvalue
      | _ => cases htext
  · cases h

/-- Freja's answer names the order. -/
theorem grants_freja {client : Freja.Client} {path name : String} {record : Json} (mode : Mode)
    {answer : Answer} {reference : String}
    (h : ((client.post path name record Wire.ofTree?).andThen
      (Freja.referenceOf (Freja.endpoints mode).refKey)).read answer = .ok reference) :
    (ProviderClient.freja client).Grants mode answer reference := by
  cases answer with
  | lost reason => cases h
  | replied status body =>
    simp only [Exchange.andThen, Freja.Client.post, Freja.readAnswer] at h
    split at h
    · next hstatus =>
      cases hread : Freja.readText (Wire.ofTree? : _ → Option Json) (Text.lossyText body) with
      | error failure =>
        rw [hread] at h
        cases h
      | ok reply =>
        rw [hread] at h
        obtain ⟨-, -, -, -, hmode⟩ := Freja.endpoints_eq mode
        have hkey := get?_of_referenceOf h
        obtain ⟨hlow, hhigh⟩ := bounds_of_isSuccess hstatus
        exact .freja hlow hhigh (document_of_readText hread hkey) (hmode ▸ hkey)
    · cases h

/-! ## Starting an order -/

section
variable {registry : Registry} {mode : Mode} {q : Order.Request}

/-- One exchange stays within bounds that allow what its answers say. -/
theorem within_ofExchange {α : Type} {b : Job.Bounds (Except Failure α)}
    {x : Except Failure (Exchange α)} (hsends : ∀ call, b.sends call)
    (hfails : ∀ failure, b.gives (.error failure))
    (hreads : ∀ y answer a, x = .ok y → b.hears answer → y.read answer = .ok a → b.gives (.ok a)) :
    (Activity.ofExchange x).Within b := by
  cases x with
  | error failure => exact hfails failure
  | ok y =>
    refine ⟨hsends _, fun answer hhears => ?_⟩
    cases hread : y.read answer with
    | error failure => exact hfails failure
    | ok a => exact hreads y answer a rfl hhears hread

/-- What Freja is sent for a signing order is made of a request. -/
theorem initSign_of_bind {client : Freja.Client} {x : Exchange String}
    (h : (client.signRequest q).bind client.initSign = .ok x) :
    ∃ request, client.initSign request = .ok x := by
  cases hrequest : client.signRequest q with
  | ok request => exact ⟨request, by rwa [hrequest] at h⟩
  | error failure =>
    rw [hrequest] at h
    cases h

/-- **Starting an order** at a provider stays within bounds that allow its handles. -/
theorem within_start {b : Job.Bounds (Except Failure Handle)} (p : ProviderClient)
    (hsends : ∀ call, b.sends call) (hfails : ∀ failure, b.gives (.error failure))
    (hgrants : ∀ answer handle, b.hears answer → p.Grants mode answer handle.reference →
      p.Keeps mode q handle → b.gives (.ok handle)) : (p.start mode q).Within b := by
  -- A handle is made of what the vendor's answer names.
  have hexchange {α : Type} (x : Except Failure (Exchange α)) {handleOf : α → Handle}
      (hread : ∀ y answer a, x = .ok y → y.read answer = .ok a →
        p.Grants mode answer (handleOf a).reference)
      (hkeeps : ∀ a, p.Keeps mode q (handleOf a)) :
      ((Activity.ofExchange x).map (·.map handleOf)).Within b := by
    refine (within_ofExchange (b := b.comap (·.map handleOf)) hsends hfails ?_).map
    exact fun y answer a hx hhears hy => hgrants answer _ hhears (hread y answer a hx hy) (hkeeps a)
  cases p with
  | bankId client =>
    cases mode with
    | auth =>
      refine hexchange _ (fun y answer a hx hy => ?_) (keeps_bankId client _ q)
      unfold BankId.Client.auth at hx
      split at hx
      · obtain rfl := Except.ok.inj hx
        exact grants_bankId hy
      · cases hx
    | sign =>
      refine hexchange _ (fun y answer a hx hy => ?_) (keeps_bankId client _ q)
      unfold BankId.Client.sign at hx
      split at hx
      · obtain rfl := Except.ok.inj hx
        exact grants_bankId hy
      · cases hx
  | freja client =>
    cases mode with
    | auth =>
      refine hexchange (.ok (client.initAuth _)) (fun y answer a hx hy => ?_)
        (keeps_freja client _ q)
      obtain rfl := Except.ok.inj hx
      exact grants_freja .auth hy
    | sign =>
      refine hexchange ((client.signRequest q).bind client.initSign)
        (fun y answer a hx hy => ?_) (keeps_freja client _ q)
      obtain ⟨request, hrequest⟩ := initSign_of_bind hx
      unfold Freja.Client.initSign at hrequest
      split at hrequest
      · cases hrequest
      · obtain rfl := Except.ok.inj hrequest
        exact grants_freja .sign hy

/-- The request for an order goes to the provider that it names, if there is one. -/
theorem within_registry_start {b : Job.Bounds (Except Failure Handle)}
    (hsends : ∀ call, b.sends call) (hfails : ∀ failure, b.gives (.error failure))
    (hgrants : ∀ p answer handle, registry.provider q.provider.name = .ok p → b.hears answer →
      p.Grants mode answer handle.reference → p.Keeps mode q handle → b.gives (.ok handle)) :
    (registry.start mode q).Within b := by
  rw [Registry.start_eq]
  rcases registry.atProvider_cases q.provider.name (fun p => p.start mode q) with
    ⟨failure, -, heq⟩ | ⟨p, hp, heq⟩
  · rw [heq]
    exact hfails failure
  · rw [heq]
    exact within_start p hsends hfails fun answer handle => hgrants p answer handle hp

end

/-! ## The visit that starts an order -/

section
variable {ρ : Type} {h : Service.History ρ} {t₀ now id : Nat} {registry : Registry}
  {s : Service ρ} {a : Activity ρ} {mode : Mode} {q : Order.Request}
  {tr : Transition (Service ρ) (Service.Event ρ) Outgoing} {readFrom : Nat} {givenUp : Bool}

/-- An answer came to such a request of the visit. -/
def Answered (h : Service.History ρ) (id : Nat) (asked : Call → Prop) (answer : Answer) : Prop :=
  ∃ tr ∈ h, ∃ slot call, tr.event = .reply ⟨some (.job id slot), call⟩ answer ∧ asked call

/-- Bounds on what is given to whoever starts an order. -/
def starting (h : Service.History ρ) (id : Nat) (asked : Call → Prop) (gives : ρ → Prop) :
    Job.Bounds ρ where
  sends _ := True
  gives := gives
  hears := Answered h id asked
  learns _ := True
  patient := False
  words _ := True
  stopped := trivial
  unasked _ _ _ _ := trivial
  heard _ _ _ _ _ _ := trivial

/-- What is given is within these bounds, if the activity is. -/
theorem gives_of_starting (run : Runs t₀ registry h now s) (htr : tr ∈ h)
    (harrive : tr.event = .arrive id a readFrom givenUp) {asked : Call → Prop}
    (hasked : ∀ call, a.Holds call → asked call) (gives : ρ → Prop)
    (ha : a.Within (starting h id asked gives)) {x : ρ} (hx : Receives h id x) : gives x := by
  refine Service.gives_of_runs (b := starting h id asked gives) run ⟨?_, ?_⟩ hx
  · intro tr' htr' a' readFrom' givenUp' harrive'
    obtain rfl := Service.arrival_unique run htr htr' harrive harrive'
    rw [harrive] at harrive'
    injection harrive' with _ hsame
    exact ⟨hsame ▸ ha, fun _ => not_false⟩
  · intro tr' htr' je hje
    cases je with
    | answered slot answer =>
      obtain ⟨call, hevent⟩ := Service.reply_of_answered hje
      obtain ⟨past, later, t, rfl, -, -, hmay, -⟩ := run.of_mem htr'
      rw [hevent] at hmay
      obtain ⟨sent, hsent, ho⟩ := hmay
      have hby := Service.mem_sentBy run ⟨sent, List.mem_append_left _ hsent, ho⟩ rfl
      exact ⟨tr', htr', slot, call, hevent,
        hasked call (Service.holds_of_runs run htr harrive hby)⟩
    | giveUp => exact not_false
    | _ => trivial

/-- A handle made of such an answer was issued. -/
theorem issued_of_answered {p : ProviderClient} {answer : Answer} {handle : Handle}
    (hp : registry.provider q.provider.name = .ok p)
    (hanswered : Answered h id (registry.start mode q).Holds answer)
    (hgrants : p.Grants mode answer handle.reference) (hkeeps : p.Keeps mode q handle) :
    Issued registry h id mode q handle := by
  obtain ⟨tr, htr, slot, call, hevent, hcall⟩ := hanswered
  rw [Registry.start_eq, Registry.atProvider, hp] at hcall
  exact ⟨p, hp, hkeeps, tr, htr, slot, call, answer, hevent,
    (p.performs_start mode q).toward.takes call hcall, hgrants⟩

/-- **The handle of a started order** was issued for it. -/
theorem issued_of_runs {handle : Handle} {h : Service.History (Except Failure Handle)}
    {s : Service (Except Failure Handle)} (run : Runs t₀ registry h now s)
    {tr : Transition (Service (Except Failure Handle)) (Service.Event (Except Failure Handle))
      Outgoing} (htr : tr ∈ h)
    (harrive : tr.event = .arrive id (registry.start mode q) readFrom givenUp)
    (hx : Receives h id (.ok handle)) : Issued registry h id mode q handle := by
  refine gives_of_starting run htr harrive (fun _ hcall => hcall)
    (fun y => ∀ handle, y = .ok handle → Issued registry h id mode q handle) ?_ hx _ rfl
  refine within_registry_start (fun _ => trivial) (fun _ _ heq => by cases heq) ?_
  intro p answer handle hp hanswered hgrants hkeeps handle' heq
  obtain rfl := Except.ok.inj heq
  exact issued_of_answered hp hanswered hgrants hkeeps

end

/-! ## Requests over HTTP -/

namespace Http

section
variable {site : Site} {q : Request} {action : Action}

/-- The body of a request to the endpoint of the action reads as the value. -/
structure Request.Brings {α : Type} [Wire α] (q : Request) (action : Action) (value : α) :
    Prop where
  reaches : Endpoint.at? q.path = some (.action action)
  reads : Wire.decodeBytes? q.body.data.toList = some value

/-- A request that is not posted to an endpoint is answered at once. -/
theorem Site.route_of_reaches (site : Site) (hat : Endpoint.at? q.path = some (.action action)) :
    (∃ r, site.route q = now r) ∨ site.route q = site.act q action := by
  unfold Site.route
  dsimp only
  rw [hat]
  split
  · exact .inl ⟨_, rfl⟩
  · dsimp only [Site.serve]
    split
    · exact .inr rfl
    · exact .inl ⟨_, rfl⟩

/-- One that is posted does what is asked for. -/
theorem Site.route_of_post (site : Site) (hat : Endpoint.at? q.path = some (.action action))
    (hpost : q.method = "POST") : site.route q = site.act q action := by
  simp [Site.route, hat, hpost, Site.serve]

/-- A body that reads as a value is gone on with, or is refused for its type or size. -/
theorem Site.withBody_of_reads {α : Type} {read : Json.Tree → Option α} {value : α}
    (hreads : (Json.Tree.ofBytes? q.body.data.toList).bind read = some value)
    (operation : α → Activity Message) :
    withBody q read operation = operation value ∨
      ∃ detail, withBody q read operation = now (.problem (.badRequest detail)) := by
  unfold Site.withBody Request.read
  by_cases hjson : q.isJson = true
  · by_cases hlong : Request.maxBody < q.body.size
    · exact .inr ⟨Request.tooLong, by simp [hjson, hlong]⟩
    · exact .inl (by simp [hjson, hlong, hreads])
  · exact .inr ⟨Request.notJson, by simp [hjson]⟩

end

end Http

/-- The endpoint where orders of a mode are started. -/
def Order.Mode.action : Mode → Http.Action
  | .auth => .auth
  | .sign => .sign

/-- No failure is reported as a success. -/
theorem status_ofFailure (failure : Failure) : (Http.Problem.ofFailure failure).status ≠ 200 := by
  have hstatus : (Http.Problem.ofFailure failure).status = Http.statusOf failure.kind := by
    unfold Http.Problem.ofFailure
    split <;> rfl
  rw [hstatus]
  cases failure.kind <;> decide

section
variable {h : Service.History Http.Message} {t₀ now id : Nat} {site : Http.Site}
  {s : Service Http.Message} {mode : Mode} {q : Http.Request} {order : Order.Request}
  {tr : Transition (Service Http.Message) (Service.Event Http.Message) Outgoing} {readFrom : Nat}
  {givenUp : Bool} {r : Http.Response}

/-- What a request for an order leads to. -/
theorem act_start (site : Http.Site) (hbrings : q.Brings mode.action order) :
    site.act q mode.action = Http.Site.respond .value (site.registry.start mode order) ∨
      ∃ detail, site.act q mode.action = Http.Site.now (.problem (.badRequest detail)) := by
  cases mode <;> exact Http.Site.withBody_of_reads hbrings.reads _

/-- A good answer carries a handle that was issued. -/
def CarriesHandle (registry : Registry) (h : Service.History Http.Message) (id : Nat) (mode : Mode)
    (order : Order.Request) (m : Http.Message) : Prop :=
  ∀ r, m = .response r → r.status = 200 →
    ∃ handle, r.body = Wire.encode handle ∧ Issued registry h id mode order handle

/-- **The handle of an order that is started over HTTP** was issued for it. -/
theorem issued_of_post (run : Runs t₀ site.registry h now s) (htr : tr ∈ h)
    (harrive : tr.event = .arrive id (site.handle q) readFrom givenUp)
    (hbrings : q.Brings mode.action order) (hpost : q.method = "POST")
    (hx : Receives h id (.response r)) (hstatus : r.status = 200) :
    ∃ handle, r.body = Wire.encode handle ∧ Issued site.registry h id mode order handle := by
  have hroute := site.route_of_post hbrings.reaches hpost
  rcases act_start site hbrings with hact | ⟨detail, hact⟩
  · rw [Http.Site.handle, hroute, hact] at harrive
    refine gives_of_starting run htr harrive
      (fun _ hcall => Activity.holds_map.1 (Activity.holds_map.1 hcall))
      (CarriesHandle site.registry h id mode order) ?_ hx r rfl hstatus
    refine (within_registry_start (fun _ => trivial) (fun failure r heq hr => ?_) ?_).map.map
    · injection heq with heq
      rw [← heq] at hr
      exact absurd hr (status_ofFailure failure)
    · rintro p answer handle hp hanswered hgrants hkeeps r heq -
      injection heq with heq
      exact ⟨handle, by rw [← heq]; rfl, issued_of_answered hp hanswered hgrants hkeeps⟩
  · rw [Http.Site.handle, hroute, hact] at harrive
    refine gives_of_starting run htr harrive (fun _ hcall => hcall)
      (CarriesHandle site.registry h id mode order) ?_ hx r rfl hstatus
    intro r heq hr
    injection heq with heq
    rw [← heq] at hr
    exact absurd hr (show ¬ 400 = 200 by decide)

end

/-! ## Orders that are handed back -/

/-- Somebody hands an order back: calls an operation with its handle, or sends a request whose body
reads as the handle. -/
inductive HandsBack (registry : Registry) (handle : Handle) : {ρ : Type} → Activity ρ → Prop
  | inquiry {ρ : Type} (q : Inquiry) (f : Except Failure Outcome → ρ) :
      HandsBack registry handle ((q.activity registry handle).map f)
  | cancel {ρ : Type} (f : Except Failure Unit → ρ) :
      HandsBack registry handle ((registry.cancel handle).map f)
  | request {site : Http.Site} {q : Http.Request} {action : Http.Action} :
      site.registry = registry → action ∈ [.peek, .collect, .change, .cancel] →
      q.Brings action handle → HandsBack registry handle (site.handle q)

/-- Nothing is done, or something about the order at its provider. -/
def Concerns {ρ : Type} (registry : Registry) (handle : Handle) (a : Activity ρ) : Prop :=
  a.Mute ∨ ∃ p, registry.provider handle.providerName = .ok p ∧ a.About p handle

section
variable {ρ σ : Type} {registry : Registry} {handle : Handle}

/-- Another caller's activity concerns the same order. -/
theorem Concerns.map {a : Activity ρ} (ha : Concerns registry handle a) (f : ρ → σ) :
    Concerns registry handle (a.map f) :=
  ha.imp (·.map f) fun ⟨p, hp, habout⟩ => ⟨p, hp, habout.map f⟩

/-- What is done at the provider that the handle names. -/
theorem concerns_atProvider {α : Type} {operation : ProviderClient → Activity (Except Failure α)}
    (habout : ∀ p, (operation p).About p handle) :
    Concerns registry handle (registry.atProvider handle.providerName operation) := by
  rcases registry.atProvider_cases handle.providerName operation with
    ⟨failure, -, heq⟩ | ⟨p, hp, heq⟩
  · rw [heq]
    exact .inl (Activity.mute_settled _)
  · rw [heq]
    exact .inr ⟨p, hp, habout p⟩

/-- An inquiry concerns its order. -/
theorem concerns_inquiry (q : Inquiry) : Concerns registry handle (q.activity registry handle) := by
  rw [Registry.inquire_eq]
  exact concerns_atProvider fun p => about_inquire p q handle

/-- So does cancelling it. -/
theorem concerns_cancel : Concerns registry handle (registry.cancel handle) := by
  rw [Registry.cancel_eq]
  exact concerns_atProvider fun p => about_cancelOrder p handle

/-- An answer that is there at once concerns any order. -/
theorem concerns_now (r : Http.Response) : Concerns registry handle (Http.Site.now r) :=
  .inl (Activity.mute_settled _)

/-- What is done with a body that reads as the handle concerns the order. -/
theorem concerns_withBody {q : Http.Request} {operation : Handle → Activity Http.Message}
    (hreads : Wire.decodeBytes? q.body.data.toList = some handle)
    (h : Concerns registry handle (operation handle)) :
    Concerns registry handle (Http.Site.withBody q Wire.ofTree? operation) := by
  rcases Http.Site.withBody_of_reads hreads operation with heq | ⟨detail, heq⟩
  · exact heq ▸ h
  · exact heq ▸ concerns_now _

/-- What is done with a flag of the query concerns the order. -/
theorem concerns_withFlag {q : Http.Request} {name : String}
    {operation : Bool → Activity Http.Message}
    (h : ∀ flag, Concerns registry handle (operation flag)) :
    Concerns registry handle (Http.Site.withFlag q name operation) := by
  unfold Http.Site.withFlag
  split
  · exact h _
  · exact concerns_now _

/-- What a request does that brings the handle concerns the order. -/
theorem concerns_act {site : Http.Site} {q : Http.Request} {action : Http.Action}
    (haction : action ∈ [.peek, .collect, .change, .cancel])
    (hreads : Wire.decodeBytes? q.body.data.toList = some handle) :
    Concerns site.registry handle (site.act q action) := by
  have hinquiry (q' : Inquiry) : Concerns site.registry handle
      (Http.Site.respond .value (q'.activity site.registry handle)) := (concerns_inquiry q').map _
  cases action with
  | peek => exact concerns_withBody hreads (hinquiry .peek)
  | collect =>
    unfold Http.Site.act
    refine concerns_withFlag fun flag => ?_
    exact concerns_withBody hreads (hinquiry (.collect flag))
  | change =>
    unfold Http.Site.act
    refine concerns_withFlag fun flag => ?_
    exact concerns_withBody hreads (hinquiry (.change flag))
  | cancel => exact concerns_withBody hreads (concerns_cancel.map _)
  | _ => simp at haction

/-- **To hand an order back** concerns it. -/
theorem HandsBack.concerns {a : Activity ρ} (ha : HandsBack registry handle a) :
    Concerns registry handle a := by
  cases ha with
  | inquiry q f => exact (concerns_inquiry q).map f
  | cancel f => exact concerns_cancel.map f
  | @request site q action hregistry haction hbrings =>
    subst hregistry
    have hact : Concerns site.registry handle (site.act q action) :=
      concerns_act haction hbrings.reads
    rcases site.route_of_reaches hbrings.reaches with ⟨r, heq⟩ | heq
    · exact (heq ▸ concerns_now r : Concerns site.registry handle (site.route q)).map _
    · exact (heq ▸ hact : Concerns site.registry handle (site.route q)).map _

end

/-- **The identity of an order.** The handle of an order that is started, directly or over HTTP, has
the mode, the provider, the person and the payload that were asked for, and the name that the vendor
gave to the order. Its text is read as the same handle. Whoever hands it back, or any text that
reads as this handle, causes no request but to this provider, and each of them names this order, or
no order at all where a poller asks for all results of the mode. -/
theorem order_identity (registry : Registry) :
    (∀ {h : Service.History (Except Failure Handle)} {s t₀ now id mode q readFrom givenUp handle},
      Runs t₀ registry h now s →
      (∃ tr ∈ h, tr.event = .arrive id (registry.start mode q) readFrom givenUp) →
      Receives h id (.ok handle) → Issued registry h id mode q handle) ∧
    (∀ {site : Http.Site} {h : Service.History Http.Message}
      {s t₀ now id mode q readFrom givenUp r} {order : Order.Request},
      site.registry = registry → Runs t₀ registry h now s →
      (∃ tr ∈ h, tr.event = .arrive id (site.handle q) readFrom givenUp) →
      q.Brings mode.action order → q.method = "POST" → Receives h id (.response r) →
      r.status = 200 →
      ∃ handle, r.body = Wire.encode handle ∧ Issued registry h id mode order handle) ∧
    (∀ handle : Handle, Wire.decode? (Wire.encode handle) = some handle) ∧
    ∀ {ρ : Type} {h : Service.History ρ} {s t₀ now id readFrom givenUp call} {a : Activity ρ}
      {handle : Handle}, Runs t₀ registry h now s →
      (∃ tr ∈ h, tr.event = .arrive id a readFrom givenUp) → HandsBack registry handle a →
      SentFor h id call →
      ∃ p, registry.provider handle.request.provider.name = .ok p ∧ p.Names handle call := by
  refine ⟨fun run ⟨tr, htr, harrive⟩ hx => issued_of_runs run htr harrive hx, ?_, fun handle => ?_,
    ?_⟩
  · rintro site h s t₀ now id mode q readFrom givenUp r order rfl run ⟨tr, htr, harrive⟩ hbrings
      hpost hx hstatus
    exact issued_of_post run htr harrive hbrings hpost hx hstatus
  · have hreads := Order.readsAs_handle handle
    rw [Wire.decode?, Wire.decodeBytes?, Wire.encode, Json.ofBytes?_render hreads.plain,
      Option.bind_some, hreads.read]
  · rintro ρ h s t₀ now id readFrom givenUp call a handle run ⟨tr, htr, harrive⟩ hback hsent
    rcases hback.concerns with hmute | ⟨p, hp, habout⟩
    · rcases Service.sentFor_of_runs run htr harrive hsent with
        hholds | ⟨mode, reference, read, cancels, cancel, client, heq, -⟩
      · exact absurd hholds (hmute.silent call)
      · exact absurd heq (hmute.alone _ _ _ _ _)
    · exact ⟨p, hp, names_of_sentFor run htr harrive habout (Registry.name_of_provider hp).2 hsent⟩

/-- Somebody identifies himself with Freja. When the handle comes back to wait for the result,
Freja's poller asks for this order. -/
theorem inferred_order_identified :
    ∃ (registry : Registry) (q : Order.Request) (handle : Handle) (p : ProviderClient) (call : Call)
      (h : Service.History (Except Failure Handle)) (s : Service (Except Failure Handle))
      (h' : Service.History (Except Failure Outcome)) (s' : Service (Except Failure Outcome)),
      Runs 0 registry h 5 s ∧ Receives h 7 (.ok handle) ∧ Issued registry h 7 .auth q handle ∧
        Runs 0 registry h' 0 s' ∧ SentFor h' 8 call ∧ p.Names handle call := by
  let client : Freja.Client := ⟨"https://services.test.frejaeid.com", 3000, 15000, .extended, none⟩
  let registry : Registry := { freja := some client }
  let q : Order.Request :=
    { provider := { name := "FrejaID" }, payload := some { text := "not shown" } }
  let handle : Handle := Freja.handleOf q .auth "ar-1"
  let x : Exchange String := client.initAuth { subject := .inferred, level := .extended }
  let answer : Answer := .replied 200 "\x7b\"authRef\":\"ar-1\"\x7d".toUTF8
  let a : Activity (Except Failure Handle) := registry.start .auth q
  let b : Activity (Except Failure Outcome) :=
    ((Inquiry.collect false).activity registry handle).map id
  have hread : x.read answer = .ok "ar-1" := by decide +kernel
  have hsent (s₀ s₁ : Service (Except Failure Handle)) :
      Service.May [⟨0, s₀, .arrive 7 a 0 false, s₁, [⟨some (.job 7 0), x.call⟩]⟩]
        (.reply ⟨some (.job 7 0), x.call⟩ answer) := ⟨_, .head _, .head _⟩
  have h₁ : Runs 0 registry [⟨0, _, .arrive 7 a 0 false, _, [⟨some (.job 7 0), x.call⟩]⟩] 0 _ :=
    Run.next .start (Nat.le_refl 0) (by rintro ⟨tr, htr, -⟩; cases htr) rfl
  obtain ⟨h, s, run, harrival, hgiven⟩ : ∃ (h : Service.History (Except Failure Handle))
      (s : Service (Except Failure Handle)), Runs 0 registry h 5 s ∧
        (∃ tr ∈ h, tr.event = .arrive 7 a 0 false) ∧
        Receives h 7 ((x.read answer).map (Freja.handleOf q .auth)) :=
    ⟨_, _, h₁.next (Nat.le_add_right 0 5) (hsent _ _) rfl, ⟨_, .head _, rfl⟩,
      .result (.tail _ (.head _)) rfl rfl⟩
  rw [hread] at hgiven
  -- The handle comes back.
  have h'₁ : Runs 0 registry [⟨0, _, .arrive 8 b 0 false, _, []⟩] 0 _ :=
    Run.next .start (Nat.le_refl 0) (by rintro ⟨tr, htr, -⟩; cases htr) rfl
  have h'₂ : Runs 0 registry [⟨0, _, .arrive 8 b 0 false, _, []⟩, ⟨0, _, .deliver 0, _, []⟩] 0 _ :=
    h'₁.next (Nat.le_refl 0) trivial rfl
  have hmoves (past : Service.History (Except Failure Outcome)) :
      Service.May past (.move .auth .accept) := trivial
  obtain ⟨h', s', call, run', harrival', hpolls⟩ :
      ∃ (h' : Service.History (Except Failure Outcome)) (s' : Service (Except Failure Outcome))
        (call : Call), Runs 0 registry h' 0 s' ∧ (∃ tr ∈ h', tr.event = .arrive 8 b 0 false) ∧
          SentFor h' 8 call :=
    ⟨_, _, _, h'₂.next (Nat.le_refl 0) (hmoves _) rfl, ⟨_, .head _, rfl⟩,
      .poller (o := ⟨some (.poller .auth), _⟩) (.tail _ (.tail _ (.head _))) (.head _) rfl rfl
        (.head _) rfl (.inl rfl)⟩
  obtain ⟨hissued, -, -, hnames⟩ := order_identity registry
  obtain ⟨p, -, hp⟩ := hnames run' harrival' (.inquiry _ _) hpolls
  exact ⟨registry, q, handle, p, call, h, s, h', s', run, hgiven, hissued run harrival hgiven, run',
    hpolls, hp⟩

end OrderBroker
