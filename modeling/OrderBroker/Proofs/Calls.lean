import OrderBroker.Http.Query
import OrderBroker.Proofs.Base64
import OrderBroker.Proofs.Freja.Modes
import OrderBroker.Proofs.Json.Values
import OrderBroker.Proofs.Operations
import OrderBroker.Proofs.Service.Polling

/-!
# What requests say of an order

A vendor reads the document in a request (`Call.record?`), and finds the order that it names. Every
request of an operation on an order, and every request that a poller makes for it, names this order
and no other, where its mode has its orders named (`ProviderClient.Names`,
`names_of_sentFor`).
-/

namespace OrderBroker

open OrderBroker.Order (Handle Mode)

/-! ## Documents in requests -/

/-- The document in a request, as its vendor reads it: BankID finds it as the body, Freja in base64
behind the first equals sign. -/
def Call.record? (call : Call) : Option Json :=
  match call.vendor with
  | .bankId => Json.ofText? call.body
  | .freja =>
    (Base64.standard.decode? (String.ofList (Http.Query.cutAt '=' call.body.toList).2)).bind
      fun bytes => Json.ofBytes? bytes.data.toList

/-- A document of one text is kept. -/
theorem Json.kept_single (key text : String) : Kept maxDepth (.object [(key, .string text)]) := by
  refine .object (List.pairwise_singleton _ _) fun m hm => ?_
  rw [List.mem_singleton.1 hm]
  exact .string text

/-- What is written for a value that is kept is read as this value. -/
theorem Json.Kept.ofBytes?_render {j : Json} (hj : Kept maxDepth j) :
    ofBytes? (utf8 j.render) = some j := by
  rw [ofBytes?, Json.ofBytes?_render hj.plain, Option.bind_some, hj.ofTree?_toTree]

/-- What stands behind the first separator. -/
theorem Http.Query.cutAt_append {sep : Char} {front : List Char} (hfront : ∀ c ∈ front, c ≠ sep)
    (rest : List Char) : cutAt sep (front ++ sep :: rest) = (front, rest) := by
  have htake : (front ++ sep :: rest).takeWhile (· ≠ sep) = front := by
    rw [List.takeWhile_append_of_pos (by simpa using hfront)]
    simp
  simp only [cutAt, htake]
  simp

/-- BankID reads the document that is sent to it. -/
theorem BankId.record?_post {α : Type} (client : Client) (path : String) {body : Json}
    (read : Json.Tree → Option α) (hbody : Json.Kept Json.maxDepth body) :
    (client.post path body read).call.record? = some body :=
  hbody.ofBytes?_render

/-- The document behind the name of a request, if the name is a proper one. -/
theorem Freja.decode?_encodeBody {name : String} (record : Json) (hname : '=' ∉ name.toList) :
    Base64.standard.decode?
        (String.ofList (Http.Query.cutAt '=' (encodeBody name record).toList).2) =
      some record.render.toUTF8 := by
  have hfront : ∀ c ∈ name.toList, c ≠ '=' := fun c hc heq => hname (heq ▸ hc)
  have hbody : (encodeBody name record).toList =
      name.toList ++ '=' :: (Base64.standard.encode record.render.toUTF8).toList := by
    simp [encodeBody]
  rw [hbody, Http.Query.cutAt_append hfront, String.ofList_toList,
    Base64.decode?_encode Base64.distinct_standard]

/-- Freja reads the document that is sent to it, if the request has a proper name. -/
theorem Freja.record?_post {α : Type} (client : Client) (path : String) {name : String}
    {record : Json} (read : Json.Tree → Option α) (hname : '=' ∉ name.toList)
    (hrecord : Json.Kept Json.maxDepth record) :
    (client.post path name record read).call.record? = some record := by
  simp only [Client.post, Call.record?, decode?_encodeBody record hname, Option.bind_some]
  exact hrecord.ofBytes?_render

/-! ## Orders in requests -/

/-- `p.Names handle call`: the request is one to the provider about the order, and names the order
and nothing else, or is about all orders of its mode. -/
inductive ProviderClient.Names : ProviderClient → Handle → Call → Prop
  | bankId {client : BankId.Client} {handle : Handle} {call : Call} {path : String} :
      path ∈ ["/rp/v6.0/collect", "/rp/v6.0/cancel"] → call.vendor = .bankId →
      call.url = client.baseUrl ++ path →
      call.record? = some (.object [("orderRef", .string handle.reference)]) →
      Names (.bankId client) handle call
  | freja {client : Freja.Client} {handle : Handle} {call : Call} {path : String} :
      path ∈ ["/getOneResult", "/cancel"] → call.vendor = .freja →
      call.url = client.baseUrl ++ (Freja.modePath handle.mode ++ path) →
      call.record? = some (.object [(Freja.modeKey handle.mode, .string handle.reference)]) →
      Names (.freja client) handle call
  | all {client : Freja.Client} {handle : Handle} {call : Call} : call.vendor = .freja →
      call.url = client.baseUrl ++ (Freja.modePath handle.mode ++ "/getResults") →
      call.record? = some (.object [("includePrevious", .string "ALL")]) →
      Names (.freja client) handle call

section
variable {handle : Handle} {call : Call}

/-- A question to BankID names the order. -/
theorem names_collectOnce {client : BankId.Client} {x : Exchange BankId.Progress}
    (hx : client.collectOnce handle.reference = .ok x) :
    (ProviderClient.bankId client).Names handle x.call := by
  unfold BankId.Client.collectOnce at hx
  split at hx
  · cases hx
  · obtain rfl := Except.ok.inj hx
    exact .bankId (.head _) rfl rfl (BankId.record?_post _ _ _ (Json.kept_single _ _))

/-- So does a request to BankID to cancel it. -/
theorem names_bankId_cancel {client : BankId.Client} {x : Exchange Unit}
    (hx : client.cancel handle.reference = .ok x) :
    (ProviderClient.bankId client).Names handle x.call := by
  unfold BankId.Client.cancel at hx
  split at hx
  · cases hx
  · obtain rfl := Except.ok.inj hx
    exact .bankId (.tail _ (.head _)) rfl rfl (BankId.record?_post _ _ _ (Json.kept_single _ _))

/-- Freja's records name an order under the key of its mode. -/
theorem eq_of_orderName {α : Type} {mode : Mode} {reference : String} {post : Json → Exchange α}
    {x : Exchange α} (h : (Freja.Client.orderName mode reference).map post = .ok x) :
    x = post (.object [(Freja.modeKey mode, .string reference)]) := by
  obtain ⟨-, -, -, -, hkey⟩ := Freja.endpoints_eq mode
  unfold Freja.Client.orderName at h
  dsimp only at h
  split at h
  · cases h
  · rw [← hkey]
    exact (Except.ok.inj h).symm

/-- A question to Freja names the order. -/
theorem names_oneResult {client : Freja.Client} {x : Exchange Freja.Result}
    (hx : client.oneResult handle.mode handle.reference = .ok x) :
    (ProviderClient.freja client).Names handle x.call := by
  obtain rfl := eq_of_orderName hx
  obtain ⟨hpath, -⟩ := Freja.endpoints_eq handle.mode
  refine .freja (.head _) rfl (congrArg (client.baseUrl ++ ·) hpath)
    (Freja.record?_post _ _ _ ?_ (Json.kept_single _ _))
  cases handle.mode <;> decide

/-- So does a request to Freja to cancel it. -/
theorem names_freja_cancel {client : Freja.Client} {x : Exchange Unit}
    (hx : client.cancel handle.mode handle.reference = .ok x) :
    (ProviderClient.freja client).Names handle x.call := by
  obtain rfl := eq_of_orderName hx
  obtain ⟨-, -, hpath, -⟩ := Freja.endpoints_eq handle.mode
  refine .freja (.tail _ (.head _)) rfl (congrArg (client.baseUrl ++ ·) hpath)
    (Freja.record?_post _ _ _ ?_ (Json.kept_single _ _))
  cases handle.mode <;> decide

/-- A question to Freja about all orders names none. -/
theorem names_allResults (client : Freja.Client) (handle : Handle) :
    (ProviderClient.freja client).Names handle (client.allResults handle.mode).call := by
  obtain ⟨-, hpath, -⟩ := Freja.endpoints_eq handle.mode
  refine .all rfl (congrArg (client.baseUrl ++ ·) hpath)
    (Freja.record?_post client _ (Wire.ofTree? : _ → Option Json) ?_ (Json.kept_single _ _))
  cases handle.mode <;> decide

/-- What a poller asks for somebody who waits for the order. -/
theorem names_of_polling {client : Freja.Client}
    (h : Service.Polling client handle.mode handle.reference call) :
    (ProviderClient.freja client).Names handle call := by
  cases h with
  | one hx => exact names_oneResult hx
  | all => exact names_allResults client handle

end

/-! ## Operations on an order -/

/-- The activity is about the order at the provider: its requests name it, and a poller is waited
with for it alone. -/
structure Activity.About {ρ : Type} (p : ProviderClient) (handle : Handle) (a : Activity ρ) :
    Prop where
  holds : ∀ call, a.Holds call → p.Names handle call
  collects : ∀ mode reference read cancels cancel, a = .collect mode reference read cancels cancel →
    mode = handle.mode ∧ reference = handle.reference ∧ ∃ client, p = .freja client

section
variable {ρ σ α : Type} {p : ProviderClient} {handle : Handle}

/-- Another caller's activity is about the same order. -/
theorem Activity.About.map {a : Activity ρ} (ha : a.About p handle) (f : ρ → σ) :
    (a.map f).About p handle := by
  constructor
  · exact fun call hcall => ha.holds call (holds_map.1 hcall)
  · intro mode reference read cancels cancel heq
    obtain ⟨read', rfl⟩ := exists_collect_of_map heq
    exact ha.collects _ _ _ _ _ rfl

/-- One exchange about the order. -/
theorem about_ofExchange {x : Except Failure (Exchange α)}
    (hx : ∀ y, x = .ok y → p.Names handle y.call) : (Activity.ofExchange x).About p handle := by
  constructor
  · intro call hcall
    obtain ⟨y, hy, rfl⟩ := Activity.holds_ofExchange hcall
    exact hx y hy
  · intro mode reference read cancels cancel heq
    cases x <;> cases heq

/-- Polling for the order. -/
theorem about_polling {β : Type} {rule : Wait.Rule (Except Failure α)}
    {question : Except Failure (Exchange β)} {sight : β → Sighting (Except Failure α)}
    {cancel : Except Failure (Exchange Unit)}
    (hquestion : ∀ y, question = .ok y → p.Names handle y.call)
    (hcancel : ∀ y, cancel = .ok y → p.Names handle y.call) :
    (Activity.polling rule question sight cancel).About p handle := by
  constructor
  · intro call hcall
    rcases Activity.holds_polling hcall with ⟨y, hy, rfl⟩ | ⟨y, hy, rfl⟩
    · exact hquestion y hy
    · exact hcancel y hy
  · intro mode reference read cancels cancel heq
    cases question <;> cases heq

/-- **An inquiry** is about its order. -/
theorem about_inquire (p : ProviderClient) (q : Inquiry) (handle : Handle) :
    (p.inquire q handle).About p handle := by
  cases p with
  | bankId client =>
    cases q with
    | peek => exact (about_ofExchange fun _ => names_collectOnce).map _
    | collect cancelOnError =>
      exact about_polling (fun _ => names_collectOnce) fun _ => names_bankId_cancel
    | change cancelOnError =>
      exact about_polling (fun _ => names_collectOnce) fun _ => names_bankId_cancel
  | freja client =>
    cases q with
    | peek => exact (about_ofExchange fun _ => names_oneResult).map _
    | collect cancelOnError =>
      constructor
      · intro call hcall
        obtain ⟨y, hy, rfl⟩ := Activity.holds_collect hcall
        exact names_freja_cancel hy
      · intro mode reference read cancels cancel heq
        cases heq
        exact ⟨rfl, rfl, client, rfl⟩
    | change cancelOnError =>
      exact about_polling (fun _ => names_oneResult) fun _ => names_freja_cancel

/-- **To cancel an order** is about it. -/
theorem about_cancelOrder (p : ProviderClient) (handle : Handle) :
    (p.cancelOrder handle).About p handle := by
  cases p with
  | bankId client => exact (about_ofExchange fun _ => names_bankId_cancel).map _
  | freja client => exact (about_ofExchange fun _ => names_freja_cancel).map _

end

/-- **What is sent for an operation on an order** names the order. -/
theorem names_of_sentFor {ρ : Type} {h : Service.History ρ} {t₀ now id : Nat} {registry : Registry}
    {s : Service ρ} {tr : Transition (Service ρ) (Service.Event ρ) Outgoing} {a : Activity ρ}
    {p : ProviderClient} {handle : Handle} {readFrom : Nat} {givenUp : Bool} {call : Call}
    (run : Service.Runs t₀ registry h now s) (htr : tr ∈ h)
    (harrive : tr.event = .arrive id a readFrom givenUp) (ha : a.About p handle)
    (hp : p ∈ registry.providers) (hsent : Service.SentFor h id call) : p.Names handle call := by
  rcases Service.sentFor_of_runs run htr harrive hsent with
    hholds | ⟨mode, reference, read, cancels, cancel, client, heq, hclient, hpolling⟩
  · exact ha.holds call hholds
  · obtain ⟨rfl, rfl, client', rfl⟩ := ha.collects _ _ _ _ _ heq
    have hsame := Registry.freja_of_mem hp
    rw [hclient, Option.some.injEq] at hsame
    exact hsame ▸ names_of_polling hpolling

end OrderBroker
