import OrderBroker.Proofs.BankId.Requested
import OrderBroker.Proofs.Starting
import OrderBroker.Proofs.Wire.BankId

/-!
# What BankID orders say

An order is sent to BankID if there is an address, its layout is known, and what it shows and hides
keeps to the limits of its mode in base64 (`Admissible`); any other is refused before anything is
sent (`order_sent`). The lengths are reckoned before the base64 is written, and are those of the
texts that are written then (`Base64.length_encode`).

A field is left out where it is empty, and says its value otherwise (`Says`), so that the text of an
order says all of it: no two orders are sent as the same text (`SentOrder.Conveys.unique`).
-/

namespace OrderBroker.BankId

open OrderBroker.Order (Mode)
open Service (Runs Receives sentBy)

/-! ## Orders that may be sent -/

/-- The most letters in base64 of what is shown. -/
def maxVisible : Mode → Nat
  | .auth => 1500
  | .sign => 40000

/-- The most letters in base64 of what is hidden. -/
def maxHidden : Mode → Nat
  | .auth => 1500
  | .sign => 200000

/-- The order keeps to BankID's rules. Base64 has four letters for every three bytes, and for the
last ones. -/
structure Admissible (mode : Mode) (q : StartRequest) : Prop where
  ip : q.endUserIp ≠ ""
  format : q.format = "" ∨ q.format = "simpleMarkdownV1"
  visible : 4 * ((q.visible.toUTF8.size + 2) / 3) ≤ maxVisible mode
  hidden : 4 * ((q.hidden.size + 2) / 3) ≤ maxHidden mode
  shown : mode = .sign → q.visible ≠ ""

/-- The checks of a mode. -/
def StartRequest.check (q : StartRequest) : Mode → Except StartFault Unit
  | .auth => q.checkAuth
  | .sign => q.checkSign

section
variable {q : StartRequest}

/-- One check comes after another. -/
theorem bind_eq_ok {x : Except StartFault Unit} {f : Unit → Except StartFault Unit} :
    (x >>= f) = .ok () ↔ x = .ok () ∧ f () = .ok () := by
  cases x <;> simp [Bind.bind, Except.bind]

theorem checkCommon_eq_ok : q.checkCommon = .ok () ↔
    q.endUserIp ≠ "" ∧ (q.format = "" ∨ q.format = simpleMarkdown) := by
  unfold StartRequest.checkCommon
  by_cases hip : q.endUserIp = ""
  · simp [hip]
  · by_cases hformat : q.format ≠ "" ∧ q.format ≠ simpleMarkdown
    · simp [hip, hformat]
    · rw [if_neg hip, if_neg hformat]
      simp only [ne_eq, not_and_or, not_not] at hformat
      simp [hip, hformat]

theorem checkLengths_eq_ok {maxVisible maxHidden : Nat} :
    q.checkLengths maxVisible maxHidden = .ok () ↔
      Base64.encodedLength q.visible.toUTF8 ≤ maxVisible ∧
        Base64.encodedLength q.hidden ≤ maxHidden := by
  unfold StartRequest.checkLengths
  by_cases hvisible : maxVisible < Base64.encodedLength q.visible.toUTF8
  · rw [if_pos hvisible]
    exact iff_of_false nofun fun h => absurd h.1 (Nat.not_le.2 hvisible)
  · rw [if_neg hvisible]
    by_cases hhidden : maxHidden < Base64.encodedLength q.hidden
    · rw [if_pos hhidden]
      exact iff_of_false nofun fun h => absurd h.2 (Nat.not_le.2 hhidden)
    · rw [if_neg hhidden]
      exact iff_of_true rfl ⟨Nat.not_lt.1 hvisible, Nat.not_lt.1 hhidden⟩

/-- **The checks** are passed by the orders that keep to the rules. -/
theorem check_eq_ok (mode : Mode) : q.check mode = .ok () ↔ Admissible mode q := by
  have hlength (bytes : ByteArray) :
      Base64.encodedLength bytes = 4 * ((bytes.size + 2) / 3) := Nat.mul_comm _ _
  cases mode with
  | auth =>
    simp only [StartRequest.check, StartRequest.checkAuth, bind_eq_ok, checkCommon_eq_ok,
      checkLengths_eq_ok, hlength]
    exact ⟨fun ⟨⟨hip, hformat⟩, hvisible, hhidden⟩ => ⟨hip, hformat, hvisible, hhidden, nofun⟩,
      fun h => ⟨⟨h.ip, h.format⟩, h.visible, h.hidden⟩⟩
  | sign =>
    simp only [StartRequest.check, StartRequest.checkSign, bind_eq_ok, checkCommon_eq_ok]
    by_cases hshown : q.visible = ""
    · rw [if_pos hshown, bind_eq_ok]
      exact iff_of_false (fun h => nomatch h.2.1) fun h => h.shown rfl hshown
    · rw [if_neg hshown, checkLengths_eq_ok, hlength, hlength]
      exact ⟨fun ⟨⟨hip, hformat⟩, hvisible, hhidden⟩ =>
        ⟨hip, hformat, hvisible, hhidden, fun _ => hshown⟩,
        fun h => ⟨⟨h.ip, h.format⟩, h.visible, h.hidden⟩⟩

end

/-! ## Orders as they are read -/

/-- An order as it is sent, with its fields as far as they are given: what is shown and hidden in
base64. -/
structure SentOrder where
  endUserIp : Option String
  requirement : Option Requirement
  visible : Option String
  hidden : Option String
  format : Option String

/-- The fields of an order. -/
def SentOrder.fields : Json.Fields :=
  Json.Fields.ofNames
    ["endUserIp", "requirement", "userVisibleData", "userNonVisibleData", "userVisibleDataFormat"]

/-- Reads an order as it is sent. -/
def SentOrder.ofTree? (t : Json.Tree) : Option SentOrder := do
  let r ← Json.Record.ofTree? fields t
  return {
    endUserIp := ← r.given? "endUserIp" (·.text?)
    requirement := ← r.given? "requirement" Wire.ofTree?
    visible := ← r.given? "userVisibleData" (·.text?)
    hidden := ← r.given? "userNonVisibleData" (·.text?)
    format := ← r.given? "userVisibleDataFormat" (·.text?) }

/-- `Says read default field value`: the field is left out exactly if the value is the default, and
otherwise says the value. -/
structure Says {α β : Type} (read : α → Option β) (default : β) (field : Option α) (value : β) :
    Prop where
  absent : field = none ↔ value = default
  reads : ∀ x ∈ field, read x = some value

/-- The order says what was asked for, and its base64 keeps to the limits of the mode. -/
structure SentOrder.Conveys (o : SentOrder) (mode : Mode) (q : StartRequest) : Prop where
  ip : Says some "" o.endUserIp q.endUserIp
  requirement : Says some {} o.requirement q.requirement
  visible : Says Base64.standard.decode? .empty o.visible q.visible.toUTF8
  hidden : Says Base64.standard.decode? .empty o.hidden q.hidden
  format : Says some "" o.format q.format
  visibleFits : ∀ text ∈ o.visible, text.length ≤ maxVisible mode
  hiddenFits : ∀ text ∈ o.hidden, text.length ≤ maxHidden mode

section
variable {α β : Type} {read : α → Option β} {default value value' : β} {field : Option α}

/-- A field says one value. -/
theorem Says.unique (h : Says read default field value) (h' : Says read default field value') :
    value = value' := by
  cases field with
  | none => rw [h.absent.1 rfl, h'.absent.1 rfl]
  | some x => exact Option.some.inj ((h.reads x rfl).symm.trans (h'.reads x rfl))

/-- A field that is written where the value is not the default says the value. -/
theorem says_if {c : Prop} [Decidable c] {x : α} (hc : c ↔ value ≠ default)
    (hx : read x = some value) : Says read default (if c then some x else none) value := by
  by_cases hgiven : c
  · rw [if_pos hgiven]
    exact ⟨iff_of_false (Option.some_ne_none x) (hc.1 hgiven),
      fun y hy => Option.some.inj hy ▸ hx⟩
  · rw [if_neg hgiven]
    exact ⟨iff_of_true rfl (not_not.1 (mt hc.2 hgiven)), by simp⟩

end

section
variable {o : SentOrder} {mode mode' : Mode} {q q' : StartRequest}

/-- **An order says all of what was asked for**: it says so of one request only. -/
theorem SentOrder.Conveys.unique (h : o.Conveys mode q) (h' : o.Conveys mode' q') : q = q' := by
  have hip := h.ip.unique h'.ip
  have hrequirement := h.requirement.unique h'.requirement
  have hvisible := String.toByteArray_inj.1 (h.visible.unique h'.visible)
  have hhidden := h.hidden.unique h'.hidden
  have hformat := h.format.unique h'.format
  cases q
  cases q'
  simp_all

/-- An order as it is written. -/
def StartRequest.sent (q : StartRequest) : SentOrder where
  endUserIp := some q.endUserIp
  requirement := if q.requirement ≠ {} then some q.requirement else none
  visible := if q.visible ≠ "" then some (Base64.standard.encode q.visible.toUTF8) else none
  hidden := if q.hidden.size ≠ 0 then some (Base64.standard.encode q.hidden) else none
  format := if q.format ≠ "" then some q.format else none

/-- An order is read as it was written. -/
theorem readsAs_startRequest (q : StartRequest) :
    Json.ReadsAs q.toJson SentOrder.ofTree? q.sent := by
  refine Json.readsAs_record SentOrder.fields
    [("endUserIp", some (.string q.endUserIp)),
      ("requirement", if decide (q.requirement ≠ {}) then some (Wire.toJson q.requirement)
        else none),
      ("userVisibleData", if decide (q.visible ≠ "") then
        some (.string (Base64.standard.encode q.visible.toUTF8)) else none),
      ("userNonVisibleData", if decide (q.hidden.size ≠ 0) then
        some (.string (Base64.standard.encode q.hidden)) else none),
      ("userVisibleDataFormat", if decide (q.format ≠ "") then some (.string q.format) else none)]
    ?_ (fun t => rfl) (by decide) rfl ?_ fun r hr => ?_
  · simp only [StartRequest.toJson, Json.fieldIf_eq]
    rfl
  · simp [(readsAs_requirement _).plain]
  · simp only [hr.given "endUserIp" rfl (Json.readsAs_text q.endUserIp),
      hr.given_if "requirement" rfl (readsAs_requirement q.requirement),
      hr.given_if "userVisibleData" rfl (Json.readsAs_text _),
      hr.given_if "userNonVisibleData" rfl (Json.readsAs_text _),
      hr.given_if "userVisibleDataFormat" rfl (Json.readsAs_text q.format), decide_eq_true_eq]
    rfl

/-- An order that may be sent says what was asked for. -/
theorem conveys_sent (hq : Admissible mode q) : q.sent.Conveys mode q := by
  have hfits {c : Prop} [Decidable c] {bytes : ByteArray} {max : Nat}
      (hmax : 4 * ((bytes.size + 2) / 3) ≤ max) :
      ∀ text ∈ if c then some (Base64.standard.encode bytes) else none, text.length ≤ max := by
    intro text htext
    obtain ⟨-, heq⟩ := Option.ite_none_right_eq_some.1 htext
    rw [← Option.some.inj heq, Base64.length_encode rfl, Base64.encodedLength]
    omega
  exact {
    ip := ⟨iff_of_false (Option.some_ne_none _) hq.ip, fun x hx => hx.symm⟩
    requirement := says_if Iff.rfl rfl
    visible := says_if String.toByteArray_eq_empty_iff.not.symm
      (Base64.decode?_encode Base64.distinct_standard _)
    hidden := says_if ByteArray.size_eq_zero_iff.not
      (Base64.decode?_encode Base64.distinct_standard _)
    format := says_if Iff.rfl rfl
    visibleFits := hfits hq.visible
    hiddenFits := hfits hq.hidden }

end

/-! ## Orders that are sent -/

/-- Where orders of a mode are started. -/
def startPath : Mode → String
  | .auth => "/rp/v6.0/auth"
  | .sign => "/rp/v6.0/sign"

/-- `Asks client mode q call`: the request is for an order of the mode that says what was asked
for. -/
structure Asks (client : Client) (mode : Mode) (q : StartRequest) (call : Call) : Prop where
  vendor : call.vendor = .bankId
  method : call.method = .post
  url : call.url = client.baseUrl ++ startPath mode
  order : ∃ members o, call.body = (Json.object members).render ∧
    (Json.Tree.ofBytes? (Json.utf8 call.body)).bind SentOrder.ofTree? = some o ∧
    o.Conveys mode q

section
variable {client client' : Client} {mode mode' : Mode} {q q' : StartRequest} {call call' : Call}

/-- **No two orders** are sent as the same text. -/
theorem Asks.unique (h : Asks client mode q call) (h' : Asks client' mode' q' call')
    (hbody : call'.body = call.body) : q' = q := by
  obtain ⟨-, o, -, hread, hconveys⟩ := h.order
  obtain ⟨-, o', -, hread', hconveys'⟩ := h'.order
  rw [hbody, hread, Option.some.injEq] at hread'
  subst hread'
  exact hconveys'.unique hconveys

/-- The request for an order that may be sent. -/
theorem asks_post (hq : Admissible mode q) :
    Asks client mode q
      (client.post (startPath mode) q.toJson (Wire.ofTree? : _ → Option StartedOrder)).call := by
  have hreads := readsAs_startRequest q
  obtain ⟨members, hobject⟩ : ∃ members, q.toJson = .object members := ⟨_, rfl⟩
  rw [hobject] at hreads ⊢
  refine ⟨rfl, rfl, rfl, members, q.sent, rfl, ?_, conveys_sent hq⟩
  rw [Client.post, Json.ofBytes?_render hreads.plain, Option.bind_some, hreads.read]

/-- What is made of an order depends on the checks alone. -/
theorem order_eq (client : Client) (mode : Mode) (q : StartRequest) :
    client.order mode q = match q.check mode with
      | .ok () => .ok (client.post (startPath mode) q.toJson Wire.ofTree?)
      | .error fault => .error (invalid fault.text) := by
  cases mode <;> rfl

/-- **Whether there is a request for the order** depends on the rules. -/
theorem order_cases (client : Client) (mode : Mode) (q : StartRequest) :
    (Admissible mode q ∧ ∃ x, client.order mode q = .ok x ∧ Asks client mode q x.call) ∨
      (¬ Admissible mode q ∧ ∃ reason, client.order mode q =
        .error (.at .bankId (.validation reason))) := by
  rw [order_eq, ← check_eq_ok]
  cases hcheck : q.check mode with
  | ok => exact .inl ⟨rfl, _, rfl, asks_post ((check_eq_ok mode).1 hcheck)⟩
  | error fault => exact .inr ⟨nofun, _, rfl⟩

end

/-! ## Wishes for orders -/

/-- The endpoint where BankID's own orders of a mode are started. -/
def ownAction : Mode → Http.Action
  | .auth => .bankIdAuth
  | .sign => .bankIdSign

/-- `Orders registry client mode q streamed fails a`: the activity is to start this order at BankID,
for somebody who calls the client or the common operation, or who sends a request to the common
endpoint or to BankID's own, which then gives the order in its body; he is given `fails failure`
where this fails. The order is streamed to whoever sends his request to BankID's own endpoint and
does not ask for it once. -/
inductive Orders (registry : Registry) (client : Client) (mode : Mode) (q : StartRequest) :
    {ρ : Type} → Bool → (Failure → ρ) → Activity ρ → Prop
  | client {ρ : Type} (f : Except Failure StartedOrder → ρ) :
      Orders registry client mode q false (fun failure => f (.error failure))
        ((Activity.ofExchange (client.order mode q)).map f)
  | common {ρ : Type} {fails : Failure → ρ} {a : Activity ρ} {request : Order.Request} :
      registry.provider request.provider.name = .ok (.bankId client) → requested request = q →
      Starts registry mode request fails a → Orders registry client mode q false fails a
  | own {site : Http.Site} {r : Http.Request} {kind : Option String} {t : Json.Tree}
      {accepted : StartRequest} :
      site.registry = registry → registry.bankId = some client →
      Http.Endpoint.at? r.path = some (.action (ownAction mode)) → r.method = "POST" →
      Http.Query.single? r.query "type" = some kind →
      r.read StartRequest.ofTree? = .ok accepted →
      Json.Tree.ofBytes? r.body.data.toList = some t → GivesOrder t q →
      Orders registry client mode q (kind ≠ some "once") (Http.problemFor r) (site.handle r)

/-- `Begins fails streamed x a`: the activity is one attempt, or one that goes on with a stream. -/
inductive Begins {ρ : Type} (fails : Failure → ρ) : Bool → Except Failure Call → Activity ρ → Prop
  | tries {streamed : Bool} {x : Except Failure Call} {a : Activity ρ} : a.Tries fails x →
      Begins fails streamed x a
  | streams {client : Client} {call : Call} {read : Answer → Except ρ StartedOrder}
      {style : StreamStyle} {head : ρ} {chunk : String → ρ} :
      Begins fails true (.ok call) (.orderStream client call read style head chunk)

section
variable {ρ : Type} {registry : Registry} {client : Client} {mode : Mode} {q : StartRequest}
  {streamed : Bool} {fails : Failure → ρ} {a : Activity ρ}

/-- An order that is read from a body is the one that its document gives. -/
theorem eq_of_givesOrder {r : Http.Request} {t : Json.Tree} {accepted : StartRequest}
    (hread : r.read StartRequest.ofTree? = .ok accepted)
    (ht : Json.Tree.ofBytes? r.body.data.toList = some t) (hgives : GivesOrder t q) :
    q = accepted := by
  unfold Http.Request.read at hread
  split at hread
  · cases hread
  · split at hread
    · cases hread
    · split at hread
      · next found hfound =>
        obtain rfl := Except.ok.inj hread
        rw [ht, Option.bind_some] at hfound
        exact (givesOrder_iff hfound q).1 hgives
      · cases hread

/-- **Whoever wants an order** has BankID tried, and perhaps the order streamed. -/
theorem Orders.begins (ha : Orders registry client mode q streamed fails a) :
    Begins fails streamed ((client.order mode q).map (·.call)) a := by
  cases ha with
  | client f => exact .tries ((Activity.tries_ofExchange _).map f)
  | common hp hq hstarts => exact .tries (hq ▸ startRequest_eq _ ▸ hstarts.tries hp)
  | @own site r kind t accepted hregistry hclient hat hpost hkind hread ht hgives =>
    subst hregistry
    obtain rfl := eq_of_givesOrder hread ht hgives
    have hact : site.act r (ownAction mode) =
        site.startBankId r (fun client q => client.order mode q) := by
      cases mode <;> rfl
    have hroute := (site.route_of_post hat hpost).trans hact
    simp only [Http.Site.startBankId, hkind, Http.Site.withBody_of_ok hread, Http.Site.withBankId,
      hclient] at hroute
    cases hx : client.order mode q with
    | error failure =>
      simp only [hx] at hroute
      refine .tries (Http.Site.tries_handle ?_)
      rw [hroute]
      exact .fails
    | ok x =>
      simp only [hx] at hroute
      by_cases honce : kind = some "once"
      · rw [if_pos honce] at hroute
        refine .tries (Http.Site.tries_handle ?_)
        rw [hroute]
        exact Http.Site.tries_respond (Activity.tries_ofExchange (.ok x)) _
      · rw [if_neg honce] at hroute
        rw [Http.Site.handle, hroute, decide_eq_true (p := kind ≠ some "once") honce]
        exact .streams

section
variable {h : Service.History ρ} {t₀ now id readFrom : Nat} {s : Service ρ} {call : Call}
  {tr : Transition (Service ρ) (Service.Event ρ) Outgoing} {givenUp : Bool}

/-- What is tried or goes on with a stream begins with its request. -/
theorem head?_sentBy (run : Runs t₀ registry h now s) (htr : tr ∈ h)
    (harrive : tr.event = .arrive id a readFrom givenUp)
    (ha : Begins fails streamed (.ok call) a) :
    (sentBy h id).head? = some ⟨some (.job id 0), call⟩ ∧
      (streamed = false → sentBy h id = [⟨some (.job id 0), call⟩]) := by
  cases ha with
  | tries htries =>
    cases htries with
    | sends =>
      have hsent := Service.sentBy_exchange run htr harrive
      exact ⟨by rw [hsent, List.head?_cons], fun _ => hsent⟩
  | streams =>
    obtain ⟨rest, hsent⟩ := Service.sentBy_of_arrival run htr harrive
    refine ⟨?_, nofun⟩
    rw [hsent]
    rfl

/-- **What is sent to start a BankID order.** Somebody wants an order of BankID. If the order keeps
to the rules, then what is sent for him first, and all that is sent if the order is not streamed, is
a request for an order that says what was asked for, and whoever sends the same text asks for the
same order. Otherwise nothing is ever sent for him, and he is told that the order is not valid, and
nothing else. -/
theorem order_sent (run : Runs t₀ registry h now s) (htr : tr ∈ h)
    (harrive : tr.event = .arrive id a readFrom givenUp)
    (ha : Orders registry client mode q streamed fails a) :
    (Admissible mode q → ∃ call, (sentBy h id).head? = some ⟨some (.job id 0), call⟩ ∧
        (streamed = false → sentBy h id = [⟨some (.job id 0), call⟩]) ∧
        Asks client mode q call ∧
        ∀ {client' mode' q' call'}, Asks client' mode' q' call' → call'.body = call.body →
          q' = q) ∧
      (¬ Admissible mode q → sentBy h id = [] ∧
        ∃ reason, ∀ x, Receives h id x ↔ x = fails (.at .bankId (.validation reason))) := by
  have hbegins := ha.begins
  rcases order_cases client mode q with ⟨hq, x, hx, hasks⟩ | ⟨hnot, reason, hfault⟩
  · rw [hx] at hbegins
    obtain ⟨hfirst, honly⟩ := head?_sentBy run htr harrive hbegins
    exact ⟨fun _ => ⟨x.call, hfirst, honly, hasks, hasks.unique⟩, fun hnot => absurd hq hnot⟩
  · rw [hfault] at hbegins
    cases hbegins with
    | tries htries =>
      cases htries with
      | fails =>
        obtain ⟨hsent, hgiven⟩ := Service.quiet_settled run htr harrive
        exact ⟨fun hq => absurd hq hnot, fun _ => ⟨hsent, reason, hgiven⟩⟩

end

/-- Somebody is to sign a text that is set in markdown, and asks over HTTP that the order be
streamed. BankID is sent this order. -/
theorem streamed_order_sent :
    ∃ (site : Http.Site) (client : Client) (q : StartRequest) (h : Service.History Http.Message)
      (s : Service Http.Message) (call : Call),
      Runs 0 site.registry h 0 s ∧ q.format = simpleMarkdown ∧
        (sentBy h 7).head? = some ⟨some (.job 7 0), call⟩ ∧ Asks client .sign q call := by
  let client : Client := ⟨"https://appapi2.test.bankid.com", 2000, 15000⟩
  let site : Http.Site := { registry := { bankId := some client }, style := ⟨.sse, 1000⟩ }
  let q : StartRequest :=
    { endUserIp := "192.0.2.7", visible := "# Yes", format := "simpleMarkdownV1" }
  let r : Http.Request :=
    { method := "POST", target := "/bankid/v6/sign", contentType := some "application/json"
      body := ("\x7b\"endUserIp\":\"192.0.2.7\",\"userVisibleData\":\"# Yes\"," ++
        "\"userVisibleDataFormat\":\"simpleMarkdownV1\"\x7d").toUTF8 }
  have hread : r.read StartRequest.ofTree? = .ok q := by decide +kernel
  have hbody : (Json.Tree.ofBytes? r.body.data.toList).bind StartRequest.ofTree? = some q := by
    decide +kernel
  obtain ⟨t, ht, hfound⟩ := Option.bind_eq_some_iff.1 hbody
  have hkind : Http.Query.single? r.query "type" = some none := by decide +kernel
  have run : Runs 0 site.registry _ 0 _ :=
    Run.next (e := .arrive 7 (site.handle r) 0 false) .start (Nat.le_refl 0)
      (by rintro ⟨tr, htr, -⟩; cases htr) rfl
  have horders : Orders site.registry client .sign q true (Http.problemFor r) (site.handle r) :=
    .own rfl rfl (by decide) rfl hkind hread ht ((givesOrder_iff hfound q).2 rfl)
  have hq : Admissible .sign q :=
    ⟨by decide, .inr rfl, by decide, by decide, fun _ => by decide⟩
  obtain ⟨call, hsent, -, hasks, -⟩ := (order_sent run (.head _) rfl horders).1 hq
  exact ⟨site, client, q, _, _, call, run, rfl, hsent, hasks⟩

end

end OrderBroker.BankId
