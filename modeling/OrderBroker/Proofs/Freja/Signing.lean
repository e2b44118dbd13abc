import OrderBroker.Proofs.Freja.Addressing
import OrderBroker.Proofs.Starting

/-!
# What signing orders say

An order to have something signed is for one person, and its data keep to Freja's limits
(`Signable`). Such an order is sent once, and any other is refused before anything is sent
(`signing_order_sent`).

What is sent is a record in base64, in which the text and the bytes to sign, and a personal number
with its country, stand in base64 again. Freja reads in it the text, the bytes, and the person as
they were given (`SentOrder.Conveys`), and kinds of signature and of data that say whether there are
bytes.
-/

namespace OrderBroker.Freja

open Service (Runs Receives sentBy)

/-! ## Orders as they are read -/

/-- The data of a signing order as they are sent: texts in base64. -/
structure SentData where
  text : String
  binary : Option String

/-- A signing order as it is sent. -/
structure SentOrder where
  subject : Subject
  level : RegistrationLevel
  signatureType : String
  dataType : String
  data : SentData

/-- The fields of the data. -/
def SentData.fields : Json.Fields := Json.Fields.ofNames ["text", "binaryData"]

/-- The fields of a signing order. -/
def SentOrder.fields : Json.Fields :=
  Json.Fields.ofNames
    ["userInfoType", "userInfo", "minRegistrationLevel", "title", "pushNotification", "expiry",
      "signatureType", "dataToSignType", "dataToSign", "attributesToReturn"]

/-- Reads the data of a signing order. -/
def SentData.ofTree? (t : Json.Tree) : Option SentData := do
  let r ← Json.Record.ofTree? fields t
  return {
    text := ← r.required "text" (·.text?)
    binary := ← r.given? "binaryData" (·.text?) }

/-- Reads a signing order. -/
def SentOrder.ofTree? (t : Json.Tree) : Option SentOrder := do
  let r ← Json.Record.ofTree? fields t
  return {
    subject := {
      kind := ← r.required "userInfoType" Wire.ofTree?
      info := ← r.required "userInfo" (·.text?) }
    level := ← r.required "minRegistrationLevel" Wire.ofTree?
    signatureType := ← r.required "signatureType" (·.text?)
    dataType := ← r.required "dataToSignType" (·.text?)
    data := ← r.required "dataToSign" SentData.ofTree? }

/-- The order says what was asked for. The data come as they are, the bytes where there are any, and
the types of the signature and of the data tell whether there are. The person is named by the
first of the identifiers that Freja can use. -/
structure SentOrder.Conveys (o : SentOrder) (client : Client) (q : Order.Request) : Prop where
  text : Base64.standard.decode? o.data.text = some (q.payload.getD {}).text.toUTF8
  present : o.data.binary.isSome = true ↔ (q.payload.getD {}).data.size ≠ 0
  binary : ∀ text ∈ o.data.binary, Base64.standard.decode? text = some (q.payload.getD {}).data
  types : (o.data.binary.isSome = true ∧ o.signatureType = "EXTENDED" ∧
      o.dataType = "EXTENDED_UTF8_TEXT") ∨
    (o.data.binary.isSome = false ∧ o.signatureType = "SIMPLE" ∧ o.dataType = "SIMPLE_UTF8_TEXT")
  level : o.level = client.level
  recipient : o.subject.recipient? = (usable q.whoOrInferred).head?
  named : o.subject.kind ≠ .inferred

/-- The order is for a person, and keeps to Freja's limits. -/
structure Signable (q : Order.Request) : Prop where
  named : usable q.whoOrInferred ≠ []
  text : (q.payload.getD {}).text.length ≤ 4096
  data : (q.payload.getD {}).data.size ≤ 5 * 1024 * 1024

/-! ## What is written and read -/

/-- The data of an order as they are written. -/
def DataToSign.sent (d : DataToSign) : SentData where
  text := Base64.standard.encode d.text.toUTF8
  binary := if d.binary.size ≠ 0 then some (Base64.standard.encode d.binary) else none

/-- An order as it is written. -/
def SignRequest.sent (q : SignRequest) : SentOrder where
  subject := q.subject
  level := q.level
  signatureType := q.data.kind.name
  dataType := q.data.kind.dataKind
  data := q.data.sent

/-- The data of an order are read as they were written. -/
theorem readsAs_dataToSign (d : DataToSign) : Json.ReadsAs d.toJson SentData.ofTree? d.sent := by
  refine Json.readsAs_record SentData.fields
    [("text", some (.string (Base64.standard.encode d.text.toUTF8))),
      ("binaryData", if decide (d.binary.size ≠ 0) then
        some (.string (Base64.standard.encode d.binary)) else none)]
    ?_ (fun t => rfl) (by decide) rfl (by simp) fun r hr => ?_
  · simp only [DataToSign.toJson, Json.fieldIf_eq]
    rfl
  · have hbinary := hr.given_if "binaryData" rfl
      (Json.readsAs_text (Base64.standard.encode d.binary))
    simp only [hr.required "text" rfl (Json.readsAs_text _), hbinary, decide_eq_true_eq]
    rfl

/-- A signing order is read as it was written. -/
theorem readsAs_signRequest (q : SignRequest) :
    Json.ReadsAs q.toJson SentOrder.ofTree? q.sent := by
  refine Json.readsAs_record SentOrder.fields
    [("userInfoType", some (Wire.toJson q.subject.kind)),
      ("userInfo", some (.string q.subject.info)),
      ("minRegistrationLevel", some (Wire.toJson q.level)),
      ("title", if decide (q.title ≠ "") then some (.string q.title) else none),
      ("pushNotification", q.push.map Wire.toJson),
      ("expiry", q.expiry.map fun t => .number (.int t)),
      ("signatureType", some (.string q.data.kind.name)),
      ("dataToSignType", some (.string q.data.kind.dataKind)),
      ("dataToSign", some q.data.toJson),
      ("attributesToReturn", if decide (q.attributes ≠ []) then
        some (.array (q.attributes.map Wire.toJson)) else none)]
    ?_ (fun t => rfl) (by decide) rfl ?_ fun r hr => ?_
  · simp only [SignRequest.toJson, attributesField, Json.fieldIf_eq, Json.map_eq]
    rfl
  · simp [(readsAs_subjectKind _).plain, (readsAs_registrationLevel _).plain,
      (readsAs_pushNotification _).plain, (readsAs_dataToSign _).plain,
      (Json.readsAs_list fun a _ => readsAs_attribute a).plain]
  · simp only [hr.required "userInfoType" rfl (readsAs_subjectKind q.subject.kind),
      hr.required "userInfo" rfl (Json.readsAs_text q.subject.info),
      hr.required "minRegistrationLevel" rfl (readsAs_registrationLevel q.level),
      hr.required "signatureType" rfl (Json.readsAs_text q.data.kind.name),
      hr.required "dataToSignType" rfl (Json.readsAs_text q.data.kind.dataKind),
      hr.required "dataToSign" rfl (readsAs_dataToSign q.data)]
    rfl

/-! ## Orders that are sent -/

section
variable {client : Client} {q : Order.Request} {subject : Subject}

/-- The order that is asked for, for this person. -/
def requestedSign (client : Client) (q : Order.Request) (subject : Subject) : SignRequest where
  subject := subject
  data := { text := (q.payload.getD {}).text, binary := (q.payload.getD {}).data }
  level := client.level
  attributes := Attribute.defaults

/-- A request without a payload is one for empty data. -/
theorem dataOf_eq (q : Order.Request) :
    dataOf q = { text := (q.payload.getD {}).text, binary := (q.payload.getD {}).data } := by
  unfold dataOf
  cases q.payload <;> rfl

/-- The order that is made of a request, if somebody is named. -/
theorem signRequest_of_some (hsubject : addressedSubject? q.whoOrInferred = some subject) :
    client.signRequest q = .ok (requestedSign client q subject) := by
  rw [Client.signRequest, hsubject, dataOf_eq]
  rfl

/-- What an order has to keep to. -/
theorem check_eq_ok {request : SignRequest} :
    request.check = .ok () ↔ request.subject.kind ≠ .inferred ∧
      request.data.text.length ≤ maxText ∧ request.data.binary.size ≤ maxBinary ∧
      request.title.length ≤ maxTitle := by
  unfold SignRequest.check
  constructor
  · intro hcheck
    split at hcheck
    · cases hcheck
    · split at hcheck
      · cases hcheck
      · split at hcheck
        · cases hcheck
        · split at hcheck
          · cases hcheck
          · exact ⟨‹_›, by omega, by omega, by omega⟩
  · rintro ⟨hkind, htext, hbinary, htitle⟩
    rw [if_neg hkind, if_neg (by omega), if_neg (by omega), if_neg (by omega)]

/-- The order says what was asked for. -/
theorem conveys_requestedSign (hkind : subject.kind ≠ .inferred)
    (hrecipient : subject.recipient? = (usable q.whoOrInferred).head?) :
    (requestedSign client q subject).sent.Conveys client q := by
  refine ⟨Base64.decode?_encode Base64.distinct_standard _, ?_, fun text htext => ?_, ?_, rfl,
    hrecipient, hkind⟩
  · simp [SignRequest.sent, DataToSign.sent, requestedSign]
  · obtain ⟨-, heq⟩ := Option.ite_none_right_eq_some.1 htext
    obtain rfl := Option.some.inj heq
    exact Base64.decode?_encode Base64.distinct_standard _
  · by_cases hempty : (q.payload.getD {}).data.size = 0
    · refine .inr ?_
      simp [SignRequest.sent, DataToSign.sent, DataToSign.kind, requestedSign, hempty,
        SignatureKind.name, SignatureKind.dataKind]
    · refine .inl ?_
      simp [SignRequest.sent, DataToSign.sent, DataToSign.kind, requestedSign, hempty,
        SignatureKind.name, SignatureKind.dataKind]

/-- An order for this person may be sent if its data keep to the limits. -/
theorem check_requestedSign (hkind : subject.kind ≠ .inferred) :
    (requestedSign client q subject).check = .ok () ↔
      (q.payload.getD {}).text.length ≤ maxText ∧ (q.payload.getD {}).data.size ≤ maxBinary :=
  check_eq_ok.trans ⟨fun ⟨_, htext, hdata, _⟩ => ⟨htext, hdata⟩,
    fun ⟨htext, hdata⟩ => ⟨hkind, htext, hdata, Nat.zero_le _⟩⟩

/-- `Asks client q call`: the request is for an order that says what was asked for, under the name
of such requests and in base64. -/
structure Asks (client : Client) (q : Order.Request) (call : Call) : Prop where
  vendor : call.vendor = .freja
  method : call.method = .post
  url : call.url = client.baseUrl ++ "/sign/1.0/initSignature"
  order : ∃ members o, call.body = "initSignRequest=" ++
      Base64.standard.encode (Json.object members).render.toUTF8 ∧
    (Json.Tree.ofBytes? (Json.utf8 (Json.object members).render)).bind SentOrder.ofTree? = some o ∧
    o.Conveys client q

/-- The request for an order. -/
theorem asks_requestedSign (hkind : subject.kind ≠ .inferred)
    (hrecipient : subject.recipient? = (usable q.whoOrInferred).head?) :
    Asks client q (client.post signEndpoints.init signEndpoints.initRequest
      (requestedSign client q subject).toJson (Wire.ofTree? : _ → Option Json)).call := by
  have hreads := readsAs_signRequest (requestedSign client q subject)
  obtain ⟨members, hobject⟩ :
      ∃ members, (requestedSign client q subject).toJson = .object members := ⟨_, rfl⟩
  have hbody : encodeBody signEndpoints.initRequest (.object members) =
      "initSignRequest=" ++ Base64.standard.encode (Json.object members).render.toUTF8 := by
    rw [encodeBody, show signEndpoints.initRequest ++ "=" = "initSignRequest=" by decide]
  rw [hobject] at hreads ⊢
  refine ⟨rfl, rfl, rfl, members, _, hbody, ?_, conveys_requestedSign hkind hrecipient⟩
  rw [Json.ofBytes?_render hreads.plain, Option.bind_some, hreads.read]

/-- **Whether there is a request for the order** depends on whom it is for and on how much is to be
signed. -/
theorem startCall_sign (client : Client) (q : Order.Request) :
    (Signable q ∧ ∃ call, (ProviderClient.freja client).startCall .sign q = .ok call ∧
      Asks client q call) ∨
    (¬ Signable q ∧ ∃ reason, (ProviderClient.freja client).startCall .sign q =
      .error (.at .freja (.validation reason))) := by
  have hstart : (ProviderClient.freja client).startCall .sign q =
      ((client.signRequest q).bind client.initSign).map (·.call) := rfl
  rw [hstart]
  rcases addressedSubject?_cases q.whoOrInferred with
    ⟨hnone, husable⟩ | ⟨subject, target, hsome, hkind, hread, hfirst⟩
  · rw [Client.signRequest, hnone]
    exact .inr ⟨fun hsignable => hsignable.named husable, _, rfl⟩
  · have hnamed : usable q.whoOrInferred ≠ [] := by
      intro husable
      rw [husable] at hfirst
      cases hfirst
    rw [signRequest_of_some hsome, Except.bind, Client.initSign]
    cases hcheck : (requestedSign client q subject).check with
    | ok =>
      obtain ⟨htext, hdata⟩ := (check_requestedSign hkind).1 hcheck
      exact .inl ⟨⟨hnamed, htext, hdata⟩, _, rfl,
        asks_requestedSign hkind (hread.trans hfirst.symm)⟩
    | error fault =>
      refine .inr ⟨fun hsignable => ?_, _, rfl⟩
      rw [(check_requestedSign hkind).2 ⟨hsignable.text, hsignable.data⟩] at hcheck
      cases hcheck

section
variable {ρ : Type} {registry : Registry} {fails : Failure → ρ} {a : Activity ρ}
  {h : Service.History ρ} {t₀ now id readFrom : Nat} {s : Service ρ}
  {tr : Transition (Service ρ) (Service.Event ρ) Outgoing} {givenUp : Bool}

/-- **What is sent to have something signed.** Somebody wants a signing order of Freja. If a person
is named by an identifier that can be used, and the text and the bytes keep to their limits, then
one request is sent for him, for an order that says what was asked for. Otherwise nothing is ever
sent for him, and he is told that the order is not valid, and nothing else. -/
theorem signing_order_sent (run : Runs t₀ registry h now s) (htr : tr ∈ h)
    (harrive : tr.event = .arrive id a readFrom givenUp) (ha : Starts registry .sign q fails a)
    (hp : registry.provider q.provider.name = .ok (.freja client)) :
    (Signable q → ∃ call, sentBy h id = [⟨some (.job id 0), call⟩] ∧ Asks client q call) ∧
      (¬ Signable q → sentBy h id = [] ∧
        ∃ reason, ∀ x, Receives h id x ↔ x = fails (.at .freja (.validation reason))) := by
  have htries := ha.tries hp
  rcases startCall_sign client q with ⟨hsignable, call, hcall, hasks⟩ | ⟨hnot, reason, hfault⟩
  · rw [hcall] at htries
    cases htries with
    | sends =>
      exact ⟨fun _ => ⟨call, Service.sentBy_exchange run htr harrive, hasks⟩,
        fun hnot => absurd hsignable hnot⟩
  · rw [hfault] at htries
    cases htries with
    | fails =>
      obtain ⟨hsent, hgiven⟩ := Service.quiet_settled run htr harrive
      exact ⟨fun hsignable => absurd hsignable hnot, fun _ => ⟨hsent, reason, hgiven⟩⟩

end

/-- Somebody is to sign a text and some bytes, and is named by his telephone number and half of a
personal number. Freja is sent one request. -/
theorem signing_order_for_phone :
    ∃ (registry : Registry) (q : Order.Request) (h : Service.History (Except Failure Order.Handle))
      (s : Service (Except Failure Order.Handle)) (call : Call),
      Runs 0 registry h 0 s ∧ usable q.whoOrInferred = [.phone "+46701234567"] ∧
        sentBy h 7 = [⟨some (.job 7 0), call⟩] ∧ Asks testClient q call := by
  let registry : Registry := { freja := some testClient }
  let q : Order.Request :=
    { provider := { name := "FrejaID" }
      who := some { ssn := "198001018119", phone := "+46701234567" }
      payload := some { text := "Räksmörgås", data := ⟨#[0, 255]⟩ } }
  have run : Runs 0 registry _ 0 _ :=
    Run.next (e := .arrive 7 ((registry.start .sign q).map id) 0 false) .start (Nat.le_refl 0)
      (by rintro ⟨tr, htr, -⟩; cases htr) rfl
  have hsignable : Signable q := ⟨by decide, by decide, by decide⟩
  obtain ⟨call, hsent, hasks⟩ :=
    (signing_order_sent run (.head _) rfl (.call id) rfl).1 hsignable
  exact ⟨registry, q, _, _, call, run, by decide, hsent, hasks⟩

end

end OrderBroker.Freja
