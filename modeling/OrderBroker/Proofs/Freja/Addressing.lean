import OrderBroker.Proofs.OrderIdentity
import OrderBroker.Proofs.Wire.Freja

/-!
# Whom identification orders are addressed to

Freja reads in a request for an order who may answer it: the person with a telephone number, an
email address or a personal number, or anyone (`Recipient`). An order for a person is addressed by
the first of his identifiers that can be used, and a personal number can be used with its country
only (`usable`). Where no identifier can be used, anyone may answer (`order_addressed`): also where
a personal number was given, but no country (`named_subject_widened`).
-/

namespace OrderBroker.Freja

open OrderBroker.Order (Handle Person)
open Service (Runs SentFor)

/-! ## Recipients -/

/-- Who may answer an order. -/
inductive Recipient where
  | anyone
  | phone (number : String)
  | email (address : String)
  | ssn (country number : String)
  deriving DecidableEq

/-- Who is meant by a type of user information and the information. A personal number is a record in
base64. -/
def Subject.recipient? (subject : Subject) : Option Recipient :=
  match subject.kind with
  | .inferred => some .anyone
  | .phone => some (.phone subject.info)
  | .email => some (.email subject.info)
  | .ssn => do
    let bytes ← Base64.standard.decode? subject.info
    let ssn : Ssn ← Wire.decodeBytes? bytes.data.toList
    return .ssn ssn.country ssn.ssn

/-- The fields of an identification order. -/
def AuthRequest.fields : Json.Fields :=
  Json.Fields.ofNames ["userInfoType", "userInfo", "attributesToReturn", "minRegistrationLevel"]

/-- Whom an identification order says that it is addressed to. -/
def AuthRequest.subject? (t : Json.Tree) : Option Subject := do
  let r ← Json.Record.ofTree? fields t
  return {
    kind := ← r.required "userInfoType" Wire.ofTree?
    info := ← r.required "userInfo" (·.text?) }

/-- Who may answer the order in a request, as Freja reads it. -/
def recipient? (call : Call) : Option Recipient := do
  let bytes ← Base64.standard.decode?
    (String.ofList (Http.Query.cutAt '=' call.body.toList).2)
  let subject ← (Json.Tree.ofBytes? bytes.data.toList).bind AuthRequest.subject?
  subject.recipient?

/-- The identifiers of a person that Freja can use, the preferred one first. -/
def usable (who : Person) : List Recipient :=
  (if who.ssnCountry ≠ "" ∧ who.ssn ≠ "" then [.ssn (Text.uppercase who.ssnCountry) who.ssn]
    else []) ++
  (if who.phone ≠ "" then [.phone who.phone] else []) ++
  (if who.email ≠ "" then [.email who.email] else [])

/-- Who may answer the order for a person: whoever it is, if he is to be found out. -/
def intended (who : Person) : Recipient :=
  if who.inferred then .anyone else (usable who).headD .anyone

section
variable {who : Person} {target : Recipient}

/-- Nobody is named where all that is given is half of a personal number. -/
theorem usable_eq_nil :
    usable who = [] ↔ (who.ssn = "" ∨ who.ssnCountry = "") ∧ who.phone = "" ∧ who.email = "" := by
  have hpart (c : Prop) [Decidable c] (r : Recipient) : (if c then [r] else []) = [] ↔ ¬ c := by
    by_cases hc : c <;> simp [hc]
  simp only [usable, List.append_eq_nil_iff, hpart, not_and_or, ne_eq, not_not]
  tauto

/-- An identifier that can be used is one person's. -/
theorem ne_anyone_of_usable (htarget : target ∈ usable who) : target ≠ .anyone := by
  rintro rfl
  simp only [usable, List.mem_append] at htarget
  rcases htarget with (hssn | hphone) | hemail
  · split at hssn <;> simp at hssn
  · split at hphone <;> simp at hphone
  · split at hemail <;> simp at hemail

/-- The order is open to anyone, or to the one person whose identifier comes first. -/
theorem intended_cases (who : Person) :
    (intended who = .anyone ∧ (who.inferred = true ∨ usable who = [])) ∨
      (who.inferred = false ∧ (usable who).head? = some (intended who) ∧
        intended who ≠ .anyone) := by
  unfold intended
  cases hinferred : who.inferred with
  | true => exact .inl ⟨rfl, .inl rfl⟩
  | false =>
    cases husable : usable who with
    | nil => exact .inl ⟨rfl, .inr rfl⟩
    | cons first rest =>
      exact .inr ⟨rfl, rfl, ne_anyone_of_usable (husable ▸ List.mem_cons_self)⟩

/-! ## What is written and read -/

/-- A personal number is read as it was given, its country in capitals. -/
theorem recipient?_ssn (country number : String) :
    (Subject.ssn country number).recipient? = some (.ssn (Text.uppercase country) number) := by
  have hreads := readsAs_ssn { country := Text.uppercase country, ssn := number }
  simp only [Subject.recipient?, Subject.ssn, Base64.decode?_encode Base64.distinct_standard]
  rw [Option.bind_eq_bind, Option.bind_some, Wire.decodeBytes?, Wire.encode]
  have htree := Json.ofBytes?_render hreads.plain
  rw [Json.utf8] at htree
  rw [htree, Option.bind_some, hreads.read]
  rfl

/-- A person is named by the first of his identifiers that can be used, if there is one. -/
theorem addressedSubject?_cases (who : Person) :
    (addressedSubject? who = none ∧ usable who = []) ∨
      ∃ subject target, addressedSubject? who = some subject ∧ subject.kind ≠ .inferred ∧
        subject.recipient? = some target ∧ (usable who).head? = some target := by
  unfold addressedSubject? usable
  by_cases hssn : who.ssnCountry ≠ "" ∧ who.ssn ≠ ""
  · rw [if_pos hssn, if_pos hssn]
    exact .inr ⟨_, _, rfl, by simp [Subject.ssn], recipient?_ssn _ _, rfl⟩
  · rw [if_neg hssn, if_neg hssn]
    by_cases hphone : who.phone ≠ ""
    · rw [if_pos hphone, if_pos hphone]
      exact .inr ⟨_, _, rfl, by simp [Subject.phone], rfl, rfl⟩
    · rw [if_neg hphone, if_neg hphone]
      by_cases hemail : who.email ≠ ""
      · rw [if_pos hemail, if_pos hemail]
        exact .inr ⟨_, _, rfl, by simp [Subject.email], rfl, rfl⟩
      · rw [if_neg hemail, if_neg hemail]
        exact .inl ⟨rfl, rfl⟩

/-- An order for a person says whom it is for. -/
theorem recipient?_authSubject (who : Person) :
    (authSubject who).recipient? = some (intended who) := by
  unfold authSubject intended
  split
  · rfl
  · rcases addressedSubject?_cases who with
      ⟨hnone, husable⟩ | ⟨subject, target, hsome, -, hread, hfirst⟩
    · rw [hnone, husable]
      rfl
    · rw [hsome, Option.getD_some, List.headD_eq_head?_getD, hfirst, hread, Option.getD_some]

/-- The subject of an identification order is read back. -/
theorem readsAs_authRequest (q : AuthRequest) :
    Json.ReadsAs q.toJson AuthRequest.subject? q.subject := by
  refine Json.readsAs_record AuthRequest.fields
    [("userInfoType", some (Wire.toJson q.subject.kind)),
      ("userInfo", some (.string q.subject.info)),
      ("attributesToReturn",
        if q.attributes ≠ [] then some (.array (q.attributes.map Wire.toJson)) else none),
      ("minRegistrationLevel", some (Wire.toJson q.level))]
    ?_ (fun t => rfl) (by decide) rfl ?_ fun r hr => ?_
  · simp only [AuthRequest.toJson, attributesField, Json.fieldIf_eq, Json.field_eq, List.map_cons,
      List.map_nil, decide_eq_true_eq]
  · simp [(readsAs_subjectKind _).plain, (readsAs_registrationLevel _).plain,
      (Json.readsAs_list fun a _ => readsAs_attribute a).plain]
  · simp only [hr.required "userInfoType" rfl (readsAs_subjectKind q.subject.kind),
      hr.required "userInfo" rfl (Json.readsAs_text q.subject.info)]
    rfl

/-- **A request for an identification order** is read as one for whom its subject means. -/
theorem recipient?_initAuth (client : Client) (q : AuthRequest) :
    recipient? (client.initAuth q).call = q.subject.recipient? := by
  have hreads := readsAs_authRequest q
  have hname : '=' ∉ authEndpoints.initRequest.toList := by decide
  have htree := Json.ofBytes?_render hreads.plain
  rw [Json.utf8] at htree
  simp only [recipient?, Client.initAuth, Exchange.andThen, Client.post,
    decode?_encodeBody q.toJson hname, Option.bind_eq_bind, Option.bind_some, htree, hreads.read]

end

/-! ## Requested orders -/

/-- Somebody wants an order to identify a user: calls the operation, or sends a request whose body
reads as the wish. -/
inductive WantsAuth (registry : Registry) (q : Order.Request) : {ρ : Type} → Activity ρ → Prop
  | call {ρ : Type} (f : Except Failure Handle → ρ) :
      WantsAuth registry q ((registry.start .auth q).map f)
  | request {site : Http.Site} {r : Http.Request} : site.registry = registry → r.Brings .auth q →
      WantsAuth registry q (site.handle r)

section
variable {ρ : Type} {registry : Registry} {q : Order.Request} {client : Client} {a : Activity ρ}

/-- The order that Freja is asked for. -/
def requestedAuth (client : Client) (q : Order.Request) : AuthRequest where
  subject := authSubject q.whoOrInferred
  level := client.level

/-- Freja is asked once for the order, if at all. -/
theorem WantsAuth.cases (hp : registry.provider q.provider.name = .ok (.freja client))
    (ha : WantsAuth registry q a) :
    (∃ x, a = .settled x) ∨
      ∃ read, a = .exchange (client.initAuth (requestedAuth client q)).call read := by
  have hstart : ∃ read, registry.start .auth q =
      .exchange (client.initAuth (requestedAuth client q)).call read := by
    rw [Registry.start_eq, Registry.atProvider, hp]
    exact ⟨_, rfl⟩
  obtain ⟨read, hstart⟩ := hstart
  cases ha with
  | call f =>
    rw [hstart]
    exact .inr ⟨_, rfl⟩
  | @request site r hregistry hbrings =>
    subst hregistry
    rw [Http.Site.handle]
    rcases site.route_of_reaches hbrings.reaches with ⟨response, hroute⟩ | hroute
    · rw [hroute]
      exact .inl ⟨_, rfl⟩
    · rw [hroute]
      rcases @act_start .auth _ _ site hbrings with hact | ⟨detail, hact⟩
      · rw [show site.act r .auth = _ from hact, hstart]
        exact .inr ⟨_, rfl⟩
      · rw [show site.act r .auth = _ from hact]
        exact .inl ⟨_, rfl⟩

section
variable {h : Service.History ρ} {t₀ now id readFrom : Nat} {s : Service ρ}
  {tr : Transition (Service ρ) (Service.Event ρ) Outgoing} {givenUp : Bool} {call : Call}

/-- Nothing else is sent for whoever wants the order. -/
theorem initAuth_of_sentFor (run : Runs t₀ registry h now s) (htr : tr ∈ h)
    (harrive : tr.event = .arrive id a readFrom givenUp) (ha : WantsAuth registry q a)
    (hp : registry.provider q.provider.name = .ok (.freja client)) (hsent : SentFor h id call) :
    call = (client.initAuth (requestedAuth client q)).call := by
  rcases ha.cases hp with ⟨x, rfl⟩ | ⟨read, rfl⟩
  · rcases Service.sentFor_of_runs run htr harrive hsent with hholds | ⟨_, _, _, _, _, _, heq, -⟩
    · cases hholds
    · cases heq
  · rcases Service.sentFor_of_runs run htr harrive hsent with hholds | ⟨_, _, _, _, _, _, heq, -⟩
    · cases hholds with
      | exchange => rfl
    · cases heq

/-- **Whom an order is addressed to.** Whatever is sent for somebody who wants an order to identify
a user with Freja is the request for this order. Anyone may answer the order where no person is
given, where the person is to be found out, or where none of his identifiers can be used; a number
that comes without its country, or a country without a number, cannot. In all other cases the order
is addressed to this person, by the first of the identifiers that can be used. -/
theorem order_addressed (run : Runs t₀ registry h now s) (htr : tr ∈ h)
    (harrive : tr.event = .arrive id a readFrom givenUp) (ha : WantsAuth registry q a)
    (hp : registry.provider q.provider.name = .ok (.freja client)) (hsent : SentFor h id call) :
    call.url = client.baseUrl ++ "/authentication/1.0/initAuthentication" ∧ ∃ target, recipient? call = some target ∧
      (target = .anyone ↔ q.who = none ∨ ∃ who, q.who = some who ∧ (who.inferred = true ∨
        (who.ssn = "" ∨ who.ssnCountry = "") ∧ who.phone = "" ∧ who.email = "")) ∧
      (target ≠ .anyone → ∃ who, q.who = some who ∧ who.inferred = false ∧
        (usable who).head? = some target) := by
  obtain rfl := initAuth_of_sentFor run htr harrive ha hp hsent
  refine ⟨rfl, intended q.whoOrInferred, ?_, ?_⟩
  · rw [recipient?_initAuth]
    exact recipient?_authSubject _
  · cases hwho : q.who with
    | none =>
      have hopen : intended q.whoOrInferred = .anyone := by
        simp [Order.Request.whoOrInferred, hwho, intended]
      exact ⟨⟨fun _ => .inl rfl, fun _ => hopen⟩, fun hne => absurd hopen hne⟩
    | some who =>
      have hsame : q.whoOrInferred = who := by simp [Order.Request.whoOrInferred, hwho]
      simp only [hsame, ← usable_eq_nil]
      rcases intended_cases who with ⟨hopen, hwhy⟩ | ⟨hknown, hfirst, hnamed⟩
      · exact ⟨⟨fun _ => .inr ⟨who, rfl, hwhy⟩, fun _ => hopen⟩, fun hne => absurd hopen hne⟩
      · refine ⟨⟨fun hopen => absurd hopen hnamed, ?_⟩, fun _ => ⟨who, rfl, hknown, hfirst⟩⟩
        rintro (hnone | ⟨_, heq, hinferred | hnone⟩)
        · cases hnone
        · obtain rfl := Option.some.inj heq
          rw [hknown] at hinferred
          cases hinferred
        · obtain rfl := Option.some.inj heq
          rw [hnone] at hfirst
          cases hfirst

end

end

/-! ## Numbers without a country -/

/-- Freja's test system as it may be set up. -/
def testClient : Client := ⟨"https://services.test.frejaeid.com", 3000, 15000, .extended, none⟩

/-- A wish that Freja identify somebody. -/
def wishFor (who : Person) : Order.Request := { provider := { name := "FrejaID" }, who := some who }

/-- Freja is sent a request for whoever is to be identified. -/
theorem runs_wishFor (who : Person) :
    ∃ (h : Service.History (Except Failure Handle)) (s : Service (Except Failure Handle))
      (tr : Transition (Service (Except Failure Handle)) (Service.Event (Except Failure Handle))
        Outgoing) (call : Call),
      Runs 0 { freja := some testClient } h 0 s ∧ tr ∈ h ∧
        tr.event = .arrive 7
          ((Registry.start { freja := some testClient } .auth (wishFor who)).map id) 0 false ∧
        SentFor h 7 call := by
  have run : Runs 0 { freja := some testClient } _ 0 _ :=
    Run.next (e := .arrive 7
      ((Registry.start { freja := some testClient } .auth (wishFor who)).map id) 0 false) .start
      (Nat.le_refl 0) (by rintro ⟨tr, htr, -⟩; cases htr) rfl
  exact ⟨_, _, _, _, run, .head _, rfl, .job (.head _)⟩

/-- Somebody gives his number without the country, and a telephone number. The order is addressed to
his telephone. -/
theorem countryless_number_passed_over :
    ∃ (registry : Registry) (q : Order.Request) (h : Service.History (Except Failure Handle))
      (s : Service (Except Failure Handle)) (call : Call),
      Runs 0 registry h 0 s ∧ SentFor h 7 call ∧
        q.who = some { ssn := "198001018119", phone := "+46701234567" } ∧
        recipient? call = some (.phone "+46701234567") := by
  let who : Person := { ssn := "198001018119", phone := "+46701234567" }
  obtain ⟨h, s, tr, call, run, htr, harrive, hsent⟩ := runs_wishFor who
  obtain ⟨-, target, htarget, hanyone, hnamed⟩ :=
    order_addressed run htr harrive (.call id) rfl hsent
  have hone : target ≠ .anyone := by
    intro hopen
    rcases hanyone.1 hopen with hnone | ⟨found, heq, hwhy⟩
    · cases hnone
    · obtain rfl := Option.some.inj heq
      revert hwhy
      decide
  obtain ⟨found, heq, -, hfirst⟩ := hnamed hone
  obtain rfl := Option.some.inj heq
  have husable : (usable who).head? = some (.phone "+46701234567") := by decide
  rw [husable] at hfirst
  exact ⟨_, wishFor who, h, s, call, run, hsent, rfl, hfirst ▸ htarget⟩

/-- It is not so that an order is never open to anyone when an identifier of the person was
given. -/
theorem named_subject_widened :
    ¬ ∀ (registry : Registry) (client : Client) (q : Order.Request) (who : Person)
      (h : Service.History (Except Failure Handle)) (s : Service (Except Failure Handle))
      (tr : Transition (Service (Except Failure Handle)) (Service.Event (Except Failure Handle))
        Outgoing) (t₀ now id readFrom : Nat) (givenUp : Bool) (call : Call),
      Runs t₀ registry h now s → tr ∈ h →
      tr.event = .arrive id ((registry.start .auth q).map fun x => x) readFrom givenUp →
      registry.provider q.provider.name = .ok (.freja client) → q.who = some who →
      who.inferred = false → who.isAnonymous = false → SentFor h id call →
      recipient? call ≠ some .anyone := by
  intro hclaim
  let who : Person := { ssn := "198001018119" }
  obtain ⟨h, s, tr, call, run, htr, harrive, hsent⟩ := runs_wishFor who
  refine hclaim _ testClient (wishFor who) who h s tr 0 0 7 0 false call run htr harrive rfl rfl rfl
    (by decide) hsent ?_
  rw [initAuth_of_sentFor run htr harrive (.call id) rfl hsent, recipient?_initAuth]
  exact recipient?_authSubject who

end OrderBroker.Freja
