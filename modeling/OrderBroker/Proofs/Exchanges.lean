import OrderBroker.Registry

/-!
# Exchanges with the providers

Whatever a provider is asked, the request goes to its own address, and an answer that is not what
was asked for is read in one way (`Answer.Fails`): an answer with an error status is the vendor's
refusal, whichever request it answers. A request that may not be sent is refused with a word on its
validity, and no other (`ProviderClient.Permits`).
-/

namespace OrderBroker

/-- The failure that an answer with an error status is. -/
def Vendor.refusal : Vendor → Nat → String → Failure
  | .bankId, status, body => BankId.refused status body
  | .freja, status, body => .at .freja (Freja.rejectionOf status body)

/-- What is made of an answer of a vendor that is not what was asked for. -/
inductive Answer.Fails (vendor : Vendor) : Answer → Failure → Prop
  | lost {reason : String} : Fails vendor (.lost reason) (.at vendor (.transport reason))
  | refused {status : Nat} {body : ByteArray} : isSuccess status = false →
      Fails vendor (.replied status body) (vendor.refusal status (Text.lossyText body))
  | unusable {status : Nat} {body : ByteArray} {reason : String} : isSuccess status = true →
      Fails vendor (.replied status body) (.at vendor (.invalidResponse reason))

/-- A refusal is the vendor's, with the status of its answer. -/
theorem Vendor.refusal_eq (vendor : Vendor) (status : Nat) (body : String) :
    ∃ code detail, vendor.refusal status body = .at vendor (.rejected status code detail) := by
  cases vendor with
  | bankId =>
    simp only [refusal, BankId.refused]
    split
    · split <;> exact ⟨_, _, rfl⟩
    · exact ⟨_, _, rfl⟩
  | freja =>
    simp only [refusal, Freja.rejectionOf]
    split
    · exact ⟨_, _, rfl⟩
    · split <;> exact ⟨_, _, rfl⟩

namespace ProviderClient

variable {α β : Type}

/-- The address of a provider. -/
def baseUrl : ProviderClient → String
  | .bankId client => client.baseUrl
  | .freja client => client.baseUrl

/-- The request goes to the provider. -/
structure Takes (p : ProviderClient) (call : Call) : Prop where
  vendor : call.vendor = p.vendor
  url : ∃ path, call.url = p.baseUrl ++ path

/-- The exchange is one with the provider. -/
structure Offers (p : ProviderClient) (x : Exchange α) : Prop where
  takes : p.Takes x.call
  /-- Only an answer with a status of success is what was asked for. -/
  reads : ∀ answer a, x.read answer = .ok a →
    ∃ status body, answer = .replied status body ∧ isSuccess status = true
  fails : ∀ answer failure, x.read answer = .error failure → answer.Fails p.vendor failure
  refuses : ∀ status body, isSuccess status = false →
    x.read (.replied status body) = .error (p.vendor.refusal status (Text.lossyText body))

/-- The exchange is one with the provider, or the request is not one that may be sent. -/
def Permits (p : ProviderClient) : Except Failure (Exchange α) → Prop
  | .ok x => p.Offers x
  | .error failure => ∃ reason, failure = .at p.vendor (.validation reason)

/-- A request that may be sent is an exchange with the provider. -/
theorem Permits.offers {p : ProviderClient} {x : Except Failure (Exchange α)}
    (hx : p.Permits x) {y : Exchange α} (hy : x = .ok y) : p.Offers y := by
  subst hy
  exact hx

/-- One that may not be sent is not valid. -/
theorem Permits.invalid {p : ProviderClient} {x : Except Failure (Exchange α)}
    (hx : p.Permits x) {failure : Failure} (hfailure : x = .error failure) : ∃ reason, failure = .at p.vendor (.validation reason) := by
  subst hfailure
  exact hx

/-! ## BankID -/

section
variable {client : BankId.Client}

/-- Whatever is sent to BankID as a document is an exchange with BankID. -/
theorem offers_bankId_post (path : String) (body : Json) (read : Json.Tree → Option α) :
    (ProviderClient.bankId client).Offers (client.post path body read) := by
  refine ⟨⟨rfl, path, rfl⟩, fun answer a hread => ?_, fun answer failure hread => ?_,
    fun status body hstatus => ?_⟩
  · cases answer with
    | lost reason => cases hread
    | replied status body =>
      simp only [BankId.Client.post, BankId.readAnswer] at hread
      split at hread
      · next hstatus => exact ⟨status, body, rfl, hstatus⟩
      · cases hread
  · cases answer with
    | lost reason =>
      obtain rfl := Except.error.inj hread
      exact .lost
    | replied status body =>
      simp only [BankId.Client.post, BankId.readAnswer] at hread
      split at hread
      · next hstatus =>
        split at hread
        · cases hread
        · obtain rfl := Except.error.inj hread
          exact .unusable hstatus
      · next hstatus =>
        obtain rfl := Except.error.inj hread
        exact .refused (Bool.not_eq_true _ ▸ hstatus)
  · simp [BankId.Client.post, BankId.readAnswer, hstatus, vendor, Vendor.refusal]

/-- BankID is asked to identify the user. -/
theorem permits_bankId_auth (q : BankId.StartRequest) :
    (ProviderClient.bankId client).Permits (client.auth q) := by
  unfold BankId.Client.auth
  split
  · exact offers_bankId_post _ _ _
  · exact ⟨_, rfl⟩

/-- BankID is asked to have something signed. -/
theorem permits_bankId_sign (q : BankId.StartRequest) :
    (ProviderClient.bankId client).Permits (client.sign q) := by
  unfold BankId.Client.sign
  split
  · exact offers_bankId_post _ _ _
  · exact ⟨_, rfl⟩

/-- BankID is asked about an order. -/
theorem permits_collectOnce (orderRef : String) :
    (ProviderClient.bankId client).Permits (client.collectOnce orderRef) := by
  unfold BankId.Client.collectOnce
  split
  · exact ⟨_, rfl⟩
  · exact offers_bankId_post _ _ _

/-- BankID is asked to cancel an order. -/
theorem permits_bankId_cancel (orderRef : String) :
    (ProviderClient.bankId client).Permits (client.cancel orderRef) := by
  unfold BankId.Client.cancel
  split
  · exact ⟨_, rfl⟩
  · exact offers_bankId_post _ _ _

end

/-! ## Freja -/

section
variable {client : Freja.Client}

/-- Whatever is sent to Freja as a record is an exchange with Freja. -/
theorem offers_freja_post (path name : String) (record : Json) (read : Json.Tree → Option α) :
    (ProviderClient.freja client).Offers (client.post path name record read) := by
  refine ⟨⟨rfl, path, rfl⟩, fun answer a hread => ?_, fun answer failure hread => ?_,
    fun status body hstatus => ?_⟩
  · cases answer with
    | lost reason => cases hread
    | replied status body =>
      simp only [Freja.Client.post, Freja.readAnswer] at hread
      split at hread
      · next hstatus => exact ⟨status, body, rfl, hstatus⟩
      · cases hread
  · cases answer with
    | lost reason =>
      obtain rfl := Except.error.inj hread
      exact .lost
    | replied status body =>
      simp only [Freja.Client.post, Freja.readAnswer] at hread
      split at hread
      · next hstatus =>
        simp only [Freja.readText] at hread
        split at hread
        · cases hread
        · obtain rfl := Except.error.inj hread
          exact .unusable hstatus
      · next hstatus =>
        obtain rfl := Except.error.inj hread
        exact .refused (Bool.not_eq_true _ ▸ hstatus)
  · simp [Freja.Client.post, Freja.readAnswer, hstatus, vendor, Vendor.refusal]

/-- So is what goes on with a successful answer, and at most finds it unusable. -/
theorem Offers.andThen {x : Exchange α} (hx : (ProviderClient.freja client).Offers x)
    {f : α → Except Failure β}
    (hf : ∀ a failure, f a = .error failure → ∃ reason, failure = Freja.unusable reason) :
    (ProviderClient.freja client).Offers (x.andThen f) := by
  refine ⟨hx.takes, fun answer b hread => ?_, fun answer failure hread => ?_,
    fun status body hstatus => ?_⟩
  · cases hanswer : x.read answer with
    | ok a => exact hx.reads answer a hanswer
    | error failure => simp [Exchange.andThen, hanswer, Except.bind] at hread
  · cases hanswer : x.read answer with
    | ok a =>
      simp only [Exchange.andThen, hanswer, Except.bind] at hread
      obtain ⟨reason, rfl⟩ := hf a failure hread
      obtain ⟨status, body, rfl, hstatus⟩ := hx.reads answer a hanswer
      exact .unusable hstatus
    | error cause =>
      simp only [Exchange.andThen, hanswer, Except.bind, Except.error.injEq] at hread
      exact hread ▸ hx.fails answer cause hanswer
  · simp [Exchange.andThen, hx.refuses status body hstatus, Except.bind]

/-- A missing reference makes an answer unusable. -/
theorem unusable_of_referenceOf {key : String} {reply : Json} {failure : Failure}
    (h : Freja.referenceOf key reply = .error failure) :
    ∃ reason, failure = Freja.unusable reason := by
  unfold Freja.referenceOf at h
  split at h
  · split at h
    · exact ⟨_, (Except.error.inj h).symm⟩
    · cases h
  · exact ⟨_, (Except.error.inj h).symm⟩

/-- So do results that cannot be read. -/
theorem unusable_of_resultsOf {field : String} {reply : Json} {failure : Failure}
    (h : Freja.resultsOf field reply = .error failure) :
    ∃ reason, failure = Freja.unusable reason := by
  unfold Freja.resultsOf at h
  split at h
  · cases h
  · split at h
    · cases h
    · exact ⟨_, (Except.error.inj h).symm⟩

/-- Freja is asked to identify the user. -/
theorem permits_initAuth (q : Freja.AuthRequest) :
    (ProviderClient.freja client).Permits (.ok (client.initAuth q)) :=
  (offers_freja_post _ _ _ _).andThen fun _ _ => unusable_of_referenceOf

/-- Freja is asked to have something signed. -/
theorem permits_initSign (q : Freja.SignRequest) :
    (ProviderClient.freja client).Permits (client.initSign q) := by
  unfold Freja.Client.initSign
  split
  · exact ⟨_, rfl⟩
  · exact (offers_freja_post _ _ _ _).andThen fun _ _ => unusable_of_referenceOf

/-- Freja is asked to have something signed that a request says. -/
theorem permits_signRequest (q : Order.Request) :
    (ProviderClient.freja client).Permits ((client.signRequest q).bind client.initSign) := by
  unfold Freja.Client.signRequest
  split
  · exact permits_initSign _
  · exact ⟨_, rfl⟩

/-- An order without a name may not be spoken of. -/
theorem permits_orderName {mode : Order.Mode} {reference : String} {f : Json → Exchange α}
    (hf : ∀ name, (ProviderClient.freja client).Offers (f name)) :
    (ProviderClient.freja client).Permits ((Freja.Client.orderName mode reference).map f) := by
  unfold Freja.Client.orderName
  split
  · exact ⟨_, rfl⟩
  · exact hf _

/-- Freja is asked about an order. -/
theorem permits_oneResult (mode : Order.Mode) (reference : String) :
    (ProviderClient.freja client).Permits (client.oneResult mode reference) :=
  permits_orderName fun _ => offers_freja_post _ _ _ _

/-- Freja is asked to cancel an order. -/
theorem permits_freja_cancel (mode : Order.Mode) (reference : String) :
    (ProviderClient.freja client).Permits (client.cancel mode reference) :=
  permits_orderName fun _ => offers_freja_post _ _ _ _

/-- Freja is asked for all results. -/
theorem offers_allResults (mode : Order.Mode) :
    (ProviderClient.freja client).Offers (client.allResults mode) :=
  (offers_freja_post _ _ _ _).andThen fun _ _ => unusable_of_resultsOf

end

end ProviderClient

end OrderBroker
