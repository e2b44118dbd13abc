import OrderBroker.Proofs.Http.Requests
import OrderBroker.Proofs.Poller.Waiters
import OrderBroker.Proofs.Service.Polling

/-!
# Errors of clients, and where requests go

A client who is told that the request is at fault has caused nothing at the vendors: whatever can be
wrong with a request is found before anything is sent. What is sent for a request goes to the
provider that it names, or to BankID where BankID's own endpoints are used. Both hold of everything
that is ever sent for the request, also after its answer (`client_errors`).
-/

namespace OrderBroker.Http

open Service (SentFor Receives Excused)

/-! ## Clients -/

/-- A client sends the request. A client may leave, but cannot give up and wait for the answer that
says so. -/
structure Called (site : Site) (q : Request) (h : Service.History Message) (id : Nat) : Prop where
  came : ∃ tr ∈ h, ∃ readFrom, tr.event = .arrive id (site.handle q) readFrom false
  stays : ∀ tr ∈ h, tr.event ≠ .giveUp id

/-! ## Statuses -/

/-- What is made of an answer of a vendor is the vendor's fault. -/
theorem status_of_fails {vendor : Vendor} {answer : Answer} {failure : Failure}
    (h : answer.Fails vendor failure) : (Problem.ofFailure failure).status = 502 := by
  cases h with
  | lost => rfl
  | unusable => rfl
  | refused =>
    obtain ⟨code, detail, heq⟩ := vendor.refusal_eq _ _
    rw [heq]
    rfl

/-- What a poller tells is not the client's fault. -/
theorem status_of_excused {ρ : Type} {h : Service.History ρ} {registry : Registry} {id : Nat}
    {failure : Failure} (he : Excused h registry id failure) :
    500 ≤ (Problem.ofFailure failure).status := by
  rcases he with rfl | ⟨mode, reference, -, hdenied⟩
  · decide
  · obtain ⟨vendor, status, detail, rfl⟩ := Freja.Poller.saysUnknown_iff.1 hdenied.unknown
    exact show 500 ≤ 502 by decide

/-- Bounds without errors of the client. -/
def faultless : Job.Bounds Message where
  sends _ := True
  gives m := ∀ r, m = .response r → r.status < 400 ∨ 500 ≤ r.status
  hears _ := True
  learns outcome := ∀ failure, outcome = .error failure →
    500 ≤ (Problem.ofFailure failure).status
  patient := True
  words _ := True
  stopped := trivial
  unasked _ _ _ _ := trivial
  heard _ _ _ _ _ _ := trivial

/-- Whatever is served of a provider is without errors of the client. -/
theorem serves_faultless (p : ProviderClient) : Serves faultless p where
  sends _ := trivial
  patient := trivial
  values r hr m heq := by
    injection heq with heq
    exact .inl (heq ▸ Nat.lt_trans hr (by decide))
  unverified reason m heq := by
    injection heq with heq
    exact .inr (heq ▸ show 500 ≤ 502 by decide)
  fails answer failure _ hfails m heq := by
    injection heq with heq
    rw [← heq]
    exact .inr (show 500 ≤ (Problem.ofFailure failure).status by
      rw [status_of_fails hfails]; decide)
  learns failure hlearns m heq := by
    injection heq with heq
    exact .inr (heq ▸ hlearns failure rfl)
  chunks _ text _ m heq := by cases heq

/-- So is the survey of the vendors. -/
theorem surveys_faultless : Surveys faultless where
  sends _ := trivial
  gives r hr m heq := by
    injection heq with heq
    rw [← heq]
    rcases hr with hr | hr
    · exact .inl (hr ▸ by decide)
    · exact .inr (hr ▸ by decide)

/-- **A request leads to nothing** at the vendors, or is without errors of the client. -/
theorem mute_or_faultless (site : Site) (q : Request) :
    (site.handle q).Mute ∨ (site.handle q).Within faultless := by
  -- The name of the request does not change the status of an answer.
  have hnamed (hwithin : (site.route q).Within faultless) :
      (site.handle q).Within faultless := by
    have hgives : faultless.gives ∘
        (·.mapResponse fun r => { r with requestId := q.requestId }) = faultless.gives := by
      funext m
      cases m with
      | response r => simp [faultless, Message.mapResponse]
      | chunk text => simp [faultless, Message.mapResponse]
    have hsame : faultless.comap
        (·.mapResponse fun r => { r with requestId := q.requestId }) = faultless := by
      rw [Job.Bounds.comap, hgives]
    exact Activity.Within.map (hsame.symm ▸ hwithin)
  cases site.leads_route q with
  | mute hmute => exact .inl (hmute.map _)
  | survey _ _ _ hwithin => exact .inr (hnamed (hwithin _ surveys_faultless))
  | asks _ _ _ hwithin _ =>
    exact hwithin.imp (·.map _) fun hwithin => hnamed (hwithin _ (serves_faultless _))

/-! ## Paths -/

/-- The endpoint takes a common operation, or lists the providers. -/
def Endpoint.isCommon : Endpoint → Bool
  | .page .providers => true
  | .page _ => false
  | .action a => !a.isBankId

/-- The endpoint takes an operation of BankID's own. -/
def Endpoint.isBankId : Endpoint → Bool
  | .page _ => false
  | .action a => a.isBankId

/-- An endpoint stands in the table. -/
theorem mem_table {path : String} {endpoint : Endpoint} (h : Endpoint.at? path = some endpoint) :
    (path, endpoint) ∈ Endpoint.table := by
  unfold Endpoint.at? at h
  generalize Endpoint.table = table at h ⊢
  induction table with
  | nil => cases h
  | cons entry rest ih =>
    obtain ⟨known, found⟩ := entry
    rw [List.lookup_cons] at h
    split at h
    · next heq =>
      obtain rfl := Option.some.inj h
      rw [beq_iff_eq.1 heq]
      exact .head _
    · exact .tail _ (ih h)

/-- The common endpoints by path. -/
theorem isCommon_of_path {path : String} {endpoint : Endpoint}
    (h : Endpoint.at? path = some endpoint) (hpath : "/v1/eid/".toList <+: path.toList) :
    endpoint.isCommon = true := by
  have htable : ∀ entry ∈ Endpoint.table,
      "/v1/eid/".toList <+: entry.1.toList → entry.2.isCommon = true := by decide
  exact htable _ (mem_table h) hpath

/-- BankID's own endpoints by path. -/
theorem isBankId_of_path {path : String} {endpoint : Endpoint}
    (h : Endpoint.at? path = some endpoint) (hpath : "/bankid/v6/".toList <+: path.toList) :
    endpoint.isBankId = true := by
  have htable : ∀ entry ∈ Endpoint.table,
      "/bankid/v6/".toList <+: entry.1.toList → entry.2.isBankId = true := by decide
  exact htable _ (mem_table h) hpath

/-! ## Requests -/

section
variable {site : Site} {q : Request} {h : Service.History Message} {t₀ now id : Nat}
  {s : Service Message} {call : Call}

/-- What a poller asks goes to Freja. -/
theorem takes_of_polling {client : Freja.Client} {mode : Order.Mode} {reference : String}
    (h : Service.Polling client mode reference call) :
    (ProviderClient.freja client).Takes call := by
  cases h with
  | one hx => exact (ProviderClient.permits_oneResult mode reference).takes hx
  | all => exact (ProviderClient.offers_allResults mode).takes

/-- A name is given to common operations only. -/
theorem isBankId_of_providerName? {action : Action} {name : String}
    (h : q.providerName? action = some name) : action.isBankId = false := by
  cases action with
  | bankIdAuth | bankIdSign | bankIdCollect | bankIdChange | bankIdCancel => cases h
  | _ => rfl

/-- A request that leads to nothing at the vendors is one for which nothing is sent. -/
theorem not_sentFor_of_mute (run : Service.Runs t₀ site.registry h now s) (hq : Called site q h id)
    (hmute : (site.handle q).Mute) (call : Call) : ¬ SentFor h id call := by
  intro hsent
  obtain ⟨tr, htr, readFrom, harrive⟩ := hq.came
  rcases Service.sentFor_of_runs run htr harrive hsent with
    hholds | ⟨mode, reference, read, cancels, cancel, client, heq, -⟩
  · exact hmute.silent call hholds
  · exact hmute.alone _ _ _ _ _ heq

/-- **Where requests go.** What is sent for a request to an endpoint that surveys nobody goes to the
provider that is asked. -/
theorem asks_of_sentFor (run : Service.Runs t₀ site.registry h now s) (hq : Called site q h id)
    (hsent : SentFor h id call) :
    (∃ page, Endpoint.at? q.path = some (.page page) ∧ page.surveys = true) ∨
      ∃ action p, Endpoint.at? q.path = some (.action action) ∧ site.Asks q action p ∧
        p.Takes call := by
  obtain ⟨tr, htr, readFrom, harrive⟩ := hq.came
  have hfrom := Service.sentFor_of_runs run htr harrive hsent
  cases site.leads_route q with
  | mute hmute => exact absurd hsent (not_sentFor_of_mute run hq (hmute.map _) call)
  | survey hat hpage _ _ => exact .inl ⟨_, hat, hpage⟩
  | @asks action p hat hasks htoward _ _ =>
    have htoward := htoward.map (·.mapResponse fun r => { r with requestId := q.requestId })
    refine .inr ⟨action, p, hat, hasks, ?_⟩
    rcases hfrom with hholds | ⟨mode, reference, read, cancels, cancel, client, heq, hclient, hpolling⟩
    · exact htoward.takes call hholds
    · obtain ⟨client', rfl⟩ := htoward.polls _ _ _ _ _ heq
      cases hasks with
      | common _ hprovider =>
        have hsame := Registry.freja_of_mem (Registry.name_of_provider hprovider).2
        rw [hclient, Option.some.injEq] at hsame
        exact hsame ▸ takes_of_polling hpolling
      | bankId _ _ hbankId => cases hbankId

/-- **Errors of clients.** If a client is told that the request is at fault, nothing was or is ever
sent for it. What is sent for a request under `/v1/eid/` goes to the provider that the request names,
and what is sent for one under `/bankid/v6/` to BankID. -/
theorem client_errors (run : Service.Runs t₀ site.registry h now s) (hq : Called site q h id) :
    (∀ r, Receives h id (.response r) → 400 ≤ r.status → r.status < 500 →
        ∀ call, ¬ SentFor h id call) ∧
      ("/v1/eid/".toList <+: q.path.toList → ∀ call, SentFor h id call →
        ∃ action name p, Endpoint.at? q.path = some (.action action) ∧
          q.providerName? action = some name ∧ site.registry.provider name = .ok p ∧
          p.vendor.name = name ∧ p.Takes call) ∧
      ("/bankid/v6/".toList <+: q.path.toList → ∀ call, SentFor h id call →
        ∃ client, site.registry.bankId = some client ∧
          (ProviderClient.bankId client).Takes call) := by
  obtain ⟨tr, htr, readFrom, harrive⟩ := hq.came
  refine ⟨fun r hr hlow hhigh call hsent => ?_, fun hpath call hsent => ?_,
    fun hpath call hsent => ?_⟩
  · rcases mute_or_faultless site q with hmute | hwithin
    · exact not_sentFor_of_mute run hq hmute call hsent
    · have hheld := Service.held_of_patient run htr harrive hq.stays hwithin
        (fun _ _ _ _ _ _ => trivial) (fun _ _ heq => by cases heq)
        fun failure he failure' heq => by
          rw [← Except.error.inj heq]
          exact status_of_excused he
      rcases Service.gives_of_runs run hheld hr r rfl with hless | hmore
      · exact absurd hlow (Nat.not_le_of_lt hless)
      · exact absurd hhigh (Nat.not_lt_of_le hmore)
  · rcases asks_of_sentFor run hq hsent with ⟨page, hat, hpage⟩ | ⟨action, p, hat, hasks, htakes⟩
    · have hcommon := isCommon_of_path hat hpath
      cases page <;> simp [Page.surveys, Endpoint.isCommon] at hpage hcommon
    · have hcommon := isCommon_of_path hat hpath
      cases hasks with
      | @common name hname hprovider =>
        exact ⟨action, name, p, hat, hname, hprovider, (Registry.name_of_provider hprovider).1,
          htakes⟩
      | bankId haction _ _ => simp [Endpoint.isCommon, haction] at hcommon
  · rcases asks_of_sentFor run hq hsent with ⟨page, hat, hpage⟩ | ⟨action, p, hat, hasks, htakes⟩
    · have hbankId := isBankId_of_path hat hpath
      cases hbankId
    · have hbankId : action.isBankId = true := isBankId_of_path hat hpath
      cases hasks with
      | common hname _ =>
        rw [isBankId_of_providerName? hname] at hbankId
        cases hbankId
      | bankId _ hclient hp => exact ⟨_, hclient, hp ▸ htakes⟩

end

/-- A client wants to cancel an order, but does not say that the body is JSON. BankID hears nothing
of it. -/
theorem undeclared_body_unheard :
    ∃ (site : Site) (q : Request) (h : Service.History Message) (s : Service Message)
      (r : Response), Service.Runs 0 site.registry h 0 s ∧ Called site q h 7 ∧
        Receives h 7 (.response r) ∧ r.status = 400 ∧ ∀ call, ¬ SentFor h 7 call := by
  let site : Site :=
    ⟨{ bankId := some ⟨"https://appapi2.bankid.com", 1000, 15000⟩ }, ⟨.sse, 1000⟩⟩
  let q : Request := { method := "POST", target := "/bankid/v6/cancel", body := .empty }
  have hhandle : site.handle q = .settled (.response (.problem (.badRequest Request.notJson))) := by
    have hat : Endpoint.at? q.path = some (.action .bankIdCancel) := by decide
    rw [Site.handle, Site.route, hat]
    rfl
  have hstatus : (Response.problem (.badRequest Request.notJson)).status = 400 := rfl
  generalize Response.problem (.badRequest Request.notJson) = r at hhandle hstatus
  have hcame : Service.May ([] : Service.History Message)
      (.arrive 7 (.settled (.response r)) 0 false) := by
    rintro ⟨tr, htr, -⟩
    cases htr
  obtain ⟨h, s, run, harrival, hstays, hr⟩ : ∃ (h : Service.History Message) (s : Service Message),
      Service.Runs 0 site.registry h 0 s ∧
        (∃ tr ∈ h, ∃ readFrom, tr.event = .arrive 7 (.settled (.response r)) readFrom false) ∧
        (∀ tr ∈ h, tr.event ≠ .giveUp 7) ∧ Receives h 7 (.response r) :=
    ⟨_, _, Run.next .start (Nat.le_refl 0) hcame rfl, ⟨_, .head _, 0, rfl⟩, by simp,
      .result (.head _) rfl rfl⟩
  have hq : Called site q h 7 := ⟨by rwa [hhandle], hstays⟩
  exact ⟨site, q, h, s, r, run, hq, hr, hstatus,
    (client_errors run hq).1 r hr (by rw [hstatus]) (by rw [hstatus]; decide)⟩

end OrderBroker.Http
