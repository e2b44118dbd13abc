import OrderBroker.BankId.Provider
import OrderBroker.Freja.Provider
import OrderBroker.Http.Problem
import OrderBroker.Proofs.Wire.BankId
import OrderBroker.Proofs.Wire.Freja
import OrderBroker.Proofs.Wire.Order

/-!
# What is written is read back

The broker keeps no sessions: what it tells its callers and the vendors has to come back as it was.
A value of the wire vocabulary is read back from the text that is written for it, and is written in
the same way again (`vocabulary_roundTrip`).

For most types this holds of every value. The status in an error body has to be a number of 16 bits,
and what only one vendor tells of an order has to be as a reader keeps it; both hold of every value
that was read, and of what the broker itself makes.
-/

namespace OrderBroker

open Json

/-! ## Error bodies -/

namespace Http

theorem readsAs_errorBody {b : ErrorBody} (hstatus : ∀ n ∈ b.statusCode, n ≤ 65535) :
    ReadsAs (Wire.toJson b) Wire.ofTree? b := by
  refine readsAs_record (Fields.ofNames ["origin", "statusCode", "code", "detail"])
    [("origin", some (.string b.origin)), ("statusCode", b.statusCode.map fun n => .nat n),
      ("code", some (.string b.code)), ("detail", some (.string b.detail))]
    ?_ (fun t => rfl) (by decide) rfl ?_ fun r hr => ?_
  · simp only [Wire.toJson, field_eq, map_eq]
    rfl
  · simp [Json.nat]
  · simp only [hr.required "origin" rfl (readsAs_text b.origin),
      (hr.nullable "statusCode" rfl rfl fun n hn =>
        readsAs_natural (hstatus n hn) (by omega)).2,
      hr.required "code" rfl (readsAs_text b.code),
      hr.required "detail" rfl (readsAs_text b.detail)]
    rfl

/-- The status in an error body that was read is a number of 16 bits. -/
theorem statusCode_of_ofTree? {t : Tree} {b : ErrorBody} (hread : Wire.ofTree? t = some b) :
    ∀ n ∈ b.statusCode, n ≤ 65535 := by
  obtain ⟨r, -, hr⟩ := Option.bind_eq_some_iff.1 hread
  simp only [Option.bind_eq_bind, Option.bind_eq_some_iff] at hr
  obtain ⟨origin, -, statusCode, hstatus, code, -, detail, -, hr⟩ := hr
  obtain rfl := Option.some.inj hr
  intro n hn
  obtain ⟨t, ht⟩ := Record.read_of_optional hstatus n hn
  exact le_of_natural? ht

end Http

/-! ## Outcomes -/

/-- An outcome of which no vendor tells more is read back. -/
theorem Order.Outcome.readable_of_extra {o : Order.Outcome} (hextra : o.extra = []) :
    o.Readable := by
  rw [Order.Outcome.Readable, hextra]
  exact .object .nil (by simp)

/-- What the broker tells of BankID's progress is read back. -/
theorem BankId.readable_outcomeOf (h : Order.Handle) (p : BankId.Progress) :
    (BankId.outcomeOf h p).Readable := by
  rw [BankId.outcomeOf]
  split
  · have hsorted : Sorted (BankId.extraOf (p.completion.getD {})) := by
      have hkeys : ["bankIdIssueDate", "fullName", "givenName"].Pairwise (· < ·) := by decide
      exact List.pairwise_map.1 hkeys
    exact .object hsorted (by simp [BankId.extraOf, Kept.string])
  · exact Order.Outcome.readable_of_extra rfl

/-- What the broker tells of Freja's result is read back. -/
theorem Freja.readable_outcomeOf {c : Freja.Client} {h : Order.Handle} {result : Freja.Result}
    {o : Order.Outcome} (ho : Freja.outcomeOf c h result = .ok o) : o.Readable := by
  rw [Freja.outcomeOf] at ho
  split at ho
  · split at ho
    · obtain rfl := Except.ok.inj ho
      exact Order.Outcome.readable_of_extra rfl
    · cases ho
  · obtain rfl := Except.ok.inj ho
    exact Order.Outcome.readable_of_extra rfl

/-! ## The whole vocabulary -/

namespace Wire

/-- What is written for a value is read, as this value, and what is written for that is the same
text. -/
def RoundTrips {α : Type} [Wire α] (a : α) : Prop :=
  ∃ b : α, decode? (encode a) = some b ∧ b = a ∧ encode b = encode a

/-- A value goes round if its document is read back. -/
theorem roundTrips_of_readsAs {α : Type} [Wire α] {a : α} (ha : ReadsAs (toJson a) ofTree? a) :
    RoundTrips a := by
  refine ⟨a, ?_, rfl, rfl⟩
  rw [decode?, decodeBytes?, encode, ofBytes?_render ha.plain, Option.bind_some, ha.read]

/-- What is written for a value that goes round is read as the value. -/
theorem RoundTrips.decode?_encode {α : Type} [Wire α] {a : α} (ha : RoundTrips a) :
    decode? (encode a) = some a := by
  obtain ⟨b, hread, rfl, -⟩ := ha
  exact hread

/-- **What is written is read back**, for every type of the wire vocabulary. -/
theorem vocabulary_roundTrip :
    (∀ p : Order.Person, RoundTrips p) ∧
    (∀ p : Order.Payload, RoundTrips p) ∧
    (∀ q : Order.Request, RoundTrips q) ∧
    (∀ h : Order.Handle, RoundTrips h) ∧
    (∀ p : Order.ProviderList, RoundTrips p) ∧
    (∀ q : BankId.Requirement, RoundTrips q) ∧
    (∀ n : BankId.OrderName, RoundTrips n) ∧
    (∀ q : BankId.ChangeQuery, RoundTrips q) ∧
    (∀ o : BankId.StartedOrder, RoundTrips o) ∧
    (∀ p : BankId.Progress, RoundTrips p) ∧
    (∀ c : BankId.Completion, RoundTrips c) ∧
    (∀ c : BankId.QrCode, RoundTrips c) ∧
    (∀ s : Freja.Subject, RoundTrips s) ∧
    (∀ s : Freja.Ssn, RoundTrips s) ∧
    (∀ a : Freja.Attributes, RoundTrips a) ∧
    (∀ r : Freja.Result, RoundTrips r) ∧
    (∀ b : Http.ErrorBody,
      (∃ text, decode? text = some b) ∨ (∀ n ∈ b.statusCode, n ≤ 65535) → RoundTrips b) ∧
    (∀ o : Order.Outcome,
      ((∃ text, decode? text = some o) ∧ Plain (.object o.extra)) ∨
        (∃ h p, o = BankId.outcomeOf h p) ∨ (∃ c h r, Freja.outcomeOf c h r = .ok o) →
      RoundTrips o) := by
  have hread {α : Type} [Wire α] {text : String} {a : α} (htext : decode? text = some a) :
      ∃ t, ofTree? t = some a := by
    obtain ⟨t, -, ht⟩ := Option.bind_eq_some_iff.1 htext
    exact ⟨t, ht⟩
  refine ⟨fun p => ?_, fun p => ?_, fun q => ?_, fun h => ?_, fun p => ?_, fun q => ?_, fun n => ?_,
    fun q => ?_, fun o => ?_, fun p => ?_, fun c => ?_, fun c => ?_, fun s => ?_, fun s => ?_,
    fun a => ?_, fun r => ?_, fun b hb => ?_, fun o ho => ?_⟩
  · exact roundTrips_of_readsAs (Order.readsAs_person p)
  · exact roundTrips_of_readsAs (Order.readsAs_payload p)
  · exact roundTrips_of_readsAs (Order.readsAs_request q)
  · exact roundTrips_of_readsAs (Order.readsAs_handle h)
  · exact roundTrips_of_readsAs (Order.readsAs_providerList p)
  · exact roundTrips_of_readsAs (BankId.readsAs_requirement q)
  · exact roundTrips_of_readsAs (BankId.readsAs_orderName n)
  · exact roundTrips_of_readsAs (BankId.readsAs_changeQuery q)
  · exact roundTrips_of_readsAs (BankId.readsAs_startedOrder o)
  · exact roundTrips_of_readsAs (BankId.readsAs_progress p)
  · exact roundTrips_of_readsAs (BankId.readsAs_completion c)
  · exact roundTrips_of_readsAs (BankId.readsAs_qrCode c)
  · exact roundTrips_of_readsAs (Freja.readsAs_subject s)
  · exact roundTrips_of_readsAs (Freja.readsAs_ssn s)
  · exact roundTrips_of_readsAs (Freja.readsAs_attributes a)
  · exact roundTrips_of_readsAs (Freja.readsAs_result r)
  · refine roundTrips_of_readsAs (Http.readsAs_errorBody ?_)
    rcases hb with ⟨text, htext⟩ | hb
    · obtain ⟨t, ht⟩ := hread htext
      exact Http.statusCode_of_ofTree? ht
    · exact hb
  · refine roundTrips_of_readsAs (Order.readsAs_outcome ?_)
    rcases ho with ⟨⟨text, htext⟩, hplain⟩ | ⟨h, p, rfl⟩ | ⟨c, h, r, ho⟩
    · obtain ⟨t, ht⟩ := hread htext
      exact Order.Outcome.readable_of_ofTree? ht hplain
    · exact BankId.readable_outcomeOf h p
    · exact Freja.readable_outcomeOf ho

/-- A result under the key of the other mode with a status that nobody knows, an error body with the
largest status, and the outcome of an order that was approved on a device with a long address. -/
theorem odd_values_roundTrip :
    (let result : Freja.Result := { reference := "r\n" };
      decode? "\x7b\"status\":\"NEW\",\"signRef\":\"r\\u000a\"\x7d" = some result ∧
        RoundTrips result) ∧
    (let body : Http.ErrorBody := ⟨"BankIDv6", some 65535, "\"", "å"⟩;
      (∃ text, decode? text = some body) ∧ RoundTrips body) ∧
    (let handle : Order.Handle :=
        { request := .forProvider "bankid", mode := .auth, reference := "r" };
      let device : BankId.Device := { ipAddress := "0:0:1::ffff:1.2.3.4" };
      let outcome := BankId.outcomeOf handle ⟨"r", .complete, "", some { device }⟩;
      outcome.extra ≠ [] ∧ RoundTrips outcome) := by
  obtain ⟨-, -, -, -, -, -, -, -, -, -, -, -, -, -, -, hresult, hbody, houtcome⟩ :=
    vocabulary_roundTrip
  refine ⟨⟨by decide +kernel, hresult _⟩, ?_, ?_⟩
  · have hread : ∃ text, decode? text =
        some (⟨"BankIDv6", some 65535, "\"", "å"⟩ : Http.ErrorBody) :=
      ⟨"[\"BankIDv6\",65535,\"\\\"\",\"\\u00E5\"]", by decide +kernel⟩
    exact ⟨hread, hbody _ (.inl hread)⟩
  · exact ⟨by simp [BankId.outcomeOf, BankId.commonStatus, BankId.extraOf],
      houtcome _ (.inr (.inl ⟨_, _, rfl⟩))⟩

end Wire

end OrderBroker
