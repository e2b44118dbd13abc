import OrderBroker.Order.Outcome
import OrderBroker.Proofs.Base64
import OrderBroker.Proofs.Calendar.Date
import OrderBroker.Proofs.Json.Records
import OrderBroker.Proofs.Net.IpAddress

/-!
# Orders are read back

Every value of the common vocabulary is read back from what is written for it: persons with their
addresses and dates, payloads with any bytes, requests, handles and outcomes. An outcome is read
back if what only one vendor tells of it is a value that a reader keeps (`Outcome.Readable`), which
holds of every outcome that was read and has no doubles in it.
-/

namespace OrderBroker.Order

open Json

/-- Bytes are read back from their base64 text. -/
theorem readsAs_bytes (bytes : ByteArray) : ReadsAs (bytesToJson bytes) bytesOfTree? bytes := by
  refine ⟨.string _, ?_⟩
  show (Escape.unescape? (rawOf (Base64.standard.encode bytes))).bind Base64.standard.decode? = _
  rw [unescape?_rawOf, Option.bind_some, Base64.decode?_encode Base64.distinct_standard]

/-- An address is read back from its text. -/
theorem readsAs_ip (ip : IpAddress) :
    ReadsAs (.string ip.text) (fun t => t.text?.bind IpAddress.parse?) ip := by
  refine ⟨.string _, ?_⟩
  rw [(readsAs_text ip.text).read, Option.bind_some, IpAddress.parse?_text]

/-- A date is read back from its text. -/
theorem readsAs_date (d : Date) :
    ReadsAs (.string d.text) (fun t => t.text?.bind Date.parse?) d := by
  refine ⟨.string _, ?_⟩
  rw [(readsAs_text d.text).read, Option.bind_some, Date.parse?_text]

theorem readsAs_person (p : Person) : ReadsAs (Wire.toJson p) Wire.ofTree? p := by
  refine readsAs_record Person.fields
    [("inferred", some (.bool p.inferred)), ("ssn", some (.string p.ssn)),
      ("ssn_country", some (.string p.ssnCountry)), ("email", some (.string p.email)),
      ("phone", some (.string p.phone)), ("name", some (.string p.name)),
      ("surname", some (.string p.surname)), ("ip", p.ip.map fun ip => .string ip.text),
      ("date_of_birth", p.dateOfBirth.map fun d => .string d.text)]
    ?_ (fun t => rfl) (by decide) rfl ?_ fun r hr => ?_
  · simp only [Wire.toJson, field_eq, map_eq]
    rfl
  · simp
  · simp only [hr.withDefault "inferred" rfl (readsAs_flag p.inferred),
      hr.withDefault "ssn" rfl (readsAs_text p.ssn),
      hr.withDefault "ssn_country" rfl (readsAs_text p.ssnCountry),
      hr.withDefault "email" rfl (readsAs_text p.email),
      hr.withDefault "phone" rfl (readsAs_text p.phone),
      hr.withDefault "name" rfl (readsAs_text p.name),
      hr.withDefault "surname" rfl (readsAs_text p.surname),
      (hr.nullable "ip" rfl rfl fun ip _ => readsAs_ip ip).1,
      (hr.nullable "date_of_birth" rfl rfl fun d _ => readsAs_date d).1]
    rfl

theorem readsAs_provider (p : Provider) : ReadsAs (Wire.toJson p) Wire.ofTree? p := by
  refine readsAs_record (Fields.ofNames ["name"]) [("name", some (.string p.name))] rfl
    (fun t => rfl) (by decide) rfl (by simp) fun r hr => ?_
  simp only [hr.required "name" rfl (readsAs_text p.name)]
  rfl

theorem readsAs_payload (p : Payload) : ReadsAs (Wire.toJson p) Wire.ofTree? p := by
  refine readsAs_record (Fields.ofNames ["text", "data"])
    [("text", some (.string p.text)), ("data", some (bytesToJson p.data))]
    rfl (fun t => rfl) (by decide) rfl ?_ fun r hr => ?_
  · simp [(readsAs_bytes p.data).plain]
  · simp only [hr.withDefault "text" rfl (readsAs_text p.text),
      hr.withDefault "data" rfl (readsAs_bytes p.data)]
    rfl

theorem readsAs_request (q : Request) : ReadsAs (Wire.toJson q) Wire.ofTree? q := by
  refine readsAs_record (Fields.ofNames ["provider", "who", "payload"])
    [("provider", some (Wire.toJson q.provider)), ("who", q.who.map fun p => Wire.toJson p),
      ("payload", q.payload.map fun p => Wire.toJson p)]
    ?_ (fun t => rfl) (by decide) rfl ?_ fun r hr => ?_
  · simp only [Wire.toJson, field_eq, map_eq]
    rfl
  · simp [(readsAs_provider _).plain, (readsAs_person _).plain, (readsAs_payload _).plain]
  · simp only [hr.required "provider" rfl (readsAs_provider q.provider),
      (hr.nullable "who" rfl rfl fun p _ => readsAs_person p).1,
      (hr.nullable "payload" rfl rfl fun p _ => readsAs_payload p).1]
    rfl

theorem readsAs_mode (m : Mode) : ReadsAs (Wire.toJson m) Wire.ofTree? m :=
  readsAs_oneOf (by cases m <;> rfl)

theorem readsAs_handle (h : Handle) : ReadsAs (Wire.toJson h) Wire.ofTree? h := by
  refine readsAs_record (Fields.ofNames ["req", "mode", "ref", "inferred", "URI"])
    [("req", some (Wire.toJson h.request)), ("mode", some (Wire.toJson h.mode)),
      ("ref", some (.string h.reference)), ("inferred", some (.string h.startToken)),
      ("URI", some (.string h.uri))]
    rfl (fun t => rfl) (by decide) rfl ?_ fun r hr => ?_
  · simp [(readsAs_request _).plain, (readsAs_mode _).plain]
  · simp only [hr.required "req" rfl (readsAs_request h.request),
      hr.required "mode" rfl (readsAs_mode h.mode),
      hr.required "ref" rfl (readsAs_text h.reference),
      hr.withDefault "inferred" rfl (readsAs_text h.startToken),
      hr.withDefault "URI" rfl (readsAs_text h.uri)]
    rfl

theorem readsAs_status (s : Status) : ReadsAs (Wire.toJson s) Wire.ofTree? s :=
  readsAs_oneOf (by cases s <;> rfl)

/-! ## Outcomes -/

namespace Outcome

/-- What only one vendor tells of an order is a value that a reader keeps. -/
def Readable (o : Outcome) : Prop := Kept (maxDepth - 1) (.object o.extra)

/-- What only one vendor tells is read back. -/
theorem readsAs_extra {members : List (String × Json)}
    (hmembers : Kept (maxDepth - 1) (.object members)) :
    ReadsAs (.object members) extraOfTree? members := by
  refine ⟨hmembers.plain, ?_⟩
  rw [extraOfTree?, hmembers.ofTree?_toTree]

/-- What was read is read back, if there are no doubles in it. -/
theorem readable_of_ofTree? {t : Tree} {o : Outcome} (hread : Wire.ofTree? t = some o)
    (hplain : Plain (.object o.extra)) : o.Readable := by
  obtain ⟨r, -, hr⟩ := Option.bind_eq_some_iff.1 hread
  have hextra : r.withDefault "extra" [] extraOfTree? = some o.extra := by
    simp only [Option.bind_eq_bind, Option.bind_eq_some_iff] at hr
    obtain ⟨handle, -, status, -, info, -, signature, -, extra, hextra, hr⟩ := hr
    obtain rfl := Option.some.inj hr
    exact hextra
  rcases Record.read_of_withDefault hextra with hnone | ⟨t, ht⟩
  · rw [Readable, hnone]
    exact .object .nil (by simp)
  · rw [extraOfTree?] at ht
    split at ht
    · rename_i members hmembers
      obtain rfl := Option.some.inj ht
      exact kept_of_ofTree? hmembers hplain
    · cases ht

end Outcome

theorem readsAs_outcome {o : Outcome} (ho : o.Readable) :
    ReadsAs (Wire.toJson o) Wire.ofTree? o := by
  refine readsAs_record (Fields.ofNames ["inter", "status", "info", "signature", "extra"])
    [("inter", some (Wire.toJson o.handle)), ("status", some (Wire.toJson o.status)),
      ("info", some (Wire.toJson o.info)), ("signature", some (bytesToJson o.signature)),
      ("extra", if !o.extra.isEmpty then some (.object o.extra) else none)]
    ?_ (fun t => rfl) (by decide) rfl ?_ fun r hr => ?_
  · simp only [Wire.toJson, field_eq, fieldIf_eq]
    rfl
  · simp [(readsAs_handle _).plain, (readsAs_status _).plain, (readsAs_person _).plain,
      (readsAs_bytes _).plain, (Outcome.readsAs_extra ho).plain]
  · have hextra := hr.withDefault_if (d := []) "extra" rfl (Outcome.readsAs_extra ho) (by simp)
    simp only [hr.required "inter" rfl (readsAs_handle o.handle),
      hr.required "status" rfl (readsAs_status o.status),
      hr.withDefault "info" rfl (readsAs_person o.info),
      hr.withDefault "signature" rfl (readsAs_bytes o.signature), hextra]
    rfl

theorem readsAs_providerList (p : ProviderList) : ReadsAs (Wire.toJson p) Wire.ofTree? p := by
  refine readsAs_record (Fields.ofNames ["providers"])
    [("providers", some (.array (p.providers.map .string)))]
    rfl (fun t => rfl) (by decide) rfl ?_ fun r hr => ?_
  · simp [(readsAs_list fun s _ => readsAs_text s).plain]
  · simp only [hr.required "providers" rfl (readsAs_list fun s _ => readsAs_text s)]
    rfl

end OrderBroker.Order
