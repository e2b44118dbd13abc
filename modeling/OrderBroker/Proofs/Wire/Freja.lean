import OrderBroker.Freja.Order
import OrderBroker.Freja.Result
import OrderBroker.Proofs.Json.Records

/-!
# Freja's records are read back

Every value that is told to Freja, or that Freja tells, is read back from what is written for it. A
result is written with its reference under the key of one mode, whichever key it was read from.
-/

namespace OrderBroker.Freja

open Json

theorem readsAs_subjectKind (k : SubjectKind) : ReadsAs (Wire.toJson k) Wire.ofTree? k :=
  readsAs_oneOf (by cases k <;> rfl)

theorem readsAs_ssn (s : Ssn) : ReadsAs (Wire.toJson s) Wire.ofTree? s := by
  refine readsAs_record (Fields.ofNames ["country", "ssn"])
    [("country", some (.string s.country)), ("ssn", some (.string s.ssn))]
    rfl (fun t => rfl) (by decide) rfl (by simp) fun r hr => ?_
  simp only [hr.required "country" rfl (readsAs_text s.country),
    hr.required "ssn" rfl (readsAs_text s.ssn)]
  rfl

theorem readsAs_subject (s : Subject) : ReadsAs (Wire.toJson s) Wire.ofTree? s := by
  refine readsAs_record (Fields.ofNames ["userInfoType", "userInfo"])
    [("userInfoType", some (Wire.toJson s.kind)), ("userInfo", some (.string s.info))]
    rfl (fun t => rfl) (by decide) rfl ?_ fun r hr => ?_
  · simp [(readsAs_subjectKind _).plain]
  · simp only [hr.required "userInfoType" rfl (readsAs_subjectKind s.kind),
      hr.required "userInfo" rfl (readsAs_text s.info)]
    rfl

theorem readsAs_registrationLevel (l : RegistrationLevel) : ReadsAs (Wire.toJson l) Wire.ofTree? l :=
  readsAs_oneOf (by cases l <;> rfl)

theorem readsAs_pushNotification (p : PushNotification) : ReadsAs (Wire.toJson p) Wire.ofTree? p := by
  refine readsAs_record (Fields.ofNames ["title", "text"])
    [("title", some (.string p.title)), ("text", some (.string p.text))]
    rfl (fun t => rfl) (by decide) rfl (by simp) fun r hr => ?_
  simp only [hr.required "title" rfl (readsAs_text p.title),
    hr.required "text" rfl (readsAs_text p.text)]
  rfl

theorem readsAs_attribute (a : Attribute) : ReadsAs (Wire.toJson a) Wire.ofTree? a := by
  refine readsAs_record (Fields.ofNames ["attribute"]) [("attribute", some (.string a.name))]
    rfl (fun t => rfl) (by decide) rfl (by simp) fun r hr => ?_
  exact hr.required "attribute" rfl (readsAs_oneOf (by cases a <;> rfl))

theorem readsAs_resultStatus (s : ResultStatus) : ReadsAs (Wire.toJson s) Wire.ofTree? s :=
  readsAs_oneOfOr (by cases s <;> rfl)

theorem readsAs_basicUserInfo (b : BasicUserInfo) : ReadsAs (Wire.toJson b) Wire.ofTree? b := by
  refine readsAs_record (Fields.ofNames ["name", "surname"])
    [("name", some (.string b.name)), ("surname", some (.string b.surname))]
    rfl (fun t => rfl) (by decide) rfl (by simp) fun r hr => ?_
  simp only [hr.withDefault "name" rfl (readsAs_text b.name),
    hr.withDefault "surname" rfl (readsAs_text b.surname)]
  rfl

theorem readsAs_attributes (a : Attributes) : ReadsAs (Wire.toJson a) Wire.ofTree? a := by
  refine readsAs_record (Fields.ofNames
      ["basicUserInfo", "emailAddress", "dateOfBirth", "customIdentifier", "ssn",
        "relyingPartyUserId", "integratorSpecificUserId"])
    [("basicUserInfo", some (Wire.toJson a.basicUserInfo)),
      ("emailAddress", some (.string a.emailAddress)),
      ("dateOfBirth", some (.string a.dateOfBirth)),
      ("customIdentifier", some (.string a.customIdentifier)), ("ssn", some (Wire.toJson a.ssn)),
      ("relyingPartyUserId", some (.string a.relyingPartyUserId)),
      ("integratorSpecificUserId", some (.string a.integratorSpecificUserId))]
    rfl (fun t => rfl) (by decide) rfl ?_ fun r hr => ?_
  · simp [(readsAs_basicUserInfo _).plain, (readsAs_ssn _).plain]
  · simp only [hr.withDefault "basicUserInfo" rfl (readsAs_basicUserInfo a.basicUserInfo),
      hr.withDefault "emailAddress" rfl (readsAs_text a.emailAddress),
      hr.withDefault "dateOfBirth" rfl (readsAs_text a.dateOfBirth),
      hr.withDefault "customIdentifier" rfl (readsAs_text a.customIdentifier),
      hr.withDefault "ssn" rfl (readsAs_ssn a.ssn),
      hr.withDefault "relyingPartyUserId" rfl (readsAs_text a.relyingPartyUserId),
      hr.withDefault "integratorSpecificUserId" rfl (readsAs_text a.integratorSpecificUserId)]
    rfl

theorem readsAs_result (o : Result) : ReadsAs (Wire.toJson o) Wire.ofTree? o := by
  refine readsAs_record Result.fields
    [("authRef", some (.string o.reference)), ("status", some (Wire.toJson o.status)),
      ("requestedAttributes", some (Wire.toJson o.attributes)),
      ("details", some (.string o.details))]
    rfl (fun t => rfl) (by decide) rfl ?_ fun r hr => ?_
  · simp [(readsAs_resultStatus _).plain, (readsAs_attributes _).plain]
  · simp only [hr.withDefault "authRef" rfl (readsAs_text o.reference),
      hr.withDefault "status" rfl (readsAs_resultStatus o.status),
      hr.withDefault "requestedAttributes" rfl (readsAs_attributes o.attributes),
      hr.withDefault "details" rfl (readsAs_text o.details)]
    rfl

end OrderBroker.Freja
