import OrderBroker.BankId.Order
import OrderBroker.BankId.Progress
import OrderBroker.Proofs.Json.Records

/-!
# BankID's records are read back

Every value that is told to BankID, or that BankID tells, is read back from what is written for it.
A field that is left out where it has its default is read as this default, and the status of an
order that is none of the known ones is written by a name that is none of theirs either.
-/

namespace OrderBroker.BankId

open Json

theorem readsAs_requirement (q : Requirement) : ReadsAs (Wire.toJson q) Wire.ofTree? q := by
  refine readsAs_record (Fields.ofNames
      ["pinCode", "mrtd", "cardReader", "certificatePolicies", "personalNumber"])
    [("pinCode", if q.pinCode then some (.bool q.pinCode) else none),
      ("mrtd", if q.mrtd then some (.bool q.mrtd) else none),
      ("cardReader", if decide (q.cardReader ≠ "") then some (.string q.cardReader) else none),
      ("certificatePolicies", if decide (q.certificatePolicies ≠ []) then
        some (.array (q.certificatePolicies.map .string)) else none),
      ("personalNumber", if decide (q.personalNumber ≠ "") then
        some (.string q.personalNumber) else none)]
    ?_ (fun t => rfl) (by decide) rfl ?_ fun r hr => ?_
  · simp only [Wire.toJson, fieldIf_eq]
    rfl
  · simp [(readsAs_list fun s _ => readsAs_text s).plain]
  · have hpinCode := hr.withDefault_if (d := false) "pinCode" rfl (readsAs_flag q.pinCode) (by simp)
    have hmrtd := hr.withDefault_if (d := false) "mrtd" rfl (readsAs_flag q.mrtd) (by simp)
    have hcardReader :=
      hr.withDefault_if (d := "") "cardReader" rfl (readsAs_text q.cardReader) (by simp)
    have hpolicies := hr.withDefault_if (d := []) "certificatePolicies" rfl
      (readsAs_list fun s _ => readsAs_text s) (by simp)
    have hpersonalNumber :=
      hr.withDefault_if (d := "") "personalNumber" rfl (readsAs_text q.personalNumber) (by simp)
    simp only [hpinCode, hmrtd, hcardReader, hpolicies, hpersonalNumber]
    rfl

theorem readsAs_startedOrder (o : StartedOrder) : ReadsAs (Wire.toJson o) Wire.ofTree? o := by
  refine readsAs_record (Fields.ofNames
      ["orderRef", "autoStartToken", "qrStartToken", "qrStartSecret"])
    [("orderRef", some (.string o.orderRef)), ("autoStartToken", some (.string o.autoStartToken)),
      ("qrStartToken", some (.string o.qrStartToken)),
      ("qrStartSecret", some (.string o.qrStartSecret))]
    rfl (fun t => rfl) (by decide) rfl (by simp) fun r hr => ?_
  simp only [hr.required "orderRef" rfl (readsAs_text o.orderRef),
    hr.required "autoStartToken" rfl (readsAs_text o.autoStartToken),
    hr.withDefault "qrStartToken" rfl (readsAs_text o.qrStartToken),
    hr.withDefault "qrStartSecret" rfl (readsAs_text o.qrStartSecret)]
  rfl

theorem readsAs_qrCode (c : QrCode) : ReadsAs (Wire.toJson c) Wire.ofTree? c := by
  refine readsAs_record (Fields.ofNames ["orderRef", "uri", "qr"])
    [("orderRef", some (.string c.orderRef)), ("uri", some (.string c.uri)),
      ("qr", some (.string c.qr))]
    rfl (fun t => rfl) (by decide) rfl (by simp) fun r hr => ?_
  simp only [hr.required "orderRef" rfl (readsAs_text c.orderRef),
    hr.required "uri" rfl (readsAs_text c.uri), hr.required "qr" rfl (readsAs_text c.qr)]
  rfl

theorem readsAs_orderName (n : OrderName) : ReadsAs (Wire.toJson n) Wire.ofTree? n := by
  refine readsAs_record (Fields.ofNames ["orderRef"])
    [("orderRef", some (.string n.orderRef))]
    rfl (fun t => rfl) (by decide) rfl (by simp) fun r hr => ?_
  simp only [hr.withDefault "orderRef" rfl (readsAs_text n.orderRef)]
  rfl

theorem readsAs_changeQuery (q : ChangeQuery) : ReadsAs (Wire.toJson q) Wire.ofTree? q := by
  refine readsAs_record (Fields.ofNames ["orderRef", "onFinished"])
    [("orderRef", some (.string q.orderRef)), ("onFinished", some (.bool q.untilFinished))]
    rfl (fun t => rfl) (by decide) rfl (by simp) fun r hr => ?_
  simp only [hr.withDefault "orderRef" rfl (readsAs_text q.orderRef),
    hr.withDefault "onFinished" rfl (readsAs_flag q.untilFinished)]
  rfl

theorem readsAs_orderStatus (s : OrderStatus) : ReadsAs (Wire.toJson s) Wire.ofTree? s :=
  readsAs_oneOfOr (by cases s <;> rfl)

theorem readsAs_user (u : User) : ReadsAs (Wire.toJson u) Wire.ofTree? u := by
  refine readsAs_record (Fields.ofNames ["personalNumber", "name", "givenName", "surname"])
    [("personalNumber", some (.string u.personalNumber)), ("name", some (.string u.name)),
      ("givenName", some (.string u.givenName)), ("surname", some (.string u.surname))]
    rfl (fun t => rfl) (by decide) rfl (by simp) fun r hr => ?_
  simp only [hr.withDefault "personalNumber" rfl (readsAs_text u.personalNumber),
    hr.withDefault "name" rfl (readsAs_text u.name),
    hr.withDefault "givenName" rfl (readsAs_text u.givenName),
    hr.withDefault "surname" rfl (readsAs_text u.surname)]
  rfl

theorem readsAs_device (d : Device) : ReadsAs (Wire.toJson d) Wire.ofTree? d := by
  refine readsAs_record (Fields.ofNames ["ipAddress", "uhi"])
    [("ipAddress", some (.string d.ipAddress)), ("uhi", some (.string d.uhi))]
    rfl (fun t => rfl) (by decide) rfl (by simp) fun r hr => ?_
  simp only [hr.withDefault "ipAddress" rfl (readsAs_text d.ipAddress),
    hr.withDefault "uhi" rfl (readsAs_text d.uhi)]
  rfl

theorem readsAs_stepUp (s : StepUp) : ReadsAs (Wire.toJson s) Wire.ofTree? s := by
  refine readsAs_record (Fields.ofNames ["mrtd"])
    [("mrtd", some (.bool s.mrtd))]
    rfl (fun t => rfl) (by decide) rfl (by simp) fun r hr => ?_
  simp only [hr.withDefault "mrtd" rfl (readsAs_flag s.mrtd)]
  rfl

theorem readsAs_completion (c : Completion) : ReadsAs (Wire.toJson c) Wire.ofTree? c := by
  refine readsAs_record (Fields.ofNames
      ["user", "device", "bankIdIssueDate", "stepUp", "signature", "ocspResponse"])
    [("user", some (Wire.toJson c.user)), ("device", some (Wire.toJson c.device)),
      ("bankIdIssueDate", some (.string c.bankIdIssueDate)),
      ("stepUp", some (Wire.toJson c.stepUp)), ("signature", some (.string c.signature)),
      ("ocspResponse", some (.string c.ocspResponse))]
    rfl (fun t => rfl) (by decide) rfl ?_ fun r hr => ?_
  · simp [(readsAs_user _).plain, (readsAs_device _).plain, (readsAs_stepUp _).plain]
  · simp only [hr.withDefault "user" rfl (readsAs_user c.user),
      hr.withDefault "device" rfl (readsAs_device c.device),
      hr.withDefault "bankIdIssueDate" rfl (readsAs_text c.bankIdIssueDate),
      hr.withDefault "stepUp" rfl (readsAs_stepUp c.stepUp),
      hr.withDefault "signature" rfl (readsAs_text c.signature),
      hr.withDefault "ocspResponse" rfl (readsAs_text c.ocspResponse)]
    rfl

theorem readsAs_progress (p : Progress) : ReadsAs (Wire.toJson p) Wire.ofTree? p := by
  refine readsAs_record (Fields.ofNames ["orderRef", "status", "hintCode", "completionData"])
    [("orderRef", some (.string p.orderRef)), ("status", some (Wire.toJson p.status)),
      ("hintCode", some (.string p.hintCode)),
      ("completionData", p.completion.map fun c => Wire.toJson c)]
    ?_ (fun t => rfl) (by decide) rfl ?_ fun r hr => ?_
  · simp only [Wire.toJson, field_eq, map_eq]
    rfl
  · simp [(readsAs_orderStatus _).plain, (readsAs_completion _).plain]
  · simp only [hr.required "orderRef" rfl (readsAs_text p.orderRef),
      hr.required "status" rfl (readsAs_orderStatus p.status),
      hr.withDefault "hintCode" rfl (readsAs_text p.hintCode),
      (hr.nullable "completionData" rfl rfl fun c _ => readsAs_completion c).1]
    rfl

end OrderBroker.BankId
