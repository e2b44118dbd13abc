import OrderBroker.BankId.Provider
import OrderBroker.Proofs.Json.Fields

/-!
# What BankID orders are asked for

An order comes to BankID in two ways. A request in the common vocabulary stands for an order
(`requested`): for the user at an address, who has to have the personal number that is named, with
the text of the payload shown and its data hidden. A request to BankID's own endpoints brings the
order as a document, field by field (`GivesOrder`). In either way the program starts this order and
no other (`startRequest_eq`, `givesOrder_iff`).
-/

namespace OrderBroker.BankId

/-! ## In the common vocabulary -/

/-- The order that a request in the common vocabulary stands for. Where no address is given, it is
that of the host itself. -/
def requested (request : Order.Request) : StartRequest where
  endUserIp := ((request.who.bind (·.ip)).map (·.text)).getD "127.0.0.1"
  requirement := { personalNumber := (request.who.map (·.ssn)).getD "" }
  visible := (request.payload.map (·.text)).getD ""
  hidden := (request.payload.map (·.data)).getD .empty

/-- A request is understood as the order that it stands for. -/
theorem startRequest_eq (request : Order.Request) : startRequest request = requested request := by
  have hloopback : IpAddress.loopback.text = "127.0.0.1" := by decide
  obtain ⟨provider, who, payload⟩ := request
  have hip : ((addressedPerson ⟨provider, who, payload⟩).ip.getD IpAddress.loopback).text =
      ((who.bind (·.ip)).map (·.text)).getD "127.0.0.1" := by
    rcases who with _ | who
    · exact hloopback
    · rcases hip : who.ip with _ | ip
      · simp [addressedPerson, Order.Request.whoOrInferred, hip, hloopback]
      · simp [addressedPerson, Order.Request.whoOrInferred, hip]
  have hssn : (addressedPerson ⟨provider, who, payload⟩).ssn = (who.map (·.ssn)).getD "" := by
    cases who <;> rfl
  have hrequirement : (if (who.map (·.ssn)).getD "" = "" then ({} : Requirement)
      else { personalNumber := (who.map (·.ssn)).getD "" }) =
        { personalNumber := (who.map (·.ssn)).getD "" } := by
    split
    · next hempty => rw [hempty]
    · rfl
  have hpayload : (payload.getD {}).text = (payload.map (·.text)).getD "" ∧
      (payload.getD {}).data = (payload.map (·.data)).getD .empty := by
    cases payload <;> exact ⟨rfl, rfl⟩
  simp only [startRequest, requested, hip, hssn, hrequirement, hpayload]

/-! ## In documents -/

/-- The document gives the requirement: each field under its key, and none where it has its
default. -/
structure GivesRequirement (t : Json.Tree) (q : Requirement) : Prop where
  pinCode : t.Says "pinCode" 0 (·.flag? = some ·) false q.pinCode
  mrtd : t.Says "mrtd" 1 (·.flag? = some ·) false q.mrtd
  cardReader : t.Says "cardReader" 2 (·.text? = some ·) "" q.cardReader
  certificatePolicies : t.Says "certificatePolicies" 3 (·.list? (·.text?) = some ·) []
    q.certificatePolicies
  personalNumber : t.Says "personalNumber" 4 (·.text? = some ·) "" q.personalNumber

/-- The document gives the order. What is hidden is given as a text, and is the bytes of it. -/
structure GivesOrder (t : Json.Tree) (q : StartRequest) : Prop where
  endUserIp : t.Says "endUserIp" 0 (·.text? = some ·) "" q.endUserIp
  requirement : t.Says "requirement" 1 GivesRequirement {} q.requirement
  visible : t.Says "userVisibleData" 2 (·.text? = some ·) "" q.visible
  hidden : t.Says "userNonVisibleData" 3 (fun value bytes =>
    ∃ text, value.text? = some text ∧ bytes = text.toUTF8) .empty q.hidden
  format : t.Says "userVisibleDataFormat" 4 (·.text? = some ·) "" q.format

section
variable {t : Json.Tree}

/-- A value that is read means what it is read as. -/
theorem reads_iff {α : Type} {read : Json.Tree → Option α} {value : Json.Tree} {a : α}
    (hread : read value = some a) (b : α) : read value = some b ↔ b = a := by
  rw [hread, Option.some.injEq, eq_comm]

/-- A requirement that is read is the one that the document gives. -/
theorem givesRequirement_iff {q : Requirement} (hread : Wire.ofTree? t = some q)
    (q' : Requirement) : GivesRequirement t q' ↔ q' = q := by
  obtain ⟨r, hr, hread⟩ := Option.bind_eq_some_iff.1 hread
  obtain ⟨pinCode, hpinCode, hread⟩ := Option.bind_eq_some_iff.1 hread
  obtain ⟨mrtd, hmrtd, hread⟩ := Option.bind_eq_some_iff.1 hread
  obtain ⟨cardReader, hcardReader, hread⟩ := Option.bind_eq_some_iff.1 hread
  obtain ⟨policies, hpolicies, hread⟩ := Option.bind_eq_some_iff.1 hread
  obtain ⟨personalNumber, hpersonalNumber, hread⟩ := Option.bind_eq_some_iff.1 hread
  obtain rfl := Option.some.inj hread
  have hpinCode := Json.says_iff_of_withDefault 0 (by decide) rfl hr reads_iff hpinCode
  have hmrtd := Json.says_iff_of_withDefault 1 (by decide) rfl hr reads_iff hmrtd
  have hcardReader := Json.says_iff_of_withDefault 2 (by decide) rfl hr reads_iff hcardReader
  have hpolicies := Json.says_iff_of_withDefault 3 (by decide) rfl hr reads_iff hpolicies
  have hpersonalNumber :=
    Json.says_iff_of_withDefault 4 (by decide) rfl hr reads_iff hpersonalNumber
  constructor
  · intro h
    obtain ⟨pinCode', mrtd', cardReader', policies', personalNumber'⟩ := q'
    obtain rfl : pinCode' = pinCode := (hpinCode _).1 h.pinCode
    obtain rfl : mrtd' = mrtd := (hmrtd _).1 h.mrtd
    obtain rfl : cardReader' = cardReader := (hcardReader _).1 h.cardReader
    obtain rfl : policies' = policies := (hpolicies _).1 h.certificatePolicies
    obtain rfl : personalNumber' = personalNumber := (hpersonalNumber _).1 h.personalNumber
    rfl
  · rintro rfl
    exact ⟨(hpinCode _).2 rfl, (hmrtd _).2 rfl, (hcardReader _).2 rfl, (hpolicies _).2 rfl,
      (hpersonalNumber _).2 rfl⟩

/-- **An order that is read** is the one that the document gives. -/
theorem givesOrder_iff {q : StartRequest} (hread : StartRequest.ofTree? t = some q)
    (q' : StartRequest) : GivesOrder t q' ↔ q' = q := by
  have htext {value : Json.Tree} {bytes : ByteArray}
      (hvalue : value.text?.map String.toUTF8 = some bytes) (bytes' : ByteArray) :
      (∃ text, value.text? = some text ∧ bytes' = text.toUTF8) ↔ bytes' = bytes := by
    obtain ⟨text, htext, rfl⟩ := Option.map_eq_some_iff.1 hvalue
    simp [htext]
  obtain ⟨r, hr, hread⟩ := Option.bind_eq_some_iff.1 hread
  obtain ⟨endUserIp, hip, hread⟩ := Option.bind_eq_some_iff.1 hread
  obtain ⟨requirement, hrequirement, hread⟩ := Option.bind_eq_some_iff.1 hread
  obtain ⟨visible, hvisible, hread⟩ := Option.bind_eq_some_iff.1 hread
  obtain ⟨hidden, hhidden, hread⟩ := Option.bind_eq_some_iff.1 hread
  obtain ⟨format, hformat, hread⟩ := Option.bind_eq_some_iff.1 hread
  obtain rfl := Option.some.inj hread
  have hip := Json.says_iff_of_withDefault 0 (by decide) rfl hr reads_iff hip
  have hrequirement :=
    Json.says_iff_of_withDefault 1 (by decide) rfl hr givesRequirement_iff hrequirement
  have hvisible := Json.says_iff_of_withDefault 2 (by decide) rfl hr reads_iff hvisible
  have hhidden := Json.says_iff_of_withDefault 3 (by decide) rfl hr htext hhidden
  have hformat := Json.says_iff_of_withDefault 4 (by decide) rfl hr reads_iff hformat
  constructor
  · intro h
    obtain ⟨endUserIp', requirement', visible', hidden', format'⟩ := q'
    obtain rfl : endUserIp' = endUserIp := (hip _).1 h.endUserIp
    obtain rfl : requirement' = requirement := (hrequirement _).1 h.requirement
    obtain rfl : visible' = visible := (hvisible _).1 h.visible
    obtain rfl : hidden' = hidden := (hhidden _).1 h.hidden
    obtain rfl : format' = format := (hformat _).1 h.format
    rfl
  · rintro rfl
    exact ⟨(hip _).2 rfl, (hrequirement _).2 rfl, (hvisible _).2 rfl, (hhidden _).2 rfl,
      (hformat _).2 rfl⟩

end

end OrderBroker.BankId
