import OrderBroker.BankId.Order
import OrderBroker.BankId.Progress
import OrderBroker.Freja.Result
import OrderBroker.Proofs.Json.Grammar
import OrderBroker.Proofs.Json.Growth

/-!
# Vendors' answers may grow

What the vendors answer may get members that nobody here knows, in any of its records, and the
members of its records may come in any order: it is read as before (`VendorReply.decode_grown`). The
records of an answer are those of its shape (`VendorReply.shape`); a code of Freja's refusals may be
any value and is none of them.
-/

namespace OrderBroker

open Json

/-! ## BankID's records -/

namespace BankId

/-- The shape of a user. -/
def User.shape : Shape :=
  .record (.ofNames ["personalNumber", "name", "givenName", "surname"]) []

theorem respects_user : Respects User.shape (Wire.ofTree? (α := User)) :=
  respects_record (fun _ => rfl) fun r r' hr => by
    simp only [hr.withDefault "personalNumber" (respects_value _),
      hr.withDefault "name" (respects_value _), hr.withDefault "givenName" (respects_value _),
      hr.withDefault "surname" (respects_value _)]

/-- The shape of a device. -/
def Device.shape : Shape := .record (.ofNames ["ipAddress", "uhi"]) []

theorem respects_device : Respects Device.shape (Wire.ofTree? (α := Device)) :=
  respects_record (fun _ => rfl) fun r r' hr => by
    simp only [hr.withDefault "ipAddress" (respects_value _),
      hr.withDefault "uhi" (respects_value _)]

/-- The shape of what is said of a passport. -/
def StepUp.shape : Shape := .record (.ofNames ["mrtd"]) []

theorem respects_stepUp : Respects StepUp.shape (Wire.ofTree? (α := StepUp)) :=
  respects_record (fun _ => rfl) fun r r' hr => by
    simp only [hr.withDefault "mrtd" (respects_value _)]

/-- The shape of what a complete order brought. -/
def Completion.shape : Shape :=
  .record (.ofNames ["user", "device", "bankIdIssueDate", "stepUp", "signature", "ocspResponse"])
    [("user", User.shape), ("device", Device.shape), ("stepUp", StepUp.shape)]

theorem respects_completion : Respects Completion.shape (Wire.ofTree? (α := Completion)) :=
  respects_record (fun _ => rfl) fun r r' hr => by
    simp only [hr.withDefault "user" respects_user, hr.withDefault "device" respects_device,
      hr.withDefault "bankIdIssueDate" (respects_value _),
      hr.withDefault "stepUp" respects_stepUp, hr.withDefault "signature" (respects_value _),
      hr.withDefault "ocspResponse" (respects_value _)]

/-- The shape of what is told of an order. -/
def Progress.shape : Shape :=
  .record (.ofNames ["orderRef", "status", "hintCode", "completionData"])
    [("completionData", Completion.shape)]

theorem respects_progress : Respects Progress.shape (Wire.ofTree? (α := Progress)) :=
  respects_record (fun _ => rfl) fun r r' hr => by
    simp only [hr.required "orderRef" (respects_value _), hr.required "status" (respects_value _),
      hr.withDefault "hintCode" (respects_value _),
      hr.withDefault "completionData" respects_completion.nullable]

/-- The shape of a started order. -/
def StartedOrder.shape : Shape :=
  .record (.ofNames ["orderRef", "autoStartToken", "qrStartToken", "qrStartSecret"]) []

theorem respects_startedOrder :
    Respects StartedOrder.shape (Wire.ofTree? (α := StartedOrder)) :=
  respects_record (fun _ => rfl) fun r r' hr => by
    simp only [hr.required "orderRef" (respects_value _),
      hr.required "autoStartToken" (respects_value _),
      hr.withDefault "qrStartToken" (respects_value _),
      hr.withDefault "qrStartSecret" (respects_value _)]

/-- The shape of a refusal. -/
def Refusal.shape : Shape := .record (.ofNames ["errorCode", "details"]) []

theorem respects_refusal : Respects Refusal.shape Refusal.ofTree? :=
  respects_record (fun _ => rfl) fun r r' hr => by
    simp only [hr.withDefault "errorCode" (respects_value _),
      hr.withDefault "details" (respects_value _)]

end BankId

/-! ## Freja's records -/

namespace Freja

/-- The shape of a user's name. -/
def BasicUserInfo.shape : Shape := .record (.ofNames ["name", "surname"]) []

theorem respects_basicUserInfo :
    Respects BasicUserInfo.shape (Wire.ofTree? (α := BasicUserInfo)) :=
  respects_record (fun _ => rfl) fun r r' hr => by
    simp only [hr.withDefault "name" (respects_value _),
      hr.withDefault "surname" (respects_value _)]

/-- The shape of a personal number. -/
def Ssn.shape : Shape := .record (.ofNames ["country", "ssn"]) []

theorem respects_ssn : Respects Ssn.shape (Wire.ofTree? (α := Ssn)) :=
  respects_record (fun _ => rfl) fun r r' hr => by
    simp only [hr.required "country" (respects_value _), hr.required "ssn" (respects_value _)]

/-- The shape of what is told about a user. -/
def Attributes.shape : Shape :=
  .record (.ofNames ["basicUserInfo", "emailAddress", "dateOfBirth", "customIdentifier", "ssn",
      "relyingPartyUserId", "integratorSpecificUserId"])
    [("basicUserInfo", BasicUserInfo.shape), ("ssn", Ssn.shape)]

theorem respects_attributes : Respects Attributes.shape (Wire.ofTree? (α := Attributes)) :=
  respects_record (fun _ => rfl) fun r r' hr => by
    simp only [hr.withDefault "basicUserInfo" respects_basicUserInfo,
      hr.withDefault "emailAddress" (respects_value _),
      hr.withDefault "dateOfBirth" (respects_value _),
      hr.withDefault "customIdentifier" (respects_value _), hr.withDefault "ssn" respects_ssn,
      hr.withDefault "relyingPartyUserId" (respects_value _),
      hr.withDefault "integratorSpecificUserId" (respects_value _)]

/-- The shape of a result. -/
def Result.shape : Shape :=
  .record Result.fields [("requestedAttributes", Attributes.shape)]

theorem respects_result : Respects Result.shape (Wire.ofTree? (α := Result)) :=
  respects_record (fun _ => rfl) fun r r' hr => by
    simp only [hr.withDefault "authRef" (respects_value _),
      hr.withDefault "status" (respects_value _),
      hr.withDefault "requestedAttributes" respects_attributes,
      hr.withDefault "details" (respects_value _)]

/-- The shape of a refusal. -/
def Refusal.shape : Shape := .record (.ofNames ["code", "message"]) []

theorem respects_refusal : Respects Refusal.shape Refusal.ofTree? :=
  respects_record (fun _ => rfl) fun r r' hr => by
    simp only [hr.withDefault "code" (respects_value _),
      hr.withDefault "message" (respects_value _)]

end Freja

/-! ## Answers -/

/-- The records that vendors answer with. -/
inductive VendorReply where
  /-- BankID's, of a started order. -/
  | startedOrder
  /-- BankID's, about an order. -/
  | progress
  /-- Freja's, about an order. -/
  | result
  /-- Freja's, about a user. -/
  | attributes
  | bankIdRefusal
  | frejaRefusal

namespace VendorReply

/-- What an answer is read as. -/
def Value : VendorReply → Type
  | .startedOrder => BankId.StartedOrder
  | .progress => BankId.Progress
  | .result => Freja.Result
  | .attributes => Freja.Attributes
  | .bankIdRefusal => BankId.Refusal
  | .frejaRefusal => Freja.Refusal

/-- Reads an answer. -/
def read : (kind : VendorReply) → Tree → Option kind.Value
  | .startedOrder => Wire.ofTree? (α := BankId.StartedOrder)
  | .progress => Wire.ofTree? (α := BankId.Progress)
  | .result => Wire.ofTree? (α := Freja.Result)
  | .attributes => Wire.ofTree? (α := Freja.Attributes)
  | .bankIdRefusal => BankId.Refusal.ofTree?
  | .frejaRefusal => Freja.Refusal.ofTree?

/-- Reads the bytes of an answer. -/
def decode? (kind : VendorReply) (s : List UInt8) : Option kind.Value :=
  (Tree.ofBytes? s).bind kind.read

/-- The records in an answer. -/
def shape : VendorReply → Shape
  | .startedOrder => BankId.StartedOrder.shape
  | .progress => BankId.Progress.shape
  | .result => Freja.Result.shape
  | .attributes => Freja.Attributes.shape
  | .bankIdRefusal => BankId.Refusal.shape
  | .frejaRefusal => Freja.Refusal.shape

/-- No answer is read differently after a step of growth. -/
theorem respects (kind : VendorReply) : Respects kind.shape kind.read := by
  cases kind with
  | startedOrder => exact BankId.respects_startedOrder
  | progress => exact BankId.respects_progress
  | result => exact Freja.respects_result
  | attributes => exact Freja.respects_attributes
  | bankIdRefusal => exact BankId.respects_refusal
  | frejaRefusal => exact Freja.respects_refusal

/-- A text that is read as an answer spells a tree. Whatever this tree grows to, by members that no
record knows and by other orders of members, at any depth, has a text as well, and every text of it
is read as the same answer. -/
theorem decode_grown (kind : VendorReply) {s : List UInt8} {a : kind.Value}
    (hs : kind.decode? s = some a) :
    ∃ t : Tree, t.Spelled s ∧ ∀ t', Relation.ReflTransGen (Grows kind.shape) t t' →
      t'.WellFormed ∧ ∀ s', t'.Spelled s' → kind.decode? s' = some a := by
  obtain ⟨t, ht, ha⟩ := Option.bind_eq_some_iff.1 hs
  have hspelled : t.Spelled s := Tree.ofBytes?_eq_some_iff.1 ht
  refine ⟨t, hspelled, fun t' hgrows => ⟨Grows.wellFormed_star hgrows ⟨s, hspelled⟩, ?_⟩⟩
  intro s' hs'
  rw [decode?, Tree.ofBytes?_eq_some_iff.2 hs', Option.bind_some,
    kind.respects.eq_of_grows hgrows, ha]

/-- A result whose members have changed places, with one more inside of the attributes, and one in
front that holds a string which is no text. -/
theorem grown_result_read :
    VendorReply.result.decode? (utf8 "\x7b\"signRef\":\"r\",\"requestedAttributes\":\x7b\x7d\x7d") =
      some { reference := "r" } ∧
    VendorReply.result.decode? (utf8
      "\x7b\"new\":[\"\\ud800\"], \"requestedAttributes\":\x7b\"of\":1\x7d,\"signRef\":\"r\"\x7d") =
      some { reference := "r" } := by
  have hread : VendorReply.result.decode? (utf8
      "\x7b\"signRef\":\"r\",\"requestedAttributes\":\x7b\x7d\x7d") =
    some { reference := "r" } := rfl
  obtain ⟨t, ht, hgrown⟩ := decode_grown .result hread
  obtain rfl : .object [(utf8 "signRef", .string (utf8 "r")),
      (utf8 "requestedAttributes", .object [])] = t :=
    Option.some.inj (.symm (.trans (Tree.ofBytes?_eq_some_iff.2 ht).symm rfl))
  have hof : Tree.WellFormed (.object [(utf8 "of", .number ⟨false, [1], [], none⟩)]) :=
    ⟨utf8 "\x7b\"of\":1\x7d", Tree.ofBytes?_eq_some_iff.1 rfl⟩
  have hnew : Tree.WellFormed (.object [(utf8 "new", .array [.string (utf8 "\\ud800")])]) :=
    ⟨utf8 "\x7b\"new\":[\"\\ud800\"]\x7d", Tree.ofBytes?_eq_some_iff.1 rfl⟩
  obtain ⟨hofKey, hofValue⟩ := Tree.wellFormed_object.1 hof _ (.head _)
  obtain ⟨hnewKey, hnewValue⟩ := Tree.wellFormed_object.1 hnew _ (.head _)
  have hattributes : Grows Freja.Attributes.shape (.object [])
      (.object [(utf8 "of", .number ⟨false, [1], [], none⟩)]) :=
    @Grows.insert _ _ [] [] _ "of" _ hofKey rfl rfl hofValue
  have hinside : Grows Freja.Result.shape
      (.object [(utf8 "signRef", .string (utf8 "r")), (utf8 "requestedAttributes", .object [])])
      (.object [(utf8 "signRef", .string (utf8 "r")),
        (utf8 "requestedAttributes", .object [(utf8 "of", .number ⟨false, [1], [], none⟩)])]) :=
    @Grows.inside _ _ [_] [] _ "requestedAttributes" "requestedAttributes" _ _ rfl rfl hattributes
  have hinsert := @Grows.insert Freja.Result.fields
    [("requestedAttributes", Freja.Attributes.shape)] []
    [(utf8 "requestedAttributes", .object [(utf8 "of", .number ⟨false, [1], [], none⟩)]),
      (utf8 "signRef", .string (utf8 "r"))] _ "new" _ hnewKey rfl rfl hnewValue
  have hsteps := ((Relation.ReflTransGen.single hinside).tail (.permute (.swap _ _ _))).tail hinsert
  exact ⟨hread, (hgrown _ hsteps).2 _ (Tree.ofBytes?_eq_some_iff.1 rfl)⟩

end VendorReply

end OrderBroker
