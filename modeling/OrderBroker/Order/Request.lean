import OrderBroker.Base64
import OrderBroker.Bytes
import OrderBroker.Order.Person

/-!
# Requests for orders

What a caller asks for: the provider, whom the order is for, and what is to be shown and signed.
Bytes are base64 text in JSON, where null stands for no bytes.
-/

namespace OrderBroker.Order

/-- Bytes written as base64 text. -/
def bytesToJson (bytes : ByteArray) : Json := .string (Base64.standard.encode bytes)

/-- Bytes from base64 text; null is no bytes. -/
def bytesOfTree? : Json.Tree → Option ByteArray
  | .null => some .empty
  | t => t.text?.bind Base64.standard.decode?

/-- The provider that an order goes to. -/
structure Provider where
  name : String := ""
  deriving DecidableEq, Repr

namespace Provider

instance : Wire Provider where
  toJson p := .record [Json.field "name" (.string p.name)]
  ofTree? t := do
    let r ← Json.Record.ofTree? (Json.Fields.ofNames ["name"]) t
    return { name := ← r.required "name" (·.text?) }

end Provider

/-- What is shown to the user and signed. -/
structure Payload where
  text : String := ""
  data : ByteArray := .empty
  deriving DecidableEq

namespace Payload

instance : Wire Payload where
  toJson p := .record [Json.field "text" (.string p.text), Json.field "data" (bytesToJson p.data)]
  ofTree? t := do
    let r ← Json.Record.ofTree? (Json.Fields.ofNames ["text", "data"]) t
    return {
      text := ← r.withDefault "text" "" (·.text?)
      data := ← r.withDefault "data" .empty bytesOfTree? }

end Payload

/-- A caller's wish for an order. -/
structure Request where
  provider : Provider := {}
  who : Option Person := none
  payload : Option Payload := none
  deriving DecidableEq

namespace Request

instance : Wire Request where
  toJson q := .record [
    Json.field "provider" (Wire.toJson q.provider),
    q.who.map fun who => ("who", Wire.toJson who),
    q.payload.map fun payload => ("payload", Wire.toJson payload)]
  ofTree? t := do
    let r ← Json.Record.ofTree? (Json.Fields.ofNames ["provider", "who", "payload"]) t
    return {
      provider := ← r.required "provider" Wire.ofTree?
      who := ← r.withDefault "who" none (Json.Record.nullable Wire.ofTree?)
      payload := ← r.withDefault "payload" none (Json.Record.nullable Wire.ofTree?) }

/-! ## Building a request -/

/-- A request to a provider that says no more. -/
def forProvider (provider : String) : Request := { provider := { name := provider } }

/-- Changes the person, who is unknown so far if none was given. -/
def mapWho (f : Person → Person) (q : Request) : Request :=
  { q with who := some (f (q.who.getD .unknown)) }

/-- Changes the payload, which is empty so far if none was given. -/
def mapPayload (f : Payload → Payload) (q : Request) : Request :=
  { q with payload := some (f (q.payload.getD {})) }

/-- The vendor finds out who it is. -/
def inferred : Request → Request := mapWho fun w => { w with inferred := true }

/-- Sets the address of the user's device. -/
def ip (ip : IpAddress) : Request → Request := mapWho fun w => { w with ip := some ip }

/-- Sets the personal number and its country. -/
def ssn (ssn country : String) : Request → Request :=
  mapWho fun w => { w with ssn := ssn, ssnCountry := country }

/-- Sets the email address. -/
def email (email : String) : Request → Request := mapWho fun w => { w with email := email }

/-- Sets the telephone number. -/
def phone (phone : String) : Request → Request := mapWho fun w => { w with phone := phone }

/-- Sets the text to show and sign. -/
def signText (text : String) : Request → Request := mapPayload fun p => { p with text := text }

/-- Sets the bytes to sign. -/
def signData (data : ByteArray) : Request → Request := mapPayload fun p => { p with data := data }

/-- The person of the request; where none is given, one whom the vendor finds out. -/
def whoOrInferred (q : Request) : Person := q.who.getD { inferred := true }

end Request

end OrderBroker.Order
