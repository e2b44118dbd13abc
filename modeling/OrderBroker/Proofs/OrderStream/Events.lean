import OrderBroker.Http.OrderStream
import OrderBroker.Proofs.BankId.QrCode
import OrderBroker.Proofs.Stream.Formats
import OrderBroker.Proofs.Wire.BankId

/-!
# The events of an order stream

What a stream may say, and the text of it that the client reads. The texts are written out here:
what an event is called, what its document says field by field (`Said.data`), and how it stands in
the stream with its number (`Said.chunk`). These are the texts that a stream writes (`data_code`,
`data_status`, `event_encoderAt`), and the texts of different codes differ (`eq_of_chunk_eq`).
-/

namespace OrderBroker.Http.OrderStream

open BankId (StartedOrder QrCode Progress)

/-- What a stream says. -/
inductive Said where
  /-- The code of a tick. -/
  | code (tick : Nat)
  /-- How the order stands. -/
  | status (p : Progress)
  | error (failure : Failure)

/-! ## Texts -/

/-- Bytes in hexadecimal, the high half of each first. -/
def hexText (bytes : List UInt8) : String :=
  String.ofList <|
    bytes.flatMap fun b => [Nat.digitChar (b.toNat / 16), Nat.digitChar (b.toNat % 16)]

/-- What the user scans in a second after the order was started: the start token, the second, and
the keyed digest of the second under the start secret. -/
def scanText (order : StartedOrder) (second : Nat) : String :=
  "bankid." ++ order.qrStartToken ++ "." ++ toString second ++ "." ++
    hexText (Crypto.hmacSha256 order.qrStartSecret.toUTF8 (toString second).toUTF8).bytes

/-- The code of a second, for the scanner and for the authenticator on the user's own device. -/
def codeDocument (order : StartedOrder) (second : Nat) : Json := .object [
  ("orderRef", .string order.orderRef),
  ("uri", .string ("bankid:///?autostarttoken=" ++ order.autoStartToken ++ "&redirect=null")),
  ("qr", .string (scanText order second))]

/-- The name of a status. -/
def statusText : BankId.OrderStatus → String
  | .pending => "pending"
  | .complete => "complete"
  | .failed => "failed"
  | .unknown => "unknown"

/-- What an order brought. -/
def completionDocument (c : BankId.Completion) : Json := .object [
  ("user", .object [
    ("personalNumber", .string c.user.personalNumber),
    ("name", .string c.user.name),
    ("givenName", .string c.user.givenName),
    ("surname", .string c.user.surname)]),
  ("device", .object [
    ("ipAddress", .string c.device.ipAddress),
    ("uhi", .string c.device.uhi)]),
  ("bankIdIssueDate", .string c.bankIdIssueDate),
  ("stepUp", .object [("mrtd", .bool c.stepUp.mrtd)]),
  ("signature", .string c.signature),
  ("ocspResponse", .string c.ocspResponse)]

/-- How an order stands, and what it brought if it brought anything. -/
def statusDocument (p : Progress) : Json := .object <|
  [("orderRef", .string p.orderRef), ("status", .string (statusText p.status)),
    ("hintCode", .string p.hintCode)] ++
  p.completion.toList.map fun c => ("completionData", completionDocument c)

namespace Said

/-- The name of an event. -/
def name : Said → String
  | .code _ => "qrcode"
  | .status _ => "status"
  | .error _ => "error"

/-- The data of an event. -/
def data (order : StartedOrder) : Said → Json
  | .code tick => codeDocument order tick
  | .status p => statusDocument p
  | .error failure => Wire.toJson (Problem.ofFailure failure).body

/-- The chunk of the event that `n` events come before. -/
def chunk (order : StartedOrder) (format : Stream.Format) (n : Nat) (x : Said) : String :=
  match format with
  | .sse =>
    "id: " ++ toString n ++ "\nevent: " ++ x.name ++ "\ndata: " ++ (x.data order).render ++ "\n\n"
  | .ndjson => (x.data order).render ++ "\n"

/-- The tick of a code. -/
def code? : Said → Option Nat
  | .code tick => some tick
  | _ => none

/-- The progress of a status. -/
def status? : Said → Option Progress
  | .status p => some p
  | _ => none

/-- The user has scanned a code. -/
def isScanned : Said → Bool
  | .status p => p.hintCode = "userSign"
  | _ => false

/-- An error, or a status that is not pending. -/
def isLast : Said → Bool
  | .code _ => false
  | .status p => p.status ≠ .pending
  | .error _ => true

end Said

/-! ## What a stream writes -/

/-- A digest in hexadecimal. -/
theorem hex_eq (x : Crypto.Digest) : x.hex = hexText x.bytes := rfl

/-- The code that a stream writes is that of the second. -/
theorem data_code (order : StartedOrder) (tick : Nat) :
    Wire.toJson (QrCode.of order tick) = (Said.code tick).data order := by
  have hscan : order.qrCode tick = scanText order tick := by
    rw [StartedOrder.qrCode, BankId.qrCode, hex_eq]
    rfl
  rw [Said.data, codeDocument, ← hscan]
  rfl

/-- The status that a stream writes is that of the order. -/
theorem data_status (order : StartedOrder) (p : Progress) :
    Wire.toJson p = (Said.status p).data order := by
  obtain ⟨orderRef, status, hintCode, completion⟩ := p
  cases completion <;> cases status <;> rfl

/-- The code of a tick is an event's data. -/
theorem code_eq {order : StartedOrder} {s : OrderStream} (horder : s.order = order) (tick : Nat) :
    s.code tick = (Said.code tick).data order := by
  rw [code, horder, data_code]

/-- A status that is passed on is an event. -/
theorem passOn_status (order : StartedOrder) (s : OrderStream) (now : Nat) (p : Progress) :
    s.passOn now (.ok p) =
      { s with showsCode := s.showsCode && p.hintCode ≠ "userSign" }.event now
        (Said.status p).name ((Said.status p).data order)
        (if p.status = BankId.OrderStatus.pending then .follow else .finish) := by
  rw [passOn, data_status order]
  rfl

/-- The encoder after some events. -/
def encoderAt (format : Stream.Format) (n : Nat) : Stream.Encoder :=
  { format, nextId := match format with
      | .sse => n
      | .ndjson => 0 }

/-- The encoder numbers the events. -/
theorem event_encoderAt {order : StartedOrder} {format : Stream.Format} {n : Nat} {x : Said} :
    (encoderAt format n).event x.name (x.data order) =
      (x.chunk order format n, encoderAt format (n + 1)) := by
  cases format with
  | ndjson => exact congrArg (·, encoderAt .ndjson (n + 1)) (String.push_eq_append _)
  | sse =>
    have hname : Stream.Sse.IsLine x.name ∧ x.name ≠ "" ∧ x.name ≠ Stream.Sse.defaultEvent := by
      cases x <;> simp [Said.name, Stream.Sse.IsLine, Stream.Sse.isLineEnd, Stream.Sse.defaultEvent]
    obtain ⟨hline, hne, hown⟩ := hname
    exact congrArg (·, encoderAt .sse (n + 1))
      (Stream.Sse.encode_numbered hline hne hown (x.data order) n)

/-- A stream begins with the first code. -/
theorem start_eq (order : StartedOrder) (period pollInterval : Nat) (format : Stream.Format) :
    start order period pollInterval format =
      { order, period, pollInterval
        encoder := encoderAt format 1
        body := [(Said.code 0).chunk order format 0] } := by
  have hencoder : ({ format } : Stream.Encoder) = encoderAt format 0 := by cases format <;> rfl
  have hevent := @event_encoderAt order format 0 (.code 0)
  rw [start, code_eq rfl, hencoder, show codeEvent = (Said.code 0).name from rfl, hevent]

/-! ## Codes apart -/

section
variable {order : StartedOrder} {format : Stream.Format} {n k k' : Nat}

/-- The document in a chunk. -/
theorem render_eq_of_chunk_eq {x y : Said} (hname : x.name = y.name)
    (heq : x.chunk order format n = y.chunk order format n) :
    (x.data order).render = (y.data order).render := by
  cases format with
  | ndjson => exact (String.append_left_inj _).1 heq
  | sse =>
    simp only [Said.chunk, hname] at heq
    exact (String.append_right_inj _).1 ((String.append_left_inj _).1 heq)

/-- **A chunk is the code of one second.** -/
theorem eq_of_chunk_eq
    (heq : (Said.code k).chunk order format n = (Said.code k').chunk order format n) : k = k' := by
  have hrender := render_eq_of_chunk_eq (x := .code k) (y := .code k') rfl heq
  rw [← data_code, ← data_code] at hrender
  have hread (k : Nat) :
      (Json.Tree.ofBytes? (Json.utf8 (Wire.toJson (QrCode.of order k)).render)).bind Wire.ofTree? =
        some (QrCode.of order k) := by
    have hreads := BankId.readsAs_qrCode (QrCode.of order k)
    rw [Json.ofBytes?_render hreads.plain, Option.bind_some, hreads.read]
  have hcode : QrCode.of order k = QrCode.of order k' :=
    Option.some.inj ((hread k).symm.trans (hrender ▸ hread k'))
  exact (BankId.eq_of_code_eq (congrArg QrCode.qr hcode)).2

end

end OrderBroker.Http.OrderStream
