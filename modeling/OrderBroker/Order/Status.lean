import OrderBroker.Json.Wire

/-!
# Order status

The status of an order in the common vocabulary. `ongoing` says that the user has turned to the
authenticator, `pending` that nothing has happened yet.
-/

namespace OrderBroker.Order

/-- The status of an order. -/
inductive Status where
  | unknown
  | pending
  | ongoing
  | approved
  | canceled
  | rpCanceled
  | expired
  | rejected
  | failed
  | startFailed
  deriving DecidableEq, Repr, Inhabited

namespace Status

/-- Every status. -/
def all : List Status :=
  [.unknown, .pending, .ongoing, .approved, .canceled, .rpCanceled, .expired, .rejected, .failed,
    .startFailed]

/-- The name of a status. -/
def name : Status → String
  | .unknown => "UNKNOWN"
  | .pending => "PENDING"
  | .ongoing => "ONGOING"
  | .approved => "APPROVED"
  | .canceled => "CANCELED"
  | .rpCanceled => "RP_CANCELED"
  | .expired => "EXPIRED"
  | .rejected => "REJECTED"
  | .failed => "FAILED"
  | .startFailed => "START_FAILED"

/-- The status of a name, written exactly so. -/
def ofName? (name : String) : Option Status := all.find? (·.name = name)

/-- What is said of a name that no status has. -/
def unknownName (name : String) : String := "unknown status: " ++ name

/-- The vendor will not move the order any further. -/
def isFinal : Status → Bool
  | .unknown | .pending | .ongoing => false
  | _ => true

instance : Wire Status where
  toJson s := .string s.name
  ofTree? := Json.Tree.oneOf? (all.map fun s => (s.name, s))

end Status

end OrderBroker.Order
