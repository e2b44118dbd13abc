import OrderBroker.Freja.Order

/-!
# Orders of either mode at Freja

Freja keeps orders to identify a user apart from orders to sign: it has them asked about and
cancelled at paths of their own, under requests and keys of their own. These are the names that the
documents of Freja's interface give, and a request of a mode goes by them (`endpoints_eq`).
-/

namespace OrderBroker.Freja

open OrderBroker.Order (Mode)

/-- Where the requests about orders of a mode are taken. -/
def modePath : Mode → String
  | .auth => "/authentication/1.0"
  | .sign => "/sign/1.0"

/-- The key under which an order of a mode is named. -/
def modeKey : Mode → String
  | .auth => "authRef"
  | .sign => "signRef"

/-- The name of the request to cancel an order of a mode. -/
def cancelName : Mode → String
  | .auth => "cancelAuthRequest"
  | .sign => "cancelSignRequest"

/-- Requests about orders go by the paths and names of their mode. -/
theorem endpoints_eq (mode : Mode) :
    (endpoints mode).oneResult = modePath mode ++ "/getOneResult" ∧
      (endpoints mode).results = modePath mode ++ "/getResults" ∧
      (endpoints mode).cancel = modePath mode ++ "/cancel" ∧
      (endpoints mode).cancelRequest = cancelName mode ∧
      (endpoints mode).refKey = modeKey mode := by
  cases mode <;> decide

end OrderBroker.Freja
