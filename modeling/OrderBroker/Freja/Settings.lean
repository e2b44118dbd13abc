import OrderBroker.Freja.Order
import OrderBroker.Failure
import OrderBroker.Tls

/-!
# Settings for Freja
-/

namespace OrderBroker.Freja

/-- How Freja is reached. Times are in milliseconds. -/
structure Settings where
  baseUrl : String := "https://services.test.frejaeid.com"
  tls : TlsMaterial := {}
  /-- The PEM key that results are verified with; without one they are taken as they are. -/
  tokenKey : Option ByteArray := none
  pollInterval : Nat := 1000
  requestTimeout : Nat := 15000
  level : RegistrationLevel := .extended
  deriving DecidableEq

end OrderBroker.Freja
