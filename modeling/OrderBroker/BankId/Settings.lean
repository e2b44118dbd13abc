import OrderBroker.Tls

/-!
# Settings for BankID
-/

namespace OrderBroker.BankId

/-- How BankID is reached. Times are in milliseconds. -/
structure Settings where
  baseUrl : String := "https://appapi2.test.bankid.com"
  tls : TlsMaterial := {}
  pollInterval : Nat := 1000
  requestTimeout : Nat := 15000
  deriving DecidableEq

end OrderBroker.BankId
