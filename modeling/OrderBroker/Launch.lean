import OrderBroker.Config
import OrderBroker.Registry

/-!
# Launch

How a start of the broker ends: with a word about a configuration that is none, silently where the
vendors cannot be set up or the address is not to be had, and well when the broker is told to stop.
-/

namespace OrderBroker

/-- How a run of the broker ends. -/
structure Exit where
  code : Nat
  stderr : String := ""
  deriving DecidableEq, Repr

namespace Launch

/-- What is said of a configuration that is none. -/
def complaint (fault : ConfigFault) : String := "Invalid configuration: " ++ fault.message ++ "\n"

/-- What the broker needs to serve, or how its run ends at once. -/
def prepare (env : Environment) : Except Exit (Config × Registry) :=
  match Config.ofEnvironment env with
  | .error fault => .error { code := 1, stderr := complaint fault }
  | .ok config =>
    match Registry.ofConfig config with
    | .error _ => .error { code := 1 }
    | .ok registry => .ok (config, registry)

/-- How a run ends that is told to stop once it serves. -/
def outcome (env : Environment) (canListen : Config → Bool) : Exit :=
  match prepare env with
  | .error exit => exit
  | .ok (config, _) => if canListen config then { code := 0 } else { code := 1 }

end Launch

end OrderBroker
