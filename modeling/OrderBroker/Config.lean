import OrderBroker.BankId.Settings
import OrderBroker.Freja.Settings
import OrderBroker.Stream.Format
import OrderBroker.Text.Natural

/-!
# Configuration

The broker's configuration, read from named variables. A variable whose value is blank counts as
not set. Of several faults the first one in the order of the fields is reported, and the variables
of a vendor that is not enabled are not looked at.

PEM material is given by a variable itself or, where that is not set, by a file that the variable
with `_FILE` at the end of its name names.
-/

namespace OrderBroker

/-- A format of the log. -/
inductive LogFormat where
  | pretty
  | json
  deriving DecidableEq, Repr

namespace LogFormat

/-- The name of a format. -/
def name : LogFormat → String
  | .pretty => "pretty"
  | .json => "json"

/-- The format of a name in either case, or what is said of a name that no format has. -/
def parse (text : String) : Except String LogFormat :=
  let name := Text.asciiLower text
  if name = "pretty" ∨ name = "text" then .ok .pretty
  else if name = "json" then .ok .json
  else .error ("unknown log format " ++ Text.quoted name ++ ", expected json or pretty")

end LogFormat

/-- Why a file cannot be read. -/
inductive FileFault where
  | missing
  | notDirectory
  | isDirectory
  | nameTooLong
  | nullInName
  | other (reason : String)
  deriving DecidableEq, Repr

/-- The words for a fault. -/
def FileFault.text : FileFault → String
  | .missing => "No such file or directory (os error 2)"
  | .notDirectory => "Not a directory (os error 20)"
  | .isDirectory => "Is a directory (os error 21)"
  | .nameTooLong => "File name too long (os error 36)"
  | .nullInName => "file name contained an unexpected NUL byte"
  | .other reason => reason

/-- Why a configuration is none. -/
inductive ConfigFault where
  /-- A variable has a value that makes no sense. -/
  | invalid (var reason : String)
  /-- A variable names a file that cannot be read. -/
  | unreadable (var path : String) (fault : FileFault)
  deriving DecidableEq, Repr

namespace ConfigFault

/-- The variable that is at fault. -/
def var : ConfigFault → String
  | .invalid var _ => var
  | .unreadable var _ _ => var

/-- The words for a fault. -/
def message : ConfigFault → String
  | .invalid var reason => var ++ ": " ++ reason
  | .unreadable var path fault => var ++ ": failed to read " ++ path ++ ": " ++ fault.text

end ConfigFault

/-- Where a configuration comes from: the values of variables and the contents of files. -/
structure Environment where
  value : String → Option String
  file : String → Except FileFault ByteArray

namespace Environment

/-- The environment of given values and files. -/
def ofLists (values : List (String × String)) (files : List (String × Except FileFault ByteArray)) :
    Environment where
  value := (values.lookup ·)
  file path := (files.lookup path).getD (.error .missing)

/-- The variables that give PEM material. -/
def pemNames : List String := [
  "EID_BANKID_ROOT_CA_PEM", "EID_BANKID_CLIENT_CERT", "EID_BANKID_CLIENT_KEY",
  "EID_FREJA_ROOT_CA_PEM", "EID_FREJA_CLIENT_CERT", "EID_FREJA_CLIENT_KEY",
  "EID_FREJA_JWS_PUBLIC_KEY_PEM"]

/-- The variables that name files of PEM material. -/
def fileNames : List String := pemNames.map (· ++ "_FILE")

/-- Every variable that a configuration is read from. -/
def names : List String := [
  "HOST", "HTTP_PORT", "STREAM_ENCODER", "LOG_FORMAT", "SHUTDOWN_GRACE_SECS",
  "EID_BANKID_ENABLE", "EID_BANKID_URL", "EID_BANKID_POLL_INTERVAL_MS",
  "EID_FREJA_ENABLE", "EID_FREJA_URL", "EID_FREJA_POLL_INTERVAL_MS",
  "EID_FREJA_REGISTRATION_LEVEL"] ++ pemNames ++ fileNames

/-- The value of a variable that is set. -/
def get (env : Environment) (var : String) : Option String :=
  (env.value var).filter (!Text.isBlankText ·)

/-- A value read from a variable, without the blanks around it; none where it is not set. -/
def read {α : Type} (env : Environment) (var : String) (parse : String → Except String α) :
    Except ConfigFault (Option α) :=
  match env.get var with
  | none => .ok none
  | some value =>
    match parse (Text.trim value) with
    | .ok a => .ok (some a)
    | .error reason => .error (.invalid var reason)

/-- A natural number up to a largest value. -/
def natural (env : Environment) (var : String) (max : Nat) : Except ConfigFault (Option Nat) :=
  env.read var fun text => (Text.readNatural max text).mapError Text.NaturalFault.text

/-- A truth value in words; false where it is not set. -/
def flag (env : Environment) (var : String) : Except ConfigFault Bool :=
  match env.get var with
  | none => .ok false
  | some value =>
    let word := Text.asciiLower (Text.trim value)
    if word = "false" ∨ word = "0" ∨ word = "no" then .ok false
    else if word = "true" ∨ word = "1" ∨ word = "yes" then .ok true
    else .error (.invalid var ("not a boolean: " ++ word))

/-- PEM material, given by a variable or by the file that another one names. -/
def pem (env : Environment) (var : String) : Except ConfigFault (Option ByteArray) :=
  match env.get var with
  | some text => .ok (some text.toUTF8)
  | none =>
    match env.get (var ++ "_FILE") with
    | none => .ok none
    | some path =>
      match env.file path with
      | .ok bytes => .ok (some bytes)
      | .error fault => .error (.unreadable (var ++ "_FILE") path fault)

/-- The material of a vendor's connection; the names of its variables start with the vendor's. -/
def tls (env : Environment) (vendor : String) : Except ConfigFault TlsMaterial := do
  return {
    rootCa := ← env.pem (vendor ++ "_ROOT_CA_PEM")
    clientCert := ← env.pem (vendor ++ "_CLIENT_CERT")
    clientKey := ← env.pem (vendor ++ "_CLIENT_KEY") }

/-- BankID's settings, where it is enabled. -/
def bankId (env : Environment) : Except ConfigFault (Option BankId.Settings) := do
  if ¬ (← env.flag "EID_BANKID_ENABLE") then return none
  let defaults : BankId.Settings := {}
  return some {
    baseUrl := (env.get "EID_BANKID_URL").getD defaults.baseUrl
    tls := ← env.tls "EID_BANKID"
    pollInterval :=
      (← env.natural "EID_BANKID_POLL_INTERVAL_MS" Text.wordMax).getD defaults.pollInterval }

/-- The least time between two requests for Freja's results, in milliseconds. -/
def frejaLeastInterval : Nat := 1000

/-- Freja's settings, where it is enabled. -/
def freja (env : Environment) : Except ConfigFault (Option Freja.Settings) := do
  if ¬ (← env.flag "EID_FREJA_ENABLE") then return none
  let defaults : Freja.Settings := {}
  return some {
    baseUrl := (env.get "EID_FREJA_URL").getD defaults.baseUrl
    tls := ← env.tls "EID_FREJA"
    tokenKey := ← env.pem "EID_FREJA_JWS_PUBLIC_KEY_PEM"
    pollInterval := max frejaLeastInterval
      ((← env.natural "EID_FREJA_POLL_INTERVAL_MS" Text.wordMax).getD defaults.pollInterval)
    level := (← env.read "EID_FREJA_REGISTRATION_LEVEL" fun text =>
      (Freja.RegistrationLevel.parse text).mapError fun reason =>
        (Failure.at .freja (.validation reason)).message).getD defaults.level }

end Environment

/-- The broker's configuration. -/
structure Config where
  host : String := "0.0.0.0"
  httpPort : Nat := 8080
  streamFormat : Stream.Format := .sse
  logFormat : LogFormat := .pretty
  /-- How long open streams may go on after a stop, in seconds. -/
  graceSeconds : Nat := 200
  bankId : Option BankId.Settings := none
  freja : Option Freja.Settings := none
  deriving DecidableEq

namespace Config

/-- Reads a configuration. -/
def ofEnvironment (env : Environment) : Except ConfigFault Config := do
  let defaults : Config := {}
  return {
    host := (env.get "HOST").getD defaults.host
    httpPort := (← env.natural "HTTP_PORT" 65535).getD defaults.httpPort
    streamFormat := (← env.read "STREAM_ENCODER" Stream.Format.parse).getD defaults.streamFormat
    logFormat := (← env.read "LOG_FORMAT" LogFormat.parse).getD defaults.logFormat
    graceSeconds :=
      (← env.natural "SHUTDOWN_GRACE_SECS" Text.wordMax).getD defaults.graceSeconds
    bankId := ← env.bankId
    freja := ← env.freja }

/-- The address that the broker listens at. -/
def bindAddress (c : Config) : String := c.host ++ ":" ++ Text.decimal c.httpPort

end Config

end OrderBroker
