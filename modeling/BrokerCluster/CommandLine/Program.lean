import BrokerCluster.Broker
import BrokerCluster.CommandLine.Arguments
import BrokerCluster.Config.File

/-!
# What the program does

The arguments and the environment decide which service runs, or why none does.
Whatever can be checked beforehand is checked before a service starts; a port
that cannot be taken is found out only then.
-/
namespace BrokerCluster.CommandLine

/-- Why the program fails. -/
inductive Failure where
  | noCommand
  | configuration (detail : String)
  | startup (detail : String)
  | malformed (field detail : String)
  deriving DecidableEq, Repr

def Failure.message : Failure → String
  | noCommand => "No command provided. Use --help to see available commands"
  | configuration detail => "Configuration error: " ++ detail
  | startup detail => "Startup failure: " ++ detail
  | malformed field detail => "Parse error (" ++ field ++ "): " ++ detail

/-- A service that is ready to start. -/
inductive Service where
  | broker (config : Config.Configuration)
  | nameService (host : String) (port : UInt16)
  /-- Statistics are shown each time after a number of seconds. -/
  | monitor (host : String) (port : UInt16) (interval : UInt64)
  deriving DecidableEq, Repr

/-- How the program ends or goes on. -/
inductive Plan where
  /-- Help or the version is shown. -/
  | information
  /-- The arguments are wrong. -/
  | misuse
  | fail (failure : Failure)
  | start (service : Service)
  deriving DecidableEq, Repr

def valueOf (values : List (String × String)) (name : String) : String :=
  (values.lookup name).getD ""

def number {α : Type} (read? : String → Option α) (bound : Nat) (values : List (String × String))
    (name : String) : Except Failure α :=
  let text := valueOf values name
  match read? text with
  | some n => .ok n
  | none =>
    let fault := (Text.unsignedFault? bound text).getD .invalidDigit
    .error (.malformed name ("invalid value '" ++ text ++ "': " ++ fault.message))

def portIn (values : List (String × String)) : Except Failure UInt16 :=
  number Text.readUInt16? UInt16.size values "port"

/-- The configuration of the broker to start, with the level of logging that is given. -/
def configIn (readFile : String → Except Config.ReadFault (List UInt8))
    (environment : String → Option String) (values : List (String × String)) :
    Except Failure Config.Configuration := do
  let path := valueOf values "config"
  let loaded := Config.Configuration.load path (readFile path) environment
  let config ← loaded.mapError fun error => .configuration error.message
  let config :=
    match values.lookup "log-level" with
    | some level => { config with logging := { config.logging with level } }
    | none => config
  if config.isValid then return config
  throw (.configuration (Config.problemLine config.problems))

def serviceOf (readFile : String → Except Config.ReadFault (List UInt8))
    (environment : String → Option String) (command : String) (values : List (String × String)) :
    Except Failure Service := do
  match command with
  | "broker" => return .broker (← configIn readFile environment values)
  | "nameserver" => return .nameService (valueOf values "host") (← portIn values)
  | _ =>
    let port ← portIn values
    let field := "report-interval-secs"
    let interval ← number Text.readUInt64? UInt64.size values field
    if interval = 0 then throw (.malformed field "Report interval must be at least 1 second.")
    return .monitor (valueOf values "host") port interval

def plan (readFile : String → Except Config.ReadFault (List UInt8))
    (environment : String → Option String) (arguments : List String) : Plan :=
  match readArguments arguments with
  | .information => .information
  | .misuse => .misuse
  | .nothing => .fail .noCommand
  | .run command values =>
    match serviceOf readFile environment command values with
    | .ok service => .start service
    | .error failure => .fail failure

/-- The file that has to be read for these arguments. -/
def fileToRead? (arguments : List String) : Option String :=
  match readArguments arguments with
  | .run _ values => values.lookup "config"
  | _ => none

/-- What a monitoring server shows from time to time. -/
def progress (tally : Monitoring.Tally) : String :=
  "Received messages: " ++ toString tally.received ++ "
" ++ tally.report

/-- The failure of a broker that does not start. -/
def Failure.ofBroker : BrokerError → Failure
  | .config detail => .configuration detail
  | error => .startup error.message

/-- The failure of a service that cannot listen on its address, other than a broker. -/
def Failure.ofAddress : Service → (address reason : String) → Failure
  | .nameService _ _, address, reason =>
    .startup (Wire.Failure.connect ("Failed to bind to " ++ address ++ ": " ++ reason)).message
  | _, address, reason => .startup (address ++ ": " ++ reason)

/-- The line that says that a service runs, given the addresses it listens on. -/
def Service.startedLine : Service → (first second : String) → String
  | .broker config, messaging, election =>
    "Broker " ++ config.broker.componentId ++ " started: messaging on " ++ messaging ++
      ", election on " ++ election
  | .nameService _ _, address, _ => "Name service listening on " ++ address
  | .monitor _ _ _, address, _ => "Monitoring server listening on " ++ address

end BrokerCluster.CommandLine
