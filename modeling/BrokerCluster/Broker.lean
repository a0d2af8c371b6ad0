import BrokerCluster.Config.Validation
import BrokerCluster.Election.Session
import BrokerCluster.Messaging.Service
import BrokerCluster.Wire.Address
import BrokerCluster.Wire.Failure

/-!
# Brokers

A broker listens on two ports, one for clients and one for its peers. It starts
by taking both ports, and only then checks its configuration. Without elections
it registers its address at once; with elections only the leader does.
-/
namespace BrokerCluster

/-- Why a broker cannot run. -/
inductive BrokerError where
  /-- An address cannot be listened on; `detail` names it and the reason. -/
  | bind (detail : String)
  | config (detail : String)
  | network (failure : Wire.Failure)
  | io (detail : String)
  deriving DecidableEq, Repr

namespace BrokerError

def message : BrokerError → String
  | bind detail => "Bind error: " ++ detail
  | config detail => "Configuration error: " ++ detail
  | network failure => "Network error: " ++ failure.message
  | io detail => "IO error: " ++ detail

/-- The text of what caused an error, if that is known. -/
def cause? : BrokerError → Option String
  | network failure => some failure.message
  | io detail => some detail
  | _ => none

end BrokerError

/-- Listens on a host and a port: the port that was taken, or the reason why there is none. -/
abbrev Listen (m : Type → Type) := String → UInt16 → m (Except String UInt16)

structure Broker where
  config : Config.Configuration
  messagingPort : UInt16
  electionPort : UInt16
  seat : Election.Seat
  status : Election.Status
  service : Messaging.Service := {}

namespace Broker

/-- The address that a broker registers: the port is the one it listens on. -/
def registration? (config : Config.Configuration) (messagingPort : UInt16) :
    Option Election.Registration :=
  if config.naming.enabled then
    some {
      domain := config.broker.domain
      electionDomain := config.election.domain
      address := Wire.addressText config.broker.host messagingPort }
  else none

/-- The part in elections that a configuration gives to a broker. -/
def seatOf (config : Config.Configuration) (messagingPort : UInt16) : Election.Seat where
  id := config.election.id
  mode := config.election.mode
  peers := config.peers
  registration := registration? config messagingPort

/-- A broker that listens on these ports since time `now`. Its configuration must have no problems. -/
def onPorts (config : Config.Configuration) (messagingPort electionPort : UInt16) (now : Int) :
    Except BrokerError Broker :=
  if config.isValid then
    .ok {
      config, messagingPort, electionPort
      seat := seatOf config messagingPort
      status := .fresh now }
  else .error (.config (Config.problemLine config.problems))

def takePort {m : Type → Type} [Monad m] (listen : Listen m) (host : String) (port : UInt16) :
    ExceptT BrokerError m UInt16 := do
  match ← listen host port with
  | .ok taken => return taken
  | .error reason => throw (.bind (Wire.addressText host port ++ ": " ++ reason))

def start {m : Type → Type} [Monad m] (listen : Listen m) (config : Config.Configuration)
    (now : Int) : ExceptT BrokerError m Broker := do
  let messagingPort ← takePort listen config.broker.host config.broker.port
  let electionPort ← takePort listen config.broker.host config.election.port
  onPorts config messagingPort electionPort now

/-- What a broker does before it serves anyone. -/
def opening (broker : Broker) : Election.Action Unit :=
  if broker.seat.mode.isEnabled then pure () else broker.seat.registerDomain

/-- Serves one client that sends these bytes and then finishes: the broker after, and what was sent. -/
def serveClient (broker : Broker) (input : List UInt8) :
    Broker × List Messaging.Output :=
  let (service, sent) := broker.service.serve input
  ({ broker with service }, sent)

/-- The address that a broker reports publishes from. -/
def origin (broker : Broker) : Monitoring.Origin :=
  ⟨broker.config.broker.host, broker.messagingPort⟩

def describeAt (broker : Broker) (messaging election : String) : String :=
  "Broker \x7b id: " ++ Text.int64Text broker.seat.id ++ ", messaging_addr: " ++ messaging ++
    ", election_addr: " ++ election ++ ", coordinator: " ++ broker.seat.describe broker.status ++
    " \x7d"

def describe (broker : Broker) : String :=
  let host := broker.config.broker.host
  broker.describeAt (Wire.addressText host broker.messagingPort)
    (Wire.addressText host broker.electionPort)

end Broker

end BrokerCluster
