import BrokerCluster.Election.Mode
import BrokerCluster.Election.Peers

/-!
# The configuration of a broker

Every setting has a default, so a configuration says only what differs from it.
Peers are given as three lists; the peers of a configuration are what the
shortest of them allows.
-/
namespace BrokerCluster.Config

/-- The broker itself: its name, where it listens, and the domain it registers without elections. -/
structure BrokerSettings where
  componentId : String := "broker-0"
  host : String := "127.0.0.1"
  port : UInt16 := 20000
  domain : String := "broker.cluster"
  deriving DecidableEq, Repr

/-- Elections; times are in milliseconds. -/
structure ElectionSettings where
  mode : Election.Mode := .none
  id : Election.BrokerId := 0
  port : UInt16 := 20100
  domain : String := "leader.cluster"
  peerHosts : List String := []
  peerPorts : List UInt16 := []
  peerIds : List Election.BrokerId := []
  heartbeatTimeout : UInt64 := 2000
  pingInterval : Option UInt64 := none
  pollInterval : UInt64 := 50
  peerTimeout : UInt64 := 5000
  deriving DecidableEq, Repr

/-- The name service that a broker registers with. -/
structure NamingSettings where
  enabled : Bool := false
  host : String := "127.0.0.1"
  port : UInt16 := 18000
  deriving DecidableEq, Repr

/-- Where publishes are reported. -/
structure MonitoringSettings where
  host : Option String := none
  port : Option UInt16 := none
  deriving DecidableEq, Repr

structure LoggingSettings where
  level : String := "info"
  deriving DecidableEq, Repr

structure Configuration where
  broker : BrokerSettings := {}
  election : ElectionSettings := {}
  naming : NamingSettings := {}
  monitoring : MonitoringSettings := {}
  logging : LoggingSettings := {}
  deriving DecidableEq, Repr

/-- How much is logged, from nothing to everything. -/
inductive LogLevel where
  | off
  | error
  | warn
  | info
  | debug
  | trace
  deriving DecidableEq, Repr

namespace LogLevel

/-- The name of a level, in upper case. -/
def name : LogLevel → String
  | off => "OFF"
  | error => "ERROR"
  | warn => "WARN"
  | info => "INFO"
  | debug => "DEBUG"
  | trace => "TRACE"

def all : List LogLevel := [off, error, warn, info, debug, trace]

/-- The level with a name, whatever the case of its ASCII letters. -/
def parse? (text : String) : Option LogLevel := all.find? fun level => level.name == text.toUpper

end LogLevel

namespace Configuration

/-- The peers, in order: as many as each of the three lists has. -/
def peers (config : Configuration) : List Election.Peer :=
  let election := config.election
  (election.peerIds.zip (election.peerHosts.zip election.peerPorts)).map
    fun (id, host, port) => ⟨id, host, port⟩

/-- The time between two pings of a leader: unless it is set, a third of the heartbeat timeout, but
never zero. -/
def pingInterval (config : Configuration) : UInt64 :=
  max (config.election.pingInterval.getD (config.election.heartbeatTimeout / 3)) 1

/-- The time that one exchange with a peer may take; zero stands for any time. -/
def peerTimeout? (config : Configuration) : Option UInt64 :=
  if config.election.peerTimeout = 0 then none else some config.election.peerTimeout

/-- The level of logging; a level that is not known counts as `info`. -/
def logLevel (config : Configuration) : LogLevel :=
  (LogLevel.parse? config.logging.level).getD .info

/-- Where publishes are reported, if both parts of the address are set. -/
def endpoint? (config : Configuration) : Option (String × UInt16) :=
  match config.monitoring.host, config.monitoring.port with
  | some host, some port => some (host, port)
  | _, _ => none

end Configuration

end BrokerCluster.Config
