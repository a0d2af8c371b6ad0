import BrokerCluster.Config.Basic
import BrokerCluster.Text.Words

/-!
# Checking a configuration

The problems of a configuration are listed in a fixed order, each rule that is
broken once, except that each peer id may add two problems of its own.
-/
namespace BrokerCluster.Config

/-- A rule that a configuration breaks. -/
inductive Problem where
  | noHeartbeatTimeout
  | noPollInterval
  | noPingInterval
  | peerListLengths (hosts ports ids : Nat)
  | ownPeerId (id : Election.BrokerId)
  | repeatedPeerId (id : Election.BrokerId)
  | noElectionDomain
  | noBrokerDomain
  | unknownLogLevel (level : String)
  deriving DecidableEq, Repr

def Problem.message : Problem → String
  | noHeartbeatTimeout => "Heartbeat timeout must be greater than zero"
  | noPollInterval => "Poll interval must be greater than zero"
  | noPingInterval => "Ping interval must be greater than zero"
  | peerListLengths hosts ports ids =>
    "Peer lists differ in length: " ++ toString hosts ++ " hosts, " ++ toString ports ++
      " ports, " ++ toString ids ++ " ids"
  | ownPeerId id => "Peer id " ++ Text.int64Text id ++ " is this broker's own election id"
  | repeatedPeerId id => "Duplicate peer id " ++ Text.int64Text id
  | noElectionDomain => "Election domain is required when election is enabled"
  | noBrokerDomain => "Broker domain is required for name service registration"
  | unknownLogLevel level => "Unknown log level '" ++ level ++ "'"

/-- The problems of peer ids, given the ids that came before them. -/
def peerIdProblems (own : Election.BrokerId) (seen : List Election.BrokerId) :
    List Election.BrokerId → List Problem
  | [] => []
  | id :: rest =>
    (if id = own then [.ownPeerId id] else []) ++
      (if id ∈ seen then [.repeatedPeerId id] else []) ++
        peerIdProblems own (id :: seen) rest

namespace Configuration

def problems (config : Configuration) : List Problem :=
  let election := config.election
  let hosts := election.peerHosts.length
  let ports := election.peerPorts.length
  let ids := election.peerIds.length
  (if election.heartbeatTimeout = 0 then [.noHeartbeatTimeout] else []) ++
    (if election.pollInterval = 0 then [.noPollInterval] else []) ++
    (if election.pingInterval = some 0 then [.noPingInterval] else []) ++
    (if hosts ≠ ports ∨ hosts ≠ ids then [.peerListLengths hosts ports ids] else []) ++
    peerIdProblems election.id [] election.peerIds ++
    (if election.mode.isEnabled ∧ Text.isBlankText election.domain then [.noElectionDomain]
      else []) ++
    (if config.naming.enabled ∧ ¬election.mode.isEnabled ∧ Text.isBlankText config.broker.domain
      then [.noBrokerDomain] else []) ++
    (if LogLevel.parse? config.logging.level = none then [.unknownLogLevel config.logging.level]
      else [])

def isValid (config : Configuration) : Bool := config.problems.isEmpty

end Configuration

/-- The texts of several problems in one line. -/
def problemLine (problems : List Problem) : String := "; ".intercalate (problems.map Problem.message)

end BrokerCluster.Config
