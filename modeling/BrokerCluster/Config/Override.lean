import BrokerCluster.Config.Basic

/-!
# Settings from the environment

Some settings can be overridden by variables of the environment. A number that
cannot be read leaves its setting alone; a mode that is not known switches
elections off.
-/
namespace BrokerCluster.Config

def replaced {α : Type} (value : α) (other : Option α) : α := other.getD value

/-- The variables that override settings. -/
def overriding : List String :=
  ["CLUSTERQ_PORT", "CLUSTERQ_ELECTION_ID", "CLUSTERQ_ELECTION_MODE", "CLUSTERQ_ELECTION_PORT",
    "CLUSTERQ_HEARTBEAT_TIMEOUT_MS", "CLUSTERQ_LOG_LEVEL"]

namespace Configuration

/-- The configuration with the settings that the environment overrides. -/
def override (config : Configuration) (environment : String → Option String) : Configuration :=
  let election := config.election
  { config with
    broker := { config.broker with
      port := replaced config.broker.port ((environment "CLUSTERQ_PORT").bind Text.readUInt16?) }
    election := { election with
      id := replaced election.id ((environment "CLUSTERQ_ELECTION_ID").bind Text.readInt64?)
      mode := replaced election.mode ((environment "CLUSTERQ_ELECTION_MODE").map Election.Mode.ofText)
      port := replaced election.port ((environment "CLUSTERQ_ELECTION_PORT").bind Text.readUInt16?)
      heartbeatTimeout := replaced election.heartbeatTimeout
        ((environment "CLUSTERQ_HEARTBEAT_TIMEOUT_MS").bind Text.readUInt64?) }
    logging := { level := replaced config.logging.level (environment "CLUSTERQ_LOG_LEVEL") } }

end Configuration

end BrokerCluster.Config
