import BrokerCluster.Election.Session
import BrokerCluster.Naming.Client

/-!
# The brokers of a cluster

A broker of a cluster is known by its id. Each has a part in elections, which
never changes, and a status, which does; all may share one name service.
-/
namespace BrokerCluster.Election

structure Member where
  seat : Seat
  status : Status
  isUp : Bool := true
  deriving DecidableEq, Repr

/-- The brokers of a cluster and what the name service knows, if there is one. -/
structure Brokers where
  members : List Member
  names : Option Naming.Table := none
  deriving DecidableEq, Repr

namespace Brokers

def member? (brokers : Brokers) (id : BrokerId) : Option Member :=
  brokers.members.find? fun member => member.seat.id == id

def update (brokers : Brokers) (id : BrokerId) (change : Member → Member) : Brokers :=
  { brokers with
    members := brokers.members.map fun member =>
      if member.seat.id = id then change member else member }

def updateStatus (brokers : Brokers) (id : BrokerId) (change : Status → Status) : Brokers :=
  brokers.update id fun member => { member with status := change member.status }

/-- Registers an address, if there is a name service. A refusal is ignored. -/
def register (brokers : Brokers) (name address : String) : Brokers :=
  { brokers with
    names := brokers.names.map fun table =>
      ((Naming.Client.register Naming.roundTrip name address).run table).2 }

end Brokers

end BrokerCluster.Election
