import BrokerCluster.Election.Members

/-!
# A cluster that runs one thing at a time

Here every action runs to its end before the next begins. A question to a peer is
answered by the peer at once, unless the peer is down; what the peer has left to
do waits until the action that asked is at its end. An answer may need questions of
its own, so the depth of questions within questions is bounded by fuel; without
fuel there is no result rather than a wrong one.
-/
namespace BrokerCluster.Election

/-- A request from one broker to another and what came back. -/
structure Contact where
  sender : BrokerId
  receiver : BrokerId
  request : String
  reply : Option String
  deriving DecidableEq, Repr

/-- The brokers of a cluster, what they have left to do, and what they sent. -/
structure Cluster extends Brokers where
  /-- What is left to do, and by whom, the oldest first. -/
  waiting : List (BrokerId × FollowUp) := []
  /-- Requests in the order in which they were received. -/
  log : List Contact := []
  deriving DecidableEq, Repr

namespace Cluster

/-- Computations on a cluster; without a result if fuel runs out. -/
abbrev Run := StateT Cluster Option

def updateBrokers (change : Brokers → Brokers) : Run Unit :=
  modify fun cluster => { cluster with toBrokers := change cluster.toBrokers }

/-- Changes the status of a broker and gives what it was before. -/
def updateStatus (id : BrokerId) (change : Status → Status) : Run Status := do
  let some member := (← get).member? id | failure
  updateBrokers (·.updateStatus id change)
  return member.status

/-- Notes a request; gives its number. -/
def note (sender receiver : BrokerId) (request : String) : Run Nat := do
  let number := (← get).log.length
  modify fun cluster => { cluster with log := cluster.log ++ [⟨sender, receiver, request, none⟩] }
  return number

def noteReply (number : Nat) (reply : Option String) : Run Unit :=
  modify fun cluster =>
    { cluster with log := cluster.log.modify number fun contact => { contact with reply } }

def setAside (id : BrokerId) (followUp : Option FollowUp) : Run Unit :=
  modify fun cluster => { cluster with waiting := cluster.waiting ++ followUp.toList.map (id, ·) }

/-- Runs an action of a broker at time `now`. A peer that is down gives no reply. -/
def perform (now : Int) : (fuel : Nat) → (id : BrokerId) → {α : Type} → Action α → Run α
  | 0, _, _, _ => failure
  | fuel + 1, id, _, action =>
    action.run {
      update := updateStatus id
      register := fun name address => updateBrokers (·.register name address)
      ask := fun peer line => do
        match (← get).member? peer.id with
        | some member =>
          if member.isUp then
            let number ← note id peer.id line
            let answer ← perform now fuel peer.id (member.seat.answer now (.ofLine line))
            setAside peer.id answer.followUp
            noteReply number answer.reply
            return answer.reply
          else return none
        | none => return none }

/-- Does what is left to do, until nothing is. -/
def finish (now : Int) : (fuel : Nat) → Run Unit
  | 0 => failure
  | fuel + 1 => do
    match (← get).waiting with
    | [] => return ()
    | (id, followUp) :: rest =>
      modify fun cluster => { cluster with waiting := rest }
      if let some member := (← get).member? id then
        perform now fuel id (member.seat.complete followUp)
      finish now fuel

/-- Runs an action of a broker and all that follows from it. -/
def settle (now : Int) (fuel : Nat) (id : BrokerId) {α : Type} (action : Action α) : Run α := do
  let result ← perform now fuel id action
  finish now fuel
  return result

/-- Runs an election that a broker starts. A broker that is down starts none. -/
def elect (now : Int) (fuel : Nat) (id : BrokerId) : Run Unit := do
  if let some member := (← get).member? id then
    if member.isUp then settle now fuel id member.seat.initiate

/-- Serves one connection to a broker, unless the broker is down. -/
def serve (now : Int) (fuel : Nat) (id : BrokerId) (input : List UInt8) :
    Run (Option (List UInt8)) := do
  match (← get).member? id with
  | some member =>
    if member.isUp then some <$> settle now fuel id (member.seat.serve now input) else return none
  | none => return none

def shutDown (cluster : Cluster) (id : BrokerId) : Cluster :=
  { cluster with toBrokers := cluster.toBrokers.update id fun member => { member with isUp := false } }

end Cluster

end BrokerCluster.Election
