import BrokerCluster.Election.Mode
import BrokerCluster.Election.Action

/-!
# Running for leadership

What a broker does when it starts an election and when a peer asks it to take
part. Role, leader and vote change one at a time, so another request may come in
between. A reply to `elect` is settled from the broker's own status alone; what it
leaves to be done comes after the reply is sent. A reply to `declare` may have to
wait until the announcement was passed on.
-/
namespace BrokerCluster.Election

/-- The names under which a broker's address is registered. -/
structure Registration where
  /-- The name used when there are no elections. -/
  domain : String
  /-- The name that goes to the leader. -/
  electionDomain : String
  address : String
  deriving DecidableEq, Repr

/-- What is fixed about a broker's part in elections. -/
structure Seat where
  id : BrokerId
  mode : Mode
  /-- The other brokers, in the order in which they are asked. -/
  peers : List Peer
  registration : Option Registration
  deriving DecidableEq, Repr

/-- What is left to do after a reply to `elect`. -/
inductive FollowUp where
  /-- The id came back: the broker announces itself. -/
  | declareLeadership
  /-- The highest id so far goes on around the ring. -/
  | forward (candidate : BrokerId)
  /-- Brokers with higher ids are challenged in turn. -/
  | challengeHigher
  deriving DecidableEq, Repr

/-- The reply to `elect`, if there is one, and what is left to do. -/
structure Response where
  reply : Option String
  followUp : Option FollowUp
  deriving DecidableEq, Repr

namespace Seat

/-- Registers the broker's address: under the leader's name if there are elections. -/
def registerDomain (seat : Seat) : Action Unit :=
  match seat.registration with
  | none => pure ()
  | some r =>
    Action.registerName (if seat.mode.isEnabled then r.electionDomain else r.domain) r.address

def declareLeader (seat : Seat) : Action Unit := do
  match seat.mode with
  | .ring => discard <| askUntil Action.askPeer (declareLine seat.id) "ack" seat.peers
  | .bully | .raft => discard <| askAll Action.askPeer (declareLine seat.id) "ack" seat.peers
  | .none => pure ()
  seat.registerDomain

def becomeLeader (seat : Seat) : Action Unit := do
  Action.change (·.withRole .leader)
  Action.change (·.withLeader seat.id)
  seat.declareLeader

/-- Challenges the brokers with higher ids and takes the lead if none of them answers. -/
def challengeHigher (seat : Seat) : Action Unit := do
  unless ← askHigher Action.askPeer seat.id (electLine seat.id) acceptReply seat.peers do
    seat.becomeLeader

/-- Passes a candidate on to the next broker that can be reached. -/
def forward (seat : Seat) (candidate : BrokerId) : Action Unit :=
  discard <| askUntil Action.askPeer (electLine candidate) acceptReply seat.peers

def initiate (seat : Seat) : Action Unit := do
  Action.change (·.withRole .candidate)
  Action.change Status.forgetLeader
  match seat.mode with
  | .ring => seat.forward seat.id
  | .bully => seat.challengeHigher
  | .raft =>
    if ← askForVotes Action.askPeer seat.id (electLine seat.id) seat.peers then seat.becomeLeader
  | .none => pure ()

/-- Answers `elect`. The leader is forgotten in every mode. -/
def respond (seat : Seat) (sender : BrokerId) : Action Response := do
  Action.change Status.forgetLeader
  match seat.mode with
  | .ring =>
    if sender = seat.id then
      Action.change (·.withRole .leader)
      Action.change (·.withLeader seat.id)
      pure ⟨some acceptReply, some .declareLeadership⟩
    else
      let candidate := max sender seat.id
      Action.change (·.withRole (if candidate = sender then .follower else .candidate))
      pure ⟨some acceptReply, some (.forward candidate)⟩
  | .bully =>
    Action.change (·.withRole .candidate)
    pure ⟨some acceptReply, if sender < seat.id then some .challengeHigher else none⟩
  | .raft =>
    Action.change (·.withRole .candidate)
    let granted ← Action.access (·.vote sender)
    pure ⟨some (voteReply seat.id granted), none⟩
  | .none => pure ⟨none, none⟩

def complete (seat : Seat) : FollowUp → Action Unit
  | .declareLeadership => seat.declareLeader
  | .forward candidate => seat.forward candidate
  | .challengeHigher => seat.challengeHigher

/-- Answers `declare`. A ring passes the announcement on first, until it is back at its origin. -/
def acknowledge (seat : Seat) (leader : BrokerId) : Action (Option String) := do
  match seat.mode with
  | .raft =>
    Action.change Status.forgetVote
    Action.change (·.withRole .follower)
  | .bully => Action.change (·.withRole .follower)
  | .ring =>
    unless leader = seat.id do
      discard <| askUntil Action.askPeer (declareLine leader) "ack" seat.peers
  | .none => pure ()
  Action.change (·.withLeader leader)
  pure (if seat.mode.isEnabled then some (ackReply seat.id) else none)

def describe (seat : Seat) (status : Status) : String :=
  let leader :=
    match status.leader? with
    | some id => "Some(" ++ Text.int64Text id ++ ")"
    | none => "None"
  "ElectionCoordinator \x7b own_id: " ++ Text.int64Text seat.id ++ ", mode: " ++ seat.mode.title ++
    ", role: " ++ status.role.name ++ ", leader: " ++ leader ++ " \x7d"

end Seat

end BrokerCluster.Election
