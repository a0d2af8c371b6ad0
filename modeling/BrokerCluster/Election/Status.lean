import BrokerCluster.Text.Number

/-!
# The election status of a broker

A broker knows its own role, the id of the leader it follows, the id it voted
for, and when it last heard from a leader. One number stands for "nobody" among
the ids, so an id equal to it is never seen as a leader or as a vote.
-/
namespace BrokerCluster.Election

abbrev BrokerId := Int64

/-- The id that stands for "nobody", as a leader and as a vote. -/
def nobody : BrokerId := -1

inductive Role where
  | follower
  | candidate
  | leader
  deriving DecidableEq, Repr

def Role.name : Role → String
  | follower => "Follower"
  | candidate => "Candidate"
  | leader => "Leader"

/-- What a broker knows about the leadership of its cluster. -/
structure Status where
  role : Role
  leaderId : BrokerId
  votedFor : BrokerId
  /-- The time of the last heartbeat, in milliseconds. -/
  lastHeartbeat : Int
  deriving DecidableEq, Repr

namespace Status

/-- A follower that knows no leader, has not voted and has just heard a heartbeat. -/
def fresh (now : Int) : Status := ⟨.follower, nobody, nobody, now⟩

/-- The leader that the broker follows, if it knows one. -/
def leader? (status : Status) : Option BrokerId :=
  if status.leaderId = nobody then none else some status.leaderId

def isLeader (status : Status) : Bool := status.role == .leader

def withRole (role : Role) (status : Status) : Status := { status with role }

def withLeader (leaderId : BrokerId) (status : Status) : Status := { status with leaderId }

def forgetLeader (status : Status) : Status := { status with leaderId := nobody }

def forgetVote (status : Status) : Status := { status with votedFor := nobody }

def hasVoted (status : Status) : Bool := status.votedFor != nobody

/-- Gives the vote to a candidate unless it was given before, and says who has it. -/
def vote (status : Status) (candidate : BrokerId) : Status × BrokerId :=
  if status.hasVoted then (status, status.votedFor)
  else ({ status with votedFor := candidate }, candidate)

def heard (status : Status) (now : Int) : Status := { status with lastHeartbeat := now }

/-- The time since the last heartbeat; zero if that lies ahead. -/
def silence (status : Status) (now : Int) : Int := max (now - status.lastHeartbeat) 0

/-- Whether the last heartbeat is more than a time ago. A leader needs none. -/
def isExpired (status : Status) (timeout : UInt64) (now : Int) : Bool :=
  !status.isLeader && timeout.toNat < status.silence now

end Status

end BrokerCluster.Election
