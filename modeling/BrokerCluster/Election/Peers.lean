import BrokerCluster.Election.Request
import BrokerCluster.Wire.Address

/-!
# Asking peers

Each function asks peers one after another, in the configured order, and differs
from the others in whom it asks and when it stops. A peer that cannot be reached
gives no reply, which counts like a reply that was not hoped for. How a peer is
asked is a parameter, so the functions serve any way of reaching peers.
-/
namespace BrokerCluster.Election

/-- Another broker of the cluster and where it listens. -/
structure Peer where
  id : BrokerId
  host : String
  port : UInt16
  deriving DecidableEq, Repr

def Peer.text (peer : Peer) : String :=
  Text.int64Text peer.id ++ "@" ++ Wire.addressText peer.host peer.port

/-- A way to send a line to a peer and to get its reply, if any. -/
abbrev AskPeer (m : Type → Type) := Peer → String → m (Option String)

/-- Whether a reply came that begins with the expected text. -/
def isExpected (expected : String) (reply : Option String) : Bool :=
  reply.any fun text => expected.isPrefixOf text

variable {m : Type → Type} [Monad m]

/-- Asks peers until one replies as expected, and says whether one did. -/
def askUntil (ask : AskPeer m) (line expected : String) : List Peer → m Bool
  | [] => pure false
  | peer :: rest => do
    if isExpected expected (← ask peer line) then pure true
    else askUntil ask line expected rest

/-- Asks the peers with ids above one's own until one replies as expected. -/
def askHigher (ask : AskPeer m) (own : BrokerId) (line expected : String) (peers : List Peer) :
    m Bool :=
  askUntil ask line expected (peers.filter fun peer => own < peer.id)

/-- Asks every peer and counts the replies that satisfy a test. -/
def countReplies (ask : AskPeer m) (line : String) (test : Option String → Bool) :
    List Peer → m Nat
  | [] => pure 0
  | peer :: rest => do
    let reply ← ask peer line
    let others ← countReplies ask line test rest
    pure (if test reply then others + 1 else others)

/-- Asks every peer and counts those that reply as expected. -/
def askAll (ask : AskPeer m) (line expected : String) (peers : List Peer) : m Nat :=
  countReplies ask line (isExpected expected) peers

/-- Asks every peer for its vote and says whether more than half of them gave it. -/
def askForVotes (ask : AskPeer m) (own : BrokerId) (line : String) (peers : List Peer) : m Bool := do
  let granted ← countReplies ask line (fun reply => reply.any (isVoteFor · own)) peers
  pure (peers.length / 2 < granted)

end BrokerCluster.Election
