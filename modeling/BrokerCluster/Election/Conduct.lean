import BrokerCluster.Election.Session

/-!
# One broker among its peers

What a single broker does, one thing after another: it starts elections, answers
requests and does what its replies to `elect` have left to do, at once or later.
What its peers reply is open; it may depend on all that they were asked before. A
registration has no effect on the broker itself.
-/
namespace BrokerCluster.Election

/-- What a peer replies to the last of these questions. -/
abbrev Replies := List (Peer × String) → Option String

/-- A broker's status, what it has left to do, and what it asked its peers. -/
structure Conduct where
  status : Status
  /-- What is left to do, the oldest first. -/
  owed : List FollowUp := []
  /-- The questions so far, the last one at the end. -/
  asked : List (Peer × String) := []
  deriving DecidableEq, Repr

namespace Conduct

def interpreter (replies : Replies) : Action.Interpreter (StateM Conduct) where
  update change := modifyGet fun conduct =>
    (conduct.status, { conduct with status := change conduct.status })
  ask peer line := modifyGet fun conduct =>
    let asked := conduct.asked ++ [(peer, line)]
    (replies asked, { conduct with asked })
  register _ _ := pure ()

/-- What the broker does next. -/
inductive Turn where
  | initiate
  /-- It answers a request that comes at a time. -/
  | request (request : Request) (now : Int)
  /-- It does one of the things that are left to do. -/
  | complete (index : Nat)
  deriving DecidableEq, Repr

/-- Takes one turn; the result is the reply, if there is one. -/
def take (seat : Seat) (replies : Replies) : Turn → StateM Conduct (Option String)
  | .initiate => do
    seat.initiate.run (interpreter replies)
    return none
  | .request request now => do
    let answer ← (seat.answer now request).run (interpreter replies)
    modify fun conduct => { conduct with owed := conduct.owed ++ answer.followUp.toList }
    return answer.reply
  | .complete index => do
    if let some followUp := (← get).owed[index]? then
      modify fun conduct => { conduct with owed := conduct.owed.eraseIdx index }
      (seat.complete followUp).run (interpreter replies)
    return none

/-- Takes turns one after another; the result is the replies. -/
def play (seat : Seat) (replies : Replies) : List Turn → StateM Conduct (List (Option String))
  | [] => pure []
  | turn :: rest => do
    let reply ← take seat replies turn
    let later ← play seat replies rest
    return reply :: later

end Conduct

end BrokerCluster.Election
