import BrokerCluster.Election.Heartbeat
import BrokerCluster.Wire.Line

/-!
# Sessions with peers

A peer, or the leader, sends requests line by line. Answering a request may
leave something to be done, which is done after the reply is sent and before the
next line is read. A line that asks for nothing known is answered and ends the
session.
-/
namespace BrokerCluster.Election

/-- What a request gets. -/
structure Answer where
  reply : Option String
  /-- What is left to do once the reply is sent. -/
  followUp : Option FollowUp := none
  /-- Whether the session ends here. -/
  closes : Bool := false
  deriving DecidableEq, Repr

namespace Seat

/-- Answers a request that comes at time `now`. -/
def answer (seat : Seat) (now : Int) : Request → Action Answer
  | .ping => do
    Action.change fun status => status.heard now
    pure { reply := some pongReply }
  | .elect candidate => do
    let response ← seat.respond candidate
    pure { reply := response.reply, followUp := response.followUp }
  | .declare leader => do
    let reply ← seat.acknowledge leader
    pure { reply }
  | .malformed reply => pure { reply := some reply }
  | .unknown => pure { reply := some unknownReply, closes := true }

/-- Answers the lines of a session one after another, with all that they leave to do. The result is
the replies. -/
def answerLines (seat : Seat) (now : Int) : List String → Action (List String)
  | [] => pure []
  | line :: rest => do
    let answer ← seat.answer now (.ofLine line)
    if let some followUp := answer.followUp then seat.complete followUp
    let later ← if answer.closes then pure [] else seat.answerLines now rest
    pure (answer.reply.toList ++ later)

/-- Serves a peer that sends these bytes and then finishes. The result is the bytes written. -/
def serve (seat : Seat) (now : Int) (input : List UInt8) : Action (List UInt8) := do
  let replies ← seat.answerLines now (Wire.readLines input).1
  pure (Wire.writeLines (banner :: replies))

end Seat

end BrokerCluster.Election
