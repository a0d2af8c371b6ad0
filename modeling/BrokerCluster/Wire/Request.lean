import BrokerCluster.Wire.Failure

/-!
# Requests

A request takes a connection of its own: the server greets, the client sends one
line and reads one. Whatever goes wrong on the way, or is no line, is a failure.
-/
namespace BrokerCluster.Wire

/-- The first line of a stream, if the stream has one. -/
def expectLine (bytes : List UInt8) : Except Failure (String × List UInt8) :=
  match readLine bytes with
  | .line text rest => .ok (text, rest)
  | .ended => .error .closed
  | .fault reason => .error (.ofFault reason)

/-- The reply in what a server wrote: the line after its greeting. -/
def replyIn (output : List UInt8) : Except Failure String := do
  let (_, rest) ← expectLine output
  let (reply, _) ← expectLine rest
  return reply

end BrokerCluster.Wire
