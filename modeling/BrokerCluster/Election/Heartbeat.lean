import BrokerCluster.Election.Coordinator

/-!
# Heartbeats

A broker that has not heard from a leader for too long starts an election, and
counts that as a heartbeat, so that a failed election is not repeated at once.
The leader in turn keeps one link to each peer and pings it once in each round.
A link on which anything but the awaited reply came is given up, and with it
every reply that may still be on its way, so a reply always belongs to the ping
of its own round.
-/
namespace BrokerCluster.Election

/-- Looks at the clock and starts an election if the leader was silent for too long; says whether it
did. -/
def Seat.poll (seat : Seat) (timeout : UInt64) (now : Int) : Action Bool := do
  let status ← Action.current
  if status.isExpired timeout now then
    Action.change fun status => status.heard now
    seat.initiate
    pure true
  else
    pure false

def pingLine : String := "ping"

/-- How a leader reaches a peer. `σ` is what an open link is. -/
structure Links (m : Type → Type) (σ : Type) where
  /-- Opens a link and reads the line that greets the leader. -/
  connect : m (Option σ)
  /-- Sends a line and reads one; nothing if that fails or takes too long. -/
  request : σ → String → m (Option (String × σ))
  close : σ → m Unit

namespace Links

variable {m : Type → Type} [Monad m] {σ : Type}

/-- Pings over an open link, which is kept only if the reply is exactly the awaited one. -/
def ping (links : Links m σ) (link : σ) : m (Option σ) := do
  match ← links.request link pingLine with
  | some (reply, link) =>
    if reply = pongReply then
      pure (some link)
    else
      links.close link
      pure none
  | none =>
    links.close link
    pure none

/-- Opens a link if there is none, and pings. -/
def tick (links : Links m σ) (link : Option σ) : m (Option σ) := do
  let opened ←
    match link with
    | some link => pure (some link)
    | none => links.connect
  match opened with
  | some link => links.ping link
  | none => pure none

/-- One round while the broker leads, with the link that it leaves. Once the broker does not lead the
link is closed and there is no round. -/
def round? (links : Links m σ) (leads : m Bool) (link : Option σ) : m (Option (Option σ)) := do
  if ← leads then
    return some (← links.tick link)
  else
    link.forM links.close
    return none

/-- Up to `rounds` rounds while the broker leads; in the end the link is closed. -/
def keepAlive (links : Links m σ) (leads : m Bool) : (rounds : Nat) → Option σ → m Unit
  | 0, link => link.forM links.close
  | rounds + 1, link => do
    match ← links.round? leads link with
    | some link => links.keepAlive leads rounds link
    | none => pure ()

end Links

end BrokerCluster.Election
