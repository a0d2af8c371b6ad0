import BrokerCluster.Messaging.Service

/-!
# The messaging service behind its connections

Clients send bytes, in pieces of any size. What came from a client and is no line yet
waits in its inbox. The session of a client takes a line from the inbox once it is
there, and ends with what the client sends or at a fault in place of a line.
Everything that a client or its session does is a step, and steps of different clients
may follow each other in any order.
-/
namespace BrokerCluster.Messaging

/-- What came from a client and was not read yet. -/
structure Inbox where
  bytes : List UInt8 := []
  /-- Whether nothing more will come. -/
  ended : Bool := false
  deriving DecidableEq, Repr

/-- What there is to read next, once that is known. -/
def Inbox.next? (inbox : Inbox) : Option Wire.LineRead :=
  if inbox.ended || Wire.hasLine inbox.bytes then some (Wire.readLine inbox.bytes) else none

/-- A service and the inboxes of its clients. -/
structure Server where
  service : Service := {}
  inboxes : List Inbox := []
  deriving DecidableEq, Repr

namespace Server

inductive Step where
  | connect
  /-- Bytes come from a client. -/
  | send (client : ClientId) (bytes : List UInt8)
  /-- A client will send nothing more. -/
  | finish (client : ClientId)
  /-- The session of a client reads its inbox. -/
  | read (client : ClientId)
  /-- The connection to a client breaks. -/
  | disconnect (client : ClientId)
  /-- A client can no longer be written to. -/
  | hangUp (client : ClientId)
  /-- The subscription of a client goes on. -/
  | advance (client : ClientId)
  | shutdown
  deriving DecidableEq, Repr

def updateInbox (server : Server) (id : ClientId) (change : Inbox → Inbox) : Server :=
  { server with inboxes := server.inboxes.modify id change }

/-- The session of a client processes a line, or ends if there is none. -/
def take (server : Server) (id : ClientId) : Wire.LineRead → Server × List Output
  | .line text rest =>
    let (service, outputs) := server.service.receive id text
    ({ server with service }.updateInbox id fun inbox => { inbox with bytes := rest }, outputs)
  | .ended | .fault _ => ({ server with service := server.service.disconnect id }, [])

/-- What is not possible, or not yet, changes nothing. -/
def step (server : Server) : Step → Server × List Output
  | .connect =>
    let (service, outputs) := server.service.connect
    ({ service, inboxes := server.inboxes ++ [{}] }, outputs)
  | .send id bytes =>
    (server.updateInbox id fun inbox => { inbox with bytes := inbox.bytes ++ bytes }, [])
  | .finish id => (server.updateInbox id fun inbox => { inbox with ended := true }, [])
  | .read id => ((server.inboxes[id]?.bind Inbox.next?).map (server.take id)).getD (server, [])
  | .disconnect id => ({ server with service := server.service.disconnect id }, [])
  | .hangUp id => ({ server with service := server.service.hangUp id }, [])
  | .advance id =>
    let (service, outputs) := (server.service.advance id).getD (server.service, [])
    ({ server with service }, outputs)
  | .shutdown => ({ server with service := server.service.shutdown }, [])

def play (server : Server) : List Step → Server × List Output
  | [] => (server, [])
  | next :: rest =>
    let (server, outputs) := server.step next
    let (server, later) := server.play rest
    (server, outputs ++ later)

end Server

end BrokerCluster.Messaging
