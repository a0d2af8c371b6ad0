import BrokerCluster.Messaging.Session
import BrokerCluster.Monitoring.Datagram
import BrokerCluster.Wire.Line

/-!
# The messaging service

Any number of clients share one registry. A subscription is a loop of its own: it
tells the client `ok`, then takes one message after another and writes it to the
client. A message that cannot be written goes back to the front of its queue, and
the subscription ends. `advance` is one step of such a loop, and `settle` lets
all loops run until each waits for a message.
-/
namespace BrokerCluster.Messaging

open Routing

/-- Clients are numbered as they connect. -/
abbrev ClientId := Nat

structure Client where
  session : Session := {}
  /-- Whether lines of the client are still read. -/
  reading : Bool := true
  /-- Whether lines can still be written to the client. -/
  writable : Bool := true
  deriving DecidableEq, Repr

/-- What the service sends. -/
inductive Output where
  /-- A line to a client: its greeting or a reply. -/
  | line (client : ClientId) (text : String)
  /-- A message taken from a queue, to one of its subscribers. -/
  | message (queue : QueueId) (client : ClientId) (text : String)
  /-- A notice that a message was published under a key. -/
  | notice (key : String)
  deriving DecidableEq, Repr

structure Service where
  registry : Registry := .fresh
  clients : List Client := []
  /-- Whether the service is shutting down, which ends every subscription. -/
  stopping : Bool := false
  deriving DecidableEq, Repr

namespace Service

def updateClient (service : Service) (id : ClientId) (change : Client → Client) : Service :=
  { service with clients := service.clients.modify id change }

def updateSession (service : Service) (id : ClientId) (change : Session → Session) : Service :=
  service.updateClient id fun client => { client with session := change client.session }

def stop (service : Service) (id : ClientId) : Service := service.updateSession id Session.stop

/-- Ends every subscription, now and later. -/
def shutdown (service : Service) : Service := { service with stopping := true }

/-- Writes a line to a client if that is possible. -/
def write (client : Client) (id : ClientId) (text : String) : List Output :=
  if client.writable then [.line id text] else []

/-- One step of a client's subscription, if there is something to do. -/
def advance (service : Service) (id : ClientId) : Option (Service × List Output) := do
  let client ← service.clients[id]?
  let subscription ← client.session.subscription
  if !subscription.announced then
    if client.writable then
      let announced := { subscription with announced := true }
      return (service.updateSession id fun session => { session with subscription := some announced },
        [.line id okReply])
    else return (service.stop id, [])
  else if service.stopping then return (service.stop id, [])
  else
    let (message, registry) ← service.registry.take? subscription.queue
    if client.writable then
      return ({ service with registry }, [.message subscription.queue id message])
    else
      let registry := registry.updateQueue subscription.queue (·.requeue message)
      return ({ service with registry }.stop id, [])

/-- Lets a subscription take up to a number of steps, and stops when it waits. -/
def deliver (id : ClientId) : (steps : Nat) → Service → Service × List Output
  | 0, service => (service, [])
  | steps + 1, service =>
    match service.advance id with
    | none => (service, [])
    | some (service, outputs) =>
      let (service, later) := deliver id steps service
      (service, outputs ++ later)

def pendingCount (service : Service) : Nat :=
  service.registry.queues.foldr (fun queue total => queue.pending.length + total) 0

/-- Lets the subscriptions of these clients run, one after another, until each waits. -/
def settleAll : List ClientId → Service → Service × List Output
  | [], service => (service, [])
  | id :: rest, service =>
    let (service, outputs) := service.deliver id (service.pendingCount + 2)
    let (service, later) := settleAll rest service
    (service, outputs ++ later)

/-- Lets every subscription run until it waits. -/
def settle (service : Service) : Service × List Output :=
  settleAll (List.range service.clients.length) service

/-- The line that greets a client. -/
def banner : String := "ok SMQP"

def connect (service : Service) : Service × List Output :=
  ({ service with clients := service.clients ++ [{}] }, [.line service.clients.length banner])

/-- Processes a line of a client without writing the reply. -/
def process (service : Service) (id : ClientId) (line : String) :
    Service × Option String × List Output :=
  match service.clients[id]? with
  | none => (service, none, [])
  | some client =>
    let outcome := client.session.process service.registry line
    ({ service with registry := outcome.registry }.updateSession id fun _ => outcome.session,
      outcome.reply, outcome.published.toList.map .notice)

/-- The client is gone: nothing is read from it or written to it, and its subscription ends. -/
def disconnect (service : Service) (id : ClientId) : Service :=
  (service.stop id).updateClient id fun client => { client with reading := false, writable := false }

/-- Nothing can be written to the client any more, which its subscription finds out when it next
tries. -/
def hangUp (service : Service) (id : ClientId) : Service :=
  service.updateClient id fun client => { client with writable := false }

/-- A line of a client that is still there: it is processed and the reply written. The client is let
go if it asked for that or cannot be written to. -/
def receive (service : Service) (id : ClientId) (line : String) : Service × List Output :=
  match service.clients[id]? with
  | none => (service, [])
  | some client =>
    if client.reading then
      let (service, reply, notices) := service.process id line
      let written := reply.toList.flatMap (write client id)
      let left := (service.clients[id]?.any (·.session.finished)) || (reply.isSome && !client.writable)
      (if left then service.disconnect id else service, notices ++ written)
    else (service, [])

inductive Event where
  | connect
  | line (client : ClientId) (text : String)
  | disconnect (client : ClientId)
  deriving DecidableEq, Repr

/-- What an event does at once. -/
def react (service : Service) : Event → Service × List Output
  | .connect => service.connect
  | .line id text => service.receive id text
  | .disconnect id => (service.disconnect id, [])

/-- What an event does in all, with the deliveries that follow. -/
def handle (service : Service) (event : Event) : Service × List Output :=
  let (service, outputs) := service.react event
  let (service, delivered) := service.settle
  (service, outputs ++ delivered)

def run (service : Service) : List Event → Service × List Output
  | [] => (service, [])
  | event :: rest =>
    let (service, outputs) := service.handle event
    let (service, later) := run service rest
    (service, outputs ++ later)

/-- The lines written to a client, in order. -/
def linesTo (id : ClientId) (outputs : List Output) : List String :=
  outputs.filterMap fun
    | .line client text | .message _ client text => if client = id then some text else none
    | .notice _ => none

/-- The keys of the publishes that are reported, in order. -/
def notices (outputs : List Output) : List String :=
  outputs.filterMap fun
    | .line .. | .message .. => none
    | .notice key => some key

/-- Serves one more client that sends these bytes and then finishes: the service after, and what it
sent. -/
def serve (service : Service) (input : List UInt8) : Service × List Output :=
  let id := service.clients.length
  service.run (.connect :: (Wire.readLines input).1.map (.line id) ++ [.disconnect id])

def bytesTo (id : ClientId) (outputs : List Output) : List UInt8 :=
  Wire.writeLines (linesTo id outputs)

/-- The tally of a monitoring server that gets the notices of a broker. -/
def report (origin : Monitoring.Origin) (outputs : List Output) (tally : Monitoring.Tally) :
    Monitoring.Tally :=
  (notices outputs).foldl (fun tally key => tally.notify origin key) tally

end Service

end BrokerCluster.Messaging
