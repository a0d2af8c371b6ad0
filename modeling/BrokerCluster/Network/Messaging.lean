import BrokerCluster.Messaging.Service
import BrokerCluster.Network.Monitoring
import Std.Sync.Channel

/-!
# The messaging service on a port

One loop owns the service and takes what happens at the connections one after
another. A delivery counts as made once its line is written: where that fails, the
service is told that the client hung up, and the message stays in its queue.
-/
namespace BrokerCluster.Network

open Std.Async BrokerCluster.Messaging

/-- What happens at the port. -/
inductive Occurrence where
  | arrival (connection : Connection)
  | event (event : Service.Event)

/-- The service, the connections of its clients by their numbers, and where publishes are reported. -/
structure Desk where
  service : Service := {}
  connections : Array Connection := #[]
  notifier : Option Notifier

namespace Desk

/-- Sends one output; `sender` is the client whose line led to it. Says whether that was possible. -/
def send (desk : Desk) (sender : ClientId) : Output → Async Bool
  | .line client text | .message _ client text =>
    match desk.connections[client]? with
    | some connection => connection.tryWriteLine text
    | none => return false
  | .notice key => do
    match desk.notifier, desk.connections[sender]? with
    | some notifier, some connection => notifier.notifyFrom connection key
    | _, _ => pure ()
    return true

def sendAll (desk : Desk) (sender : ClientId) (outputs : List Output) : Async Bool :=
  outputs.allM (desk.send sender)

def deliver (desk : Desk) (id : ClientId) : Async Desk :=
  EAsync.forIn desk fun _ desk => do
    match desk.service.advance id with
    | none => return .done desk
    | some (service, outputs) =>
      if ← desk.sendAll id outputs then return .yield { desk with service }
      else return .yield { desk with service := desk.service.hangUp id }

/-- The client that an event is about; a new client gets the next number. -/
def clientOf (desk : Desk) : Service.Event → ClientId
  | .connect => desk.service.clients.length
  | .line id _ | .disconnect id => id

/-- Does what an event leads to, with the deliveries that follow. -/
def handle (desk : Desk) (event : Service.Event) : Async Desk := do
  let id := desk.clientOf event
  let (service, outputs) := desk.service.react event
  let sent ← desk.sendAll id outputs
  let service := if sent then service else service.disconnect id
  unless service.clients[id]?.any (·.reading) do
    desk.connections[id]?.forM Connection.close
  (List.range service.clients.length).foldlM deliver { desk with service }

end Desk

def passLines (channel : Std.CloseableChannel Occurrence) (id : ClientId)
    (connection : Connection) : Async Unit := do
  let pass (event : Service.Event) : BaseIO Unit := discard <| channel.send (.event event)
  try
    connection.forEachLine fun line => do
      pass (.line id line)
      return false
  finally
    pass (.disconnect id)

def serveDesk (channel : Std.CloseableChannel Occurrence) (notifier : Option Notifier) :
    Async Unit := do
  let _ ← EAsync.forIn { notifier : Desk } fun _ desk => do
    match ← await (← channel.recv) with
    | none => return .done desk
    | some (.event event) => return .yield (← desk.handle event)
    | some (.arrival connection) =>
      let id := desk.clientOf .connect
      let seated := { desk with connections := desk.connections.push connection }
      let desk ← seated.handle .connect
      background (passLines channel id connection)
      return .yield desk

def runMessaging (server : TCP.Socket.Server) (notifier : Option Notifier) : Async Unit := do
  let channel ← Std.CloseableChannel.new
  background (serveDesk channel notifier)
  acceptAll server fun connection => discard <| channel.send (.arrival connection)

end BrokerCluster.Network
