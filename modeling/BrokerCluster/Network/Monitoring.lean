import BrokerCluster.CommandLine.Program
import BrokerCluster.Monitoring.Datagram
import BrokerCluster.Network.Connection
import Std.Async.UDP

/-!
# Monitoring on a port

A monitoring server counts the datagrams that come and shows the tally from time
to time. A broker sends its notices to such a server; one that cannot be sent is
lost.
-/
namespace BrokerCluster.Network

open Std.Async Std.Net

def openDatagrams (host : String) (port : UInt16) : Async (Except String UDP.Socket) := do
  try
    let socket ← firstSuccess (fun address => do
      let socket ← UDP.Socket.mk
      socket.bind address
      return socket) (← lookup host port)
    return .ok socket
  catch fault => return .error (faultText fault)

def countDatagrams (socket : UDP.Socket) (tally : IO.Ref Monitoring.Tally) : Async Unit :=
  EAsync.forIn () fun _ _ => do
    try
      let (bytes, _) ← socket.recv Monitoring.receiveLimit.toUInt64
      tally.modify fun current => (current.record (Monitoring.receive bytes.toList)).1
    catch _ => pure ()
    return .yield ()

/-- Shows the tally, each time after a number of seconds. -/
def showTally (tally : IO.Ref Monitoring.Tally) (interval : UInt64) : Async Unit :=
  EAsync.forIn () fun _ _ => do
    sleep (milliseconds (1000 * interval.toNat))
    let output ← IO.getStdout
    output.putStr (CommandLine.progress (← tally.get))
    output.flush
    return .yield ()

def runMonitoring (socket : UDP.Socket) (interval : UInt64) : Async Unit := do
  let tally ← IO.mkRef Monitoring.Tally.empty
  background (countDatagrams socket tally)
  showTally tally interval

structure Notifier where
  socket : UDP.Socket
  target : SocketAddress

/-- A notifier for the server at an address, unless the address is not known. -/
def Notifier.open? (host : String) (port : UInt16) : Async (Option Notifier) := do
  try
    match ← lookup host port with
    | target :: _ => return some { socket := ← UDP.Socket.mk, target }
    | [] => return none
  catch _ => return none

/-- The address of a socket as a monitoring server is told it. -/
def originOf : SocketAddress → Monitoring.Origin
  | .v4 a => ⟨a.addr.toString, a.port⟩
  | .v6 a => ⟨a.addr.toString, a.port⟩

/-- Reports a publish that came over a connection. -/
def Notifier.notifyFrom (notifier : Notifier) (connection : Connection) (key : String) :
    Async Unit := do
  try
    let origin := originOf (← connection.socket.getSockName)
    if let some bytes := Monitoring.send? (Monitoring.notice origin key) then
      notifier.socket.send bytes.toByteArray (some notifier.target)
  catch _ => return ()

end BrokerCluster.Network
