import BrokerCluster.Naming.Service
import BrokerCluster.Network.Connection

/-!
# The name service on a port

All clients share one table. A request is answered in one step, so no client
sees a table that another one is about to change.
-/
namespace BrokerCluster.Network

open Std.Async

def serveNames (table : IO.Ref Naming.Table) (connection : Connection) : Async Unit := do
  connection.writeLine Naming.banner
  connection.forEachLine fun line => do
    let reply ← table.modifyGet fun current =>
      let (next, reply) := Naming.answerLine current line
      (reply, next)
    connection.writeLine reply
    return Naming.endsSession line
  connection.close

def runNameService (server : TCP.Socket.Server) : Async Unit := do
  let table ← IO.mkRef ([] : Naming.Table)
  acceptAll server (serveNames table)

end BrokerCluster.Network
