import BrokerCluster.Naming.Service

/-!
# The name service and its clients

All clients share one table, and what they do comes in any order. A line is answered
only while the session of its client reads. A session ends as `endsSession` says, when its
client is gone, or when a reply cannot be written.
-/
namespace BrokerCluster.Naming

/-- Clients are numbered as they connect. -/
abbrev ClientId := Nat

structure Session where
  /-- Whether lines of the client are still read. -/
  reading : Bool := true
  /-- Whether lines can still be written to the client. -/
  writable : Bool := true
  deriving DecidableEq, Repr

/-- The table and the sessions, by their clients. -/
structure Server where
  table : Table := []
  sessions : List Session := []
  deriving DecidableEq, Repr

namespace Server

inductive Event where
  | connect
  | line (client : ClientId) (text : String)
  /-- The input of a client ends, or its connection breaks. -/
  | disconnect (client : ClientId)
  /-- A client can no longer be written to. -/
  | hangUp (client : ClientId)
  deriving DecidableEq, Repr

def updateSession (server : Server) (id : ClientId) (change : Session → Session) : Server :=
  { server with sessions := server.sessions.modify id change }

/-- The session of a client is over. -/
def dismiss (server : Server) (id : ClientId) : Server :=
  server.updateSession id fun _ => { reading := false, writable := false }

/-- A line of a client: it is answered and the reply written, if the client is still read. -/
def receive (server : Server) (id : ClientId) (line : String) :
    Server × List (ClientId × String) :=
  match server.sessions[id]? with
  | none => (server, [])
  | some session =>
    if session.reading then
      let (table, reply) := answerLine server.table line
      let server := { server with table }
      if session.writable then
        (if endsSession line then server.dismiss id else server, [(id, reply)])
      else (server.dismiss id, [])
    else (server, [])

/-- One event, and the lines that are written, each to a client. -/
def react (server : Server) : Event → Server × List (ClientId × String)
  | .connect =>
    ({ server with sessions := server.sessions ++ [{}] }, [(server.sessions.length, banner)])
  | .line id text => server.receive id text
  | .disconnect id => (server.dismiss id, [])
  | .hangUp id => (server.updateSession id fun session => { session with writable := false }, [])

def run (server : Server) : List Event → Server × List (ClientId × String)
  | [] => (server, [])
  | event :: rest =>
    let (server, outputs) := server.react event
    let (server, later) := run server rest
    (server, outputs ++ later)

end Server

end BrokerCluster.Naming
