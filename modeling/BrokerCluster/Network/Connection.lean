import BrokerCluster.Wire.Address
import BrokerCluster.Wire.Failure
import Std.Async.DNS
import Std.Async.Select
import Std.Async.TCP
import Std.Async.Timer

/-!
# Connections

Sockets on which lines are exchanged. Bytes are kept until the first line among
them is known; what a line is and what a fault amounts to is settled elsewhere.
-/
namespace BrokerCluster.Network

open Std.Async Std.Net

/-- The number of a fault of the system. The event loop gives the negated number as a word. -/
def faultNumber? : IO.Error → Option Nat
  | .alreadyExists _ code _ | .otherError code _ | .resourceBusy code _ | .resourceVanished code _
  | .unsupportedOperation code _ | .hardwareFault code _ | .unsatisfiedConstraints code _
  | .illegalOperation code _ | .protocolError code _ | .timeExpired code _ | .interrupted _ code _
  | .noFileOrDirectory _ code _ | .invalidArgument _ code _ | .permissionDenied _ code _
  | .resourceExhausted _ code _ | .inappropriateType _ code _ | .noSuchThing _ code _ =>
    some code.toInt32.toInt.natAbs
  | .unexpectedEof | .userError _ => none

/-- What a number of a fault means. -/
def meanings : List (Nat × String) := [
  (1, "Operation not permitted"), (2, "No such file or directory"), (13, "Permission denied"),
  (20, "Not a directory"), (21, "Is a directory"), (22, "Invalid argument"),
  (24, "Too many open files"), (36, "File name too long"),
  (40, "Too many levels of symbolic links"), (98, "Address already in use"),
  (99, "Cannot assign requested address"), (101, "Network is unreachable"),
  (104, "Connection reset by peer"), (110, "Connection timed out"), (111, "Connection refused"),
  (113, "No route to host")]

/-- What a number of a fault of the name lookup means. -/
def lookupMeanings : List (Nat × String) := [
  (3001, "Temporary failure in name resolution"), (3007, "No address associated with hostname"),
  (3008, "Name or service not known")]

def faultText (fault : IO.Error) : String :=
  match faultNumber? fault with
  | none => fault.toString
  | some number =>
    match meanings.lookup number, lookupMeanings.lookup number with
    | some meaning, _ => meaning ++ " (os error " ++ toString number ++ ")"
    | none, some meaning => "failed to lookup address information: " ++ meaning
    | none, none => fault.toString

/-- The text of the address of a socket, with brackets around a host that has colons. -/
def socketText : SocketAddress → String
  | .v4 a => Wire.addressText a.addr.toString a.port
  | .v6 a => Wire.addressText ("[" ++ a.addr.toString ++ "]") a.port

def socketAddress (port : UInt16) : IPAddr → SocketAddress
  | .v4 addr => .v4 ⟨addr, port⟩
  | .v6 addr => .v6 ⟨addr, port⟩

/-- The addresses of a host, which may be given as an address or by name. -/
def lookup (host : String) (port : UInt16) : Async (List SocketAddress) := do
  match IPv4Addr.ofString host, IPv6Addr.ofString host with
  | some addr, _ => return [socketAddress port addr]
  | none, some addr => return [socketAddress port addr]
  | none, none =>
    let found ← DNS.getAddrInfo host (toString port.toNat)
    return found.toList.map (socketAddress port)

/-- The first success with one of several addresses, or the last fault. -/
def firstSuccess {α : Type} (attempt : SocketAddress → Async α) :
    List SocketAddress → Async α
  | [] => throw (.userError "could not resolve to any addresses")
  | [address] => attempt address
  | address :: rest => do
    try attempt address
    catch _ => firstSuccess attempt rest

def listen (host : String) (port : UInt16) : Async (Except String TCP.Socket.Server) := do
  try
    let server ← firstSuccess (fun address => do
      let server ← TCP.Socket.Server.mk
      server.bind address
      server.listen 1024
      return server) (← lookup host port)
    return .ok server
  catch fault => return .error (faultText fault)

/-- A socket, and the bytes that came on it and belong to no line yet. -/
structure Connection where
  socket : TCP.Socket.Client
  unread : IO.Ref (List UInt8)

/-- A time by which something must be done; none stands for any time. -/
abbrev Deadline := Option Sleep

/-- A number of milliseconds. A timer that would run for ages is as good as one that runs for longer. -/
def milliseconds (count : Nat) : Std.Time.Millisecond.Offset :=
  .ofNat (min count (UInt64.size / 4))

/-- The time that is so many milliseconds away. -/
def deadlineIn (limit : Option UInt64) : Async Deadline :=
  limit.mapM fun count => Sleep.mk (milliseconds count.toNat)

namespace Connection

def ofSocket (socket : TCP.Socket.Client) : Async Connection := do
  return { socket, unread := ← IO.mkRef [] }

/-- The most bytes that are taken from a socket at once. -/
def chunk : UInt64 := 16384

/-- The next bytes, or `none` at the end of the stream; nothing at all if it gets too late. -/
def receive (connection : Connection) : Deadline → Async (Option (Option ByteArray))
  | none => some <$> connection.socket.recv? chunk
  | some sleep => Selectable.one #[
    .case (connection.socket.recvSelector chunk) fun bytes => return some bytes,
    .case sleep.selector fun _ => return none]

/-- What the front of the stream holds; nothing if it gets too late. -/
partial def readLine (connection : Connection) (deadline : Deadline) :
    Async (Option Wire.LineRead) := do
  let bytes ← connection.unread.get
  if Wire.hasLine bytes then
    some <$> take bytes
  else
    match ← connection.receive deadline with
    | none => return none
    | some none => some <$> take bytes
    | some (some more) =>
      connection.unread.set (bytes ++ more.toList)
      connection.readLine deadline
where
  /-- Takes the first line off the bytes that came. -/
  take (bytes : List UInt8) : Async Wire.LineRead := do
    let read := Wire.readLine bytes
    if let .line _ rest := read then connection.unread.set rest
    return read

def writeLine (connection : Connection) (text : String) : Async Unit :=
  connection.socket.send (Wire.writeLine text).toByteArray

/-- Writes a line and says whether that was possible. -/
def tryWriteLine (connection : Connection) (text : String) : Async Bool := do
  try
    connection.writeLine text
    return true
  catch _ => return false

def close (connection : Connection) : Async Unit := do
  try connection.socket.shutdown
  catch _ => return ()

/-- Handles the lines that come, one after another, until there are no more or one is the last. -/
def forEachLine (connection : Connection) (isLast : String → Async Bool) : Async Unit :=
  EAsync.forIn () fun _ _ => do
    match ← connection.readLine none with
    | some (.line text _) => return if ← isLast text then .done () else .yield ()
    | _ => return .done ()

end Connection

def connect (host : String) (port : UInt16) (deadline : Deadline) :
    Async (Except Wire.Failure Connection) := do
  let attempt : Async (Except Wire.Failure Connection) := do
    try
      let socket ← firstSuccess (fun address => do
        let socket ← TCP.Socket.Client.mk
        socket.connect address
        return socket) (← lookup host port)
      return .ok (← Connection.ofSocket socket)
    catch fault =>
      return .error (.connect (Wire.addressText host port ++ ": " ++ faultText fault))
  match deadline with
  | none => attempt
  | some sleep =>
    have : Inhabited (Except Wire.Failure Connection) := ⟨.error .timeout⟩
    Async.race attempt (do sleep.wait; return .error .timeout)

/-- The next line, which must come in time. -/
def Connection.expectLine (connection : Connection) (deadline : Deadline) :
    Async (Except Wire.Failure String) := do
  try
    match ← connection.readLine deadline with
    | some (.line text _) => return .ok text
    | some .ended => return .error .closed
    | some (.fault reason) => return .error (.ofFault reason)
    | none => return .error .timeout
  catch fault => return .error (.io (faultText fault))

def Connection.exchange (connection : Connection) (line : String) (deadline : Deadline) :
    Async (Except Wire.Failure String) := do
  try connection.writeLine line
  catch fault => return .error (.io (faultText fault))
  connection.expectLine deadline

/-- Connects to a server and waits for its greeting. -/
def greet (host : String) (port : UInt16) (deadline : Deadline) :
    Async (Except Wire.Failure Connection) := do
  match ← connect host port deadline with
  | .error failure => return .error failure
  | .ok connection =>
    match ← connection.expectLine deadline with
    | .ok _ => return .ok connection
    | .error failure =>
      connection.close
      return .error failure

/-- Sends one line to a server and returns the reply. The whole exchange must end in the time
allowed. -/
def request (host : String) (port : UInt16) (limit : Option UInt64) (line : String) :
    Async (Except Wire.Failure String) := do
  let deadline ← deadlineIn limit
  match ← greet host port deadline with
  | .error failure => return .error failure
  | .ok connection =>
    let reply ← connection.exchange line deadline
    connection.close
    return reply

/-- Serves a client until it is done or its connection fails. -/
def attend (serve : Connection → Async Unit) (connection : Connection) : Async Unit := do
  try serve connection
  catch _ => connection.close

/-- Accepts clients for ever, each of which is served on its own. -/
def acceptAll (server : TCP.Socket.Server) (serve : Connection → Async Unit) : Async Unit :=
  EAsync.forIn () fun _ _ => do
    try
      let connection ← Connection.ofSocket (← server.accept)
      background (attend serve connection)
    catch _ => pure ()
    return .yield ()

end BrokerCluster.Network
