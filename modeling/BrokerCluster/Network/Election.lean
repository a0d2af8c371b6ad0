import BrokerCluster.Broker
import BrokerCluster.Naming.Client
import BrokerCluster.Network.Connection

/-!
# Elections on a port

The sessions with peers, the watch over the leader and the leader's own pings run
side by side. They share the status of the broker, which each of them changes in
single steps.
-/
namespace BrokerCluster.Network

open Std.Async BrokerCluster.Election

def currentTime : Async Int :=
  return (← Std.Time.Timestamp.now).toMillisecondsSinceUnixEpoch.toInt

/-- How a broker carries out its actions. -/
def interpreter (config : Config.Configuration) (status : IO.Ref Status) :
    Action.Interpreter Async where
  update change := status.modifyGet fun before => (before, change before)
  ask peer line := return (← request peer.host peer.port config.peerTimeout? line).toOption
  register name address :=
    let ask := request config.naming.host config.naming.port config.peerTimeout?
    discard (Naming.Client.register ask name address)

def servePeer (seat : Seat) (carryOut : Action.Interpreter Async) (connection : Connection) :
    Async Unit := do
  connection.writeLine Election.banner
  connection.forEachLine fun line => do
    let answer ← (seat.answer (← currentTime) (.ofLine line)).run carryOut
    answer.reply.forM connection.writeLine
    answer.followUp.forM fun followUp => (seat.complete followUp).run carryOut
    return answer.closes
  connection.close

def watchLeader (config : Config.Configuration) (seat : Seat)
    (carryOut : Action.Interpreter Async) : Async Unit :=
  EAsync.forIn () fun _ _ => do
    discard <| (seat.poll config.election.heartbeatTimeout (← currentTime)).run carryOut
    sleep (milliseconds config.election.pollInterval.toNat)
    return .yield ()

/-- The time that one exchange with a peer may take when it is pinged. -/
def pingLimit (config : Config.Configuration) : UInt64 :=
  match config.peerTimeout? with
  | some limit => min limit config.pingInterval
  | none => config.pingInterval

def peerLinks (config : Config.Configuration) (peer : Peer) : Links Async Connection where
  connect := do
    return (← greet peer.host peer.port (← deadlineIn (pingLimit config))).toOption
  request link line := do
    let reply ← link.exchange line (← deadlineIn (pingLimit config))
    return reply.toOption.map (·, link)
  close := Connection.close

/-- Carries out the rounds of `Links.keepAlive` without a last one, and pauses after each. A broker
that leads again begins without a link. -/
def keepPinging (config : Config.Configuration) (status : IO.Ref Status) (peer : Peer) :
    Async Unit := do
  let links := peerLinks config peer
  let leads : Async Bool := return (← status.get).isLeader
  let _ ← EAsync.forIn none fun _ link => do
    let left ← links.round? leads link
    sleep (milliseconds config.pingInterval.toNat)
    return .yield left.join

def runElections (broker : Broker) (server : TCP.Socket.Server) : Async Unit := do
  let status ← IO.mkRef broker.status
  let carryOut := interpreter broker.config status
  background (acceptAll server (servePeer broker.seat carryOut))
  if broker.seat.mode.isEnabled then
    background (watchLeader broker.config broker.seat carryOut)
    for peer in broker.seat.peers do
      background (keepPinging broker.config status peer)
  broker.opening.run carryOut

end BrokerCluster.Network
