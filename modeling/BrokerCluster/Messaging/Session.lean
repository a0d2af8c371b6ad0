import BrokerCluster.Messaging.Command
import BrokerCluster.Routing.Registry

/-!
# Messaging sessions

A session remembers the exchange and the queue that its client declared last and
whether the client is subscribed. A command that is refused changes nothing. While
a client is subscribed, every line but `stop` is passed over without a reply.
-/
namespace BrokerCluster.Messaging

open Routing

/-- A subscription of a client to a queue. -/
structure Subscription where
  queue : QueueId
  /-- Whether the client was told that it is subscribed. -/
  announced : Bool := false
  deriving DecidableEq, Repr

structure Session where
  exchange : Option ExchangeId := none
  queue : Option QueueId := none
  subscription : Option Subscription := none
  /-- Whether the client asked to leave. -/
  finished : Bool := false
  deriving DecidableEq, Repr

/-- What a line does to the registry and to the session it came from. -/
structure Outcome where
  registry : Registry
  session : Session
  reply : Option String := none
  /-- The routing key, if a message was published. -/
  published : Option String := none
  deriving DecidableEq, Repr

/-- The reply to a command that succeeds. -/
def okReply : String := "ok"

namespace Session

def isSubscribed (session : Session) : Bool := session.subscription.isSome

def stop (session : Session) : Session := { session with subscription := none }

/-- A refusal, which changes nothing. -/
def refuse (registry : Registry) (session : Session) (error : RoutingError) : Outcome :=
  { registry, session, reply := some error.message }

def perform (registry : Registry) (session : Session) : Command → Outcome
  | .exchange kind name =>
    match ExchangeKind.parse? kind with
    | none => refuse registry session (.invalidKind kind)
    | some kind =>
      match registry.declareExchange kind name with
      | .error error => refuse registry session error
      | .ok (exchange, registry) =>
        { registry, session := { session with exchange := some exchange }, reply := some okReply }
  | .queue name =>
    let (queue, registry) := registry.declareQueue name
    { registry, session := { session with queue := some queue }, reply := some okReply }
  | .bind key =>
    match session.exchange, session.queue with
    | none, _ => refuse registry session .noExchange
    | some _, none => refuse registry session .noQueue
    | some exchange, some queue =>
      { registry := registry.bind exchange key queue, session, reply := some okReply }
  | .publish key message =>
    match session.exchange with
    | none => refuse registry session .noExchange
    | some exchange =>
      { registry := registry.publish exchange key message, session, reply := some okReply,
        published := some key }
  | .subscribe =>
    match session.queue with
    | none => refuse registry session .noQueue
    | some queue => { registry, session := { session with subscription := some { queue } } }
  | .exit => { registry, session := { session with finished := true }, reply := some "ok bye" }
  | .malformed reply => { registry, session, reply := some reply }

def process (registry : Registry) (session : Session) (line : String) : Outcome :=
  if session.isSubscribed then
    { registry, session := if isStop line then session.stop else session }
  else perform registry session (.ofLine line)

end Session

end BrokerCluster.Messaging
