import BrokerCluster.Routing.Exchange
import BrokerCluster.Routing.Queue

/-!
# The registry of exchanges and queues

All sessions of a broker share one registry, which only grows. Exchanges and
queues are known by handles, which are given out in order and never change;
names lead to handles. The registry starts with the default exchange, and each
new queue is bound there under its own name.
-/
namespace BrokerCluster.Routing

/-- Tells queues apart: queues are numbered as they are declared. -/
abbrev QueueId := Nat

/-- Tells exchanges apart: exchanges are numbered as they are declared. -/
abbrev ExchangeId := Nat

/-- Why a declaration or a request for routing is refused. -/
inductive RoutingError where
  /-- No kind of exchange has this name. -/
  | invalidKind (text : String)
  /-- The exchange of this name has another kind. -/
  | kindConflict (name : String)
  /-- The session has declared no exchange yet. -/
  | noExchange
  /-- The session has declared no queue yet. -/
  | noQueue
  deriving DecidableEq, Repr

def RoutingError.message : RoutingError → String
  | .invalidKind _ =>
    "error invalid exchange type. Valid types: DEFAULT, DIRECT, FANOUT, TOPIC"
  | .kindConflict _ => "error exchange already exists with a different type"
  | .noExchange => "error no exchange declared"
  | .noQueue => "error no queue declared"

/-- Exchanges and queues in the order of their declaration. -/
structure Registry where
  exchanges : List (Exchange QueueId)
  queues : List Queue
  deriving DecidableEq, Repr

namespace Registry

/-- The name of the exchange that every queue is bound to. -/
def defaultName : String := "default"

/-- The handle of the exchange that every queue is bound to. -/
def defaultExchange : ExchangeId := 0

def fresh : Registry := ⟨[.fresh defaultName .default], []⟩

def exchange? (registry : Registry) (name : String) : Option ExchangeId :=
  registry.exchanges.findIdx? fun exchange => exchange.name == name

def queue? (registry : Registry) (name : String) : Option QueueId :=
  registry.queues.findIdx? fun queue => queue.name == name

def bind (registry : Registry) (exchange : ExchangeId) (key : String) (queue : QueueId) : Registry :=
  { registry with exchanges := registry.exchanges.modify exchange fun e => e.bind key queue }

def route (registry : Registry) (exchange : ExchangeId) (key : String) : List QueueId :=
  match registry.exchanges[exchange]? with
  | some e => e.route key
  | none => []

def updateQueue (registry : Registry) (queue : QueueId) (change : Queue → Queue) : Registry :=
  { registry with queues := registry.queues.modify queue change }

def publish (registry : Registry) (exchange : ExchangeId) (key message : String) : Registry :=
  (registry.route exchange key).foldl (fun r q => r.updateQueue q (·.put message)) registry

def take? (registry : Registry) (queue : QueueId) : Option (String × Registry) :=
  match registry.queues[queue]?.bind Queue.take? with
  | some (message, rest) => some (message, registry.updateQueue queue fun _ => rest)
  | none => none

/-- The exchange with a name, which is new if there is none. An exchange of another kind is left as
it is. -/
def declareExchange (registry : Registry) (kind : ExchangeKind) (name : String) :
    Except RoutingError (ExchangeId × Registry) :=
  match registry.exchange? name with
  | none =>
    .ok (registry.exchanges.length,
      { registry with exchanges := registry.exchanges ++ [.fresh name kind] })
  | some id =>
    if (registry.exchanges[id]?.map (·.kind)) = some kind then .ok (id, registry)
    else .error (.kindConflict name)

/-- The queue with a name, which is new and bound to the default exchange if there is none. -/
def declareQueue (registry : Registry) (name : String) : QueueId × Registry :=
  match registry.queue? name with
  | some id => (id, registry)
  | none =>
    let id := registry.queues.length
    let grown := { registry with queues := registry.queues ++ [Queue.fresh name] }
    (id, grown.bind defaultExchange name id)

end Registry

end BrokerCluster.Routing
