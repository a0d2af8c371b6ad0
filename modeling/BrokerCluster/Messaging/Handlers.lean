import BrokerCluster.Messaging.Session

/-!
# Commands carried out in place

A handler works on the registry and the session where they stand: what it has stored
by the time it is refused stays stored. So the order of its steps matters. An exchange
that is declared is entered in the registry before its kind is looked at, and a message
has reached every queue before the monitor is told.
-/
namespace BrokerCluster.Messaging

open Routing

/-- What the handlers of a session read and write. -/
structure Workspace where
  registry : Registry
  session : Session
  /-- The routing keys that the monitor was told, the first one first. -/
  published : List String := []
  deriving DecidableEq, Repr

/-- A computation on a workspace that may be refused on its way. -/
abbrev Handler (α : Type) := ExceptT RoutingError (StateM Workspace) α

namespace Handler

variable {α β : Type}

/-- What a handler comes to on a workspace, and the workspace that it leaves behind. -/
def on (handler : Handler α) (work : Workspace) : Except RoutingError α × Workspace :=
  handler.run.run work

def changeRegistry (change : Registry → Registry) : Handler Unit :=
  modify fun work => { work with registry := change work.registry }

def changeSession (change : Session → Session) : Handler Unit :=
  modify fun work => { work with session := change work.session }

/-- Tells the monitor that a message was published under a key. -/
def notify (key : String) : Handler Unit :=
  modify fun work => { work with published := work.published ++ [key] }

/-- What is there, or else a refusal. -/
def required (error : RoutingError) : Option α → Handler α
  | some found => pure found
  | none => throw error

theorem on_bind (first : Handler α) (next : α → Handler β) (work : Workspace) :
    (first >>= next).on work =
      match first.on work with
      | (.ok found, after) => (next found).on after
      | (.error error, after) => (.error error, after) := by
  simp only [on, ExceptT.run_bind, StateT.run_bind]
  cases h : StateT.run (ExceptT.run first) work with
  | mk r after => cases r <;> rfl

@[simp] theorem on_pure (found : α) (work : Workspace) :
    (pure found : Handler α).on work = (.ok found, work) := rfl

@[simp] theorem on_throw (error : RoutingError) (work : Workspace) :
    (throw error : Handler α).on work = (.error error, work) := rfl

@[simp] theorem on_get (work : Workspace) :
    (get : Handler Workspace).on work = (.ok work, work) := rfl

@[simp] theorem on_changeRegistry (change : Registry → Registry) (work : Workspace) :
    (changeRegistry change).on work = (.ok (), { work with registry := change work.registry }) :=
  rfl

@[simp] theorem on_changeSession (change : Session → Session) (work : Workspace) :
    (changeSession change).on work = (.ok (), { work with session := change work.session }) := rfl

@[simp] theorem on_notify (key : String) (work : Workspace) :
    (notify key).on work = (.ok (), { work with published := work.published ++ [key] }) := rfl

theorem on_map (change : α → β) (first : Handler α) (work : Workspace) :
    (change <$> first).on work =
      match first.on work with
      | (.ok found, after) => (.ok (change found), after)
      | (.error error, after) => (.error error, after) := by
  rw [map_eq_pure_bind, on_bind]
  rfl

/-- The exchange with a name, whatever its kind, which is entered if there is none. -/
def entry (kind : ExchangeKind) (name : String) : Handler ExchangeId := do
  let registry := (← get).registry
  match registry.exchange? name with
  | some exchange => return exchange
  | none =>
    changeRegistry fun registry =>
      { registry with exchanges := registry.exchanges ++ [.fresh name kind] }
    return registry.exchanges.length

/-- The exchange with a name. It is refused if it has another kind than the one asked for. -/
def exchangeOf (kind : ExchangeKind) (name : String) : Handler ExchangeId := do
  let exchange ← entry kind name
  let found := (← get).registry.exchanges[exchange]?.map (·.kind)
  if found ≠ some kind then throw (.kindConflict name)
  return exchange

/-- The queue with a name, which is entered, and bound to the default exchange after that, if there
is none. -/
def queueOf (name : String) : Handler QueueId := do
  let registry := (← get).registry
  match registry.queue? name with
  | some queue => return queue
  | none =>
    let queue := registry.queues.length
    changeRegistry fun registry => { registry with queues := registry.queues ++ [.fresh name] }
    changeRegistry fun registry => registry.bind Registry.defaultExchange name queue
    return queue

def exchange : List String → Handler String
  | [_, kind, name] => do
    let kind ← required (.invalidKind kind) (ExchangeKind.parse? kind)
    let exchange ← exchangeOf kind name
    changeSession fun session => { session with exchange := some exchange }
    return okReply
  | _ => return "error usage: exchange <type> <name>"

def queue : List String → Handler String
  | [_, name] => do
    let queue ← queueOf name
    changeSession fun session => { session with queue := some queue }
    return okReply
  | _ => return "error usage: queue <name>"

def bind : List String → Handler String
  | [_, key] => do
    let session := (← get).session
    let exchange ← required .noExchange session.exchange
    let queue ← required .noQueue session.queue
    changeRegistry fun registry => registry.bind exchange key queue
    return okReply
  | _ => return "error usage: bind <binding-key>"

def publish : List String → Handler String
  | _ :: key :: word :: more => do
    let exchange ← required .noExchange (← get).session.exchange
    changeRegistry fun registry => registry.publish exchange key (Text.joinWords (word :: more))
    notify key
    return okReply
  | _ => return "error usage: publish <routing-key> <message>"

def subscribe : Handler Unit := do
  let queue ← required .noQueue (← get).session.queue
  changeSession fun session => { session with subscription := some { queue } }

/-- Carries out a line: the words of an idle session go to the handler that the first of them names,
and a subscribed session listens to `stop` only. -/
def line (text : String) : Handler (Option String) := do
  let parts := Text.words text
  let command := parts.head?.getD ""
  if (← get).session.isSubscribed then
    if command = "stop" then changeSession Session.stop
    return none
  match command with
  | "exchange" => some <$> exchange parts
  | "queue" => some <$> queue parts
  | "bind" => some <$> bind parts
  | "publish" => some <$> publish parts
  | "subscribe" =>
    subscribe
    return none
  | "exit" =>
    changeSession fun session => { session with finished := true }
    return some "ok bye"
  | _ => return some "error usage: <command> <args>"

/-- The reply that a computation comes to: a refusal is reported by its message. -/
def reported : Except RoutingError (Option String) × Workspace → Option String × Workspace
  | (.ok reply, work) => (reply, work)
  | (.error error, work) => (some error.message, work)

end Handler

/-- The reply to a line, if any, and the workspace that its handler leaves behind, refused or
not. -/
def Workspace.carryOut (work : Workspace) (text : String) : Option String × Workspace :=
  Handler.reported ((Handler.line text).on work)

end BrokerCluster.Messaging
