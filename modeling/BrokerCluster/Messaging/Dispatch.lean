import BrokerCluster.Messaging.Service

/-!
# A queue and its subscribers, step by step

Any number of subscribers may draw on one queue, each in a loop of its own. A
subscriber first tells its client that it is subscribed. Then it takes one message
after another and writes it, and between the two anything else may happen to the
queue. A message that cannot be written goes back to the front, and the subscriber
leaves. A subscriber is told to stop only while it waits for a message.
-/
namespace BrokerCluster.Messaging

open Routing

/-- What a subscriber is at. -/
inductive Stage where
  /-- Its client is being told that it is subscribed. -/
  | joining
  | waiting
  /-- A message that it took is being written. -/
  | holding (message : String)
  deriving DecidableEq, Repr

def Stage.message? : Stage → Option String
  | holding message => some message
  | joining | waiting => none

/-- A queue and the subscribers that are attached to it, each known by its client. -/
structure Dispatch where
  queue : Queue
  subscribers : List (ClientId × Stage) := []
  deriving DecidableEq, Repr

namespace Dispatch

/-- What can happen next. -/
inductive Step where
  | publish (message : String)
  /-- A client subscribes. -/
  | join (client : ClientId)
  /-- A subscriber that waits takes the first message. -/
  | take (client : ClientId)
  /-- What a subscriber was writing is written. -/
  | complete (client : ClientId)
  /-- What a subscriber was writing cannot be written. -/
  | fail (client : ClientId)
  /-- A subscriber that waits is told to stop. -/
  | cancel (client : ClientId)
  deriving DecidableEq, Repr

def stage? (dispatch : Dispatch) (client : ClientId) : Option Stage :=
  dispatch.subscribers.lookup client

def setStage (dispatch : Dispatch) (client : ClientId) (stage : Stage) : Dispatch :=
  { dispatch with
    subscribers := dispatch.subscribers.map fun entry =>
      if entry.1 = client then (client, stage) else entry }

/-- The subscriber of a client is no longer attached. -/
def leave (dispatch : Dispatch) (client : ClientId) : Dispatch :=
  { dispatch with subscribers := dispatch.subscribers.filter fun entry => entry.1 != client }

/-- One step, and the message that is delivered by it, with the client that gets it. What is not
possible changes nothing. -/
def step (dispatch : Dispatch) : Step → Dispatch × List (ClientId × String)
  | .publish message => ({ dispatch with queue := dispatch.queue.put message }, [])
  | .join client =>
    match dispatch.stage? client with
    | none => ({ dispatch with subscribers := dispatch.subscribers ++ [(client, .joining)] }, [])
    | some _ => (dispatch, [])
  | .take client =>
    match dispatch.stage? client, dispatch.queue.take? with
    | some .waiting, some (message, queue) =>
      ({ dispatch with queue }.setStage client (.holding message), [])
    | _, _ => (dispatch, [])
  | .complete client =>
    match dispatch.stage? client with
    | some .joining => (dispatch.setStage client .waiting, [])
    | some (.holding message) => (dispatch.setStage client .waiting, [(client, message)])
    | _ => (dispatch, [])
  | .fail client =>
    match dispatch.stage? client with
    | some .joining => (dispatch.leave client, [])
    | some (.holding message) =>
      ({ dispatch with queue := dispatch.queue.requeue message }.leave client, [])
    | _ => (dispatch, [])
  | .cancel client =>
    match dispatch.stage? client with
    | some .waiting => (dispatch.leave client, [])
    | _ => (dispatch, [])

/-- Steps one after another, and all that is delivered by them, in order. -/
def play (dispatch : Dispatch) : List Step → Dispatch × List (ClientId × String)
  | [] => (dispatch, [])
  | next :: rest =>
    let (dispatch, delivered) := dispatch.step next
    let (dispatch, later) := dispatch.play rest
    (dispatch, delivered ++ later)

def fresh (name : String) : Dispatch := { queue := .fresh name }

/-- The messages that subscribers hold. -/
def held (dispatch : Dispatch) : List String :=
  dispatch.subscribers.filterMap fun entry => entry.2.message?

end Dispatch

end BrokerCluster.Messaging
