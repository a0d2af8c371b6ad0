import BrokerCluster.Text.Quoted

/-!
# Queues

A queue is the list of its pending messages, the next one first. Publishing adds
at the end. A message that was taken and could not be delivered goes back to the
front, ahead of all that is pending.
-/
namespace BrokerCluster.Routing

structure Queue where
  name : String
  pending : List String
  deriving DecidableEq, Repr

namespace Queue

def fresh (name : String) : Queue := ⟨name, []⟩

def put (queue : Queue) (message : String) : Queue :=
  { queue with pending := queue.pending ++ [message] }

/-- Puts a message back at the front. -/
def requeue (queue : Queue) (message : String) : Queue :=
  { queue with pending := message :: queue.pending }

def take? (queue : Queue) : Option (String × Queue) :=
  match queue.pending with
  | [] => none
  | message :: rest => some (message, { queue with pending := rest })

def drained (queue : Queue) : Queue := { queue with pending := [] }

/-- A short description: name and number of messages. -/
def describe (queue : Queue) : String :=
  "Queue \x7b name: " ++ Text.quote queue.name ++ ", pending: " ++ toString queue.pending.length ++ " \x7d"

@[simp] theorem pending_put (queue : Queue) (message : String) :
    (queue.put message).pending = queue.pending ++ [message] := rfl

@[simp] theorem name_put (queue : Queue) (message : String) :
    (queue.put message).name = queue.name := rfl

@[simp] theorem pending_requeue (queue : Queue) (message : String) :
    (queue.requeue message).pending = message :: queue.pending := rfl

theorem take?_eq_some_iff {queue rest : Queue} {message : String} :
    queue.take? = some (message, rest) ↔ queue = rest.requeue message := by
  cases queue with
  | mk name pending =>
    cases pending with
    | nil => simp [take?, requeue]
    | cons m ms =>
      cases rest
      simp [take?, requeue, and_left_comm]

end Queue

end BrokerCluster.Routing
