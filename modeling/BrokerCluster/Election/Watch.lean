import BrokerCluster.Election.Session

/-!
# A broker whose monitor watches its leader

Requests and looks at the clock come at their times, in any order. Whatever the broker
sets out to do goes on without a break up to its next question or registration. There it
waits, however long that takes, while other things happen. So any number of elections,
replies and announcements may be under way at once.
-/
namespace BrokerCluster.Election

/-- Makes the changes with which an action begins: the status after them, and the rest of the action,
which is at its end or waits for something. -/
def Action.advance {α : Type} : Action α → Status → Status × Action α
  | update change next, status => (next status).advance (change status)
  | action, status => (status, action)

/-- A broker's status and what is under way. -/
structure Watch where
  status : Status
  /-- What was begun, in order; each ends with what it leaves to be done. -/
  tasks : List (Action (Option FollowUp)) := []

namespace Watch

def fresh (start : Int) : Watch := { status := .fresh start }

inductive Event where
  /-- The monitor looks at the clock. -/
  | poll (now : Int)
  | request (request : Request) (now : Int)
  | initiate
  /-- Something under way goes on: with a reply, if it asked a question and one came. -/
  | resume (task : Nat) (reply : Option String)
  deriving DecidableEq, Repr

/-- What a task does once it no longer waits. At its end it turns to what it has left to be done. -/
def goOn (seat : Seat) (reply : Option String) :
    Action (Option FollowUp) → Action (Option FollowUp)
  | .ask _ _ next => next reply
  | .register _ _ next => next
  | .done (some followUp) => do
    seat.complete followUp
    return none
  | task => task

/-- Begins something with a result; gives what is left of it too. -/
def setOut {α : Type} (watch : Watch) (action : Action α) (followUp? : α → Option FollowUp) :
    Watch × Action α :=
  let (status, rest) := action.advance watch.status
  ({ status, tasks := watch.tasks ++ [followUp? <$> rest] }, rest)

/-- Whether a poll starts an election, by what is left of it: one that has to wait has started one. -/
def hasStarted : Action Bool → Bool
  | .done started => started
  | _ => true

/-- One event, and whether it was a poll that started an election. -/
def handle (seat : Seat) (timeout : UInt64) (watch : Watch) : Event → Watch × Bool
  | .poll now =>
    let (after, rest) := watch.setOut (seat.poll timeout now) fun _ => none
    (after, hasStarted rest)
  | .request request now => ((watch.setOut (seat.answer now request) (·.followUp)).1, false)
  | .initiate => ((watch.setOut seat.initiate fun _ => none).1, false)
  | .resume index reply =>
    match watch.tasks[index]? with
    | some task =>
      let (status, rest) := (goOn seat reply task).advance watch.status
      ({ status, tasks := watch.tasks.set index rest }, false)
    | none => (watch, false)

def play (seat : Seat) (timeout : UInt64) (watch : Watch) (events : List Event) : Watch :=
  events.foldl (fun watch event => (watch.handle seat timeout event).1) watch

end Watch

end BrokerCluster.Election
