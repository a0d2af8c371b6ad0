import BrokerCluster.Election.Members

/-!
# A cluster in which everything happens at once

Requests, replies and what follows from them are tasks, any number of which may be
under way, and each step takes up any one of them. A step changes the status of one
broker in one way, or moves a request or a reply. A broker that is down refuses
requests; there are no timeouts.
-/
namespace BrokerCluster.Election

/-- Who waits for a reply, and how it goes on from there. -/
inductive Asker where
  | nobody
  /-- A broker that is at something itself, for which in turn someone may wait. -/
  | broker (owner : BrokerId) (next : Option String → Action Answer) (asker : Asker)

/-- Something under way. -/
inductive Task where
  /-- A broker is at something. -/
  | running (owner : BrokerId) (rest : Action Answer) (asker : Asker)
  /-- A line is on its way to a broker. -/
  | request (receiver : BrokerId) (line : String) (asker : Asker)
  /-- A reply, or the news that there is none, is on its way back. -/
  | reply (text : Option String) (asker : Asker)

/-- An action for which nobody waits. -/
def Action.unheard (action : Action Unit) : Action Answer :=
  action.bind fun _ => done { reply := none }

namespace Task

/-- What a broker sets out to do on its own. -/
def onItsOwn (owner : BrokerId) (action : Action Unit) : Task := running owner action.unheard .nobody

/-- One step of a task at time `now`: the brokers after, and what the task has become. -/
def step (now : Int) (brokers : Brokers) : Task → Brokers × List Task
  | running owner rest asker =>
    match rest, brokers.member? owner with
    | _, none => (brokers, [])
    | .done answer, some member =>
      (brokers, reply answer.reply asker ::
        answer.followUp.toList.map fun followUp => onItsOwn owner (member.seat.complete followUp))
    | .update change next, some member =>
      (brokers.updateStatus owner change, [running owner (next member.status) asker])
    | .ask peer line next, some _ => (brokers, [request peer.id line (.broker owner next asker)])
    | .register name address next, some _ =>
      (brokers.register name address, [running owner next asker])
  | request receiver line asker =>
    match (brokers.member? receiver).filter (·.isUp) with
    | some member => (brokers, [running receiver (member.seat.answer now (.ofLine line)) asker])
    | none => (brokers, [reply none asker])
  | reply _ .nobody => (brokers, [])
  | reply text (.broker owner next asker) => (brokers, [running owner (next text) asker])

end Task

/-- The brokers of a cluster and all that is under way among them. -/
structure Net where
  brokers : Brokers
  tasks : List Task := []

namespace Net

/-- What happens next. -/
inductive Move where
  | initiate (id : BrokerId)
  | step (task : Nat) (now : Int)
  deriving DecidableEq, Repr

/-- A broker that is down starts nothing. -/
def move (net : Net) : Move → Net
  | .initiate id =>
    match (net.brokers.member? id).filter (·.isUp) with
    | some member => { net with tasks := net.tasks ++ [.onItsOwn id member.seat.initiate] }
    | none => net
  | .step index now =>
    match net.tasks[index]? with
    | some task =>
      let (brokers, after) := task.step now net.brokers
      { brokers, tasks := net.tasks.eraseIdx index ++ after }
    | none => net

def play (net : Net) (moves : List Move) : Net := moves.foldl move net

end Net

end BrokerCluster.Election
