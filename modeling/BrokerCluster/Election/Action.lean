import BrokerCluster.Election.Peers

/-!
# Actions

An action is what a broker sets out to do in an election: changes to its own
status, questions to peers and registrations with the name service, in order,
where what follows a question may depend on the reply. An action says nothing about
when its steps happen; it can be run alone, inside a cluster, or step by step
between the steps of other actions.
-/
namespace BrokerCluster.Election

/-- Something that a broker does, which ends with a result. -/
inductive Action (α : Type) where
  /-- Nothing is left to do. -/
  | done (result : α)
  /-- Changes the broker's own status and goes on with what it was before. -/
  | update (change : Status → Status) (next : Status → Action α)
  /-- Sends a line to a peer and goes on with the reply, if one came. -/
  | ask (peer : Peer) (line : String) (next : Option String → Action α)
  /-- Registers an address for a name and goes on whether or not that succeeds. -/
  | register (name address : String) (next : Action α)

namespace Action

def bind {α β : Type} : Action α → (α → Action β) → Action β
  | done result, f => f result
  | update change next, f => update change fun before => (next before).bind f
  | ask peer line next, f => ask peer line fun reply => (next reply).bind f
  | register name address next, f => register name address (next.bind f)

instance : Monad Action where
  pure := done
  bind := bind

theorem bind_done {α : Type} (action : Action α) : action.bind done = action := by
  induction action with
  | done => rfl
  | update change next ih => simp [bind, ih]
  | ask peer line next ih => simp [bind, ih]
  | register name address next ih => simp [bind, ih]

theorem bind_assoc {α β γ : Type} (action : Action α) (f : α → Action β) (g : β → Action γ) :
    (action.bind f).bind g = action.bind fun a => (f a).bind g := by
  induction action with
  | done => rfl
  | update change next ih => simp [bind, ih]
  | ask peer line next ih => simp [bind, ih]
  | register name address next ih => simp [bind, ih]

instance : LawfulMonad Action :=
  LawfulMonad.mk' Action bind_done (fun _ _ => rfl) bind_assoc

def change (f : Status → Status) : Action Unit := update f fun _ => done ()

def access {α : Type} (f : Status → Status × α) : Action α :=
  update (fun status => (f status).1) fun before => done (f before).2

def current : Action Status := update id done

def askPeer : AskPeer Action := fun peer line => ask peer line done

def registerName (name address : String) : Action Unit := register name address (done ())

/-- How the steps of an action are carried out. -/
structure Interpreter (m : Type → Type) where
  /-- Changes the status and gives what it was before. -/
  update : (Status → Status) → m Status
  ask : AskPeer m
  register : (name address : String) → m Unit

/-- Carries out an action from its first step to its last. -/
def run {m : Type → Type} [Monad m] (interpreter : Interpreter m) {α : Type} : Action α → m α
  | done result => pure result
  | update change next => do
    let before ← interpreter.update change
    (next before).run interpreter
  | ask peer line next => do
    let reply ← interpreter.ask peer line
    (next reply).run interpreter
  | register name address next => do
    interpreter.register name address
    next.run interpreter

end Action

end BrokerCluster.Election
