import BrokerCluster.Election.Heartbeat

/-!
# A leader and one peer

The lines that a leader and one of its peers write to each other, on one link after another. What
happens between the two is open: it is a schedule, of which as much is used up as the leader waits
for. The peer greets the leader once on each link and answers each of its lines at most once, at any
time or never, and with any text. While the leader waits, anything may lapse: the peer or the link
fails, or the time is up.

A line of the peer stays on its link until it is read, so one that comes late is not lost. It is up
to the leader not to take it for an answer to another line.
-/
namespace BrokerCluster.Election

/-- A line of the peer, and which of the leader's lines it answers; a greeting answers none. -/
structure Reply where
  answers : Option Nat
  text : String
  deriving DecidableEq, Repr

/-- What is on its way on a link. -/
structure Traffic where
  isGreeted : Bool
  /-- The leader's lines that the peer has not answered. -/
  owed : List Nat
  /-- The peer's lines that the leader has not read. -/
  unread : List Reply
  deriving DecidableEq, Repr

namespace Traffic

def fresh : Traffic := ⟨false, [], []⟩

def greet (text : String) (traffic : Traffic) : Traffic :=
  if traffic.isGreeted then traffic
  else { traffic with isGreeted := true, unread := traffic.unread ++ [⟨none, text⟩] }

def answer (line : Nat) (text : String) (traffic : Traffic) : Traffic :=
  if line ∈ traffic.owed then
    { traffic with
      owed := traffic.owed.erase line
      unread := traffic.unread ++ [⟨some line, text⟩] }
  else traffic

end Traffic

/-- What may happen between a leader and its peer. Links and lines have numbers, in the order in
which there come to be any. -/
inductive Happening where
  /-- The peer accepts a link that the leader is opening. -/
  | accepts
  /-- What the leader waits for does not come. -/
  | lapses
  | greets (link : Nat) (text : String)
  | answers (link line : Nat) (text : String)
  /-- The leader looks whether it still leads. -/
  | looks (leads : Bool)
  deriving DecidableEq, Repr

/-- What the leader does on its links. -/
inductive Note where
  | opened (link : Nat)
  | wrote (link line : Nat) (text : String)
  | read (link : Nat) (reply : Reply)
  | closed (link : Nat)
  deriving DecidableEq, Repr

/-- All links of a leader to a peer, and what is still to happen. -/
structure Correspondence where
  future : List Happening
  links : List Traffic := []
  /-- How many lines the leader wrote. -/
  lines : Nat := 0
  /-- What the leader did, the last thing at the end. -/
  notes : List Note := []
  deriving DecidableEq, Repr

namespace Correspondence

/-- What a happening changes on the links. The peer neither greets twice nor answers what it was not
asked. -/
def happen : Happening → List Traffic → List Traffic
  | .greets link text, links => links.modify link (Traffic.greet text)
  | .answers link line text, links => links.modify link (Traffic.answer line text)
  | .accepts, links | .lapses, links | .looks _, links => links

/-- Waits until something happens that is an outcome; the outcome is negative if nothing ever is. -/
def await (outcome? : Happening → Option Bool) :
    List Happening → List Traffic → Bool × List Happening × List Traffic
  | [], links => (false, [], links)
  | happening :: rest, links =>
    match outcome? happening with
    | some outcome => (outcome, rest, links)
    | none => await outcome? rest (happen happening links)

/-- The first line on a link that was not read, and the links without it. -/
def take? (link : Nat) (links : List Traffic) : Option (Reply × List Traffic) :=
  match links[link]? with
  | some ⟨isGreeted, owed, reply :: rest⟩ => some (reply, links.set link ⟨isGreeted, owed, rest⟩)
  | _ => none

def awaitLine (link : Nat) (future : List Happening) (links : List Traffic) :
    Option Reply × List Happening × List Traffic :=
  match take? link links with
  | some (reply, links) => (some reply, future, links)
  | none =>
    match future with
    | [] => (none, [], links)
    | happening :: rest =>
      if happening = .lapses then (none, rest, links)
      else awaitLine link rest (happen happening links)

def isAccepted? : Happening → Option Bool
  | .accepts => some true
  | .lapses => some false
  | _ => none

def leads? : Happening → Option Bool
  | .looks leads => some leads
  | _ => none

/-- The leader opens a link and waits for the greeting. A link without one is closed. -/
def connect (world : Correspondence) : Option Nat × Correspondence :=
  match await isAccepted? world.future world.links with
  | (false, future, links) => (none, { world with future, links })
  | (true, future, links) =>
    let link := links.length
    let opened := world.notes ++ [.opened link]
    match awaitLine link future (links ++ [.fresh]) with
    | (some _, future, links) => (some link, { world with future, links, notes := opened })
    | (none, future, links) =>
      (none, { world with future, links, notes := opened ++ [.closed link] })

/-- The leader writes a line on a link and waits for the next line there. -/
def request (link : Nat) (text : String) (world : Correspondence) :
    Option (String × Nat) × Correspondence :=
  let line := world.lines
  let asked := world.links.modify link fun traffic =>
    { traffic with owed := traffic.owed ++ [line] }
  let wrote := world.notes ++ [.wrote link line text]
  match awaitLine link world.future asked with
  | (some reply, future, links) =>
    (some (reply.text, link),
      { future, links, lines := line + 1, notes := wrote ++ [.read link reply] })
  | (none, future, links) => (none, { future, links, lines := line + 1, notes := wrote })

def close (link : Nat) (world : Correspondence) : Correspondence :=
  { world with notes := world.notes ++ [.closed link] }

def look (world : Correspondence) : Bool × Correspondence :=
  let (leads, future, links) := await leads? world.future world.links
  (leads, { world with future, links })

/-- How the leader reaches its peer. A link is its number. -/
def reach : Links (StateM Correspondence) Nat where
  connect := modifyGet connect
  request link line := modifyGet (request link line)
  close link := modify (close link)

def keepAlive (rounds : Nat) (link : Option Nat) : StateM Correspondence Unit :=
  reach.keepAlive (modifyGet look) rounds link

end Correspondence

end BrokerCluster.Election
