import BrokerCluster.Election.Interleaving
import BrokerCluster.Proofs.Election.Agreement
import BrokerCluster.Proofs.Election.Requests

/-!
# The stages of an election in `bully` mode

Whatever is under way in such an election is at one of a few stages: a broker
changes its status, asks its peers one after another, or answers; or a request or
a reply is on its way. The stages say what the tasks stand for, and they step as
the tasks do.
-/
namespace BrokerCluster.Election

inductive Purpose where
  | challenge
  | announce

/-- A broker that asks its peers one after another, and those that it has yet to ask. -/
structure Errand where
  purpose : Purpose
  seat : Seat
  rest : List Peer

namespace Errand

def line (errand : Errand) : String :=
  match errand.purpose with
  | .challenge => electLine errand.seat.id
  | .announce => declareLine errand.seat.id

def action (errand : Errand) : Action Answer :=
  match errand.purpose with
  | .challenge => Action.unheard do
    unless ← askUntil Action.askPeer errand.line acceptReply errand.rest do
      errand.seat.becomeLeader
  | .announce => Action.unheard do
    discard <| askAll Action.askPeer errand.line "ack" errand.rest
    errand.seat.registerDomain

/-- Whether a reply ends the errand: one peer that takes a challenge up is enough. -/
def isOver (errand : Errand) (reply : Option String) : Bool :=
  match errand.purpose with
  | .challenge => isExpected acceptReply reply
  | .announce => false

def next (errand : Errand) (reply : Option String) : Action Answer :=
  if errand.isOver reply then .done { reply := none } else errand.action

def asker (errand : Errand) : Asker := .broker errand.seat.id errand.next .nobody

/-- The changes that a request brings about at the broker that receives it. -/
def changes (errand : Errand) : List Change :=
  match errand.purpose with
  | .challenge => [.leader nobody, .role .candidate]
  | .announce => [.role .follower, .leader errand.seat.id]

def answer (errand : Errand) (receiver : Seat) : Answer :=
  match errand.purpose with
  | .challenge =>
    { reply := some acceptReply
      followUp := if errand.seat.id < receiver.id then some .challengeHigher else none }
  | .announce => { reply := some (ackReply receiver.id) }

end Errand

/-- What a broker is about to do once its status is changed. -/
inductive Aim where
  | ask (purpose : Purpose) (rest : List Peer)
  | answer (errand : Errand)
  | nothing

namespace Aim

def action (owner : Seat) : Aim → Action Answer
  | ask purpose rest => Errand.action ⟨purpose, owner, rest⟩
  | answer errand => .done (errand.answer owner)
  | nothing => .done { reply := none }

def asker : Aim → Asker
  | answer errand => errand.asker
  | ask .. | nothing => .nobody

end Aim

inductive Stage where
  /-- A broker changes its status and goes on to its aim. -/
  | change (owner : Seat) (changes : List Change) (aim : Aim)
  | request (receiver : BrokerId) (errand : Errand)
  | reply (text : Option String) (errand : Errand)
  | finished

/-- The peers that a broker challenges. -/
def Seat.higher (seat : Seat) : List Peer := seat.peers.filter fun peer => seat.id < peer.id

namespace Stage

def task : Stage → Task
  | change owner changes aim => .running owner.id (Change.before changes (aim.action owner)) aim.asker
  | request receiver errand => .request receiver errand.line errand.asker
  | reply text errand => .reply text errand.asker
  | finished => .reply none .nobody

def start (owner : Seat) : Stage :=
  change owner [.role .candidate, .leader nobody] (.ask .challenge owner.higher)

def step (brokers : Brokers) : Stage → Brokers × List Stage
  | change owner (first :: later) aim =>
    (brokers.updateStatus owner.id first.apply, [change owner later aim])
  | change owner [] (.ask purpose (peer :: rest)) =>
    (brokers, [request peer.id ⟨purpose, owner, rest⟩])
  | change owner [] (.ask .challenge []) =>
    (brokers.updateStatus owner.id (Change.role .leader).apply,
      [change owner [.leader owner.id] (.ask .announce owner.peers)])
  | change owner [] (.ask .announce []) =>
    match owner.registration with
    | none => (brokers, [finished])
    | some r => (brokers.register r.electionDomain r.address, [change owner [] .nothing])
  | change owner [] (.answer errand) =>
    (brokers, reply (errand.answer owner).reply errand ::
      (errand.answer owner).followUp.toList.map fun _ => change owner [] (.ask .challenge owner.higher))
  | change _ [] .nothing => (brokers, [finished])
  | request receiver errand =>
    match (brokers.member? receiver).filter (·.isUp) with
    | some member => (brokers, [change member.seat errand.changes (.answer errand)])
    | none => (brokers, [reply none errand])
  | reply text errand =>
    (brokers, [change errand.seat []
      (if errand.isOver text then .nothing else .ask errand.purpose errand.rest)])
  | finished => (brokers, [])

end Stage

theorem askUntil_cons (line expected : String) (peer : Peer) (rest : List Peer) :
    askUntil Action.askPeer line expected (peer :: rest) = .ask peer line fun reply =>
      if isExpected expected reply then .done true
      else askUntil Action.askPeer line expected rest := rfl

theorem askAll_cons_bind (line expected : String) (peer : Peer) (rest : List Peer)
    (after : Action Answer) :
    (askAll Action.askPeer line expected (peer :: rest)).bind (fun _ => after) =
      .ask peer line fun _ => (askAll Action.askPeer line expected rest).bind fun _ => after := by
  refine congrArg (Action.ask peer line) (funext fun reply => ?_)
  exact Action.bind_assoc (askAll Action.askPeer line expected rest) _ _

namespace Errand

theorem action_challenge (seat : Seat) (rest : List Peer) :
    action ⟨.challenge, seat, rest⟩ =
      (askUntil Action.askPeer (electLine seat.id) acceptReply rest).bind fun accepted =>
        if accepted then .done { reply := none } else seat.becomeLeader.unheard := by
  refine (Action.bind_assoc _ _ _).trans (congrArg _ (funext fun accepted => ?_))
  cases accepted <;> rfl

theorem action_announce (seat : Seat) (rest : List Peer) :
    action ⟨.announce, seat, rest⟩ =
      (askAll Action.askPeer (declareLine seat.id) "ack" rest).bind fun _ =>
        seat.registerDomain.unheard := by
  refine (Action.bind_assoc _ _ _).trans ?_
  exact Action.bind_assoc (askAll Action.askPeer (declareLine seat.id) "ack" rest) _ _

theorem action_cons (purpose : Purpose) (seat : Seat) (peer : Peer) (rest : List Peer) :
    action ⟨purpose, seat, peer :: rest⟩ =
      .ask peer (line ⟨purpose, seat, rest⟩) (next ⟨purpose, seat, rest⟩) := by
  cases purpose with
  | challenge =>
    rw [action_challenge, askUntil_cons]
    refine congrArg (Action.ask peer _) (funext fun reply => ?_)
    simp only [next, isOver, action_challenge]
    cases isExpected acceptReply reply <;> rfl
  | announce =>
    rw [action_announce, askAll_cons_bind]
    refine congrArg (Action.ask peer _) (funext fun reply => ?_)
    exact (action_announce seat rest).symm

theorem action_challenge_nil {seat : Seat} (hmode : seat.mode = .bully) :
    action ⟨.challenge, seat, []⟩ =
      Change.before [.role .leader, .leader seat.id] (action ⟨.announce, seat, seat.peers⟩) := by
  have hdeclare : seat.declareLeader = (do
      discard <| askAll Action.askPeer (declareLine seat.id) "ack" seat.peers
      seat.registerDomain) := by
    simp only [Seat.declareLeader, hmode]
  rw [action_challenge]
  simp only [Seat.becomeLeader, hdeclare]
  rfl

theorem action_announce_nil {seat : Seat} (hmode : seat.mode = .bully) :
    action ⟨.announce, seat, []⟩ =
      match seat.registration with
      | none => .done { reply := none }
      | some r => .register r.electionDomain r.address (.done { reply := none }) := by
  rw [action_announce, Seat.registerDomain, hmode]
  cases seat.registration <;> rfl

/-- An answer leaves nothing to do but to challenge in turn. -/
theorem followUp_answer (errand : Errand) (receiver : Seat) {followUp : FollowUp}
    (h : (errand.answer receiver).followUp = some followUp) :
    followUp = .challengeHigher ∧ errand.purpose = .challenge ∧ errand.seat.id < receiver.id := by
  obtain ⟨purpose, seat, rest⟩ := errand
  cases purpose with
  | announce => cases h
  | challenge =>
    simp only [answer] at h
    split at h
    · next hlt => exact ⟨(Option.some.inj h).symm, rfl, hlt⟩
    · cases h

end Errand

/-- An election that is started is a task at a stage. -/
theorem Seat.onItsOwn_initiate {seat : Seat} (hmode : seat.mode = .bully) :
    Task.onItsOwn seat.id seat.initiate = (Stage.start seat).task := by
  have hinitiate : seat.initiate = (do
      Action.change (·.withRole .candidate)
      Action.change Status.forgetLeader
      seat.challengeHigher) := by
    simp only [Seat.initiate, hmode]
  rw [Task.onItsOwn, hinitiate]
  rfl

/-- What a broker answers to an errand is a change of its status and then a reply, with nothing in
between. -/
theorem Seat.answer_line {seat : Seat} (hmode : seat.mode = .bully) (now : Int) (errand : Errand) :
    seat.answer now (.ofLine errand.line) =
      Change.before errand.changes (.done (errand.answer seat)) := by
  obtain ⟨purpose, sender, rest⟩ := errand
  cases purpose with
  | challenge =>
    simp only [Errand.line, ofLine_electLine, Seat.answer, Seat.respond, hmode]
    rfl
  | announce =>
    simp only [Errand.line, ofLine_declareLine, Seat.answer, Seat.acknowledge, hmode]
    rfl

/-- A broker that is at something is one of the cluster's, and up. -/
def Stage.IsSeated (roster : Roster) : Stage → Prop
  | change owner _ _ => (owner, true) ∈ roster
  | request .. | reply .. | finished => True

/-- Tasks step as the stages that they stand for. -/
theorem Stage.step_task {brokers : Brokers} (hmesh : brokers.roster.IsFullMesh .bully)
    {stage : Stage} (hseated : stage.IsSeated brokers.roster) (now : Int) :
    stage.task.step now brokers = ((stage.step brokers).1, (stage.step brokers).2.map task) := by
  cases stage with
  | finished => rfl
  | reply text errand =>
    simp only [task, step, Errand.asker, Task.step, Errand.next]
    cases errand.isOver text <;> rfl
  | request receiver errand =>
    cases hfound : (brokers.member? receiver).filter (·.isUp) with
    | none => simp only [task, step, Task.step, hfound]; rfl
    | some member =>
      obtain ⟨hmember, rfl⟩ := Brokers.isUp_of_filter_eq_some hfound
      have hmode : member.seat.mode = .bully := hmesh.mode_eq _ hmember
      simp only [task, step, Task.step, hfound, Seat.answer_line hmode]
      rfl
  | change owner changes aim =>
    obtain ⟨member, hfound, hseat, -⟩ := Brokers.member?_of_mem_roster hmesh.nodup hseated
    have hmode : owner.mode = .bully := hmesh.mode_eq _ hseated
    cases changes with
    | cons first later => simp only [task, step, Change.before_cons, Task.step, hfound]; rfl
    | nil =>
      cases aim with
      | nothing => simp only [task, step, Change.before_nil, Aim.action, Task.step, hfound]; rfl
      | answer errand =>
        have hfollow : (errand.answer owner).followUp.toList.map
            (fun followUp => Task.onItsOwn owner.id (member.seat.complete followUp)) =
            ((errand.answer owner).followUp.toList.map fun _ =>
              change owner [] (.ask .challenge owner.higher)).map task := by
          rw [hseat, List.map_map]
          refine List.map_congr_left fun followUp hmem => ?_
          rw [(errand.followUp_answer owner (Option.mem_toList.1 hmem)).1]
          rfl
        simp only [task, step, Change.before_nil, Aim.action, Task.step, hfound, hfollow]
        rfl
      | ask purpose rest =>
        cases rest with
        | cons peer rest =>
          simp only [task, step, Change.before_nil, Aim.action, Errand.action_cons, Task.step, hfound]
          rfl
        | nil =>
          cases purpose with
          | challenge =>
            simp only [task, step, Change.before_nil, Aim.action, Errand.action_challenge_nil hmode,
              Change.before_cons, Task.step, hfound]
            rfl
          | announce =>
            simp only [task, step, Change.before_nil, Aim.action, Errand.action_announce_nil hmode]
            cases owner.registration <;> simp only [Task.step, hfound] <;> rfl

end BrokerCluster.Election
