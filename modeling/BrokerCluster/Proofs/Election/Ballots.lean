import BrokerCluster.Election.Interleaving
import BrokerCluster.Proofs.Election.Agreement
import BrokerCluster.Proofs.Election.Requests

/-!
# Votes while nobody is announced

In `raft` mode a vote that was given stays given until an announcement arrives. So
as long as none does, every candidate that is counting has counted votes which its
voters still hold, and a candidate that is about to lead has a majority. Everything
under way is shown to be of one of a few forms, and each step keeps it so.
-/
namespace BrokerCluster.Election

namespace Brokers

def Gave (brokers : Brokers) (voter candidate : BrokerId) : Prop :=
  ∃ member ∈ brokers.members, member.seat.id = voter ∧ member.status.votedFor = candidate

/-- Some broker with this id has the role of a leader. -/
def Leads (brokers : Brokers) (id : BrokerId) : Prop :=
  ∃ member ∈ brokers.members, member.seat.id = id ∧ member.status.role = .leader

instance (brokers : Brokers) (id : BrokerId) : Decidable (brokers.Leads id) :=
  inferInstanceAs (Decidable (∃ member ∈ brokers.members,
    member.seat.id = id ∧ member.status.role = .leader))

/-- Every vote that was given before is still given after. -/
def KeepsVotes (before after : Brokers) : Prop :=
  ∀ voter candidate, candidate ≠ nobody → before.Gave voter candidate → after.Gave voter candidate

theorem KeepsVotes.refl (brokers : Brokers) : brokers.KeepsVotes brokers := fun _ _ _ h => h

theorem KeepsVotes.trans {before between after : Brokers} (hfirst : before.KeepsVotes between)
    (hsecond : between.KeepsVotes after) : before.KeepsVotes after :=
  fun voter candidate hne h => hsecond voter candidate hne (hfirst voter candidate hne h)

end Brokers

/-- A change that takes back no vote and makes nobody a leader. -/
structure IsPlain (change : Status → Status) : Prop where
  votedFor : ∀ status, status.votedFor ≠ nobody → (change status).votedFor = status.votedFor
  role : ∀ status, (change status).role = .leader → status.role = .leader

theorem isPlain_withLeader (id : BrokerId) : IsPlain (Status.withLeader id) :=
  ⟨fun _ _ => rfl, fun _ h => h⟩

theorem isPlain_withRole {role : Role} (hne : role ≠ .leader) : IsPlain (Status.withRole role) :=
  ⟨fun _ _ => rfl, fun _ h => absurd h hne⟩

theorem isPlain_vote (candidate : BrokerId) :
    IsPlain fun status => (status.vote candidate).1 := by
  constructor
  · intro status hne
    have hvoted : status.hasVoted = true := by simpa [Status.hasVoted] using hne
    simp [Status.vote, hvoted]
  · intro status h
    unfold Status.vote at h
    split at h <;> exact h

/-- A voter names the candidate that has its vote. -/
theorem votedFor_vote (status : Status) (candidate : BrokerId) :
    (status.vote candidate).1.votedFor = (status.vote candidate).2 := by
  unfold Status.vote
  split <;> rfl

namespace Brokers

/-- It is enough that a change keeps a vote that was given; who has not voted may do so. -/
theorem keepsVotes_updateStatus (brokers : Brokers) (id : BrokerId) {change : Status → Status}
    (h : ∀ status, status.votedFor ≠ nobody → (change status).votedFor = status.votedFor) :
    brokers.KeepsVotes (brokers.updateStatus id change) := by
  rintro voter candidate hne ⟨member, hmember, hid, hvote⟩
  refine ⟨_, mem_members_updateStatus.2 ⟨member, hmember, rfl⟩, ?_⟩
  split
  · have hvoted : member.status.votedFor ≠ nobody := by rw [hvote]; exact hne
    exact ⟨hid, (h member.status hvoted).trans hvote⟩
  · exact ⟨hid, hvote⟩

theorem leads_of_updateStatus {brokers : Brokers} {id other : BrokerId} {change : Status → Status}
    (hrole : ∀ status, (change status).role = .leader → status.role = .leader)
    (h : (brokers.updateStatus id change).Leads other) : brokers.Leads other := by
  obtain ⟨member, hmember, hid, hleads⟩ := h
  obtain ⟨before, hbefore, rfl⟩ := mem_members_updateStatus.1 hmember
  refine ⟨before, hbefore, ?_⟩
  by_cases hown : before.seat.id = id
  · rw [if_pos hown] at hid hleads
    exact ⟨hid, hrole before.status hleads⟩
  · rw [if_neg hown] at hid hleads
    exact ⟨hid, hleads⟩

/-- Only the broker that changes its status can become the leader by that. -/
theorem leads_or_of_updateStatus {brokers : Brokers} {id other : BrokerId}
    {change : Status → Status} (h : (brokers.updateStatus id change).Leads other) :
    brokers.Leads other ∨ other = id := by
  obtain ⟨member, hmember, hid, hleads⟩ := h
  obtain ⟨before, hbefore, rfl⟩ := mem_members_updateStatus.1 hmember
  by_cases hown : before.seat.id = id
  · rw [if_pos hown] at hid
    exact .inr (hid.symm.trans hown)
  · rw [if_neg hown] at hid hleads
    exact .inl ⟨before, hbefore, hid, hleads⟩

/-- A vote is with one candidate only. -/
theorem Gave.unique {brokers : Brokers} (hnodup : brokers.roster.ids.Nodup) {voter a b : BrokerId}
    (ha : brokers.Gave voter a) (hb : brokers.Gave voter b) : a = b := by
  obtain ⟨first, hfirst, hid, rfl⟩ := ha
  obtain ⟨second, hsecond, hother, rfl⟩ := hb
  rw [ids_roster] at hnodup
  have hsame := List.inj_on_of_nodup_map hnodup hfirst hsecond (hid.trans hother.symm)
  rw [hsame]

theorem Gave.mem_ids {brokers : Brokers} {voter candidate : BrokerId}
    (h : brokers.Gave voter candidate) : voter ∈ brokers.roster.ids := by
  obtain ⟨member, hmember, rfl, -⟩ := h
  exact List.mem_map.2 ⟨_, mem_roster hmember, rfl⟩

/-- More brokers than half of the candidate's peers have given it their vote. -/
def HasMajority (brokers : Brokers) (candidate : Seat) : Prop :=
  ∃ voters : List BrokerId, voters.Nodup ∧ candidate.peers.length / 2 < voters.length ∧
    ∀ voter ∈ voters, brokers.Gave voter candidate.id

/-- A majority is never lost again while votes are kept. -/
theorem HasMajority.mono {before after : Brokers} (hkeeps : before.KeepsVotes after)
    {candidate : Seat} (hne : candidate.id ≠ nobody) (h : before.HasMajority candidate) :
    after.HasMajority candidate := by
  obtain ⟨voters, hnodup, hmajority, hgave⟩ := h
  exact ⟨voters, hnodup, hmajority, fun voter hvoter => hkeeps _ _ hne (hgave voter hvoter)⟩

end Brokers

/-- Who the brokers are does not change by anything that is under way. -/
theorem Task.roster_step (now : Int) (brokers : Brokers) (task : Task) :
    (task.step now brokers).1.roster = brokers.roster := by
  cases task with
  | running owner rest asker =>
    simp only [step]
    split
    · rfl
    · rfl
    · exact Brokers.roster_updateStatus ..
    · rfl
    · rfl
  | request receiver line asker =>
    simp only [step]
    split <;> rfl
  | reply text asker => cases asker <;> rfl

theorem Net.roster_move (net : Net) (next : Move) :
    (net.move next).brokers.roster = net.brokers.roster := by
  cases next with
  | initiate id =>
    simp only [move]
    split <;> rfl
  | step index now =>
    simp only [move]
    split
    · next task _ => exact Task.roster_step now net.brokers task
    · rfl

theorem Net.roster_play (net : Net) (moves : List Move) :
    (net.play moves).brokers.roster = net.brokers.roster := by
  induction moves generalizing net with
  | nil => rfl
  | cons next rest ih => exact (ih (net.move next)).trans (roster_move net next)

/-- A candidate, the brokers whose votes it has counted, and the peers that it has yet to ask. -/
structure Poll where
  owner : Seat
  granted : List BrokerId
  rest : List Peer

namespace Poll

def grants (poll : Poll) (reply : Option String) : Bool := reply.any (isVoteFor · poll.owner.id)

/-- What the candidate does once it knows how many of the other votes are its own. -/
def close (poll : Poll) (others : Nat) : Action Answer :=
  if poll.owner.peers.length / 2 < poll.granted.length + others then
    poll.owner.becomeLeader.unheard
  else .done { reply := none }

def action (poll : Poll) : Action Answer :=
  (countReplies Action.askPeer (electLine poll.owner.id) poll.grants poll.rest).bind poll.close

/-- The poll after one more reply. -/
def count (poll : Poll) (voter : BrokerId) (rest : List Peer) (reply : Option String) : Poll where
  owner := poll.owner
  granted := if poll.grants reply then voter :: poll.granted else poll.granted
  rest := rest

def asker (poll : Poll) (voter : BrokerId) (rest : List Peer) : Asker :=
  .broker poll.owner.id (fun reply => (poll.count voter rest reply).action) .nobody

theorem action_nil (owner : Seat) (granted : List BrokerId) :
    action ⟨owner, granted, []⟩ = close ⟨owner, granted, []⟩ 0 := rfl

theorem action_cons (owner : Seat) (granted : List BrokerId) (peer : Peer) (rest : List Peer) :
    action ⟨owner, granted, peer :: rest⟩ =
      .ask peer (electLine owner.id) fun reply =>
        (count ⟨owner, granted, peer :: rest⟩ peer.id rest reply).action := by
  refine congrArg (Action.ask peer (electLine owner.id)) (funext fun reply => ?_)
  refine (Action.bind_assoc (countReplies Action.askPeer (electLine owner.id) _ rest) _ _).trans ?_
  refine congrArg (Action.bind _) (funext fun others => ?_)
  have hsum : granted.length + (others + 1) = granted.length + 1 + others := by omega
  change close _ (if grants ⟨owner, granted, peer :: rest⟩ reply = true then _ else _) = _
  simp only [close, count]
  split
  · rw [hsum, List.length_cons]
  · rfl

end Poll

theorem Seat.initiate_raft {seat : Seat} (hmode : seat.mode = .raft) :
    seat.initiate = Change.before [.role .candidate, .leader nobody]
      ((countReplies Action.askPeer (electLine seat.id)
        (fun reply => reply.any (isVoteFor · seat.id)) seat.peers).bind fun granted =>
          if seat.peers.length / 2 < granted then seat.becomeLeader else .done ()) := by
  have hask : ((askForVotes Action.askPeer seat.id (electLine seat.id) seat.peers).bind fun granted =>
      if granted then seat.becomeLeader else .done ()) = (countReplies Action.askPeer
        (electLine seat.id) (fun reply => reply.any (isVoteFor · seat.id)) seat.peers).bind
          fun granted => if seat.peers.length / 2 < granted then seat.becomeLeader else .done () := by
    refine (Action.bind_assoc _ _ _).trans (congrArg (Action.bind _) (funext fun granted => ?_))
    simp only [Pure.pure, Action.bind, decide_eq_true_eq]
  rw [← hask]
  simp only [Seat.initiate, hmode]
  rfl

theorem Seat.onItsOwn_initiate_raft {seat : Seat} (hmode : seat.mode = .raft) :
    Task.onItsOwn seat.id seat.initiate = .running seat.id
      (Change.before [.role .candidate, .leader nobody] (Poll.action ⟨seat, [], seat.peers⟩))
      .nobody := by
  have hpoll : Poll.action ⟨seat, [], seat.peers⟩ = Action.unheard ((countReplies Action.askPeer
      (electLine seat.id) (fun reply => reply.any (isVoteFor · seat.id)) seat.peers).bind fun granted =>
        if seat.peers.length / 2 < granted then seat.becomeLeader else .done ()) := by
    refine ((Action.bind_assoc _ _ _).trans ?_).symm
    refine congrArg (Action.bind _) (funext fun others => ?_)
    simp only [Poll.close, List.length_nil, Nat.zero_add]
    split <;> rfl
  rw [Task.onItsOwn, Seat.initiate_raft hmode, hpoll]
  rfl

/-- What a voter does at last: it gives its vote, unless it has, and names who has it. -/
def Seat.ballot (voter : Seat) (candidate : BrokerId) : Action Answer :=
  .update (fun status => (status.vote candidate).1) fun before =>
    .done { reply := some (voteReply voter.id (before.vote candidate).2) }

/-- A request for a vote first makes the voter a candidate that follows nobody, and then comes the
vote. -/
theorem Seat.answer_ballot {seat : Seat} (hmode : seat.mode = .raft) (now : Int)
    (candidate : BrokerId) :
    seat.answer now (.ofLine (electLine candidate)) =
      Change.before [.leader nobody, .role .candidate] (seat.ballot candidate) := by
  simp only [ofLine_electLine, Seat.answer, Seat.respond, hmode]
  rfl

/-- An action that only announces: it takes back no vote, makes nobody a leader and leaves nothing to
do. -/
def Action.IsQuiet : Action Answer → Prop
  | .done answer => answer.followUp = none
  | .update change next => IsPlain change ∧ ∀ status, (next status).IsQuiet
  | .ask _ line next => (∃ leader, line = declareLine leader) ∧ ∀ reply, (next reply).IsQuiet
  | .register _ _ next => next.IsQuiet

def Asker.IsQuiet : Asker → Prop
  | .nobody => True
  | .broker _ next asker => (∀ reply, (next reply).IsQuiet) ∧ asker.IsQuiet

def Task.IsQuiet : Task → Prop
  | .running _ rest asker => rest.IsQuiet ∧ asker.IsQuiet
  | .request _ line asker => (∃ leader, line = declareLine leader) ∧ asker.IsQuiet
  | .reply _ asker => asker.IsQuiet

theorem Action.isQuiet_askAll (leader : BrokerId) (peers : List Peer) {next : Nat → Action Answer}
    (h : ∀ count, (next count).IsQuiet) :
    ((askAll Action.askPeer (declareLine leader) "ack" peers).bind next).IsQuiet := by
  induction peers generalizing next with
  | nil => exact h 0
  | cons peer rest ih =>
    refine ⟨⟨leader, rfl⟩, fun reply => ?_⟩
    have hassoc := Action.bind_assoc (askAll Action.askPeer (declareLine leader) "ack" rest)
      (fun others => pure (if isExpected "ack" reply then others + 1 else others)) next
    change (((askAll Action.askPeer (declareLine leader) "ack" rest).bind _).bind next).IsQuiet
    rw [hassoc]
    exact ih fun others => h _

theorem Seat.isQuiet_declareLeader {seat : Seat} (hmode : seat.mode = .raft) :
    seat.declareLeader.unheard.IsQuiet := by
  have hdeclare : seat.declareLeader = (do
      discard <| askAll Action.askPeer (declareLine seat.id) "ack" seat.peers
      seat.registerDomain) := by
    simp only [Seat.declareLeader, hmode]
  have hregister : seat.registerDomain.unheard.IsQuiet := by
    cases hregistration : seat.registration with
    | none => simp [Seat.registerDomain, hregistration, Action.unheard, Pure.pure, Action.bind,
        Action.IsQuiet]
    | some r => simp [Seat.registerDomain, hregistration, Action.registerName, Action.unheard,
        Action.bind, Action.IsQuiet]
  have hunheard : seat.declareLeader.unheard =
      (askAll Action.askPeer (declareLine seat.id) "ack" seat.peers).bind fun _ =>
        seat.registerDomain.unheard := by
    rw [hdeclare]
    refine (Action.bind_assoc _ _ _).trans ?_
    exact Action.bind_assoc (askAll Action.askPeer (declareLine seat.id) "ack" seat.peers) _ _
  rw [hunheard]
  exact Action.isQuiet_askAll seat.id seat.peers fun _ => hregister

/-- A broker that has won takes the lead before it announces itself. -/
theorem Seat.onItsOwn_becomeLeader (id : BrokerId) (seat : Seat) :
    Task.onItsOwn id seat.becomeLeader =
      .running id (.update (Status.withRole .leader) fun _ =>
        .update (Status.withLeader seat.id) fun _ => seat.declareLeader.unheard) .nobody := rfl

end BrokerCluster.Election
