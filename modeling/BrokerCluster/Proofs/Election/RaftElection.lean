import BrokerCluster.Proofs.Election.Ballots
import BrokerCluster.Proofs.Election.Leadership

/-!
# Elections in `raft` mode that run alone

A candidate gets the votes of the peers that are up and have no vote yet, or had given
it theirs before. With more than half of its peers it leads, and else everyone that is up
stays a candidate.
-/
namespace BrokerCluster.Election

theorem vote_snd (status : Status) (candidate : BrokerId) :
    (status.vote candidate).2 =
      if status.votedFor = nobody then candidate else status.votedFor := by
  unfold Status.vote Status.hasVoted
  by_cases hvoted : status.votedFor = nobody
  · simp [hvoted]
  · simp [hvoted]

/-- Whoever has no vote yet, or has voted for the candidate, votes for it. -/
theorem vote_eq_iff (status : Status) (candidate : BrokerId) :
    (status.vote candidate).2 = candidate ↔
      status.votedFor = nobody ∨ status.votedFor = candidate := by
  rw [vote_snd]
  split
  · next hnone => exact iff_of_true rfl (.inl hnone)
  · next hsome => exact (or_iff_right hsome).symm

/-- What a candidate makes of the status of a broker that it asks. -/
def polled (candidate : BrokerId) (status : Status) : Status :=
  (((status.withLeader nobody).withRole .candidate).vote candidate).1

namespace Brokers

/-- The brokers when one of them stands as a candidate. -/
def stand (brokers : Brokers) (owner : Seat) : Brokers :=
  brokers.updateStatus owner.id fun status => (status.withRole .candidate).withLeader nobody

/-- The brokers after one of them stood as a candidate and asked its peers. -/
def poll (brokers : Brokers) (owner : Seat) : Brokers :=
  (brokers.updateStatus owner.id fun status =>
    (status.withRole .candidate).withLeader nobody).updateUp (owner.peers.map (·.id))
      (polled owner.id)

def isFor (brokers : Brokers) (candidate voter : BrokerId) : Bool :=
  ((brokers.member? voter).filter (·.isUp)).any fun member =>
    (member.status.vote candidate).2 == candidate

/-- Whether a candidate gets the votes of more than half of its peers. -/
def carries (brokers : Brokers) (owner : Seat) : Prop :=
  owner.peers.length / 2 < owner.peers.countP fun peer => brokers.isFor owner.id peer.id

instance (brokers : Brokers) (owner : Seat) : Decidable (brokers.carries owner) :=
  inferInstanceAs (Decidable (_ < _))

/-- A candidate takes a reply for a vote exactly if the voter is up and votes for it. -/
theorem any_heard?_eq_isFor (brokers : Brokers) (candidate voter : BrokerId) :
    (brokers.heard? (fun voter status => voteReply voter (status.vote candidate).2) voter).any
      (isVoteFor · candidate) = brokers.isFor candidate voter := by
  rw [heard?, isFor, Option.any_map]
  refine congrArg (fun test => Option.any test _) (funext fun member => ?_)
  rw [Bool.eq_iff_iff, isVoteFor_voteReply, beq_iff_eq]

theorem updateUp_stand (brokers : Brokers) (owner : Seat) :
    (brokers.stand owner).updateUp (owner.peers.map (·.id)) (polled owner.id) =
      brokers.poll owner := rfl

@[simp] theorem roster_stand (brokers : Brokers) (owner : Seat) :
    (brokers.stand owner).roster = brokers.roster := by
  simp [stand]

/-- What the peers reply has nothing to do with the candidate's own status. -/
theorem countP_heard?_stand (brokers : Brokers) {owner : Seat}
    (hnew : owner.id ∉ owner.peers.map (·.id)) :
    owner.peers.countP (fun peer => ((brokers.stand owner).heard? (fun voter status =>
        voteReply voter (status.vote owner.id).2) peer.id).any (isVoteFor · owner.id)) =
      owner.peers.countP fun peer => brokers.isFor owner.id peer.id := by
  refine List.countP_congr fun peer hpeer => ?_
  have hne : peer.id ≠ owner.id := fun heq => hnew (heq ▸ List.mem_map_of_mem hpeer)
  rw [stand, heard?_updateStatus_of_ne _ _ _ hne, any_heard?_eq_isFor]

@[simp] theorem roster_poll (brokers : Brokers) (owner : Seat) :
    (brokers.poll owner).roster = brokers.roster := by
  simp [poll]

@[simp] theorem names_poll (brokers : Brokers) (owner : Seat) :
    (brokers.poll owner).names = brokers.names := rfl

end Brokers

section Raft

variable {roster : Roster} (hmesh : roster.IsFullMesh .raft) {before : Cluster} {owner : Seat}
include hmesh

namespace Cluster

theorem answers_electLine (now : Int) (candidate : BrokerId) :
    Answers now roster (electLine candidate) (polled candidate) fun voter status =>
      voteReply voter (status.vote candidate).2 := by
  rintro before member rfl hmember hup
  have hentry := Brokers.mem_roster hmember
  have hseat : before.roster.IsUp member.seat.id := ⟨member.seat, hup ▸ hentry, rfl⟩
  have hmode : member.seat.mode = .raft := hmesh.mode_eq _ hentry
  have hchange : polled candidate = (fun status => (Status.vote status candidate).1) ∘
      Status.withRole .candidate ∘ Status.withLeader nobody := rfl
  rw [Seat.answer_ballot hmode, hchange, ← Brokers.updateStatus_updateStatus,
    ← Brokers.updateStatus_updateStatus]
  refine Performs.changes hmesh.nodup hseat ?_
  have hfound : (before.toBrokers.changeAll member.seat.id [.leader nobody, .role .candidate]).member?
      member.seat.id = some { member with
        status := (member.status.withLeader nobody).withRole .candidate } := by
    simp only [Brokers.changeAll, List.foldl_cons, List.foldl_nil, Brokers.member?_updateStatus,
      Brokers.member?_of_mem hmesh.nodup hmember, Option.map_some, if_true]
    rfl
  have hreply : voteReply member.seat.id (member.status.vote candidate).2 = voteReply member.seat.id
      (((member.status.withLeader nobody).withRole .candidate).vote candidate).2 := by
    rw [vote_snd, vote_snd]
    rfl
  simp only [hreply]
  exact Performs.update hfound (Performs.done _ _)

/-- The candidate stands, and then counts votes. -/
theorem performs_initiate_of_stand {now : Int} (hroster : before.roster = roster)
    (howner : (owner, true) ∈ roster) {after : Cluster}
    (h : Performs now owner.id ((countReplies Action.askPeer (electLine owner.id)
      (fun reply => reply.any (isVoteFor · owner.id)) owner.peers).bind fun granted =>
        if owner.peers.length / 2 < granted then owner.becomeLeader else .done ())
      { before with toBrokers := before.stand owner } () after) :
    Performs now owner.id owner.initiate before () after := by
  have hup : before.roster.IsUp owner.id := ⟨owner, hroster ▸ howner, rfl⟩
  rw [Seat.initiate_raft (hmesh.mode_eq _ howner)]
  refine Performs.update_of_isUp (hroster ▸ hmesh.nodup) hup (Performs.update_of_isUp ?_ ?_ ?_)
  · simpa [hroster] using hmesh.nodup
  · simpa using hup
  · rw [Brokers.updateStatus_updateStatus]
    exact h

/-- All peers are asked for their votes, and those that are up and have not voted yet give theirs.
-/
theorem exists_performs_countReplies (now : Int) (hroster : before.roster = roster)
    (howner : (owner, true) ∈ roster) :
    ∃ log, Performs now owner.id (countReplies Action.askPeer (electLine owner.id)
        (fun reply => reply.any (isVoteFor · owner.id)) owner.peers)
      { before with toBrokers := before.stand owner }
      (owner.peers.countP fun peer => before.isFor owner.id peer.id)
      { before with toBrokers := before.poll owner, log := log } := by
  have hpeers : (owner.peers.map (·.id)).Nodup :=
    (hmesh.peers _ howner).nodup_iff.2 (hmesh.nodup.erase _)
  have hstand : (before.stand owner).roster = roster := (Brokers.roster_stand ..).trans hroster
  obtain ⟨log, hask⟩ := @Answers.countReplies roster now owner.id
    { before with toBrokers := before.stand owner } _ _ _ hmesh.nodup
    (answers_electLine hmesh now owner.id) hstand owner.peers hpeers
    (fun reply => reply.any (isVoteFor · owner.id))
  rw [Brokers.countP_heard?_stand _ (hmesh.id_notMem_peers howner), Brokers.updateUp_stand] at hask
  exact ⟨log, hask⟩

/-- The candidate's own election, alone, up to its end. -/
theorem exists_performs_initiate (now : Int) (hroster : before.roster = roster)
    (howner : (owner, true) ∈ roster) :
    ∃ log, Performs now owner.id owner.initiate before ()
      { before with
        toBrokers := if before.carries owner
          then ((before.toBrokers.poll owner).crown owner).registerLeader owner
          else before.toBrokers.poll owner
        log := log } := by
  obtain ⟨log, hask⟩ := exists_performs_countReplies hmesh now hroster howner
  by_cases hcarries : before.carries owner
  · have hmajority : owner.peers.length / 2 <
        owner.peers.countP fun peer => before.isFor owner.id peer.id := hcarries
    obtain ⟨later, hlead⟩ := @exists_performs_becomeLeader roster .raft hmesh now
      { before with toBrokers := before.toBrokers.poll owner, log := log } owner (.inr rfl)
      ((Brokers.roster_poll ..).trans hroster) howner
    refine ⟨later, performs_initiate_of_stand hmesh hroster howner (Performs.bind hask ?_)⟩
    simp only [if_pos hcarries, if_pos hmajority]
    exact hlead
  · have hminority : ¬ owner.peers.length / 2 <
        owner.peers.countP fun peer => before.isFor owner.id peer.id := hcarries
    refine ⟨log, performs_initiate_of_stand hmesh hroster howner (Performs.bind hask ?_)⟩
    simp only [if_neg hcarries, if_neg hminority]
    exact Performs.done () _

/-- An election of a broker that is up, alone. -/
theorem exists_elects_raft (now : Int) (hroster : before.roster = roster)
    (hwaiting : before.waiting = []) (howner : (owner, true) ∈ roster) :
    ∃ after, Elects now owner.id before after ∧ after.waiting = [] ∧
      after.toBrokers = if before.carries owner
        then ((before.toBrokers.poll owner).crown owner).registerLeader owner
        else before.toBrokers.poll owner := by
  obtain ⟨log, hperform⟩ := exists_performs_initiate hmesh now hroster howner
  have helects := Elects.of_initiate (hroster ▸ hmesh.nodup) (hroster.symm ▸ howner) hperform
    (Finishes.nil hwaiting)
  exact ⟨_, helects, hwaiting, rfl⟩

/-- Whoever was asked, and the candidate itself, is a candidate that knows no leader. -/
theorem isCandidate_poll {brokers : Brokers} (hroster : brokers.roster = roster)
    (howner : (owner, true) ∈ roster) :
    ∀ member ∈ (brokers.poll owner).members, member.isUp →
      member.status.role = .candidate ∧ member.status.leaderId = nobody := by
  intro member hmember hup
  obtain ⟨stood, hstood, rfl⟩ := Brokers.mem_members_updateUp.1 hmember
  obtain ⟨start, hstart, rfl⟩ := Brokers.mem_members_updateStatus.1 hstood
  have hnew : owner.id ∉ owner.peers.map (·.id) := hmesh.id_notMem_peers howner
  by_cases hown : start.seat.id = owner.id
  · simp [hown, hnew, Status.withRole, Status.withLeader]
  · have hentry : (start.seat, start.isUp) ∈ roster := hroster ▸ Brokers.mem_roster hstart
    have hpeer : start.seat.id ∈ owner.peers.map (·.id) := hmesh.mem_peers howner hentry hown
    rw [if_neg hown] at hup ⊢
    have hisUp : start.isUp = true := by
      split at hup <;> exact hup
    rw [if_pos ⟨hisUp, hpeer⟩]
    simp only [polled, Status.vote]
    split <;> exact ⟨rfl, rfl⟩

/-- An election in `raft` mode that runs alone makes its initiator the leader or makes nobody. -/
theorem exists_crowns_or_lapses_raft (now : Int) (hroster : before.roster = roster)
    (hwaiting : before.waiting = []) (howner : (owner, true) ∈ roster) :
    ∃ after, Elects now owner.id before after ∧ (before.Crowns owner after ∨ before.Lapses after) := by
  obtain ⟨after, helects, hidle, hafter⟩ := exists_elects_raft hmesh now hroster hwaiting howner
  refine ⟨after, helects, ?_⟩
  by_cases hcarries : before.carries owner
  · have hpolled : (before.toBrokers.poll owner).roster = roster :=
      (Brokers.roster_poll ..).trans hroster
    have hcrown := Brokers.agreeOn_crown hmesh hpolled howner
    have hnames := Brokers.names_registerLeader ((Brokers.names_crown (before.poll owner) owner).trans
      (Brokers.names_poll before.toBrokers owner)) owner
    rw [if_pos hcarries] at hafter
    refine .inl ⟨hroster ▸ howner, hidle, ?_, ?_, ?_⟩
    · rw [hafter]
      simp
    · rw [hafter]
      exact Brokers.agreeOn_registerLeader.2 hcrown
    · rw [hafter]
      exact hnames
  · rw [if_neg hcarries] at hafter
    refine .inr ⟨hidle, ?_, ?_, ?_⟩
    · rw [hafter]
      simp
    · rw [hafter]
      exact isCandidate_poll hmesh hroster howner
    · rw [hafter]
      rfl

end Cluster

end Raft

end BrokerCluster.Election
