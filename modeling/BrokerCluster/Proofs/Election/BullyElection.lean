import BrokerCluster.Proofs.Election.Leadership
import BrokerCluster.Proofs.Election.Stages

/-!
# Elections in `bully` mode that run alone

The first higher peer that is up takes a challenge up and challenges in turn, so the
challenge goes to higher and higher brokers until the highest that is up finds nobody
above it.
-/
namespace BrokerCluster.Election

/-- Peers are all down, or some are passed over before the first that is up. -/
theorem Roster.all_down_or_first_up (roster : Roster) (peers : List Peer) :
    (∀ peer ∈ peers, ¬ roster.IsUp peer.id) ∨
      ∃ down peer rest, peers = down ++ peer :: rest ∧
        (∀ other ∈ down, ¬ roster.IsUp other.id) ∧ roster.IsUp peer.id := by
  induction peers with
  | nil => exact .inl (by simp)
  | cons first rest ih =>
    by_cases hup : roster.IsUp first.id
    · exact .inr ⟨[], first, rest, rfl, by simp, hup⟩
    · rcases ih with hdown | ⟨down, peer, later, rfl, hdown, hpeer⟩
      · exact .inl (List.forall_mem_cons.2 ⟨hup, hdown⟩)
      · exact .inr ⟨first :: down, peer, later, rfl, List.forall_mem_cons.2 ⟨hup, hdown⟩, hpeer⟩

theorem Seat.challengeHigher_eq (seat : Seat) :
    seat.challengeHigher = (askUntil Action.askPeer (electLine seat.id) acceptReply seat.higher).bind
      fun accepted => if accepted then .done () else seat.becomeLeader := rfl

/-- A broker takes a challenge from below up and challenges in turn. -/
theorem Seat.answer_challenge {seat : Seat} (hmode : seat.mode = .bully) (now : Int)
    {candidate : BrokerId} (hlt : candidate < seat.id) :
    seat.answer now (.ofLine (electLine candidate)) = Change.before [.leader nobody, .role .candidate]
      (.done { reply := some acceptReply, followUp := some .challengeHigher }) := by
  simp only [ofLine_electLine, Seat.answer, Seat.respond, hmode, if_pos hlt]
  rfl

namespace Cluster

variable {roster : Roster} (hmesh : roster.IsFullMesh .bully) (now : Int) {before : Cluster}
  {owner : Seat}
include hmesh

/-- A broker above which nobody is up takes the lead. -/
theorem exists_performs_challenge_top (hroster : before.roster = roster)
    (howner : (owner, true) ∈ roster) (hdown : ∀ peer ∈ owner.higher, ¬ roster.IsUp peer.id) :
    ∃ log, Performs now owner.id owner.challengeHigher before ()
      { before with toBrokers := (before.toBrokers.crown owner).registerLeader owner, log := log } := by
  obtain ⟨log, hlead⟩ := exists_performs_becomeLeader hmesh (.inl rfl) hroster howner
  have hnone : ∀ other ∈ owner.higher, (before.member? other.id).filter (·.isUp) = none :=
    fun other hother => Brokers.filter_isUp_eq_none (hroster.symm ▸ hdown other hother)
  rw [Seat.challengeHigher_eq]
  exact ⟨log, Performs.bind (Performs.askUntil_down hnone) hlead⟩

/-- The cluster after a broker has taken up a challenge, which it has yet to pass on. -/
def afterChallenge (cluster : Cluster) (sender receiver : BrokerId) : Cluster where
  toBrokers := cluster.toBrokers.changeAll receiver [.leader nobody, .role .candidate]
  waiting := [(receiver, .challengeHigher)]
  log := cluster.log ++ [⟨sender, receiver, electLine sender, some acceptReply⟩]

/-- A challenge passes over the brokers that are down and ends at the first that is up. -/
theorem performs_challenge_next (hroster : before.roster = roster) (hwaiting : before.waiting = [])
    {down rest : List Peer} {peer : Peer} (hhigher : owner.higher = down ++ peer :: rest)
    (hdown : ∀ other ∈ down, ¬ roster.IsUp other.id) (hup : roster.IsUp peer.id) :
    Performs now owner.id owner.challengeHigher before () (before.afterChallenge owner.id peer.id) := by
  subst hroster
  have hpeer : peer ∈ owner.higher := by
    rw [hhigher]
    exact List.mem_append_right _ List.mem_cons_self
  have hlt : owner.id < peer.id := by simpa using (List.mem_filter.1 hpeer).2
  obtain ⟨member, hmember, hentry, hid⟩ := Brokers.exists_filter_isUp hmesh.nodup hup
  have hanswer : Performs now peer.id (member.seat.answer now (.ofLine (electLine owner.id)))
      { before with log := before.log ++ [⟨owner.id, peer.id, electLine owner.id, none⟩] }
      { reply := some acceptReply, followUp := some .challengeHigher }
      { before with
        toBrokers := before.toBrokers.changeAll peer.id [.leader nobody, .role .candidate]
        log := before.log ++ [⟨owner.id, peer.id, electLine owner.id, none⟩] } := by
    rw [← hid] at hup hlt ⊢
    rw [Seat.answer_challenge (hmesh.mode_eq _ hentry) now hlt]
    refine Performs.changes ?_ ?_ (Performs.done _ _)
    · exact hmesh.nodup
    · exact hup
  have hpassed : ∀ other ∈ down, (before.member? other.id).filter (·.isUp) = none :=
    fun other hother => Brokers.filter_isUp_eq_none (hdown other hother)
  have hafter : before.afterChallenge owner.id peer.id = { before with
      toBrokers := before.toBrokers.changeAll peer.id [.leader nobody, .role .candidate]
      waiting := before.waiting ++ [(peer.id, .challengeHigher)]
      log := before.log ++ [⟨owner.id, peer.id, electLine owner.id, some acceptReply⟩] } := by
    rw [hwaiting]
    rfl
  rw [Seat.challengeHigher_eq, hhigher, hafter]
  exact Performs.bind (Performs.askUntil hpassed hmember hanswer rfl (by simp)) (Performs.done () _)

/-- Challenges go up to the highest broker that is up, which takes the lead. -/
theorem exists_challenge (hroster : before.roster = roster) (hwaiting : before.waiting = [])
    {top : BrokerId} (htop : roster.IsHighest top) (howner : (owner, true) ∈ roster) :
    ∃ between after leader, Performs now owner.id owner.challengeHigher before () between ∧
      Finishes now between after ∧ before.Crowns leader after := by
  -- Each challenge is taken up by a broker that is closer to the highest one.
  induction hmeasure : (top.toInt - owner.id.toInt).toNat using Nat.strongRecOn
    generalizing before owner with
  | _ measure ih =>
    rcases roster.all_down_or_first_up owner.higher with hdown | ⟨down, peer, rest, hhigher, hdown, hup⟩
    · obtain ⟨log, hlead⟩ := exists_performs_challenge_top hmesh now hroster howner hdown
      refine ⟨_, _, owner, hlead, Finishes.nil hwaiting, hroster ▸ howner, hwaiting, ?_, ?_, ?_⟩
      · simp
      · exact Brokers.agreeOn_registerLeader.2 (Brokers.agreeOn_crown hmesh hroster howner)
      · exact Brokers.names_registerLeader (Brokers.names_crown before.toBrokers owner) owner
    · have hpeer : peer ∈ owner.higher := by
        rw [hhigher]
        exact List.mem_append_right _ List.mem_cons_self
      have hlt : owner.id < peer.id := by simpa using (List.mem_filter.1 hpeer).2
      obtain ⟨next, hnext, hid⟩ := hup
      have hle : next.id ≤ top := htop.le next hnext
      have hperform := performs_challenge_next hmesh now hroster hwaiting hhigher hdown ⟨next, hnext, hid⟩
      rw [← hid] at hlt hperform
      have hless : (top.toInt - next.id.toInt).toNat < measure := by
        rw [Int64.lt_iff_toInt_lt] at hlt
        rw [Int64.le_iff_toInt_le] at hle
        omega
      let passed : Cluster := { before.afterChallenge owner.id next.id with waiting := [] }
      have hpassed : passed.roster = roster := (Brokers.roster_changeAll ..).trans hroster
      obtain ⟨between, after, leader, hchallenge, hfinish, hcrowns⟩ :=
        @ih _ hless passed next hpassed rfl hnext rfl
      obtain ⟨member, hmember, hseat, -⟩ := Brokers.member?_of_mem_roster (hpassed ▸ hmesh.nodup)
        (hpassed.symm ▸ hnext)
      have hcomplete : Performs now next.id (member.seat.complete .challengeHigher) passed () between := by
        rw [hseat]
        exact hchallenge
      refine ⟨_, after, leader, hperform, ?_, hcrowns.of_eq (hpassed.trans hroster.symm) ?_⟩
      · have hwaits : (before.afterChallenge owner.id next.id).waiting =
            [(next.id, .challengeHigher)] := rfl
        exact (finishes_cons_iff hwaits hmember hcomplete).2 hfinish
      · exact Brokers.names_changeAll ..

/-- An election in `bully` mode that runs alone makes some broker the leader. -/
theorem exists_crowns_bully (hroster : before.roster = roster)
    (hwaiting : before.waiting = []) (howner : (owner, true) ∈ roster) :
    ∃ after leader, Elects now owner.id before after ∧ before.Crowns leader after := by
  have hmode : owner.mode = .bully := hmesh.mode_eq _ howner
  obtain ⟨top, htop⟩ := Roster.exists_isHighest ⟨owner, howner, rfl⟩
  have hinitiate : owner.initiate = Change.before [.role .candidate, .leader nobody]
      owner.challengeHigher := by
    simp only [Seat.initiate, hmode]
    rfl
  let standing : Cluster := { before with
    toBrokers := before.toBrokers.changeAll owner.id [.role .candidate, .leader nobody] }
  have hstanding : standing.roster = roster := (Brokers.roster_changeAll ..).trans hroster
  obtain ⟨between, after, leader, hchallenge, hfinish, hcrowns⟩ :=
    exists_challenge hmesh now hstanding hwaiting htop howner
  have hperform : Performs now owner.id owner.initiate before () between := by
    rw [hinitiate]
    exact Performs.changes (hroster ▸ hmesh.nodup) ⟨owner, hroster.symm ▸ howner, rfl⟩ hchallenge
  refine ⟨after, leader, Elects.of_initiate (hroster ▸ hmesh.nodup) (hroster.symm ▸ howner) hperform
    hfinish, ?_⟩
  exact hcrowns.of_eq (hstanding.trans hroster.symm) (Brokers.names_changeAll ..)

end Cluster

end BrokerCluster.Election
