import BrokerCluster.Proofs.Election.RaftElection
import BrokerCluster.Proofs.Election.Winners

/-!
# How an election in `raft` mode ends

Once the initiator has asked its peers for their votes, and has told them if it won, each
broker that is up has changed in a way that depends on two things alone: whether it is the
initiator, and whether the initiator won. Who wins is counted in the votes before.
-/
namespace BrokerCluster.Election

/-- A broker after one that is up changed in one way, and all others that are up in another. -/
def Member.turned (id : BrokerId) (own others : Status → Status) (member : Member) : Member :=
  if member.isUp then
    { member with status := (if member.seat.id = id then own else others) member.status }
  else member

def Member.afterWin (leader : BrokerId) : Member → Member :=
  Member.turned leader (fun status => { status with role := .leader, leaderId := leader })
    fun status => { status with role := .follower, leaderId := leader, votedFor := nobody }

def Member.afterLoss (candidate : BrokerId) : Member → Member :=
  Member.turned candidate (fun status => { status with role := .candidate, leaderId := nobody })
    fun status => { status with
      role := .candidate
      leaderId := nobody
      votedFor := if status.votedFor = nobody then candidate else status.votedFor }

/-- How many brokers that are up, the candidate apart, have no vote yet or voted for it. -/
def Brokers.supporters (brokers : Brokers) (candidate : BrokerId) : Nat :=
  brokers.members.countP fun member => member.isUp && member.seat.id != candidate &&
    (member.status.votedFor == nobody || member.status.votedFor == candidate)

theorem Member.turned_turned (id : BrokerId) (own others own' others' : Status → Status)
    (member : Member) :
    (member.turned id own others).turned id own' others' =
      member.turned id (own' ∘ own) (others' ∘ others) := by
  unfold Member.turned
  by_cases hup : member.isUp = true
  · by_cases hid : member.seat.id = id
    · simp [hup, hid]
    · simp [hup, hid]
  · simp [hup]

@[simp] theorem Member.seat_turned (id : BrokerId) (own others : Status → Status) (member : Member) :
    (member.turned id own others).seat = member.seat := by
  unfold turned
  split <;> rfl

theorem polled_eq (candidate : BrokerId) (status : Status) :
    polled candidate status = { status with
      role := .candidate
      leaderId := nobody
      votedFor := if status.votedFor = nobody then candidate else status.votedFor } := by
  unfold polled Status.vote Status.hasVoted
  by_cases hvoted : status.votedFor = nobody
  · simp [hvoted, Status.withLeader, Status.withRole]
  · simp [hvoted, Status.withLeader, Status.withRole]

section Raft

variable {roster : Roster} (hmesh : roster.IsFullMesh .raft) {brokers : Brokers}
  (hroster : brokers.roster = roster) {owner : Seat} (howner : (owner, true) ∈ roster)
include hmesh hroster howner

namespace Brokers

/-- In a full mesh the owner and its peers are all that there are. -/
theorem members_updateUp_updateStatus (own others : Status → Status) :
    ((brokers.updateStatus owner.id own).updateUp (owner.peers.map (·.id)) others).members =
      brokers.members.map (Member.turned owner.id own others) := by
  have hmembers : ((brokers.updateStatus owner.id own).updateUp (owner.peers.map (·.id)) others).members =
      (brokers.members.map fun member =>
        if member.seat.id = owner.id then { member with status := own member.status } else member).map
        fun member => if member.isUp ∧ member.seat.id ∈ owner.peers.map (·.id)
          then { member with status := others member.status } else member := rfl
  rw [hmembers, List.map_map]
  refine List.map_congr_left fun member hmember => ?_
  have hentry : (member.seat, member.isUp) ∈ roster := hroster ▸ mem_roster hmember
  have hnew : owner.id ∉ owner.peers.map (·.id) := hmesh.id_notMem_peers howner
  rw [Function.comp_apply, Member.turned]
  by_cases hown : member.seat.id = owner.id
  · have hsame := Roster.eq_of_id_eq hmesh.nodup hentry howner hown
    have hup : member.isUp = true := congrArg Prod.snd hsame
    have hstill : ¬ (member.isUp = true ∧ member.seat.id ∈ owner.peers.map (·.id)) :=
      fun h => hnew (hown ▸ h.2)
    rw [if_pos hown, if_pos hup, if_neg hstill, if_pos hown]
  · have hpeer : member.seat.id ∈ owner.peers.map (·.id) := hmesh.mem_peers howner hentry hown
    simp only [if_neg hown, hpeer, and_true]

theorem members_poll :
    (brokers.poll owner).members = brokers.members.map (Member.afterLoss owner.id) := by
  have hpolled : polled owner.id = fun status => { status with
      role := .candidate
      leaderId := nobody
      votedFor := if status.votedFor = nobody then owner.id else status.votedFor } :=
    funext (polled_eq owner.id)
  rw [poll, members_updateUp_updateStatus hmesh hroster howner, hpolled]
  rfl

/-- After an election that is won, the ballot and the announcement leave of each broker what
`afterWin` says. -/
theorem members_crown_poll :
    ((brokers.poll owner).crown owner).members = brokers.members.map (Member.afterWin owner.id) := by
  have hpoll : (brokers.poll owner).roster = roster := (roster_poll ..).trans hroster
  have hmode : owner.mode = .raft := hmesh.mode_eq _ howner
  have hfollowed : followed .raft owner.id ∘ polled owner.id = fun status =>
      { status with role := .follower, leaderId := owner.id, votedFor := nobody } :=
    funext fun status => by
      show followed .raft owner.id (polled owner.id status) = _
      rw [polled_eq]
      rfl
  rw [crown, members_updateUp_updateStatus hmesh hpoll howner, poll,
    members_updateUp_updateStatus hmesh hroster howner, List.map_map, hmode]
  refine List.map_congr_left fun member _ => ?_
  rw [Function.comp_apply, Member.turned_turned, hfollowed]
  rfl

/-- The peers that vote for the candidate are the brokers that support it. -/
theorem countP_isFor :
    owner.peers.countP (fun peer => brokers.isFor owner.id peer.id) = brokers.supporters owner.id := by
  have hnodup : brokers.roster.ids.Nodup := hroster ▸ hmesh.nodup
  have hids : (owner.peers.map (·.id)).Perm (brokers.roster.ids.erase owner.id) :=
    hroster ▸ hmesh.peers _ howner
  have hvote : ∀ member ∈ brokers.members, brokers.isFor owner.id member.seat.id =
      (member.isUp && (member.status.votedFor == nobody || member.status.votedFor == owner.id)) := by
    intro member hmember
    rw [isFor, member?_of_mem hnodup hmember, Bool.eq_iff_iff]
    by_cases hup : member.isUp = true
    · simp [hup, vote_eq_iff]
    · simp [hup]
  calc owner.peers.countP (fun peer => brokers.isFor owner.id peer.id)
      = (owner.peers.map (·.id)).countP (brokers.isFor owner.id) := by
        rw [List.countP_map]
        rfl
    _ = (brokers.roster.ids.filter (· != owner.id)).countP (brokers.isFor owner.id) := by
        rw [hids.countP_eq, hnodup.erase_eq_filter]
    _ = brokers.members.countP fun member =>
          brokers.isFor owner.id member.seat.id && member.seat.id != owner.id := by
        rw [List.countP_filter, ids_roster, List.countP_map]
        rfl
    _ = brokers.supporters owner.id := by
        refine List.countP_congr fun member hmember => ?_
        rw [hvote member hmember]
        simp only [Bool.and_eq_true]
        tauto

/-- To have the votes of more than half of the peers is to have enough supporters. -/
theorem carries_iff_supporters :
    brokers.carries owner ↔ brokers.members.length - 1 < 2 * brokers.supporters owner.id := by
  have hpeers : owner.peers.length + 1 = brokers.members.length := by
    rw [hmesh.length_peers howner, ← hroster, Brokers.roster, List.length_map]
  rw [carries, countP_isFor hmesh hroster howner]
  omega

variable {after : Brokers}

omit hmesh in
theorem leads_of_afterWin (h : after.members = brokers.members.map (Member.afterWin owner.id)) :
    after.Leads owner.id := by
  obtain ⟨member, hmember, hentry⟩ := List.mem_map.1 (hroster.symm ▸ howner)
  have hseat : member.seat = owner := congrArg Prod.fst hentry
  have hup : member.isUp = true := congrArg Prod.snd hentry
  refine ⟨member.afterWin owner.id, h ▸ List.mem_map_of_mem hmember, ?_⟩
  simp [Member.afterWin, Member.turned, hup, hseat]

theorem not_leads_of_afterLoss
    (h : after.members = brokers.members.map (Member.afterLoss owner.id)) :
    ¬ after.Leads owner.id := by
  rintro ⟨last, hlast, hid, hrole⟩
  obtain ⟨member, hmember, rfl⟩ := List.mem_map.1 (h ▸ hlast)
  rw [Member.afterLoss, Member.seat_turned] at hid
  have hsame := Roster.eq_of_id_eq hmesh.nodup (hroster ▸ mem_roster hmember) howner hid
  have hup : member.isUp = true := congrArg Prod.snd hsame
  simp [Member.afterLoss, Member.turned, hup, hid] at hrole

end Brokers

end Raft

namespace Cluster

/-- **How an election in `raft` mode ends.** Take a full mesh in any state, some of its brokers down,
and let one that is up run an election alone. The election comes to its end. Its initiator wins exactly
if more than half of its peers are up and have no vote yet or voted for it; whether it wins says what
becomes of every broker. -/
theorem exists_elects_raft_outcome (now : Int) (before : Cluster) (owner : Seat)
    (hmesh : before.roster.IsFullMesh .raft) (hwaiting : before.waiting = [])
    (howner : (owner, true) ∈ before.roster) :
    ∃ after, Elects now owner.id before after ∧ after.waiting = [] ∧
      (after.Leads owner.id ↔ before.members.length - 1 < 2 * before.supporters owner.id) ∧
      (after.Leads owner.id → after.members = before.members.map (Member.afterWin owner.id)) ∧
      (¬ after.Leads owner.id → after.members = before.members.map (Member.afterLoss owner.id)) := by
  obtain ⟨after, helects, hidle, hafter⟩ := exists_elects_raft hmesh now rfl hwaiting howner
  refine ⟨after, helects, hidle, ?_⟩
  rw [← Brokers.carries_iff_supporters hmesh rfl howner]
  by_cases hcarries : before.carries owner
  · have hmembers : after.members = before.members.map (Member.afterWin owner.id) := by
      rw [hafter, if_pos hcarries, Brokers.members_registerLeader,
        Brokers.members_crown_poll hmesh rfl howner]
    have hleads : after.Leads owner.id := Brokers.leads_of_afterWin rfl howner hmembers
    exact ⟨iff_of_true hleads hcarries, fun _ => hmembers, fun hnot => absurd hleads hnot⟩
  · have hmembers : after.members = before.members.map (Member.afterLoss owner.id) := by
      rw [hafter, if_neg hcarries, Brokers.members_poll hmesh rfl howner]
    have hnot : ¬ after.Leads owner.id := Brokers.not_leads_of_afterLoss hmesh rfl howner hmembers
    exact ⟨iff_of_false hnot hcarries, fun hleads => absurd hleads hnot, fun _ => hmembers⟩

/-- Four brokers, of which one is down, one led and one gave its vote to the broker that led. -/
def mixedVotes : Cluster where
  members := [
    ⟨⟨1, .raft, [⟨2, "b", 8002⟩, ⟨3, "c", 8003⟩, ⟨4, "d", 8004⟩], none⟩, ⟨.candidate, nobody, 4, 10⟩, true⟩,
    ⟨⟨2, .raft, [⟨1, "a", 8001⟩, ⟨3, "c", 8003⟩, ⟨4, "d", 8004⟩], none⟩, ⟨.leader, 2, nobody, 10⟩, true⟩,
    ⟨⟨3, .raft, [⟨1, "a", 8001⟩, ⟨2, "b", 8002⟩, ⟨4, "d", 8004⟩], none⟩, ⟨.follower, 2, 1, 20⟩, true⟩,
    ⟨⟨4, .raft, [⟨1, "a", 8001⟩, ⟨2, "b", 8002⟩, ⟨3, "c", 8003⟩], none⟩, ⟨.follower, 2, nobody, 5⟩, false⟩]

/-- Two of its three peers are for the first broker, and none is for the second. -/
theorem mixedVotes_outcome :
    (∃ after, Elects 30 1 mixedVotes after ∧ after.Leads 1 ∧
      after.members.map (·.status) = [⟨.leader, 1, 4, 10⟩, ⟨.follower, 1, nobody, 10⟩,
        ⟨.follower, 1, nobody, 20⟩, ⟨.follower, 2, nobody, 5⟩]) ∧
    (∃ after, Elects 30 2 mixedVotes after ∧ ¬ after.Leads 2 ∧
      after.members.map (·.status) = [⟨.candidate, nobody, 4, 10⟩, ⟨.candidate, nobody, nobody, 10⟩,
        ⟨.candidate, nobody, 1, 20⟩, ⟨.follower, 2, nobody, 5⟩]) := by
  have hmesh : mixedVotes.roster.IsFullMesh .raft :=
    ⟨by decide +kernel, by decide +kernel, by decide +kernel⟩
  constructor
  · obtain ⟨after, helects, -, hwins, hafter, -⟩ := exists_elects_raft_outcome 30 mixedVotes
      ⟨1, .raft, [⟨2, "b", 8002⟩, ⟨3, "c", 8003⟩, ⟨4, "d", 8004⟩], none⟩ hmesh rfl (by decide +kernel)
    have hleads : after.Leads 1 := hwins.2 (by decide +kernel)
    refine ⟨after, helects, hleads, ?_⟩
    rw [hafter hleads]
    decide +kernel
  · obtain ⟨after, helects, -, hwins, -, hafter⟩ := exists_elects_raft_outcome 30 mixedVotes
      ⟨2, .raft, [⟨1, "a", 8001⟩, ⟨3, "c", 8003⟩, ⟨4, "d", 8004⟩], none⟩ hmesh rfl (by decide +kernel)
    have hnot : ¬ after.Leads 2 := fun hleads => absurd (hwins.1 hleads) (by decide +kernel)
    refine ⟨after, helects, hnot, ?_⟩
    rw [hafter hnot]
    decide +kernel

end Cluster

end BrokerCluster.Election
