import BrokerCluster.Proofs.Election.RingRuns

/-!
# How an election in `ring` mode ends

With two or more brokers up, the highest of them leads and has registered. A broker
that is alone has nobody to pass its candidacy on to, and stays a candidate.
-/
namespace BrokerCluster.Election

/-- In a ring no broker is its own peer. -/
theorem Roster.IsRing.id_notMem_peers {roster : Roster} {ring : List BrokerId}
    (h : roster.IsRing ring) {entry : Seat × Bool} (hentry : entry ∈ roster) :
    entry.1.id ∉ entry.1.peers.map (·.id) := by
  obtain ⟨before, after, rfl⟩ :=
    List.append_of_mem (h.perm.mem_iff.2 (List.mem_map.2 ⟨entry, hentry, rfl⟩))
  have hnodup : (before ++ entry.1.id :: after).Nodup := h.perm.nodup_iff.2 h.nodup
  have hnew := (List.nodup_middle.1 hnodup).notMem
  rw [h.peers_eq hentry rfl]
  simpa [or_comm] using hnew

/-- A broker that is alone knows of nobody else that is up. -/
theorem Roster.IsRing.all_down {roster : Roster} {ring : List BrokerId} (h : roster.IsRing ring)
    (hone : roster.upIds.length < 2) {owner : Seat} (howner : (owner, true) ∈ roster) :
    (∀ id, roster.IsUp id → id = owner.id) ∧ ∀ peer ∈ owner.peers, ¬ roster.IsUp peer.id := by
  have hown : owner.id ∈ roster.upIds := mem_upIds.2 ⟨owner, howner, rfl⟩
  have hids : roster.upIds = [owner.id] := by
    cases hlist : roster.upIds with
    | nil => simp [hlist] at hown
    | cons first rest =>
      rw [hlist] at hone hown
      rw [List.length_cons] at hone
      obtain rfl : rest = [] := List.length_eq_zero_iff.1 (by omega)
      rw [List.mem_singleton.1 hown]
  have honly : ∀ id, roster.IsUp id → id = owner.id := fun id hid => by
    simpa [hids] using mem_upIds.2 hid
  refine ⟨honly, fun peer hpeer hup => h.id_notMem_peers howner ?_⟩
  rw [← honly peer.id hup]
  exact List.mem_map_of_mem hpeer

namespace Cluster

variable {roster : Roster} {ring : List BrokerId} {before : Cluster} {owner : Seat}

/-- A broker that is alone in its ring does not become the leader. -/
theorem exists_lapses_ring (now : Int) (hring : roster.IsRing ring) (hroster : before.roster = roster)
    (hwaiting : before.waiting = []) (hone : roster.upIds.length < 2) (howner : (owner, true) ∈ roster) :
    ∃ after, Elects now owner.id before after ∧ before.Lapses after := by
  have hmode : owner.mode = .ring := hring.mode_eq _ howner
  obtain ⟨honly, hdown⟩ := hring.all_down hone howner
  have hinitiate : owner.initiate = Change.before [.role .candidate, .leader nobody]
      (owner.forward owner.id) := by
    simp only [Seat.initiate, hmode]
    rfl
  let standing : Cluster := { before with
    toBrokers := before.toBrokers.changeAll owner.id [.role .candidate, .leader nobody] }
  have hstanding : standing.roster = roster := (Brokers.roster_changeAll ..).trans hroster
  have hnone : ∀ other ∈ owner.peers, (standing.member? other.id).filter (·.isUp) = none :=
    fun other hother => Brokers.filter_isUp_eq_none (hstanding.symm ▸ hdown other hother)
  have hforward : Performs now owner.id (owner.forward owner.id) standing () standing :=
    Performs.bind (Performs.askUntil_down hnone) (Performs.done () standing)
  have hperform : Performs now owner.id owner.initiate before () standing := by
    rw [hinitiate]
    exact Performs.changes (hroster ▸ hring.nodup) ⟨owner, hroster.symm ▸ howner, rfl⟩ hforward
  have helects := Elects.of_initiate (hroster ▸ hring.nodup) (hroster.symm ▸ howner) hperform
    (Finishes.nil hwaiting)
  refine ⟨standing, helects, hwaiting, hstanding.trans hroster.symm, fun member hmember hup => ?_,
    Brokers.names_changeAll ..⟩
  have hid : member.seat.id = owner.id := by
    have hentry := Brokers.mem_roster hmember
    rw [hstanding, hup] at hentry
    exact honly _ ⟨_, hentry, rfl⟩
  obtain ⟨stood, hstood, rfl⟩ := Brokers.mem_members_updateStatus.1 hmember
  obtain ⟨start, hstart, rfl⟩ := Brokers.mem_members_updateStatus.1 hstood
  by_cases hown : start.seat.id = owner.id
  · simp [hown, Change.apply, Status.withRole, Status.withLeader]
  · simp [hown] at hid

end Cluster

end BrokerCluster.Election
