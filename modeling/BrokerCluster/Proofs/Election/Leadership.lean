import BrokerCluster.Proofs.Election.Broadcasts
import BrokerCluster.Proofs.Election.Outcomes

/-!
# Taking the lead in a full mesh

In `bully` and `raft` mode a broker that takes the lead tells each of its peers, which are
all others, and registers its address. Whoever is up follows it from then on.
-/
namespace BrokerCluster.Election

/-- What an announcement makes of the status of a broker in a full mesh. -/
def followed (mode : Mode) (leader : BrokerId) (status : Status) : Status :=
  ((if mode = .raft then status.forgetVote else status).withRole .follower).withLeader leader

/-- The brokers after one of them took the lead and told its peers. -/
def Brokers.crown (brokers : Brokers) (owner : Seat) : Brokers :=
  (brokers.updateStatus owner.id fun status => (status.withRole .leader).withLeader owner.id).updateUp
    (owner.peers.map (·.id)) (followed owner.mode owner.id)

@[simp] theorem Brokers.roster_crown (brokers : Brokers) (owner : Seat) :
    (brokers.crown owner).roster = brokers.roster := by
  simp [crown]

@[simp] theorem Brokers.names_crown (brokers : Brokers) (owner : Seat) :
    (brokers.crown owner).names = brokers.names := rfl

/-- Modes in which a leader tells all of its peers. -/
def Mode.IsMesh (mode : Mode) : Prop := mode = .bully ∨ mode = .raft

section Mesh

variable {roster : Roster} {mode : Mode} (hmesh : roster.IsFullMesh mode)
  {now : Int} {before : Cluster} {owner : Seat}
include hmesh

/-- Everybody that is up follows the broker that took the lead. -/
theorem Brokers.agreeOn_crown {brokers : Brokers} (hroster : brokers.roster = roster)
    (howner : (owner, true) ∈ roster) : (brokers.crown owner).AgreeOn owner.id := by
  intro member hmember hup
  obtain ⟨led, hled, rfl⟩ := mem_members_updateUp.1 hmember
  obtain ⟨start, hstart, rfl⟩ := mem_members_updateStatus.1 hled
  have hnew : owner.id ∉ owner.peers.map (·.id) := hmesh.id_notMem_peers howner
  by_cases hown : start.seat.id = owner.id
  · simp [hown, hnew, Status.withRole, Status.withLeader]
  · have hentry : (start.seat, start.isUp) ∈ roster := hroster ▸ mem_roster hstart
    have hpeer : start.seat.id ∈ owner.peers.map (·.id) := hmesh.mem_peers howner hentry hown
    rw [if_neg hown] at hup ⊢
    have hisUp : start.isUp = true := by
      split at hup <;> exact hup
    rw [if_pos ⟨hisUp, hpeer⟩]
    exact ⟨rfl, (if_neg hown).symm⟩

variable (hmode : mode.IsMesh)
include hmode

namespace Cluster

theorem answers_declareLine (now : Int) (leader : BrokerId) :
    Answers now roster (declareLine leader) (followed mode leader) fun receiver _ =>
      ackReply receiver := by
  rintro before member rfl hmember hup
  have hentry := Brokers.mem_roster hmember
  have hseat : before.roster.IsUp member.seat.id := ⟨member.seat, hup ▸ hentry, rfl⟩
  have hmodeEq : member.seat.mode = mode := hmesh.mode_eq _ hentry
  rcases hmode with rfl | rfl
  · have hchange : followed .bully leader = Status.withLeader leader ∘ Status.withRole .follower :=
      rfl
    rw [hchange, ← Brokers.updateStatus_updateStatus]
    simp only [ofLine_declareLine, Seat.answer, Seat.acknowledge, hmodeEq]
    refine Performs.update_of_isUp hmesh.nodup hseat (Performs.update_of_isUp ?_ ?_ ?_)
    · simpa using hmesh.nodup
    · simpa using hseat
    · exact Performs.done _ _
  · have hchange : followed .raft leader =
        Status.withLeader leader ∘ Status.withRole .follower ∘ Status.forgetVote := rfl
    rw [hchange, ← Brokers.updateStatus_updateStatus, ← Brokers.updateStatus_updateStatus]
    simp only [ofLine_declareLine, Seat.answer, Seat.acknowledge, hmodeEq]
    refine Performs.update_of_isUp hmesh.nodup hseat
      (Performs.update_of_isUp ?_ ?_ (Performs.update_of_isUp ?_ ?_ ?_))
    · simpa using hmesh.nodup
    · simpa using hseat
    · simpa using hmesh.nodup
    · simpa using hseat
    · exact Performs.done _ _

/-- All peers that are up follow the leader after its announcement, and its address is registered.
-/
theorem exists_performs_declareLeader (hroster : before.roster = roster)
    (howner : (owner, true) ∈ roster) :
    ∃ log, Performs now owner.id owner.declareLeader before ()
      { before with
        toBrokers := (before.toBrokers.updateUp (owner.peers.map (·.id))
          (followed owner.mode owner.id)).registerLeader owner
        log := log } := by
  have hmodeEq : owner.mode = mode := hmesh.mode_eq _ howner
  have hpeers : (owner.peers.map (·.id)).Nodup :=
    (hmesh.peers _ howner).nodup_iff.2 (hmesh.nodup.erase _)
  have hdeclare : owner.declareLeader =
      (askAll Action.askPeer (declareLine owner.id) "ack" owner.peers).bind fun _ =>
        owner.registerDomain := by
    rcases hmode with rfl | rfl
    · simp only [Seat.declareLeader, hmodeEq]
      exact Action.bind_assoc _ _ _
    · simp only [Seat.declareLeader, hmodeEq]
      exact Action.bind_assoc _ _ _
  obtain ⟨log, hask⟩ := (answers_declareLine hmesh hmode now owner.id).countReplies hmesh.nodup
    hroster hpeers (isExpected "ack")
  rw [hdeclare, hmodeEq]
  exact ⟨log, Performs.bind hask (Performs.registerDomain owner)⟩

/-- Whoever takes the lead is followed by all that are up. -/
theorem exists_performs_becomeLeader (hroster : before.roster = roster)
    (howner : (owner, true) ∈ roster) :
    ∃ log, Performs now owner.id owner.becomeLeader before ()
      { before with toBrokers := (before.toBrokers.crown owner).registerLeader owner, log := log } := by
  have hup : before.roster.IsUp owner.id := ⟨owner, hroster ▸ howner, rfl⟩
  have hcrown : before.toBrokers.crown owner = ((before.toBrokers.updateStatus owner.id
      (Status.withRole .leader)).updateStatus owner.id (Status.withLeader owner.id)).updateUp
        (owner.peers.map (·.id)) (followed owner.mode owner.id) := by
    rw [Brokers.updateStatus_updateStatus]
    rfl
  let led : Cluster := { before with
    toBrokers := (before.toBrokers.updateStatus owner.id (Status.withRole .leader)).updateStatus
      owner.id (Status.withLeader owner.id) }
  have hled : led.roster = roster := by simpa [led] using hroster
  obtain ⟨log, hdeclare⟩ := @exists_performs_declareLeader roster mode hmesh now led owner hmode hled
    howner
  refine ⟨log, Performs.update_of_isUp (hroster ▸ hmesh.nodup) hup
    (Performs.update_of_isUp ?_ ?_ ?_)⟩
  · simpa [hroster] using hmesh.nodup
  · simpa using hup
  · rw [hcrown]
    exact hdeclare

end Cluster

end Mesh

end BrokerCluster.Election
