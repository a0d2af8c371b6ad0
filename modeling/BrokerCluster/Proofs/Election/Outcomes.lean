import BrokerCluster.Proofs.Election.Execution

/-!
# How an election ends

An election that runs alone ends in one of two ways: with a leader that everyone
follows and that has put its address under the leader's name, or without a leader
anywhere.
-/
namespace BrokerCluster.Election

namespace Brokers

@[simp] theorem names_changeAll (brokers : Brokers) (id : BrokerId) (changes : List Change) :
    (brokers.changeAll id changes).names = brokers.names := by
  induction changes generalizing brokers with
  | nil => rfl
  | cons first later ih => exact (ih _).trans rfl

/-- The brokers after one of them has registered its address for the leader's name. -/
def registerLeader (brokers : Brokers) (seat : Seat) : Brokers :=
  match seat.registration with
  | none => brokers
  | some r => brokers.register (if seat.mode.isEnabled then r.electionDomain else r.domain) r.address

@[simp] theorem members_registerLeader (brokers : Brokers) (seat : Seat) :
    (brokers.registerLeader seat).members = brokers.members := by
  unfold registerLeader
  split <;> rfl

@[simp] theorem roster_registerLeader (brokers : Brokers) (seat : Seat) :
    (brokers.registerLeader seat).roster = brokers.roster := by
  simp [roster]

theorem agreeOn_registerLeader {brokers : Brokers} {seat : Seat} {top : BrokerId} :
    (brokers.registerLeader seat).AgreeOn top ↔ brokers.AgreeOn top := by
  simp [AgreeOn]

theorem names_registerLeader {a b : Brokers} (h : a.names = b.names) (seat : Seat) :
    (a.registerLeader seat).names = (b.registerLeader seat).names := by
  unfold registerLeader
  split
  · exact h
  · simp only [register, h]

end Brokers

namespace Cluster

/-- A broker without a name to register leaves the name service alone. -/
theorem Performs.registerDomain {now : Int} {id : BrokerId} {before : Cluster} (seat : Seat) :
    Performs now id seat.registerDomain before ()
      { before with toBrokers := before.toBrokers.registerLeader seat } := by
  cases hregistration : seat.registration with
  | none =>
    rw [Seat.registerDomain, Brokers.registerLeader, hregistration]
    exact Performs.done () before
  | some r =>
    rw [Seat.registerDomain, Brokers.registerLeader, hregistration]
    exact Performs.register (Performs.done () _)

/-- An election made a broker the leader: all that are up follow it, and it is registered. -/
structure Crowns (before : Cluster) (leader : Seat) (after : Cluster) : Prop where
  isUp : (leader, true) ∈ before.roster
  waiting_eq : after.waiting = []
  roster_eq : after.roster = before.roster
  agreeOn : after.AgreeOn leader.id
  names_eq : after.names = (before.registerLeader leader).names

/-- What went before an election does not matter to how it ends, but for who is up and registered. -/
theorem Crowns.of_eq {leader : Seat} {before between after : Cluster}
    (h : between.Crowns leader after) (hroster : between.roster = before.roster)
    (hnames : between.names = before.names) : before.Crowns leader after where
  isUp := hroster ▸ h.isUp
  waiting_eq := h.waiting_eq
  roster_eq := h.roster_eq.trans hroster
  agreeOn := h.agreeOn
  names_eq := h.names_eq.trans (Brokers.names_registerLeader hnames leader)

/-- An election left everybody that is up without a leader. -/
structure Lapses (before after : Cluster) : Prop where
  waiting_eq : after.waiting = []
  roster_eq : after.roster = before.roster
  isCandidate : ∀ member ∈ after.members, member.isUp →
    member.status.role = .candidate ∧ member.status.leaderId = nobody
  names_eq : after.names = before.names

end Cluster

end BrokerCluster.Election
