import Mathlib.Algebra.Order.BigOperators.Group.Finset
import BrokerCluster.Proofs.Election.VotePeriods

/-!
# How many candidates win before an announcement arrives

A period is a run in which no announcement is delivered, so no vote is taken back.
The forms of what is under way carry over from step to step, and at the end of the
period every winner still has its votes.
-/
namespace BrokerCluster.Election

/-- No broker has two votes, so the votes of all winners are no more than there are brokers. -/
theorem Brokers.card_mul_le {brokers : Brokers} (hnodup : brokers.roster.ids.Nodup)
    (winners : Finset BrokerId) (size : Nat)
    (h : ∀ id ∈ winners, ∃ voters : List BrokerId, voters.Nodup ∧ size ≤ voters.length ∧
      ∀ voter ∈ voters, brokers.Gave voter id) :
    winners.card * size ≤ brokers.roster.length := by
  classical
  let votersOf (id : BrokerId) := brokers.roster.ids.toFinset.filter (brokers.Gave · id)
  have hsize : ∀ id ∈ winners, size ≤ (votersOf id).card := by
    intro id hid
    obtain ⟨voters, hdistinct, hlength, hgave⟩ := h id hid
    have hsubset : voters.toFinset ⊆ votersOf id := by
      intro voter hvoter
      have hvote := hgave voter (List.mem_toFinset.1 hvoter)
      exact Finset.mem_filter.2 ⟨List.mem_toFinset.2 hvote.mem_ids, hvote⟩
    have hcard : voters.toFinset.card = voters.length := List.toFinset_card_of_nodup hdistinct
    have hle := Finset.card_le_card hsubset
    omega
  -- A broker that voted for two winners would have two votes.
  have hdisjoint : (winners : Set BrokerId).PairwiseDisjoint votersOf := by
    intro a _ b _ hne
    refine Finset.disjoint_left.2 fun voter ha hb => hne ?_
    exact (Finset.mem_filter.1 ha).2.unique hnodup (Finset.mem_filter.1 hb).2
  have hall : winners.biUnion votersOf ⊆ brokers.roster.ids.toFinset :=
    Finset.biUnion_subset.2 fun _ _ => Finset.filter_subset _ _
  have hsum : winners.card * size = ∑ _id ∈ winners, size := (Finset.sum_const_nat fun _ _ => rfl).symm
  calc winners.card * size = ∑ _id ∈ winners, size := hsum
    _ ≤ ∑ id ∈ winners, (votersOf id).card := Finset.sum_le_sum hsize
    _ = (winners.biUnion votersOf).card := (Finset.card_biUnion hdisjoint).symm
    _ ≤ brokers.roster.ids.toFinset.card := Finset.card_le_card hall
    _ ≤ brokers.roster.ids.length := List.toFinset_card_le _
    _ = brokers.roster.length := List.length_map _

theorem Roster.IsFullMesh.length_peers {roster : Roster} {mode : Mode}
    (hmesh : roster.IsFullMesh mode) {entry : Seat × Bool} (hentry : entry ∈ roster) :
    entry.1.peers.length + 1 = roster.length := by
  have hperm := (hmesh.peers entry hentry).length_eq
  have hmem : entry.1.id ∈ roster.ids := List.mem_map.2 ⟨entry, hentry, rfl⟩
  have hpos := List.length_pos_of_mem hentry
  rw [List.length_map, List.length_erase_of_mem hmem, Roster.ids, List.length_map] at hperm
  omega

namespace Net

/-- A broker has its majority and is about to take the lead. -/
def Wins (net : Net) (id : BrokerId) : Prop :=
  ∃ seat : Seat, .onItsOwn id seat.becomeLeader ∈ net.tasks

def WinsWithin (net : Net) (moves : List Move) (id : BrokerId) : Prop :=
  ∃ early, early <+: moves ∧ (net.play early).Wins id

/-- Whether a move brings an announcement to a broker that is up. -/
def delivers (net : Net) : Move → Bool
  | .initiate _ => false
  | .step index _ => net.tasks[index]?.any (·.delivers net.brokers)

/-- Whether no announcement is delivered in a run. -/
def isPeriod : Net → List Move → Bool
  | _, [] => true
  | net, next :: rest => !net.delivers next && (net.move next).isPeriod rest

/-- All that is under way is of one of the forms of a period. -/
structure IsFair (roster : Roster) (net : Net) : Prop where
  roster_eq : net.brokers.roster = roster
  fair : ∀ task ∈ net.tasks, task.IsFair roster net.brokers

section Period

variable {roster : Roster} (hmesh : roster.IsFullMesh .raft)
  (hids : ∀ entry ∈ roster, entry.1.id ≠ nobody)
include hmesh hids

omit hids in
/-- Every election starts in one of the forms of a period, with no vote counted. -/
theorem isFair_initiate {net : Net} {member : Member}
    (hfound : (net.brokers.member? member.seat.id).filter (·.isUp) = some member)
    (hroster : net.brokers.roster = roster) :
    (Task.onItsOwn member.seat.id member.seat.initiate).IsFair roster net.brokers := by
  obtain ⟨hmember, -⟩ := Brokers.isUp_of_filter_eq_some hfound
  rw [hroster] at hmember
  rw [Seat.onItsOwn_initiate_raft (hmesh.mode_eq _ hmember)]
  have hnodup : (member.seat.peers.map (·.id)).Nodup :=
    (hmesh.peers _ hmember).nodup_iff.2 (hmesh.nodup.erase _)
  refine Task.isFair_action ⟨member.seat, [], member.seat.peers⟩ [.role .candidate, .leader nobody]
    (fun change hchange => ?_) ⟨hmember, hnodup, by simp⟩
  simp only [List.mem_cons, List.not_mem_nil, or_false] at hchange
  rcases hchange with rfl | rfl
  · exact isPlain_withRole (by decide)
  · exact isPlain_withLeader nobody

/-- **One move of a period.** -/
theorem IsFair.move {net : Net} (h : net.IsFair roster) (next : Move)
    (hdeliver : net.delivers next = false) :
    (net.move next).IsFair roster ∧ net.brokers.KeepsVotes (net.move next).brokers ∧
      ∀ id, (net.move next).brokers.Leads id → net.brokers.Leads id ∨ net.Wins id := by
  obtain ⟨hroster, hfair⟩ := h
  cases next with
  | initiate id =>
    cases hfound : (net.brokers.member? id).filter (·.isUp) with
    | none =>
      have hsame : net.move (.initiate id) = net := by simp only [Net.move, hfound]
      rw [hsame]
      exact ⟨⟨hroster, hfair⟩, .refl _, fun _ => .inl⟩
    | some member =>
      obtain ⟨-, rfl⟩ := Brokers.isUp_of_filter_eq_some hfound
      have hmove : net.move (.initiate member.seat.id) =
          { net with tasks := net.tasks ++ [.onItsOwn member.seat.id member.seat.initiate] } := by
        simp only [Net.move, hfound]
      rw [hmove]
      refine ⟨⟨hroster, fun task htask => ?_⟩, .refl _, fun _ => .inl⟩
      rcases List.mem_append.1 htask with hold | hnew
      · exact hfair task hold
      · rw [List.mem_singleton.1 hnew]
        exact isFair_initiate hmesh hfound hroster
  | step index now =>
    cases htask : net.tasks[index]? with
    | none =>
      have hsame : net.move (.step index now) = net := by simp only [Net.move, htask]
      rw [hsame]
      exact ⟨⟨hroster, hfair⟩, .refl _, fun _ => .inl⟩
    | some task =>
      have hmem : task ∈ net.tasks := List.mem_of_getElem? htask
      have hquiet : task.delivers net.brokers = false := by simpa [delivers, htask] using hdeliver
      have hstep := (hfair task hmem).step hmesh hids hroster now hquiet
      have hmove : net.move (.step index now) = ⟨(task.step now net.brokers).1,
          net.tasks.eraseIdx index ++ (task.step now net.brokers).2⟩ := by
        simp only [Net.move, htask]
      rw [hmove]
      refine ⟨⟨(Task.roster_step now net.brokers task).trans hroster, fun other hother => ?_⟩,
        hstep.keeps, fun id hleads => (hstep.leads id hleads).imp_right fun hwins => ?_⟩
      · rcases List.mem_append.1 hother with hold | hnew
        · exact (hfair other (List.mem_of_mem_eraseIdx hold)).mono hids hstep.keeps
        · exact hstep.fair other hnew
      · obtain ⟨seat, hseat⟩ := hwins
        exact ⟨seat, hseat ▸ hmem⟩

/-- **A whole period.** Votes stay given, and only who wins becomes a leader. -/
theorem IsFair.play {net : Net} (h : net.IsFair roster) {moves : List Move}
    (hperiod : net.isPeriod moves = true) :
    (net.play moves).IsFair roster ∧ net.brokers.KeepsVotes (net.play moves).brokers ∧
      ∀ id, (net.play moves).brokers.Leads id → net.brokers.Leads id ∨ net.WinsWithin moves id := by
  induction moves generalizing net with
  | nil => exact ⟨h, .refl _, fun _ => .inl⟩
  | cons next rest ih =>
    simp only [isPeriod, Bool.and_eq_true, Bool.not_eq_true'] at hperiod
    obtain ⟨hfair, hkeeps, hleads⟩ := h.move hmesh hids next hperiod.1
    obtain ⟨hfairRest, hkeepsRest, hleadsRest⟩ := ih hfair hperiod.2
    refine ⟨hfairRest, hkeeps.trans hkeepsRest, fun id hid => ?_⟩
    rcases hleadsRest id hid with hbefore | ⟨early, hearly, hwins⟩
    · exact (hleads id hbefore).imp_right fun hwins => ⟨[], List.nil_prefix, hwins⟩
    · exact .inr ⟨next :: early, List.cons_prefix_cons.2 ⟨rfl, hearly⟩, hwins⟩

omit hmesh hids in
theorem isPeriod_of_append {net : Net} {early late : List Move}
    (h : net.isPeriod (early ++ late) = true) :
    net.isPeriod early = true ∧ (net.play early).isPeriod late = true := by
  induction early generalizing net with
  | nil => exact ⟨rfl, h⟩
  | cons next early ih =>
    simp only [List.cons_append, isPeriod, Bool.and_eq_true] at h ⊢
    exact ⟨⟨h.1, (ih h.2).1⟩, (ih h.2).2⟩

/-- Whoever wins in a period has a majority at its end. -/
theorem IsFair.exists_voters {net : Net} (h : net.IsFair roster) {moves : List Move}
    (hperiod : net.isPeriod moves = true) {id : BrokerId} (hwins : net.WinsWithin moves id) :
    ∃ voters : List BrokerId, voters.Nodup ∧ (roster.length - 1) / 2 + 1 ≤ voters.length ∧
      ∀ voter ∈ voters, (net.play moves).brokers.Gave voter id := by
  obtain ⟨early, ⟨late, rfl⟩, seat, hseat⟩ := hwins
  obtain ⟨hfirst, hsecond⟩ := isPeriod_of_append hperiod
  obtain ⟨hfair, -, -⟩ := h.play hmesh hids hfirst
  obtain ⟨-, hkeeps, -⟩ := hfair.play hmesh hids hsecond
  obtain ⟨owner, howner, rfl, hmajority⟩ := (hfair.fair _ hseat).hasMajority
  have hne : owner.id ≠ nobody := hids _ howner
  obtain ⟨voters, hnodup, hlength, hgave⟩ := hmajority.mono hkeeps hne
  have hpeers : owner.peers.length + 1 = roster.length := hmesh.length_peers howner
  have hplay : net.play (early ++ late) = (net.play early).play late := List.foldl_append
  rw [hplay]
  exact ⟨voters, hnodup, by omega, hgave⟩

end Period

/-- **Winners of a period.** Take a full mesh in `raft` mode, any brokers that start elections at any
moments, and any order of steps. Until an announcement is delivered, at most one broker wins if
there is an odd number of brokers, and at most two if the number is even; nobody else becomes a
leader. -/
theorem card_winners_le (brokers : Brokers) (hmesh : brokers.roster.IsFullMesh .raft)
    (hids : ∀ entry ∈ brokers.roster, entry.1.id ≠ nobody) (moves : List Move)
    (hperiod : isPeriod { brokers } moves = true) :
    (∀ winners : Finset BrokerId, (∀ id ∈ winners, WinsWithin { brokers } moves id) →
      winners.card ≤ if brokers.members.length % 2 = 1 then 1 else 2) ∧
    ∀ id, (play { brokers } moves).brokers.Leads id →
      brokers.Leads id ∨ WinsWithin { brokers } moves id := by
  have hfair : IsFair brokers.roster { brokers } := ⟨rfl, by simp⟩
  refine ⟨fun winners hwinners => ?_, (hfair.play hmesh hids hperiod).2.2⟩
  have hroster := roster_play { brokers } moves
  have hcount := Brokers.card_mul_le (hroster.symm ▸ hmesh.nodup) winners _
    fun id hid => hfair.exists_voters hmesh hids hperiod (hwinners id hid)
  rw [hroster] at hcount
  have hlength : brokers.roster.length = brokers.members.length := List.length_map _
  have hmany : ∀ bound, bound < winners.card →
      (bound + 1) * ((brokers.members.length - 1) / 2 + 1) ≤ brokers.members.length := by
    intro bound hbound
    rw [hlength] at hcount
    exact (Nat.mul_le_mul_right _ hbound).trans hcount
  by_contra hmore
  rw [not_le] at hmore
  have hall := hmany _ hmore
  split at hall
  · omega
  · omega

/-- The first two brokers start an election each, and whatever has waited longest goes on. -/
def twoStand (steps : Nat) : List Move :=
  .initiate 1 :: .initiate 2 :: List.replicate steps (.step 0 0)

def threeVoters : Brokers where
  members := [
    ⟨⟨1, .raft, [⟨2, "b", 8002⟩, ⟨3, "c", 8003⟩], none⟩, Status.fresh 0, true⟩,
    ⟨⟨2, .raft, [⟨1, "a", 8001⟩, ⟨3, "c", 8003⟩], none⟩, Status.fresh 0, true⟩,
    ⟨⟨3, .raft, [⟨1, "a", 8001⟩, ⟨2, "b", 8002⟩], none⟩, Status.fresh 0, true⟩]

/-- Two of three brokers stand, and one of them wins. -/
theorem threeVoters_winners : isPeriod { brokers := threeVoters } (twoStand 36) = true ∧
    (play { brokers := threeVoters } (twoStand 36)).brokers.Leads 1 ∧
    ∀ winners : Finset BrokerId,
      (∀ id ∈ winners, WinsWithin { brokers := threeVoters } (twoStand 36) id) →
        winners.card ≤ 1 := by
  have hmesh : threeVoters.roster.IsFullMesh .raft :=
    ⟨by decide +kernel, by decide +kernel, by decide +kernel⟩
  have hids : ∀ entry ∈ threeVoters.roster, entry.1.id ≠ nobody := by decide +kernel
  have hperiod : isPeriod { brokers := threeVoters } (twoStand 36) = true := by decide +kernel
  have hleads : (play { brokers := threeVoters } (twoStand 36)).brokers.Leads 1 := by decide +kernel
  exact ⟨hperiod, hleads, (card_winners_le threeVoters hmesh hids (twoStand 36) hperiod).1⟩

/-- Each of the first two brokers asks the other first, and then one of the last two. -/
def fourVoters : Brokers where
  members := [
    ⟨⟨1, .raft, [⟨2, "b", 8002⟩, ⟨3, "c", 8003⟩, ⟨4, "d", 8004⟩], none⟩, Status.fresh 0, true⟩,
    ⟨⟨2, .raft, [⟨1, "a", 8001⟩, ⟨4, "d", 8004⟩, ⟨3, "c", 8003⟩], none⟩, Status.fresh 0, true⟩,
    ⟨⟨3, .raft, [⟨1, "a", 8001⟩, ⟨2, "b", 8002⟩, ⟨4, "d", 8004⟩], none⟩, Status.fresh 0, true⟩,
    ⟨⟨4, .raft, [⟨1, "a", 8001⟩, ⟨2, "b", 8002⟩, ⟨3, "c", 8003⟩], none⟩, Status.fresh 0, true⟩]

/-- Two of four brokers can both win, and both lead, before an announcement arrives. -/
theorem fourVoters_two_winners : fourVoters.roster.IsFullMesh .raft ∧
    (∀ entry ∈ fourVoters.roster, entry.1.id ≠ nobody) ∧
    (∀ member ∈ fourVoters.members, member.status.votedFor = nobody) ∧
    isPeriod { brokers := fourVoters } (twoStand 48) = true ∧
    WinsWithin { brokers := fourVoters } (twoStand 48) 1 ∧
    WinsWithin { brokers := fourVoters } (twoStand 48) 2 ∧
    (play { brokers := fourVoters } (twoStand 48)).brokers.Leads 1 ∧
    (play { brokers := fourVoters } (twoStand 48)).brokers.Leads 2 := by
  have hmesh : fourVoters.roster.IsFullMesh .raft :=
    ⟨by decide +kernel, by decide +kernel, by decide +kernel⟩
  have hids : ∀ entry ∈ fourVoters.roster, entry.1.id ≠ nobody := by decide +kernel
  have hperiod : isPeriod { brokers := fourVoters } (twoStand 48) = true := by decide +kernel
  have hfirst : (play { brokers := fourVoters } (twoStand 48)).brokers.Leads 1 := by decide +kernel
  have hsecond : (play { brokers := fourVoters } (twoStand 48)).brokers.Leads 2 := by decide +kernel
  have hnot : ∀ id, ¬ fourVoters.Leads id := by
    rintro id ⟨member, hmember, -, hrole⟩
    exact absurd hrole (by revert member; decide +kernel)
  have hfair : IsFair fourVoters.roster { brokers := fourVoters } := ⟨rfl, by simp⟩
  have hwins : ∀ {id}, (play { brokers := fourVoters } (twoStand 48)).brokers.Leads id →
      WinsWithin { brokers := fourVoters } (twoStand 48) id :=
    fun hleads => ((hfair.play hmesh hids hperiod).2.2 _ hleads).resolve_left (hnot _)
  exact ⟨hmesh, hids, by decide +kernel, hperiod, hwins hfirst, hwins hsecond, hfirst, hsecond⟩

end Net

end BrokerCluster.Election
