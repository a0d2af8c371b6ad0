import BrokerCluster.Proofs.Election.RingElection

/-!
# Elections in `ring` mode, from the first to the last step

Whoever starts an election, the candidate comes to the highest broker within one
round, the highest id makes one round, and so does the announcement.
-/
namespace BrokerCluster.Election.Cluster

variable {roster : Roster} {ring : List BrokerId} {now : Int} {before after : Cluster}

/-- The cluster when a broker stands as a candidate and nothing is left to do. -/
def standing (cluster : Cluster) (id : BrokerId) : Cluster :=
  { cluster with
    toBrokers := cluster.toBrokers.changeAll id [.role .candidate, .leader nobody]
    waiting := [] }

/-- The cluster when a candidate has yet to put itself forward. -/
def started (cluster : Cluster) (id : BrokerId) : Cluster :=
  { cluster.standing id with waiting := [(id, .forward id)] }

/-- Starting an election is to put oneself forward. -/
theorem elects_of_finishes (hring : roster.IsRing ring) (hroster : before.roster = roster)
    (hwaiting : before.waiting = []) {id next : BrokerId} (hid : roster.IsUp id)
    (hnext : roster.Precedes id next) (h : Finishes now (before.started id) after) :
    Elects now id before after := by
  subst hroster
  obtain ⟨member, hmember, howner, rfl⟩ := Brokers.exists_filter_isUp hring.nodup hid
  have hmode : member.seat.mode = .ring := hring.mode_eq _ howner
  have hinitiate : member.seat.initiate = Change.before [.role .candidate, .leader nobody]
      (member.seat.forward member.seat.id) := by
    simp only [Seat.initiate, hmode]
    rfl
  have hroster : (before.standing member.seat.id).roster = before.roster :=
    Brokers.roster_changeAll ..
  have hforward : Performs now member.seat.id (member.seat.forward member.seat.id)
      (before.standing member.seat.id) ()
      ((before.standing member.seat.id).afterElect member.seat.id next member.seat.id) :=
    performs_forward hring hroster rfl howner hnext member.seat.id
  obtain ⟨found, hfound, hseat, -⟩ := Brokers.member?_of_mem_roster (hroster ▸ hring.nodup)
    (hroster.symm ▸ howner)
  have hcomplete : Performs now member.seat.id (found.seat.complete (.forward member.seat.id))
      (before.standing member.seat.id) ()
      ((before.standing member.seat.id).afterElect member.seat.id next member.seat.id) := by
    rw [hseat]
    exact hforward
  have hfinish : Finishes now (before.started member.seat.id) after ↔ Finishes now
      ((before.standing member.seat.id).afterElect member.seat.id next member.seat.id) after :=
    finishes_cons_iff rfl hfound hcomplete
  refine Elects.of_performs hmember ?_ (hfinish.1 h)
  rw [hinitiate]
  refine Performs.changes hring.nodup ⟨_, howner, rfl⟩ ?_
  rw [hwaiting]
  exact hforward

/-- The highest broker puts itself forward after less than one round. -/
theorem exists_advances_started (now : Int) (hring : roster.IsRing ring)
    (hroster : before.roster = roster) {top id : BrokerId} {others : List BrokerId}
    (hchain : List.IsChain roster.Precedes (top :: others ++ [top])) (hnodup : others.Nodup)
    (hup : ∀ other ∈ others, roster.IsUp other) (hlt : ∀ other ∈ others, other < top)
    (hid : id = top ∨ id ∈ others) :
    ∃ count reached, count ≤ others.length ∧ Advances now count (before.started id) reached ∧
      reached.waiting = [(top, .forward top)] := by
  rcases hid with rfl | hid
  · exact ⟨0, _, Nat.zero_le _, Advances.refl _, rfl⟩
  · obtain ⟨early, path, rfl⟩ := List.append_of_mem hid
    have hwhole : List.IsChain roster.Precedes (((top :: early) ++ id :: path) ++ [top]) := hchain
    have hsuffix := Roster.isChain_of_append hwhole
    have hstarted : (before.started id).roster = roster :=
      (Brokers.roster_changeAll ..).trans hroster
    obtain ⟨reached, hreached, hwaiting⟩ := exists_advances_top now hring hstarted
      (hup id hid) hsuffix rfl (hlt id hid)
      (fun other hother => hlt other (by simp [hother])) (List.nodup_append.1 hnodup).2.1
    refine ⟨_, reached, ?_, hreached, hwaiting⟩
    simp

/-- The highest broker announces itself and registers, and nothing is left to do. -/
theorem exists_finishes_register (now : Int) (hring : roster.IsRing ring)
    (hroster : before.roster = roster) {owner : Seat} {others : List BrokerId}
    (howner : (owner, true) ∈ roster) (hsome : others ≠ [])
    (hchain : List.IsChain roster.Precedes (owner.id :: others ++ [owner.id]))
    (hnew : owner.id ∉ others) (hwaiting : before.waiting = [(owner.id, .declareLeadership)]) :
    ∃ after, Finishes now before after ∧
      Announces owner.id (others.length + 1) (others ++ [owner.id]) { before with waiting := [] }
        after ∧
      after.names = (before.registerLeader owner).names := by
  cases others with
  | nil => exact absurd rfl hsome
  | cons first path =>
    obtain ⟨hnext, hrest⟩ := List.isChain_cons_cons.1 hchain
    have hidle : Brokers.roster { before with waiting := [] }.toBrokers = roster := hroster
    obtain ⟨member, hmember, hseat, -⟩ := Brokers.member?_of_mem_roster (hroster ▸ hring.nodup)
      (hroster.symm ▸ howner)
    have hpath := acknowledges_path now hring hnext.1 hrest hnew
    obtain ⟨after, hafter, hnames, hperform⟩ := hpath.declareLeader hring hidle howner rfl hnext
    have hcomplete : Performs now owner.id (member.seat.complete .declareLeadership)
        { before with waiting := [] } () after := by
      rw [hseat]
      exact hperform
    exact ⟨after, (finishes_cons_iff hwaiting hmember hcomplete).2 (Finishes.nil hafter.waiting_eq),
      hafter, hnames⟩

/-- The way around from the highest broker leads over all others that are up, which have lower ids. -/
theorem exists_circle_below (hring : roster.IsRing ring) {top : BrokerId} (htop : roster.IsHighest top)
    (htwo : 2 ≤ roster.upIds.length) :
    ∃ others, others ≠ [] ∧ others.Nodup ∧
      List.IsChain roster.Precedes (top :: others ++ [top]) ∧
      (∀ other, roster.IsUp other ↔ other = top ∨ other ∈ others) ∧
      (∀ other ∈ others, other < top) ∧ roster.upIds.length = others.length + 1 := by
  obtain ⟨others, hsome, hperm, hchain⟩ := hring.exists_circle htop.isUp htwo
  have hup : ∀ other, roster.IsUp other ↔ other = top ∨ other ∈ others := fun other => by
    rw [← Roster.mem_upIds, ← hperm.mem_iff, List.mem_cons]
  obtain ⟨hnew, hnodup⟩ := List.nodup_cons.1 (hperm.nodup_iff.2 (Roster.nodup_upIds hring.nodup))
  refine ⟨others, hsome, hnodup, hchain, hup, fun other hother => ?_, ?_⟩
  · obtain ⟨seat, hseat, rfl⟩ := (hup other).2 (.inr hother)
    exact Int64.lt_of_le_of_ne (htop.le seat hseat) fun heq => hnew (heq ▸ hother)
  · rw [← hperm.length_eq, List.length_cons]

/-- What a whole election comes to: the contacts that put a candidate forward, all before those that
announce the leader. -/
structure RingRun (now : Int) (id : BrokerId) (before : Cluster) (leader : Seat) (after : Cluster)
    (elects declares : List Contact) : Prop where
  ends : Elects now id before after
  isHighest : before.roster.IsHighest leader.id
  crowns : before.Crowns leader after
  log_eq : after.log = before.log ++ elects ++ declares
  accepted : ∀ contact ∈ elects, contact.IsAcceptedElect
  length_elects : elects.length ≤ 2 * before.roster.upIds.length - 1
  acknowledged : ∀ contact ∈ declares, contact.IsAcceptedDeclare
  length_declares : declares.length = before.roster.upIds.length

/-- The candidate comes to the highest broker, its id goes around, and so does the announcement. -/
theorem exists_ringRun (now : Int) (hring : before.roster.IsRing ring) (hwaiting : before.waiting = [])
    (htwo : 2 ≤ before.roster.upIds.length) {id : BrokerId} (hid : before.roster.IsUp id) :
    ∃ leader after elects declares, RingRun now id before leader after elects declares := by
  obtain ⟨top, htop⟩ := Roster.exists_isHighest hid
  obtain ⟨others, hsome, hnodup, hchain, hup, hlt, hcount⟩ := exists_circle_below hring htop htwo
  obtain ⟨leader, hleader, rfl⟩ := htop.isUp
  have hnew : leader.id ∉ others := fun hmem => Int64.lt_irrefl (hlt _ hmem)
  obtain ⟨next, hnext⟩ := Roster.exists_precedes hchain (List.mem_cons.2 ((hup id).1 hid))
  -- Each of the three stages begins where the one before it ends, with the roster as it was.
  obtain ⟨count, reached, hless, hreached, hforward⟩ := exists_advances_started now hring
    rfl hchain hnodup (fun other hother => (hup other).2 (.inr hother)) hlt ((hup id).1 hid)
  have hreachedRoster : reached.roster = before.roster :=
    hreached.roster_eq.trans (Brokers.roster_changeAll ..)
  obtain ⟨crowned, hcrowned, hdeclare, hroles⟩ :=
    exists_advances_leader now hring hreachedRoster htop.isUp hchain hforward hlt
  have hcrownedRoster : crowned.roster = before.roster := hcrowned.roster_eq.trans hreachedRoster
  obtain ⟨after, hfinish, hafter, hnames⟩ :=
    exists_finishes_register now hring hcrownedRoster hleader hsome hchain hnew hdeclare
  have hroster : after.roster = before.roster := hafter.roster_eq.trans hcrownedRoster
  have hagree : after.AgreeOn leader.id := by
    refine Brokers.agreeOn_of_isSettled fun other hother matter => hafter.settled other matter ?_
    rw [hroster, hup, or_comm] at hother
    have hmem : other ∈ others ++ [leader.id] := by simpa using hother
    cases matter with
    | role => exact .inl (hroles other (.inr hmem))
    | leader => exact .inr ⟨rfl, hmem⟩
  have hregistered : after.names = (before.registerLeader leader).names := by
    have hbefore : crowned.names = before.names :=
      (hreached.trans hcrowned).names_eq.trans (Brokers.names_changeAll ..)
    rw [hnames, Brokers.names_registerLeader hbefore]
  obtain ⟨elects, helects, hlengthElects, haccepted⟩ := (hreached.trans hcrowned).log
  obtain ⟨declares, hdeclares, hlengthDeclares, hacknowledged⟩ := hafter.log
  exact ⟨leader, after, elects, declares,
    { ends := elects_of_finishes hring rfl hwaiting hid hnext
        ((hreached.trans hcrowned).finishes after hfinish)
      isHighest := htop
      crowns := ⟨hleader, hafter.waiting_eq, hroster, hagree, hregistered⟩
      log_eq := hdeclares.trans (congrArg (· ++ declares) helects)
      accepted := haccepted
      length_elects := by omega
      acknowledged := hacknowledged
      length_declares := by omega }⟩

/-- **Election in `ring` mode.** Take a ring in which `n ≥ 2` brokers are up and nothing is left to
do, and let any of them start an election. It ends, after at most `2 n - 1` requests that put a
candidate forward and then exactly `n` that announce the leader, all of them accepted; the highest
broker that is up leads and all that are up follow it. -/
theorem agreeOn_elect (cluster : Cluster) {ring : List BrokerId}
    (hring : cluster.roster.IsRing ring) (hwaiting : cluster.waiting = [])
    (htwo : 2 ≤ cluster.roster.upIds.length) {id : BrokerId} (hid : cluster.roster.IsUp id)
    (now : Int) :
    ∃ after top elects declares, Elects now id cluster after ∧ after.waiting = [] ∧
      cluster.roster.IsHighest top ∧ after.roster = cluster.roster ∧ after.AgreeOn top ∧
      after.log = cluster.log ++ elects ++ declares ∧
      (∀ contact ∈ elects, contact.IsAcceptedElect) ∧
      elects.length ≤ 2 * cluster.roster.upIds.length - 1 ∧
      (∀ contact ∈ declares, contact.IsAcceptedDeclare) ∧
      declares.length = cluster.roster.upIds.length := by
  obtain ⟨leader, after, elects, declares, h⟩ := exists_ringRun now hring hwaiting htwo hid
  exact ⟨after, leader.id, elects, declares, h.ends, h.crowns.waiting_eq, h.isHighest,
    h.crowns.roster_eq, h.crowns.agreeOn, h.log_eq, h.accepted, h.length_elects, h.acknowledged,
    h.length_declares⟩

/-- Four brokers in a ring, of which the highest is down; none knows of an election. -/
def fourInRing : Cluster where
  members := [
    ⟨⟨1, .ring, [⟨4, "d", 8004⟩, ⟨2, "b", 8002⟩, ⟨3, "c", 8003⟩], none⟩,
      Status.fresh 0, true⟩,
    ⟨⟨2, .ring, [⟨3, "c", 8003⟩, ⟨1, "a", 8001⟩, ⟨4, "d", 8004⟩], none⟩,
      Status.fresh 0, true⟩,
    ⟨⟨3, .ring, [⟨1, "a", 8001⟩, ⟨4, "d", 8004⟩, ⟨2, "b", 8002⟩], none⟩,
      Status.fresh 0, true⟩,
    ⟨⟨4, .ring, [⟨2, "b", 8002⟩, ⟨3, "c", 8003⟩, ⟨1, "a", 8001⟩], none⟩,
      ⟨.leader, 4, nobody, 0⟩, false⟩]

/-- The broker that is down is passed over in every round. -/
theorem fourInRing_agreeOn : fourInRing.waiting = [] ∧ 2 ≤ fourInRing.roster.upIds.length ∧
    fourInRing.roster.IsUp 2 ∧ ∃ after top elects declares, Elects 0 2 fourInRing after ∧
      after.waiting = [] ∧ fourInRing.roster.IsHighest top ∧ after.roster = fourInRing.roster ∧
      after.AgreeOn top ∧ after.log = fourInRing.log ++ elects ++ declares ∧
      (∀ contact ∈ elects, contact.IsAcceptedElect) ∧
      elects.length ≤ 2 * fourInRing.roster.upIds.length - 1 ∧
      (∀ contact ∈ declares, contact.IsAcceptedDeclare) ∧
      declares.length = fourInRing.roster.upIds.length := by
  have hring : fourInRing.roster.IsRing [1, 4, 2, 3] :=
    ⟨by decide +kernel, by decide +kernel, by decide +kernel, by decide +kernel⟩
  have hwaiting : fourInRing.waiting = [] := rfl
  have htwo : 2 ≤ fourInRing.roster.upIds.length := by decide +kernel
  have hup : fourInRing.roster.IsUp 2 := Roster.mem_upIds.1 (by decide +kernel)
  exact ⟨hwaiting, htwo, hup, agreeOn_elect fourInRing hring hwaiting htwo hup 0⟩

end BrokerCluster.Election.Cluster
