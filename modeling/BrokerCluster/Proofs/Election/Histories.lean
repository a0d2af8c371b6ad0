import BrokerCluster.Proofs.Election.BullyElection
import BrokerCluster.Proofs.Election.RaftElection
import BrokerCluster.Proofs.Election.RingOutcomes
import BrokerCluster.Proofs.Naming.Registration

/-!
# Leaders over the history of a cluster

However elections and failures follow one another, at most one broker that is up has the
role of the leader, and then all that are up follow it and its address is registered for
the leader's name. An election that fails leaves no leader behind.
-/
namespace BrokerCluster.Election

/-- A ring, or a full mesh in `bully` or `raft` mode. -/
def Roster.IsArranged (roster : Roster) : Prop :=
  (∃ ring, roster.IsRing ring) ∨ roster.IsFullMesh .bully ∨ roster.IsFullMesh .raft

/-- Whoever leads is to register for the name `domain`, and can. -/
def Roster.Registers (domain : String) (roster : Roster) : Prop :=
  ∀ entry ∈ roster, ∃ r, entry.1.registration = some r ∧ r.electionDomain = domain ∧
    Naming.IsRegistrable domain r.address

namespace Roster

variable {before after : Roster}

theorem exists_entry_of_seats_eq (h : after.map Prod.fst = before.map Prod.fst)
    {entry : Seat × Bool} (hentry : entry ∈ after) : ∃ other ∈ before, other.1 = entry.1 := by
  have hmem : entry.1 ∈ before.map Prod.fst := h ▸ List.mem_map_of_mem hentry
  exact List.mem_map.1 hmem

theorem ids_eq_of_seats_eq (h : after.map Prod.fst = before.map Prod.fst) : after.ids = before.ids := by
  have hids : ∀ roster : Roster, roster.ids = (roster.map Prod.fst).map (·.id) := by
    simp [ids]
  rw [hids, hids, h]

theorem IsRing.of_seats_eq {ring : List BrokerId} (hring : before.IsRing ring)
    (h : after.map Prod.fst = before.map Prod.fst) : after.IsRing ring := by
  have hids := ids_eq_of_seats_eq h
  refine ⟨fun entry hentry => ?_, hids ▸ hring.nodup, hids ▸ hring.perm, fun entry hentry => ?_⟩
  · obtain ⟨other, hother, heq⟩ := exists_entry_of_seats_eq h hentry
    exact heq ▸ hring.mode_eq other hother
  · obtain ⟨other, hother, heq⟩ := exists_entry_of_seats_eq h hentry
    exact heq ▸ hring.peers other hother

theorem IsFullMesh.of_seats_eq {mode : Mode} (hmesh : before.IsFullMesh mode)
    (h : after.map Prod.fst = before.map Prod.fst) : after.IsFullMesh mode := by
  have hids := ids_eq_of_seats_eq h
  refine ⟨fun entry hentry => ?_, hids ▸ hmesh.nodup, fun entry hentry => ?_⟩
  · obtain ⟨other, hother, heq⟩ := exists_entry_of_seats_eq h hentry
    exact heq ▸ hmesh.mode_eq other hother
  · obtain ⟨other, hother, heq⟩ := exists_entry_of_seats_eq h hentry
    rw [hids]
    exact heq ▸ hmesh.peers other hother

theorem IsArranged.of_seats_eq (harranged : before.IsArranged)
    (h : after.map Prod.fst = before.map Prod.fst) : after.IsArranged := by
  rcases harranged with ⟨ring, hring⟩ | hmesh | hmesh
  · exact .inl ⟨ring, hring.of_seats_eq h⟩
  · exact .inr (.inl (hmesh.of_seats_eq h))
  · exact .inr (.inr (hmesh.of_seats_eq h))

theorem Registers.of_seats_eq {domain : String} (hregisters : before.Registers domain)
    (h : after.map Prod.fst = before.map Prod.fst) : after.Registers domain := by
  intro entry hentry
  obtain ⟨other, hother, heq⟩ := exists_entry_of_seats_eq h hentry
  exact heq ▸ hregisters other hother

theorem IsArranged.nodup {roster : Roster} (h : roster.IsArranged) : roster.ids.Nodup := by
  rcases h with ⟨ring, hring⟩ | hmesh | hmesh
  · exact hring.nodup
  · exact hmesh.nodup
  · exact hmesh.nodup

theorem IsArranged.isEnabled {roster : Roster} (h : roster.IsArranged) {entry : Seat × Bool}
    (hentry : entry ∈ roster) : entry.1.mode.isEnabled = true := by
  rcases h with ⟨ring, hring⟩ | hmesh | hmesh
  · rw [hring.mode_eq entry hentry]
    rfl
  · rw [hmesh.mode_eq entry hentry]
    rfl
  · rw [hmesh.mode_eq entry hentry]
    rfl

end Roster

def Member.Leads (member : Member) : Prop := member.isUp = true ∧ member.status.role = .leader

/-- There is at most one leader; who is up follows it, and `domain` is registered for it. -/
structure Brokers.IsSafe (domain : String) (brokers : Brokers) : Prop where
  unique : ∀ a ∈ brokers.members, ∀ b ∈ brokers.members, a.Leads → b.Leads → a = b
  followed : ∀ leader ∈ brokers.members, leader.Leads →
    ∀ member ∈ brokers.members, member.isUp → member.status.leaderId = leader.seat.id
  registered : ∀ leader ∈ brokers.members, leader.Leads → ∃ r, leader.seat.registration = some r ∧
    brokers.names.bind (·.address? domain) = some r.address

theorem Brokers.isSafe_of_no_leader {domain : String} {brokers : Brokers}
    (h : ∀ member ∈ brokers.members, ¬ member.Leads) : brokers.IsSafe domain where
  unique := fun a ha _ _ hleads => absurd hleads (h a ha)
  followed := fun leader hleader hleads => absurd hleads (h leader hleader)
  registered := fun leader hleader hleads => absurd hleads (h leader hleader)

namespace Cluster

variable {domain : String} {before after : Cluster}

/-- An election with a winner leaves the winner's address under the name. -/
theorem Crowns.isSafe {leader : Seat} (h : before.Crowns leader after)
    (harranged : before.roster.IsArranged) (hregisters : before.roster.Registers domain)
    (hnames : before.names.isSome) : after.names.isSome ∧ after.IsSafe domain := by
  obtain ⟨r, hr, rfl, hfits⟩ := hregisters _ h.isUp
  obtain ⟨table, htable⟩ := Option.isSome_iff_exists.1 hnames
  have henabled : leader.mode.isEnabled = true := harranged.isEnabled h.isUp
  have hafter : after.names = some (table.register r.electionDomain r.address) := by
    rw [h.names_eq, Brokers.registerLeader, hr]
    simp only [Brokers.register, htable, Option.map_some, henabled, if_true,
      Naming.run_register _ _ hfits]
  have hnodup : after.roster.ids.Nodup := h.roster_eq.symm ▸ harranged.nodup
  have hseat : ∀ member ∈ after.members, member.Leads → member.seat = leader := by
    intro member hmember hleads
    have hentry := Brokers.mem_roster hmember
    rw [hleads.1, h.roster_eq] at hentry
    have hrole := (h.agreeOn member hmember hleads.1).2
    rw [hleads.2] at hrole
    have hid : member.seat.id = leader.id := by
      by_contra hne
      rw [if_neg hne] at hrole
      cases hrole
    exact congrArg Prod.fst (Roster.eq_of_id_eq harranged.nodup hentry h.isUp hid)
  refine ⟨by simp [hafter], fun a ha b hb hleadsA hleadsB => ?_,
    fun member hmember hleads other hother hup => ?_, fun member hmember hleads => ⟨r, ?_, ?_⟩⟩
  · have hsame : a.seat = b.seat := (hseat a ha hleadsA).trans (hseat b hb hleadsB).symm
    have ha' := Brokers.member?_of_mem hnodup ha
    rw [hsame, Brokers.member?_of_mem hnodup hb] at ha'
    exact (Option.some.inj ha').symm
  · rw [(h.agreeOn other hother hup).1, hseat member hmember hleads]
  · rw [hseat member hmember hleads, hr]
  · rw [hafter, Option.bind_some, Naming.Table.address?_register, if_pos rfl]

/-- Without a leader there is nothing to be consistent with. -/
theorem Lapses.isSafe (h : before.Lapses after) : after.IsSafe domain :=
  Brokers.isSafe_of_no_leader fun member hmember hleads => by
    have hrole := (h.isCandidate member hmember hleads.1).1
    rw [hleads.2] at hrole
    cases hrole

structure IsSound (domain : String) (cluster : Cluster) : Prop where
  arranged : cluster.roster.IsArranged
  registers : cluster.roster.Registers domain
  names_isSome : cluster.names.isSome
  waiting_eq : cluster.waiting = []
  safe : cluster.IsSafe domain

/-- An election from a broker that is up ends with a leader or without. -/
theorem IsSound.exists_elects (h : before.IsSound domain) (id : BrokerId) (now : Int) :
    ∃ after, Elects now id before after ∧ after.IsSound domain := by
  have hend : ∀ {owner : Seat} {after : Cluster}, Elects now owner.id before after →
      (∃ leader, before.Crowns leader after) ∨ before.Lapses after →
      ∃ after, Elects now owner.id before after ∧ after.IsSound domain := by
    rintro owner after helects (⟨leader, hcrowns⟩ | hlapses)
    · obtain ⟨hnames, hsafe⟩ := hcrowns.isSafe h.arranged h.registers h.names_isSome
      exact ⟨after, helects, hcrowns.roster_eq ▸ h.arranged, hcrowns.roster_eq ▸ h.registers, hnames,
        hcrowns.waiting_eq, hsafe⟩
    · exact ⟨after, helects, hlapses.roster_eq ▸ h.arranged, hlapses.roster_eq ▸ h.registers,
        hlapses.names_eq ▸ h.names_isSome, hlapses.waiting_eq, hlapses.isSafe⟩
  cases hfound : (before.member? id).filter (·.isUp) with
  | none => exact ⟨before, Elects.of_down hfound, h⟩
  | some member =>
    obtain ⟨howner, rfl⟩ := Brokers.isUp_of_filter_eq_some hfound
    rcases h.arranged with ⟨ring, hring⟩ | hmesh | hmesh
    · by_cases htwo : 2 ≤ before.roster.upIds.length
      · obtain ⟨leader, after, _, _, hrun⟩ :=
          exists_ringRun now hring h.waiting_eq htwo ⟨_, howner, rfl⟩
        exact hend hrun.ends (.inl ⟨leader, hrun.crowns⟩)
      · obtain ⟨after, helects, hlapses⟩ :=
          exists_lapses_ring now hring rfl h.waiting_eq (Nat.not_le.1 htwo) howner
        exact hend helects (.inr hlapses)
    · obtain ⟨after, leader, helects, hcrowns⟩ :=
        exists_crowns_bully hmesh now rfl h.waiting_eq howner
      exact hend helects (.inl ⟨leader, hcrowns⟩)
    · obtain ⟨after, helects, hends⟩ :=
        exists_crowns_or_lapses_raft hmesh now rfl h.waiting_eq howner
      exact hend helects (hends.imp_left fun hcrowns => ⟨_, hcrowns⟩)

theorem seats_shutDown (cluster : Cluster) (id : BrokerId) :
    (cluster.shutDown id).roster.map Prod.fst = cluster.roster.map Prod.fst := by
  simp only [Brokers.roster, shutDown, Brokers.update, List.map_map]
  refine List.map_congr_left fun member _ => ?_
  simp only [Function.comp_apply]
  split <;> rfl

/-- Whoever is up after a broker was shut down was up before, and is as it was. -/
theorem mem_of_mem_shutDown {id : BrokerId} {member : Member}
    (h : member ∈ (before.shutDown id).members) (hup : member.isUp = true) :
    member ∈ before.members := by
  obtain ⟨start, hstart, rfl⟩ := List.mem_map.1 h
  split at hup
  · cases hup
  · next hother =>
    rw [if_neg hother]
    exact hstart

/-- A broker that is shut down, be it the leader, leaves all others as they were. -/
theorem IsSound.shutDown (h : before.IsSound domain) (id : BrokerId) :
    (before.shutDown id).IsSound domain where
  arranged := h.arranged.of_seats_eq (seats_shutDown before id)
  registers := h.registers.of_seats_eq (seats_shutDown before id)
  names_isSome := h.names_isSome
  waiting_eq := h.waiting_eq
  safe :=
    { unique := fun a ha b hb hleadsA hleadsB =>
        h.safe.unique a (mem_of_mem_shutDown ha hleadsA.1) b (mem_of_mem_shutDown hb hleadsB.1) hleadsA
          hleadsB
      followed := fun leader hleader hleads member hmember hup =>
        h.safe.followed leader (mem_of_mem_shutDown hleader hleads.1) hleads member
          (mem_of_mem_shutDown hmember hup) hup
      registered := fun leader hleader hleads =>
        h.safe.registered leader (mem_of_mem_shutDown hleader hleads.1) hleads }

/-- A history comes to its end, and what it preserves holds there. -/
theorem IsSound.exists_runs (h : before.IsSound domain) (events : List Event) :
    ∃ after, Runs events before after ∧ after.IsSound domain := by
  induction events generalizing before with
  | nil => exact ⟨before, rfl, h⟩
  | cons event later ih =>
    cases event with
    | elect id now =>
      obtain ⟨between, hbetween, hsound⟩ := h.exists_elects id now
      obtain ⟨after, hafter, hend⟩ := ih hsound
      exact ⟨after, ⟨between, hbetween, hafter⟩, hend⟩
    | shutDown id =>
      obtain ⟨after, hafter, hend⟩ := ih (h.shutDown id)
      exact ⟨after, ⟨_, rfl, hafter⟩, hend⟩

/-- **Safety over histories.** Take a ring, or a full mesh in `bully` or `raft` mode, that starts
afresh and in which every broker registers for `domain` at the one name server, with words that fit
on a line. However elections from brokers that are up and failures follow one another, every election
comes to its end, and at any time at most one broker that is up leads; if one does, all that are up
follow it and `domain` is registered for it. -/
theorem isSafe_of_runs (cluster : Cluster) (domain : String)
    (harranged : cluster.roster.IsArranged) (hregisters : cluster.roster.Registers domain)
    (hnames : cluster.names.isSome) (hidle : cluster.waiting = [])
    (hfresh : ∀ member ∈ cluster.members, ∃ time, member.status = .fresh time)
    (events : List Event) :
    (∃ after, Runs events cluster after) ∧
      ∀ after, Runs events cluster after → after.IsSafe domain := by
  have hsafe : cluster.IsSafe domain := Brokers.isSafe_of_no_leader fun member hmember hleads => by
    obtain ⟨time, htime⟩ := hfresh member hmember
    have hrole := hleads.2
    rw [htime] at hrole
    cases hrole
  have hsound : cluster.IsSound domain := ⟨harranged, hregisters, hnames, hidle, hsafe⟩
  obtain ⟨after, hafter, hend⟩ := hsound.exists_runs events
  exact ⟨⟨after, hafter⟩, fun other hother => hafter.unique hother ▸ hend.safe⟩

/-- Three brokers in `bully` mode that register for the name `leader`. -/
def threeRegistered : Cluster where
  members := [
    ⟨⟨1, .bully, [⟨2, "b", 8002⟩, ⟨3, "c", 8003⟩], some ⟨"one", "leader", "a:7001"⟩⟩,
      Status.fresh 0, true⟩,
    ⟨⟨2, .bully, [⟨1, "a", 8001⟩, ⟨3, "c", 8003⟩], some ⟨"two", "leader", "b:7002"⟩⟩,
      Status.fresh 0, true⟩,
    ⟨⟨3, .bully, [⟨1, "a", 8001⟩, ⟨2, "b", 8002⟩], some ⟨"three", "leader", "c:7003"⟩⟩,
      Status.fresh 0, true⟩]
  names := some []

/-- The leader that was elected first fails, and another is elected. -/
def replaced : List Event := [.elect 1 0, .shutDown 3, .elect 1 5]

/-- The address of the first leader is replaced by that of the second. -/
theorem threeRegistered_isSafe : threeRegistered.roster.IsArranged ∧
    threeRegistered.roster.Registers "leader" ∧ threeRegistered.names.isSome ∧
    threeRegistered.waiting = [] ∧
    (∀ member ∈ threeRegistered.members, ∃ time, member.status = .fresh time) ∧
    (∃ after, Runs replaced threeRegistered after) ∧
      ∀ after, Runs replaced threeRegistered after → after.IsSafe "leader" := by
  have harranged : threeRegistered.roster.IsArranged :=
    .inr (.inl ⟨by decide +kernel, by decide +kernel, by decide +kernel⟩)
  have hregisters : threeRegistered.roster.Registers "leader" := by
    intro entry hentry
    simp only [threeRegistered, Brokers.roster, List.map_cons, List.map_nil, List.mem_cons,
      List.not_mem_nil, or_false] at hentry
    rcases hentry with rfl | rfl | rfl
    · exact ⟨_, rfl, rfl, by decide, by decide, by decide +kernel⟩
    · exact ⟨_, rfl, rfl, by decide, by decide, by decide +kernel⟩
    · exact ⟨_, rfl, rfl, by decide, by decide, by decide +kernel⟩
  have hfresh : ∀ member ∈ threeRegistered.members, ∃ time, member.status = .fresh time :=
    fun member hmember => ⟨0, by revert member; decide +kernel⟩
  exact ⟨harranged, hregisters, rfl, rfl, hfresh,
    isSafe_of_runs threeRegistered "leader" harranged hregisters rfl rfl hfresh replaced⟩

/-- A name that leaves no room for an address on a line. -/
def longDomain : String := String.ofList (List.replicate Wire.lineLimit 'd')

/-- A broker on its own that registers for a name too long to register. -/
def longRegistered : Cluster where
  members := [⟨⟨1, .bully, [], some ⟨"one", longDomain, "a:7001"⟩⟩, Status.fresh 0, true⟩]
  names := some []

theorem isWord_longDomain : Text.IsWord longDomain where
  ne_empty := by
    intro hempty
    have hlist := congrArg String.toList hempty
    rw [longDomain, String.toList_ofList] at hlist
    have hlength := congrArg List.length hlist
    rw [List.length_replicate] at hlength
    cases hlength
  not_blank := by
    intro c hc
    rw [longDomain, String.toList_ofList] at hc
    rw [List.eq_of_mem_replicate hc]
    decide

theorem lineLimit_lt_registerLine (address : String) :
    Wire.lineLimit < (Text.encode (Naming.Client.registerLine longDomain address)).length := by
  have hdomain : (Text.encode longDomain).length = Wire.lineLimit := by
    have hone : 'd'.utf8Size = 1 := by decide
    simp [Text.encode, longDomain, List.length_flatMap, hone]
  have hregister : (Text.encode "register ").length = 9 := by decide
  rw [Naming.Client.registerLine, Text.encode_append, Text.encode_append, Text.encode_append]
  simp only [List.length_append]
  omega

/-- A leader need not be registered: its name may be too long for a line. -/
theorem longRegistered_not_isSafe : longRegistered.roster.IsArranged ∧
    (∀ member ∈ longRegistered.members, member.status = .fresh 0) ∧
    longRegistered.names.isSome ∧ Text.IsWord longDomain ∧
    (∀ entry ∈ longRegistered.roster, ∃ r, entry.1.registration = some r ∧
      r.electionDomain = longDomain ∧ Text.IsWord r.address) ∧
    ∃ after, Runs [.elect 1 0] longRegistered after ∧ (∃ leader ∈ after.members, leader.Leads) ∧
      after.names.bind (·.address? longDomain) = none ∧ ¬ after.IsSafe longDomain := by
  have hroster : longRegistered.roster =
      [(⟨1, .bully, [], some ⟨"one", longDomain, "a:7001"⟩⟩, true)] := rfl
  have hmesh : longRegistered.roster.IsFullMesh .bully := by
    rw [hroster]
    exact ⟨by simp, by simp [Roster.ids], by simp [Roster.ids]⟩
  have haddress : Text.IsWord "a:7001" := by decide
  obtain ⟨after, leader, helects, hcrowns⟩ := exists_crowns_bully hmesh 0 rfl rfl List.mem_cons_self
  have hleader : leader = ⟨1, .bully, [], some ⟨"one", longDomain, "a:7001"⟩⟩ := by
    have hentry := hcrowns.isUp
    rw [hroster, List.mem_singleton] at hentry
    exact congrArg Prod.fst hentry
  have hnames : after.names = some [] := by
    rw [hcrowns.names_eq, hleader]
    exact congrArg some (Naming.run_register_of_long isWord_longDomain haddress
      (lineLimit_lt_registerLine "a:7001") [])
  have hunknown : after.names.bind (·.address? longDomain) = none := by
    rw [hnames]
    rfl
  obtain ⟨member, hmember, hseat, hup⟩ := Brokers.member?_of_mem_roster
    (hcrowns.roster_eq.symm ▸ hmesh.nodup) (hcrowns.roster_eq.symm ▸ hcrowns.isUp)
  have hmem : member ∈ after.members := List.mem_of_find?_eq_some hmember
  have hleads : member.Leads := by
    refine ⟨hup, ?_⟩
    rw [(hcrowns.agreeOn member hmem hup).2, hseat, if_pos rfl]
  refine ⟨.inr (.inl hmesh), by simp [longRegistered], rfl, isWord_longDomain, ?_, after,
    ⟨after, helects, rfl⟩, ⟨member, hmem, hleads⟩, hunknown, fun hsafe => ?_⟩
  · rw [hroster]
    intro entry hentry
    rw [List.mem_singleton.1 hentry]
    exact ⟨_, rfl, rfl, haddress⟩
  · obtain ⟨r, -, hr⟩ := hsafe.registered member hmem hleads
    rw [hunknown] at hr
    cases hr

end Cluster

end BrokerCluster.Election
