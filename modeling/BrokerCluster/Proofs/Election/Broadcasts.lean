import BrokerCluster.Proofs.Election.Execution

/-!
# Asking all peers, one after another

Some requests a broker answers on its own: it changes its status and asks nobody. When
such a request goes to all peers of a broker, each that is up changes its status once,
and which of the replies count follows from the statuses before.
-/
namespace BrokerCluster.Election

namespace Brokers

theorem member?_updateStatus (brokers : Brokers) (id other : BrokerId) (change : Status → Status) :
    (brokers.updateStatus id change).member? other = (brokers.member? other).map fun member =>
      if other = id then { member with status := change member.status } else member := by
  have hids : ∀ member : Member, (member.seat.id == other) =
      ((if member.seat.id = id then { member with status := change member.status }
        else member : Member).seat.id == other) := by
    intro member
    split <;> rfl
  rw [member?, updateStatus, update, List.find?_map]
  simp only [Function.comp_def, ← hids]
  refine Option.map_congr fun member hmember => ?_
  have hid : member.seat.id = other := by simpa using List.find?_some hmember
  rw [hid]

theorem updateStatus_updateStatus (brokers : Brokers) (id : BrokerId)
    (first later : Status → Status) :
    (brokers.updateStatus id first).updateStatus id later =
      brokers.updateStatus id (later ∘ first) := by
  simp only [updateStatus, update, List.map_map]
  refine congrArg (Brokers.mk · brokers.names) (List.map_congr_left fun member _ => ?_)
  simp only [Function.comp_apply]
  split
  · simp_all
  · simp_all

/-- The brokers after each of some, if it is up, has changed its status. -/
def updateUp (brokers : Brokers) (ids : List BrokerId) (change : Status → Status) : Brokers :=
  { brokers with
    members := brokers.members.map fun member =>
      if member.isUp ∧ member.seat.id ∈ ids then { member with status := change member.status }
      else member }

@[simp] theorem roster_updateUp (brokers : Brokers) (ids : List BrokerId)
    (change : Status → Status) : (brokers.updateUp ids change).roster = brokers.roster := by
  simp only [roster, updateUp, List.map_map]
  refine List.map_congr_left fun member _ => ?_
  simp only [Function.comp_apply]
  split <;> rfl

theorem mem_members_updateUp {brokers : Brokers} {ids : List BrokerId} {change : Status → Status}
    {member : Member} :
    member ∈ (brokers.updateUp ids change).members ↔ ∃ before ∈ brokers.members,
      member = if before.isUp ∧ before.seat.id ∈ ids
        then { before with status := change before.status } else before := by
  simp only [updateUp, List.mem_map, eq_comm]

/-- Only brokers that are up and among those ids have changed. -/
theorem member?_updateUp (brokers : Brokers) (ids : List BrokerId) (other : BrokerId)
    (change : Status → Status) :
    (brokers.updateUp ids change).member? other = (brokers.member? other).map fun member =>
      if member.isUp ∧ other ∈ ids then { member with status := change member.status }
      else member := by
  have hids : ∀ member : Member, (member.seat.id == other) =
      ((if member.isUp ∧ member.seat.id ∈ ids then { member with status := change member.status }
        else member : Member).seat.id == other) := by
    intro member
    split <;> rfl
  rw [member?, updateUp, List.find?_map]
  simp only [Function.comp_def, ← hids]
  refine Option.map_congr fun member hmember => ?_
  have hid : member.seat.id = other := by simpa using List.find?_some hmember
  rw [hid]

theorem updateUp_nil (brokers : Brokers) (change : Status → Status) :
    brokers.updateUp [] change = brokers := by
  simp [updateUp]

/-- A broker that is down, or is none of the cluster's, changes nothing. -/
theorem updateUp_cons_of_down {brokers : Brokers} {id : BrokerId}
    (h : ¬ brokers.roster.IsUp id) (ids : List BrokerId) (change : Status → Status) :
    brokers.updateUp (id :: ids) change = brokers.updateUp ids change := by
  refine congrArg (Brokers.mk · brokers.names) (List.map_congr_left fun member hmember => ?_)
  have hne : member.isUp = true → member.seat.id ≠ id := by
    rintro hup rfl
    have hentry := mem_roster hmember
    rw [hup] at hentry
    exact h ⟨_, hentry, rfl⟩
  refine if_congr (and_congr_right fun hup => ?_) rfl rfl
  rw [List.mem_cons, or_iff_right (hne hup)]

/-- The first of some brokers changes its status, and then the others do. -/
theorem updateUp_updateStatus {brokers : Brokers} (hnodup : brokers.roster.ids.Nodup)
    {id : BrokerId} (hup : brokers.roster.IsUp id) {ids : List BrokerId} (hnew : id ∉ ids)
    (change : Status → Status) :
    (brokers.updateStatus id change).updateUp ids change = brokers.updateUp (id :: ids) change := by
  have hmembers : (brokers.updateStatus id change).members = brokers.members.map fun member =>
      if member.seat.id = id then { member with status := change member.status } else member := rfl
  refine congrArg (Brokers.mk · brokers.names) ?_
  rw [hmembers, List.map_map]
  refine List.map_congr_left fun member hmember => ?_
  simp only [Function.comp_apply]
  by_cases hid : member.seat.id = id
  · obtain ⟨seat, hseat, rfl⟩ := hup
    have hsame := Roster.eq_of_id_eq hnodup (mem_roster hmember) hseat hid
    have hisUp : member.isUp = true := congrArg Prod.snd hsame
    simp [hid, hnew, hisUp]
  · simp [hid]

/-- The reply of a broker, if it is up; `reply` says what it is, given its status. -/
def heard? (brokers : Brokers) (reply : BrokerId → Status → String) (id : BrokerId) :
    Option String :=
  ((brokers.member? id).filter (·.isUp)).map fun member => reply id member.status

theorem heard?_updateStatus_of_ne (brokers : Brokers) (reply : BrokerId → Status → String)
    (change : Status → Status) {id other : BrokerId} (hne : other ≠ id) :
    (brokers.updateStatus id change).heard? reply other = brokers.heard? reply other := by
  simp [heard?, member?_updateStatus, hne]

end Brokers

namespace Cluster

variable {roster : Roster} {now : Int} {id : BrokerId} {before : Cluster} {line : String}
  {change : Status → Status} {reply : BrokerId → Status → String}

/-- What a broker does to its status needs no more than that the broker is there. -/
theorem Performs.update_of_isUp {α : Type} {change : Status → Status} {action : Action α}
    {result : α} {after : Cluster} (hnodup : before.roster.ids.Nodup) (hup : before.roster.IsUp id)
    (h : Performs now id action
      { before with toBrokers := before.toBrokers.updateStatus id change } result after) :
    Performs now id (.update change fun _ => action) before result after := by
  obtain ⟨seat, hseat, rfl⟩ := hup
  obtain ⟨member, hmember, -, -⟩ := Brokers.member?_of_mem_roster hnodup hseat
  exact Performs.update hmember h

/-- Every broker that is up answers a line on its own: it changes its status, and its reply follows
from what its status was. -/
def Answers (now : Int) (roster : Roster) (line : String) (change : Status → Status)
    (reply : BrokerId → Status → String) : Prop :=
  ∀ (before : Cluster) (member : Member), before.roster = roster → member ∈ before.members →
    member.isUp = true →
    Performs now member.seat.id (member.seat.answer now (.ofLine line)) before
      { reply := some (reply member.seat.id member.status) }
      { before with toBrokers := before.toBrokers.updateStatus member.seat.id change }

/-- What follows the reply of the first peer: the other replies are counted too. -/
def countOn (line : String) (test : Option String → Bool) (rest : List Peer)
    (heard : Option String) : Action Nat :=
  (Election.countReplies Action.askPeer line test rest).bind fun others =>
    .done (if test heard then others + 1 else others)

theorem countReplies_cons (line : String) (test : Option String → Bool) (peer : Peer)
    (rest : List Peer) :
    Election.countReplies Action.askPeer line test (peer :: rest) =
      .ask peer line (countOn line test rest) := rfl

/-- The reply of the first peer is counted along with the others. -/
theorem performs_countOn {test : Option String → Bool} {rest : List Peer} {others : Nat}
    {after : Cluster}
    (h : Performs now id (Election.countReplies Action.askPeer line test rest) before others after)
    (heard : Option String) :
    Performs now id (countOn line test rest heard) before
      (others + if test heard then 1 else 0) after := by
  refine Performs.bind h ?_
  have hsum : (if test heard then others + 1 else others) = others + if test heard then 1 else 0 := by
    split <;> rfl
  rw [hsum]
  exact Performs.done _ _

/-- A peer that is up is asked, and what was asked for goes on with its reply. -/
theorem Answers.ask {α : Type} {peer : Peer} {member : Member} {next : Option String → Action α}
    {result : α} {after : Cluster} (h : Answers now roster line change reply)
    (hroster : before.roster = roster)
    (hfound : (before.member? peer.id).filter (·.isUp) = some member)
    (hnext : Performs now id (next (some (reply peer.id member.status)))
      { before with
        toBrokers := before.toBrokers.updateStatus peer.id change
        log := before.log ++ [⟨id, peer.id, line, some (reply peer.id member.status)⟩] } result after) :
    Performs now id (.ask peer line next) before result after := by
  obtain ⟨hfind, hup⟩ := Option.filter_eq_some_iff.1 hfound
  obtain ⟨-, hid⟩ := Brokers.isUp_of_filter_eq_some hfound
  have hanswer := h { before with log := before.log ++ [⟨id, peer.id, line, none⟩] } member
    hroster (List.mem_of_find?_eq_some hfind) hup
  rw [hid] at hanswer
  refine Performs.ask_up hfound hanswer rfl ?_
  have hwaiting : before.waiting ++ ([] : List (BrokerId × FollowUp)) = before.waiting :=
    List.append_nil _
  simpa only [Option.toList_none, List.map_nil, hwaiting] using hnext

/-- All peers are asked: those that are up change their status, and the replies that pass the test are
counted. -/
theorem Answers.countReplies (hnodup : roster.ids.Nodup) (h : Answers now roster line change reply)
    (hroster : before.roster = roster) {peers : List Peer} (hpeers : (peers.map (·.id)).Nodup)
    (test : Option String → Bool) :
    ∃ log, Performs now id (Election.countReplies Action.askPeer line test peers) before
      (peers.countP fun peer => test (before.heard? reply peer.id))
      { before with
        toBrokers := before.toBrokers.updateUp (peers.map (·.id)) change
        log := log } := by
  induction peers generalizing before with
  | nil =>
    refine ⟨before.log, ?_⟩
    rw [List.map_nil, Brokers.updateUp_nil]
    exact Performs.done 0 before
  | cons peer rest ih =>
    rw [List.map_cons, List.nodup_cons] at hpeers
    obtain ⟨hnew, hrest⟩ := hpeers
    cases hfound : (before.member? peer.id).filter (·.isUp) with
    | none =>
      have hdown : ¬ before.roster.IsUp peer.id := by
        intro hup
        obtain ⟨member, hmember, -⟩ := Brokers.exists_filter_isUp (hroster ▸ hnodup) hup
        rw [hfound] at hmember
        cases hmember
      have hheard : before.heard? reply peer.id = none := by simp [Brokers.heard?, hfound]
      obtain ⟨log, hothers⟩ := ih hroster hrest
      refine ⟨log, ?_⟩
      rw [List.map_cons, Brokers.updateUp_cons_of_down hdown, List.countP_cons, hheard]
      exact Performs.ask_down hfound (performs_countOn hothers none)
    | some member =>
      obtain ⟨hentry, hid⟩ := Brokers.isUp_of_filter_eq_some hfound
      have hup : before.roster.IsUp peer.id := ⟨member.seat, hentry, hid⟩
      have hheard : before.heard? reply peer.id = some (reply peer.id member.status) := by
        simp [Brokers.heard?, hfound]
      let asked : Cluster := { before with
        toBrokers := before.toBrokers.updateStatus peer.id change
        log := before.log ++ [⟨id, peer.id, line, some (reply peer.id member.status)⟩] }
      -- The other peers have not changed, so they will reply as they would have before.
      have hothers : rest.countP (fun other => test (asked.heard? reply other.id)) =
          rest.countP fun other => test (before.heard? reply other.id) := by
        refine List.countP_congr fun other hother => ?_
        have hne : other.id ≠ peer.id := fun heq => hnew (List.mem_map.2 ⟨other, hother, heq⟩)
        rw [Brokers.heard?_updateStatus_of_ne _ _ _ hne]
      obtain ⟨log, hcount⟩ := @ih asked ((Brokers.roster_updateStatus ..).trans hroster) hrest
      rw [hothers] at hcount
      refine ⟨log, ?_⟩
      rw [countReplies_cons, List.map_cons, ← Brokers.updateUp_updateStatus (hroster ▸ hnodup) hup
        hnew, List.countP_cons, hheard]
      exact h.ask hroster hfound (performs_countOn hcount _)

end Cluster

end BrokerCluster.Election
