import BrokerCluster.Proofs.Election.RaftElection

/-!
# Elections in `raft` mode, one after another

While all brokers are up, a lost election leaves every peer of the candidate with a vote
that it keeps. So votes that are split between the candidates stay split, and who can
still win follows from the votes at the start and the order of the candidates.
-/
namespace BrokerCluster.Election

namespace Brokers

/-- Who has a broker's vote, if the broker is one of the cluster. -/
def votedFor? (brokers : Brokers) (id : BrokerId) : Option BrokerId :=
  (brokers.member? id).map fun member => member.status.votedFor

/-- A broker votes for a candidate that runs when the brokers `early` have lost: it has voted for the
candidate before, or for nobody, and was not asked since. -/
def Backs (brokers : Brokers) (early : List BrokerId) (candidate voter : BrokerId) : Prop :=
  brokers.votedFor? voter = some candidate ∨
    (brokers.votedFor? voter = some nobody ∧ ∀ other ∈ early, other = voter)

instance (brokers : Brokers) (early : List BrokerId) (candidate voter : BrokerId) :
    Decidable (brokers.Backs early candidate voter) :=
  -- Only the brokers of the list are looked at, not all ids that there are.
  have : Decidable (∀ other ∈ early, other = voter) := early.decidableBAll _
  inferInstanceAs (Decidable (_ ∨ _ ∧ _))

/-- More than half of a candidate's peers vote for it when the brokers `early` have lost. -/
def CarriesAfter (brokers : Brokers) (early : List BrokerId) (owner : Seat) : Prop :=
  owner.peers.length / 2 <
    owner.peers.countP fun peer => decide (brokers.Backs early owner.id peer.id)

theorem CarriesAfter.mono {before after : Brokers} {early later : List BrokerId} {owner : Seat}
    (h : ∀ peer ∈ owner.peers,
      before.Backs early owner.id peer.id → after.Backs later owner.id peer.id)
    (hcarries : before.CarriesAfter early owner) : after.CarriesAfter later owner := by
  refine Nat.lt_of_lt_of_le hcarries (List.countP_mono_left fun peer hpeer hbacks => ?_)
  rw [decide_eq_true_eq] at hbacks ⊢
  exact h peer hpeer hbacks

/-- Some broker of a round has its votes when those before it have lost. -/
def CarriesInTurn (brokers : Brokers) (round : List BrokerId) : Prop :=
  ∃ entry ∈ brokers.roster, entry.1.id ∈ round ∧
    brokers.CarriesAfter (round.takeWhile (· != entry.1.id)) entry.1

instance (brokers : Brokers) (round : List BrokerId) : Decidable (brokers.CarriesInTurn round) :=
  inferInstanceAs (Decidable (∃ entry ∈ brokers.roster, entry.1.id ∈ round ∧ _ < _))

/-- A candidate can win no more: all its peers have voted, and too few of them for it. -/
def IsLost (brokers : Brokers) (owner : Seat) : Prop :=
  (∀ peer ∈ owner.peers, brokers.votedFor? peer.id ≠ some nobody) ∧
    ¬ brokers.CarriesAfter [] owner

end Brokers

/-- Every broker is up, and none has the id that stands for nobody. -/
structure Roster.IsComplete (roster : Roster) : Prop where
  isUp : ∀ entry ∈ roster, entry.2 = true
  ne_nobody : ∀ entry ∈ roster, entry.1.id ≠ nobody

namespace Cluster

/-- Elections that brokers start one after another, each run to its end. -/
def ElectInTurn (now : Int) (ids : List BrokerId) : Cluster → Cluster → Prop :=
  Runs (ids.map fun id => .elect id now)

/-- Some election of those that brokers start one after another makes its initiator a leader. -/
def WinsInTurn (now : Int) (before : Cluster) (round : List BrokerId) : Prop :=
  ∃ early id late after, round = early ++ id :: late ∧
    ElectInTurn now (early ++ [id]) before after ∧ after.Leads id

variable {now : Int} {id : BrokerId} {before between after : Cluster}

/-- Some election of a round wins if the first does, or one of the others from where that ends. -/
theorem winsInTurn_cons_iff (h : Elects now id before between) {rest : List BrokerId} :
    WinsInTurn now before (id :: rest) ↔ between.Leads id ∨ WinsInTurn now between rest := by
  constructor
  · rintro ⟨early, winner, late, after, hsplit, hruns, hleads⟩
    cases early with
    | nil =>
      obtain ⟨rfl, rfl⟩ := List.cons.inj hsplit
      obtain ⟨reached, helects, rfl⟩ := hruns
      exact .inl (helects.unique h ▸ hleads)
    | cons first early =>
      obtain ⟨rfl, rfl⟩ := List.cons.inj hsplit
      obtain ⟨reached, helects, hrest⟩ := hruns
      obtain rfl := Elects.unique helects h
      exact .inr ⟨early, winner, late, after, rfl, hrest, hleads⟩
  · rintro (hleads | ⟨early, winner, late, after, rfl, hrest, hleads⟩)
    · exact ⟨[], id, rest, between, rfl, ⟨between, h, rfl⟩, hleads⟩
    · exact ⟨id :: early, winner, late, after, rfl, ⟨between, h, hrest⟩, hleads⟩

/-- Elections that follow others start where those have ended. -/
theorem winsInTurn_append_iff {first later : List BrokerId}
    (h : ElectInTurn now first before between) :
    WinsInTurn now before (first ++ later) ↔
      WinsInTurn now before first ∨ WinsInTurn now between later := by
  induction first generalizing before with
  | nil =>
    obtain rfl : between = before := h
    simp [WinsInTurn]
  | cons id rest ih =>
    obtain ⟨reached, helects, hrest⟩ := h
    rw [List.cons_append, winsInTurn_cons_iff helects, winsInTurn_cons_iff helects, ih hrest, or_assoc]

end Cluster

section Raft

variable {roster : Roster} (hmesh : roster.IsFullMesh .raft) (hall : roster.IsComplete)
  {brokers : Brokers} (hroster : brokers.roster = roster) {owner : Seat}
include hmesh hall hroster

namespace Brokers

omit hmesh in
theorem isFor_iff (candidate voter : BrokerId) :
    brokers.isFor candidate voter = true ↔ brokers.Backs [] candidate voter := by
  cases hfound : brokers.member? voter with
  | none => simp [isFor, Backs, votedFor?, hfound]
  | some member =>
    have hentry := mem_roster (List.mem_of_find?_eq_some hfound)
    have hup : member.isUp = true := hall.isUp _ (hroster ▸ hentry)
    simp only [isFor, Backs, votedFor?, hfound, Option.filter_some_pos hup, Option.any_some,
      beq_iff_eq, vote_eq_iff, Option.map_some, Option.some.injEq, List.not_mem_nil, false_imp_iff,
      implies_true, and_true]
    exact or_comm

omit hmesh in
theorem carries_iff (owner : Seat) : brokers.carries owner ↔ brokers.CarriesAfter [] owner := by
  have hcount : owner.peers.countP (fun peer => brokers.isFor owner.id peer.id) =
      owner.peers.countP fun peer => decide (brokers.Backs [] owner.id peer.id) := by
    refine List.countP_congr fun peer _ => ?_
    rw [isFor_iff hall hroster, decide_eq_true_eq]
  rw [carries, CarriesAfter, hcount]

/-- A candidate gets the votes of all that had none, except its own. -/
theorem votedFor?_poll (howner : (owner, true) ∈ roster) (id : BrokerId) :
    (brokers.poll owner).votedFor? id = (brokers.votedFor? id).map fun voted =>
      if id ≠ owner.id ∧ voted = nobody then owner.id else voted := by
  cases hfound : brokers.member? id with
  | none =>
    simp [votedFor?, poll, member?_updateUp, member?_updateStatus, hfound]
  | some member =>
    have hid : member.seat.id = id := by simpa using List.find?_some hfound
    have hentry := mem_roster (List.mem_of_find?_eq_some hfound)
    rw [hroster] at hentry
    have hup : member.isUp = true := hall.isUp _ hentry
    have hnew : owner.id ∉ owner.peers.map (·.id) := hmesh.id_notMem_peers howner
    by_cases hown : id = owner.id
    · subst hown
      simp [votedFor?, poll, member?_updateUp, member?_updateStatus, hfound, hnew,
        Status.withRole, Status.withLeader]
    · have hpeer : id ∈ owner.peers.map (·.id) := by
        rw [← hid] at hown ⊢
        exact hmesh.mem_peers howner hentry hown
      have hpolled : (polled owner.id member.status).votedFor =
          if member.status.votedFor = nobody then owner.id else member.status.votedFor := by
        rw [polled, votedFor_vote, vote_snd]
        rfl
      have hasked : (brokers.poll owner).member? id =
          some { member with status := polled owner.id member.status } := by
        simp [poll, member?_updateUp, member?_updateStatus, hfound, hown, hpeer, hup]
      simp only [votedFor?, hasked, hfound, Option.map_some, hpolled]
      simp only [ne_eq, hown, not_false_eq_true, true_and]

/-- After a lost election the same votes are to be expected as before it. -/
theorem backs_poll_iff (howner : (owner, true) ∈ roster) {candidate : BrokerId}
    (hne : candidate ≠ owner.id) (hsome : candidate ≠ nobody) (early : List BrokerId)
    (voter : BrokerId) :
    (brokers.poll owner).Backs early candidate voter ↔
      brokers.Backs (owner.id :: early) candidate voter := by
  have hown : owner.id ≠ nobody := hall.ne_nobody _ howner
  cases hvoted : brokers.votedFor? voter with
  | none => simp [Backs, votedFor?_poll hmesh hall hroster howner, hvoted]
  | some voted =>
    simp only [Backs, votedFor?_poll hmesh hall hroster howner, hvoted, Option.map_some,
      Option.some.injEq, List.forall_mem_cons]
    by_cases hnone : voted = nobody
    · by_cases hself : voter = owner.id
      · simp [hnone, hself]
      · simp [hnone, hself, hown, hne.symm, hsome.symm, Ne.symm hself]
    · simp [hnone]

theorem carriesAfter_poll_iff (howner : (owner, true) ∈ roster) {later : Seat}
    (hne : later.id ≠ owner.id) (hsome : later.id ≠ nobody) (early : List BrokerId) :
    (brokers.poll owner).CarriesAfter early later ↔
      brokers.CarriesAfter (owner.id :: early) later := by
  have hbacks := backs_poll_iff hmesh hall hroster howner hne hsome early
  exact ⟨.mono fun peer _ => (hbacks peer.id).1, .mono fun peer _ => (hbacks peer.id).2⟩

theorem carriesInTurn_cons_iff (howner : (owner, true) ∈ roster) {rest : List BrokerId}
    (hnew : owner.id ∉ rest) :
    brokers.CarriesInTurn (owner.id :: rest) ↔
      brokers.CarriesAfter [] owner ∨ (brokers.poll owner).CarriesInTurn rest := by
  have hlater : ∀ entry ∈ roster, entry.1.id ≠ owner.id →
      ((brokers.poll owner).CarriesAfter (rest.takeWhile (· != entry.1.id)) entry.1 ↔
        brokers.CarriesAfter ((owner.id :: rest).takeWhile (· != entry.1.id)) entry.1) := by
    intro entry hentry hne
    have hwhile : (owner.id :: rest).takeWhile (· != entry.1.id) =
        owner.id :: rest.takeWhile (· != entry.1.id) :=
      List.takeWhile_cons_of_pos (bne_iff_ne.2 hne.symm)
    rw [hwhile]
    exact carriesAfter_poll_iff hmesh hall hroster howner hne (hall.ne_nobody _ hentry) _
  constructor
  · rintro ⟨entry, hentry, hmem, hcarries⟩
    rw [hroster] at hentry
    by_cases hown : entry.1.id = owner.id
    · have hsame := Roster.eq_of_id_eq hmesh.nodup hentry howner hown
      rw [hsame, List.takeWhile_cons_of_neg (by simp)] at hcarries
      exact .inl hcarries
    · refine .inr ⟨entry, ?_, (List.mem_cons.1 hmem).resolve_left hown, ?_⟩
      · rw [roster_poll, hroster]
        exact hentry
      · exact (hlater entry hentry hown).2 hcarries
  · rintro (hcarries | ⟨entry, hentry, hmem, hcarries⟩)
    · refine ⟨(owner, true), hroster ▸ howner, List.mem_cons_self, ?_⟩
      rw [List.takeWhile_cons_of_neg (by simp)]
      exact hcarries
    · rw [roster_poll, hroster] at hentry
      have hne : entry.1.id ≠ owner.id := fun heq => hnew (heq ▸ hmem)
      exact ⟨entry, hroster ▸ hentry, List.mem_cons_of_mem _ hmem, (hlater entry hentry hne).1 hcarries⟩

/-- Who has lost an election has lost all later ones. -/
theorem isLost_poll (howner : (owner, true) ∈ roster) (hlost : ¬ brokers.CarriesAfter [] owner) :
    (brokers.poll owner).IsLost owner := by
  have hown : owner.id ≠ nobody := hall.ne_nobody _ howner
  have hnew : owner.id ∉ owner.peers.map (·.id) := hmesh.id_notMem_peers howner
  have hvoted : ∀ peer ∈ owner.peers, (brokers.poll owner).votedFor? peer.id =
      (brokers.votedFor? peer.id).map fun voted => if voted = nobody then owner.id else voted := by
    intro peer hpeer
    have hne : peer.id ≠ owner.id := fun heq => hnew (heq ▸ List.mem_map_of_mem hpeer)
    simp [votedFor?_poll hmesh hall hroster howner, hne]
  refine ⟨fun peer hpeer => ?_, fun hcarries => hlost ?_⟩
  · rw [hvoted peer hpeer]
    cases brokers.votedFor? peer.id with
    | none => simp
    | some voted =>
      by_cases hnone : voted = nobody
      · simp [hnone, hown]
      · simp [hnone]
  · refine hcarries.mono fun peer hpeer hbacks => ?_
    simp only [Backs, hvoted peer hpeer] at hbacks ⊢
    cases hvote : brokers.votedFor? peer.id with
    | none => simp [hvote] at hbacks
    | some voted =>
      by_cases hnone : voted = nobody
      · simp [hnone]
      · simpa [hvote, hnone] using hbacks

/-- Votes that were given stay as they are in a lost election. -/
theorem IsLost.poll {other : Seat} (h : brokers.IsLost other) (howner : (owner, true) ∈ roster) :
    (brokers.poll owner).IsLost other := by
  have hsame : ∀ peer ∈ other.peers,
      (brokers.poll owner).votedFor? peer.id = brokers.votedFor? peer.id := by
    intro peer hpeer
    rw [votedFor?_poll hmesh hall hroster howner]
    cases hvoted : brokers.votedFor? peer.id with
    | none => rfl
    | some voted =>
      have hnone : voted ≠ nobody := fun heq => h.1 peer hpeer (heq ▸ hvoted)
      simp [hnone]
  refine ⟨fun peer hpeer => by rw [hsame peer hpeer]; exact h.1 peer hpeer, fun hcarries => h.2 ?_⟩
  refine hcarries.mono fun peer hpeer hbacks => ?_
  simpa only [Backs, hsame peer hpeer] using hbacks

end Brokers

end Raft

namespace Cluster

section Turns

variable {roster : Roster} (hmesh : roster.IsFullMesh .raft) (hall : roster.IsComplete)
  {before : Cluster}
include hmesh hall

/-- One election among brokers that are all up. -/
theorem exists_turn (now : Int) (hroster : before.roster = roster) (hwaiting : before.waiting = [])
    {id : BrokerId} (hid : id ∈ roster.ids) :
    ∃ owner after, (owner, true) ∈ roster ∧ owner.id = id ∧ Elects now id before after ∧
      after.waiting = [] ∧ after.roster = roster ∧
      (after.Leads id ↔ before.CarriesAfter [] owner) ∧
      (¬ before.CarriesAfter [] owner → after.toBrokers = before.toBrokers.poll owner) := by
  obtain ⟨⟨owner, isUp⟩, hentry, rfl⟩ := List.mem_map.1 hid
  obtain rfl : isUp = true := hall.isUp _ hentry
  have howner : (owner, true) ∈ roster := hentry
  obtain ⟨after, helects, hidle, hafter⟩ := exists_elects_raft hmesh now hroster hwaiting howner
  have hcarries := Brokers.carries_iff hall hroster owner
  refine ⟨owner, after, howner, rfl, helects, hidle, ?_⟩
  by_cases hwins : before.carries owner
  · rw [if_pos hwins] at hafter
    have hpolled : (before.toBrokers.poll owner).roster = roster :=
      (Brokers.roster_poll ..).trans hroster
    have hcrown := Brokers.agreeOn_crown hmesh hpolled howner
    have hroster' : after.roster = roster := by
      rw [hafter]
      simpa using hroster
    refine ⟨hroster', iff_of_true ?_ (hcarries.1 hwins), fun hnot => absurd (hcarries.1 hwins) hnot⟩
    obtain ⟨member, hmember, hseat, hup⟩ := Brokers.member?_of_mem_roster (hroster' ▸ hmesh.nodup)
      (hroster'.symm ▸ howner)
    have hmem : member ∈ after.members := List.mem_of_find?_eq_some hmember
    rw [hafter, Brokers.members_registerLeader] at hmem
    refine ⟨member, ?_, congrArg Seat.id hseat, ?_⟩
    · rw [hafter, Brokers.members_registerLeader]
      exact hmem
    · rw [(hcrown member hmem hup).2, hseat, if_pos rfl]
  · rw [if_neg hwins] at hafter
    have hroster' : after.roster = roster := by
      rw [hafter]
      simpa using hroster
    refine ⟨hroster', iff_of_false ?_ (hcarries.not.1 hwins), fun _ => hafter⟩
    rintro ⟨member, hmember, -, hleads⟩
    have hentry : (member.seat, member.isUp) ∈ after.roster := Brokers.mem_roster hmember
    rw [hroster'] at hentry
    rw [hafter] at hmember
    have hrole := (isCandidate_poll hmesh hroster howner member hmember (hall.isUp _ hentry)).1
    rw [hleads] at hrole
    cases hrole

/-- Every election of a round ends. -/
theorem exists_electInTurn (now : Int) (hroster : before.roster = roster)
    (hwaiting : before.waiting = []) {ids : List BrokerId} (hids : ∀ id ∈ ids, id ∈ roster.ids) :
    ∃ after, ElectInTurn now ids before after := by
  induction ids generalizing before with
  | nil => exact ⟨before, rfl⟩
  | cons id rest ih =>
    obtain ⟨_, between, -, -, helects, hidle, hroster', -, -⟩ :=
      exists_turn hmesh hall now hroster hwaiting (hids id List.mem_cons_self)
    obtain ⟨after, hafter⟩ := ih hroster' hidle fun other hother =>
      hids other (List.mem_cons_of_mem _ hother)
    exact ⟨after, between, helects, hafter⟩

/-- Who wins a round follows from the votes at its start. -/
theorem winsInTurn_iff_carriesInTurn (now : Int) (hroster : before.roster = roster)
    (hwaiting : before.waiting = []) {round : List BrokerId} (hnodup : round.Nodup)
    (hids : ∀ id ∈ round, id ∈ roster.ids) :
    WinsInTurn now before round ↔ before.CarriesInTurn round := by
  induction round generalizing before with
  | nil => simp [WinsInTurn, Brokers.CarriesInTurn]
  | cons id rest ih =>
    obtain ⟨hnew, hrest⟩ := List.nodup_cons.1 hnodup
    obtain ⟨owner, between, howner, rfl, helects, hidle, hroster', hleads, hlost⟩ :=
      exists_turn hmesh hall now hroster hwaiting (hids id List.mem_cons_self)
    rw [winsInTurn_cons_iff helects, hleads, Brokers.carriesInTurn_cons_iff hmesh hall hroster howner
      hnew]
    by_cases hcarries : before.CarriesAfter [] owner
    · exact iff_of_true (.inl hcarries) (.inl hcarries)
    -- The votes that a lost election gives out are those that the rest of the round counts on.
    · have hlater := ih hroster' hidle hrest fun other hother =>
        hids other (List.mem_cons_of_mem _ hother)
      rw [hlater, hlost hcarries]

/-- A round that nobody wins leaves everyone whose turn it was without a chance. -/
theorem exists_isLost_of_round (now : Int) (hroster : before.roster = roster)
    (hwaiting : before.waiting = []) {round : List BrokerId} (hnodup : round.Nodup)
    (hids : ∀ id ∈ round, id ∈ roster.ids) (hnot : ¬ before.CarriesInTurn round)
    (hlost : ∀ owner, (owner, true) ∈ roster → owner.id ∈ round ∨ before.IsLost owner) :
    ∃ after, ElectInTurn now round before after ∧ after.waiting = [] ∧ after.roster = roster ∧
      ∀ owner, (owner, true) ∈ roster → after.IsLost owner := by
  induction round generalizing before with
  | nil => exact ⟨before, rfl, hwaiting, hroster, fun owner howner =>
      (hlost owner howner).resolve_left (by simp)⟩
  | cons id rest ih =>
    obtain ⟨hnew, hrest⟩ := List.nodup_cons.1 hnodup
    obtain ⟨owner, between, howner, rfl, helects, hidle, hroster', -, hbetween⟩ :=
      exists_turn hmesh hall now hroster hwaiting (hids id List.mem_cons_self)
    rw [Brokers.carriesInTurn_cons_iff hmesh hall hroster howner hnew, not_or] at hnot
    have hpoll := hbetween hnot.1
    obtain ⟨after, hafter, hend⟩ := ih hroster' hidle hrest
      (fun other hother => hids other (List.mem_cons_of_mem _ hother)) (hpoll ▸ hnot.2)
      fun other hup => by
        rw [hpoll]
        by_cases hown : other.id = owner.id
        · have hsame := Roster.eq_of_id_eq hmesh.nodup hup howner hown
          obtain rfl : other = owner := congrArg Prod.fst hsame
          exact .inr (Brokers.isLost_poll hmesh hall hroster hup hnot.1)
        · refine (hlost other hup).imp (fun hmem => (List.mem_cons.1 hmem).resolve_left hown)
            fun h => h.poll hmesh hall hroster howner
    exact ⟨after, ⟨between, helects, hafter⟩, hend⟩

/-- Votes are never given back, so whoever can win no more does not win later either. -/
theorem not_winsInTurn_of_isLost (now : Int) (hroster : before.roster = roster)
    (hwaiting : before.waiting = [])
    (hlost : ∀ owner, (owner, true) ∈ roster → before.IsLost owner) {later : List BrokerId}
    (hids : ∀ id ∈ later, id ∈ roster.ids) : ¬ WinsInTurn now before later := by
  induction later generalizing before with
  | nil => simp [WinsInTurn]
  | cons id rest ih =>
    obtain ⟨owner, between, howner, rfl, helects, hidle, hroster', hleads, hbetween⟩ :=
      exists_turn hmesh hall now hroster hwaiting (hids id List.mem_cons_self)
    have hnot := (hlost owner howner).2
    rw [winsInTurn_cons_iff helects, hleads, not_or]
    refine ⟨hnot, ih hroster' hidle (fun other hup => ?_) fun other hother =>
      hids other (List.mem_cons_of_mem _ hother)⟩
    rw [hbetween hnot]
    exact (hlost other hup).poll hmesh hall hroster howner

end Turns

end Cluster

namespace Net

def atRest (net : Net) : Cluster := { toBrokers := net.brokers }

theorem waiting_atRest (net : Net) : net.atRest.waiting = [] := rfl

theorem roster_atRest (net : Net) (moves : List Move) :
    (net.play moves).atRest.roster = net.brokers.roster := roster_play net moves

/-- **Elections in `raft` mode, one after another.** Take a full mesh in which all brokers are up, and
the state after any brokers started elections at any moments and any steps were taken. Let then every
broker in turn run an election to its end. Each of them comes to its end, and one makes its initiator
the leader exactly if the votes at the start say so; if none does, no election ever will. -/
theorem winsInTurn_play_iff (brokers : Brokers) (hmesh : brokers.roster.IsFullMesh .raft)
    (hall : brokers.roster.IsComplete) (moves : List Move) (now : Int) {round : List BrokerId}
    (hround : round.Perm brokers.roster.ids) :
    (∀ ids : List BrokerId, (∀ id ∈ ids, id ∈ brokers.roster.ids) →
      ∃ after, Cluster.ElectInTurn now ids (play { brokers } moves).atRest after) ∧
    (Cluster.WinsInTurn now (play { brokers } moves).atRest round ↔
      (play { brokers } moves).brokers.CarriesInTurn round) ∧
    (¬ (play { brokers } moves).brokers.CarriesInTurn round →
      ∀ later : List BrokerId, (∀ id ∈ later, id ∈ brokers.roster.ids) →
        ¬ Cluster.WinsInTurn now (play { brokers } moves).atRest (round ++ later)) := by
  have hroster := roster_atRest { brokers } moves
  have hnodup : round.Nodup := hround.nodup_iff.2 hmesh.nodup
  have hids : ∀ id ∈ round, id ∈ brokers.roster.ids := fun id hid => hround.mem_iff.1 hid
  have hwins := Cluster.winsInTurn_iff_carriesInTurn hmesh hall now hroster rfl hnodup hids
  refine ⟨fun ids => Cluster.exists_electInTurn hmesh hall now hroster rfl, hwins, ?_⟩
  intro hnot later hlater
  obtain ⟨between, hbetween, hidle, hroster', hlost⟩ :=
    Cluster.exists_isLost_of_round hmesh hall now hroster rfl hnodup hids hnot fun owner howner =>
      .inl (hround.mem_iff.2 (List.mem_map.2 ⟨_, howner, rfl⟩))
  rw [Cluster.winsInTurn_append_iff hbetween, not_or]
  exact ⟨hwins.not.2 hnot, Cluster.not_winsInTurn_of_isLost hmesh hall now hroster' hidle hlost hlater⟩

/-- Each of three brokers asks the next one first. -/
def voteCircle : Brokers where
  members := [
    ⟨⟨1, .raft, [⟨2, "b", 8002⟩, ⟨3, "c", 8003⟩], none⟩, Status.fresh 0, true⟩,
    ⟨⟨2, .raft, [⟨3, "c", 8003⟩, ⟨1, "a", 8001⟩], none⟩, Status.fresh 0, true⟩,
    ⟨⟨3, .raft, [⟨1, "a", 8001⟩, ⟨2, "b", 8002⟩], none⟩, Status.fresh 0, true⟩]

/-- Some brokers start an election each, and whatever has waited longest goes on. -/
def allStand (ids : List BrokerId) : List Move :=
  ids.map .initiate ++ List.replicate 54 (.step 0 0)

theorem isFullMesh_voteCircle : voteCircle.roster.IsFullMesh .raft :=
  ⟨by decide +kernel, by decide +kernel, by decide +kernel⟩

theorem isComplete_voteCircle : voteCircle.roster.IsComplete :=
  ⟨by decide +kernel, by decide +kernel⟩

/-- If only one of the three has stood before, the round has a winner. -/
theorem voteCircle_winsInTurn : ([3, 2, 1] : List BrokerId).Perm voteCircle.roster.ids ∧
    Cluster.WinsInTurn 0 (play { brokers := voteCircle } (allStand [1])).atRest [3, 2, 1] := by
  have hround : ([3, 2, 1] : List BrokerId).Perm voteCircle.roster.ids := by decide +kernel
  have hcarries : (play { brokers := voteCircle } (allStand [1])).brokers.CarriesInTurn [3, 2, 1] := by
    decide +kernel
  exact ⟨hround, (winsInTurn_play_iff voteCircle isFullMesh_voteCircle isComplete_voteCircle
    (allStand [1]) 0 hround).2.1.2 hcarries⟩

/-- Votes given in a circle block every later election, though all brokers are up. -/
theorem voteCircle_blocked : voteCircle.roster.IsFullMesh .raft ∧ voteCircle.roster.IsComplete ∧
    (∀ member ∈ voteCircle.members, member.status = .fresh 0) ∧
    (play { brokers := voteCircle } (allStand [1, 2, 3])).tasks = [] ∧
    ([1, 2, 3] : List BrokerId).Perm voteCircle.roster.ids ∧
    (∃ after, Cluster.ElectInTurn 0 [1, 2, 3]
      (play { brokers := voteCircle } (allStand [1, 2, 3])).atRest after) ∧
    ¬ Cluster.WinsInTurn 0 (play { brokers := voteCircle } (allStand [1, 2, 3])).atRest [1, 2, 3] := by
  have hround : ([1, 2, 3] : List BrokerId).Perm voteCircle.roster.ids := by decide +kernel
  have hnodup : ([1, 2, 3] : List BrokerId).Nodup := by decide
  have hids : ∀ id ∈ ([1, 2, 3] : List BrokerId), id ∈ voteCircle.roster.ids :=
    fun id hid => hround.mem_iff.1 hid
  have hroster := roster_atRest { brokers := voteCircle } (allStand [1, 2, 3])
  have hidle := waiting_atRest (play { brokers := voteCircle } (allStand [1, 2, 3]))
  have hnot : ¬ (play { brokers := voteCircle } (allStand [1, 2, 3])).atRest.toBrokers.CarriesInTurn
      [1, 2, 3] := by decide +kernel
  refine ⟨isFullMesh_voteCircle, isComplete_voteCircle, by decide +kernel,
    List.isEmpty_iff.1 (by decide +kernel), hround, ?_, ?_⟩
  · exact Cluster.exists_electInTurn isFullMesh_voteCircle isComplete_voteCircle 0 hroster hidle hids
  · exact (Cluster.winsInTurn_iff_carriesInTurn isFullMesh_voteCircle isComplete_voteCircle 0 hroster
      hidle hnodup hids).not.2 hnot

end Net

end BrokerCluster.Election
