import BrokerCluster.Proofs.Election.Ballots

/-!
# Elections in `raft` mode while nobody is announced

What is under way then has one of a few forms: a candidate that counts votes, a
voter on its way to a reply, a winner, or what has no part in an election. One step
leads from form to form, takes no vote back, and makes nobody leader but a winner.
-/
namespace BrokerCluster.Election

/-- The votes that a candidate has counted are its own; `ids` are the voters still to be counted. -/
structure Poll.IsSound (roster : Roster) (brokers : Brokers) (poll : Poll) (ids : List BrokerId) :
    Prop where
  isUp : (poll.owner, true) ∈ roster
  nodup : (poll.granted ++ ids).Nodup
  gave : ∀ voter ∈ poll.granted, brokers.Gave voter poll.owner.id

/-- The forms of what is under way while nobody is announced. -/
inductive Task.IsFair (roster : Roster) (brokers : Brokers) : Task → Prop where
  | count {poll : Poll} {changes : List Change}
      (hplain : ∀ change ∈ changes, IsPlain change.apply) (hopen : changes ≠ [] ∨ poll.rest ≠ [])
      (hpoll : poll.IsSound roster brokers (poll.rest.map (·.id))) :
      IsFair roster brokers
        (.running poll.owner.id (Change.before changes poll.action) .nobody)
  | ask {poll : Poll} {voter : BrokerId} {rest : List Peer}
      (hpoll : poll.IsSound roster brokers (voter :: rest.map (·.id))) :
      IsFair roster brokers (.request voter (electLine poll.owner.id) (poll.asker voter rest))
  | ballot {poll : Poll} {voter : Seat} {rest : List Peer} {changes : List Change}
      (hvoter : (voter, true) ∈ roster) (hplain : ∀ change ∈ changes, IsPlain change.apply)
      (hpoll : poll.IsSound roster brokers (voter.id :: rest.map (·.id))) :
      IsFair roster brokers (.running voter.id
        (Change.before changes (voter.ballot poll.owner.id)) (poll.asker voter.id rest))
  | voted {poll : Poll} {voter : Seat} {rest : List Peer} {granted : BrokerId}
      (hpoll : poll.IsSound roster brokers (voter.id :: rest.map (·.id)))
      (hgave : granted = poll.owner.id → brokers.Gave voter.id poll.owner.id) :
      IsFair roster brokers (.running voter.id
        (.done { reply := some (voteReply voter.id granted) }) (poll.asker voter.id rest))
  | reply {poll : Poll} {voter : BrokerId} {rest : List Peer} {text : Option String}
      (hpoll : poll.IsSound roster brokers (voter :: rest.map (·.id)))
      (hgave : poll.grants text = true → brokers.Gave voter poll.owner.id) :
      IsFair roster brokers (.reply text (poll.asker voter rest))
  | win {owner : Seat} (howner : (owner, true) ∈ roster) (hmajority : brokers.HasMajority owner) :
      IsFair roster brokers (.onItsOwn owner.id owner.becomeLeader)
  | announce {task : Task} (hquiet : task.IsQuiet) : IsFair roster brokers task

/-- Whether a step brings an announcement to a broker that is up. -/
def Task.delivers (brokers : Brokers) : Task → Bool
  | .request receiver line _ =>
    match Request.ofLine line with
    | .declare _ => (brokers.member? receiver).any (·.isUp)
    | _ => false
  | .running .. | .reply .. => false

section Steps

variable {roster : Roster} {brokers : Brokers} {task : Task}

/-- A candidate that has counted all votes leads or gives up. -/
theorem Task.isFair_action (poll : Poll) (changes : List Change)
    (hplain : ∀ change ∈ changes, IsPlain change.apply)
    (hpoll : poll.IsSound roster brokers (poll.rest.map (·.id))) :
    Task.IsFair roster brokers
      (.running poll.owner.id (Change.before changes poll.action) .nobody) := by
  by_cases hopen : changes ≠ [] ∨ poll.rest ≠ []
  · exact .count hplain hopen hpoll
  · obtain ⟨owner, granted, rest⟩ := poll
    have hchanges : changes = [] := by
      by_contra hne
      exact hopen (.inl hne)
    have hrest : rest = [] := by
      by_contra hne
      exact hopen (.inr hne)
    subst hchanges hrest
    rw [Change.before_nil, Poll.action_nil, Poll.close]
    split
    · next hmajority =>
      exact .win hpoll.isUp ⟨granted, by simpa using hpoll.nodup, hmajority, hpoll.gave⟩
    · exact .announce ⟨rfl, trivial⟩

theorem Poll.IsSound.mono {after : Brokers} (hids : ∀ entry ∈ roster, entry.1.id ≠ nobody)
    (hkeeps : brokers.KeepsVotes after) {poll : Poll} {ids : List BrokerId}
    (h : poll.IsSound roster brokers ids) : poll.IsSound roster after ids :=
  ⟨h.isUp, h.nodup, fun voter hvoter => hkeeps _ _ (hids _ h.isUp) (h.gave voter hvoter)⟩

theorem Task.IsFair.mono {after : Brokers} (hids : ∀ entry ∈ roster, entry.1.id ≠ nobody)
    (hkeeps : brokers.KeepsVotes after) (h : task.IsFair roster brokers) :
    task.IsFair roster after := by
  cases h with
  | count hplain hopen hpoll => exact .count hplain hopen (hpoll.mono hids hkeeps)
  | ask hpoll => exact .ask (hpoll.mono hids hkeeps)
  | ballot hvoter hplain hpoll => exact .ballot hvoter hplain (hpoll.mono hids hkeeps)
  | voted hpoll hgave =>
    exact .voted (hpoll.mono hids hkeeps) fun h => hkeeps _ _ (hids _ hpoll.isUp) (hgave h)
  | reply hpoll hgave =>
    exact .reply (hpoll.mono hids hkeeps) fun h => hkeeps _ _ (hids _ hpoll.isUp) (hgave h)
  | win howner hmajority => exact .win howner (hmajority.mono hkeeps (hids _ howner))
  | announce hquiet => exact .announce hquiet

/-- What a step keeps: votes stay given, what follows is of one of the forms, and only a broker that
takes the lead becomes a leader. -/
structure Task.StepsFairly (roster : Roster) (brokers : Brokers) (task : Task)
    (result : Brokers × List Task) : Prop where
  keeps : brokers.KeepsVotes result.1
  fair : ∀ next ∈ result.2, next.IsFair roster result.1
  leads : ∀ id, result.1.Leads id → brokers.Leads id ∨
    ∃ seat : Seat, task = .onItsOwn id seat.becomeLeader

theorem Task.StepsFairly.nothing : task.StepsFairly roster brokers (brokers, []) :=
  ⟨.refl brokers, by simp, fun _ hleads => .inl hleads⟩

theorem Task.StepsFairly.next {next : Task} (h : next.IsFair roster brokers) :
    task.StepsFairly roster brokers (brokers, [next]) :=
  ⟨.refl brokers, fun _ hother => List.mem_singleton.1 hother ▸ h, fun _ hleads => .inl hleads⟩

theorem Task.StepsFairly.update {id : BrokerId} {change : Status → Status} {next : Task}
    (hplain : IsPlain change) (h : next.IsFair roster (brokers.updateStatus id change)) :
    task.StepsFairly roster brokers (brokers.updateStatus id change, [next]) := by
  refine ⟨brokers.keepsVotes_updateStatus id hplain.votedFor, fun other hother => ?_,
    fun _ hleads => .inl (Brokers.leads_of_updateStatus hplain.role hleads)⟩
  rwa [List.mem_singleton.1 hother]

/-- What is under way at a broker that is not there comes to nothing. -/
theorem Task.step_running_none {owner : BrokerId} (hfound : brokers.member? owner = none) (now : Int)
    (rest : Action Answer) (asker : Asker) :
    Task.step now brokers (.running owner rest asker) = (brokers, []) := by
  cases rest <;> simp only [step, hfound]

/-- An action that only announces keeps all votes, up to the delivery of its announcement. -/
theorem Task.stepsFairly_quiet (hquiet : task.IsQuiet) (now : Int)
    (hdeliver : task.delivers brokers = false) :
    task.StepsFairly roster brokers (task.step now brokers) := by
  cases task with
  | reply text asker =>
    cases asker with
    | nobody => exact .nothing
    | broker owner next asker => exact .next (.announce ⟨hquiet.1 text, hquiet.2⟩)
  | request receiver line asker =>
    obtain ⟨⟨leader, rfl⟩, hasker⟩ := hquiet
    -- The receiver is down, or the announcement would be delivered.
    have hdown : (brokers.member? receiver).filter (·.isUp) = none := by
      simp only [delivers, ofLine_declareLine] at hdeliver
      cases hfound : brokers.member? receiver with
      | none => rfl
      | some member =>
        exact Option.filter_some_neg (by simpa [hfound] using hdeliver)
    simp only [step, hdown]
    exact .next (.announce hasker)
  | running owner rest asker =>
    obtain ⟨hrest, hasker⟩ := hquiet
    cases hfound : brokers.member? owner with
    | none =>
      rw [step_running_none hfound]
      exact .nothing
    | some member =>
      cases rest with
      | done answer =>
        have hnone : answer.followUp = none := hrest
        simp only [step, hfound, hnone, Option.toList_none, List.map_nil]
        exact .next (.announce hasker)
      | update change next =>
        simp only [step, hfound]
        exact .update hrest.1 (.announce ⟨hrest.2 member.status, hasker⟩)
      | ask peer line next =>
        simp only [step, hfound]
        exact .next (.announce ⟨hrest.1, hrest.2, hasker⟩)
      | register name address next =>
        simp only [step, hfound]
        refine ⟨fun _ _ _ h => h, fun after hafter => ?_, fun _ hleads => .inl hleads⟩
        rw [List.mem_singleton.1 hafter]
        exact .announce ⟨hrest, hasker⟩

variable (hmesh : roster.IsFullMesh .raft) (hids : ∀ entry ∈ roster, entry.1.id ≠ nobody)
  (hroster : brokers.roster = roster)
include hmesh hids hroster

/-- A candidate asks its next voter, or closes its poll with the votes that are its own. -/
theorem Task.stepsFairly_count {poll : Poll} {changes : List Change}
    (hplain : ∀ change ∈ changes, IsPlain change.apply) (hopen : changes ≠ [] ∨ poll.rest ≠ [])
    (hpoll : poll.IsSound roster brokers (poll.rest.map (·.id))) (now : Int) :
    task.StepsFairly roster brokers
      (Task.step now brokers (.running poll.owner.id (Change.before changes poll.action) .nobody)) := by
  subst hroster
  obtain ⟨member, hfound, -, -⟩ := Brokers.member?_of_mem_roster hmesh.nodup hpoll.isUp
  cases changes with
  | cons first later =>
    have hfirst : IsPlain first.apply := hplain first List.mem_cons_self
    have hkeeps := brokers.keepsVotes_updateStatus poll.owner.id hfirst.votedFor
    simp only [Change.before_cons, step, hfound]
    refine .update hfirst (isFair_action poll later (fun c hc => hplain c (List.mem_cons_of_mem _ hc)) ?_)
    exact hpoll.mono hids hkeeps
  | nil =>
    obtain ⟨owner, granted, rest⟩ := poll
    cases rest with
    | nil => simp at hopen
    | cons peer rest =>
      rw [Change.before_nil, Poll.action_cons]
      simp only [step, hfound]
      have hask := Task.IsFair.ask hpoll
      exact .next hask

omit hids in
/-- A request brings a voter to its ballot, or no reply at all. -/
theorem Task.stepsFairly_ask {poll : Poll} {voter : BrokerId} {rest : List Peer}
    (hpoll : poll.IsSound roster brokers (voter :: rest.map (·.id))) (now : Int) :
    task.StepsFairly roster brokers
      (Task.step now brokers (.request voter (electLine poll.owner.id) (poll.asker voter rest))) := by
  subst hroster
  simp only [step]
  split
  · next member hfound =>
    obtain ⟨hmember, rfl⟩ := Brokers.isUp_of_filter_eq_some hfound
    rw [Seat.answer_ballot (hmesh.mode_eq _ hmember)]
    refine .next (.ballot hmember (fun change hchange => ?_) hpoll)
    simp only [List.mem_cons, List.not_mem_nil, or_false] at hchange
    rcases hchange with rfl | rfl
    · exact isPlain_withLeader nobody
    · exact isPlain_withRole (by decide)
  · exact .next (.reply hpoll fun hgrants => absurd hgrants (by simp [Poll.grants]))

/-- A reply grants a vote only once the vote was given. -/
theorem Task.stepsFairly_ballot {poll : Poll} {voter : Seat} {rest : List Peer} {changes : List Change}
    (hvoter : (voter, true) ∈ roster) (hplain : ∀ change ∈ changes, IsPlain change.apply)
    (hpoll : poll.IsSound roster brokers (voter.id :: rest.map (·.id))) (now : Int) :
    task.StepsFairly roster brokers (Task.step now brokers (.running voter.id
      (Change.before changes (voter.ballot poll.owner.id)) (poll.asker voter.id rest))) := by
  subst hroster
  obtain ⟨member, hfound, hseat, -⟩ := Brokers.member?_of_mem_roster hmesh.nodup hvoter
  cases changes with
  | cons first later =>
    have hfirst : IsPlain first.apply := hplain first List.mem_cons_self
    have hkeeps := brokers.keepsVotes_updateStatus voter.id hfirst.votedFor
    simp only [Change.before_cons, step, hfound]
    exact .update hfirst (.ballot hvoter (fun c hc => hplain c (List.mem_cons_of_mem _ hc))
      (hpoll.mono hids hkeeps))
  | nil =>
    have hvote := isPlain_vote poll.owner.id
    have hkeeps := brokers.keepsVotes_updateStatus voter.id hvote.votedFor
    simp only [Change.before_nil, Seat.ballot, step, hfound]
    refine .update hvote (.voted (hpoll.mono hids hkeeps) fun hgranted => ?_)
    -- A vote that the voter reports is one that it has given, now or before.
    have hmember : member ∈ brokers.members := List.mem_of_find?_eq_some hfound
    refine ⟨_, Brokers.mem_members_updateStatus.2 ⟨member, hmember, rfl⟩, ?_⟩
    rw [if_pos (by rw [hseat])]
    exact ⟨by rw [hseat], (votedFor_vote _ _).trans hgranted⟩

omit hmesh hids hroster in
theorem Poll.IsSound.count {poll : Poll} {voter : BrokerId} {rest : List Peer} {text : Option String}
    (h : poll.IsSound roster brokers (voter :: rest.map (·.id)))
    (hgave : poll.grants text = true → brokers.Gave voter poll.owner.id) :
    (poll.count voter rest text).IsSound roster brokers (rest.map (·.id)) := by
  obtain ⟨hup, hnodup, hgiven⟩ := h
  rw [List.nodup_middle] at hnodup
  simp only [Poll.count]
  split
  · next hgrants =>
    refine ⟨hup, by simpa using hnodup, fun other hother => ?_⟩
    rcases List.mem_cons.1 hother with rfl | hother
    · exact hgave hgrants
    · exact hgiven other hother
  · exact ⟨hup, (List.nodup_cons.1 hnodup).2, hgiven⟩

omit hids in
/-- Taking the lead makes a leader of that broker only, and what is left of it only announces. -/
theorem Task.stepsFairly_win {owner : Seat} (howner : (owner, true) ∈ roster) (now : Int) :
    Task.StepsFairly roster brokers (.onItsOwn owner.id owner.becomeLeader)
      (Task.step now brokers (.onItsOwn owner.id owner.becomeLeader)) := by
  subst hroster
  obtain ⟨member, hfound, -, -⟩ := Brokers.member?_of_mem_roster hmesh.nodup howner
  rw [Seat.onItsOwn_becomeLeader]
  simp only [step, hfound]
  refine ⟨brokers.keepsVotes_updateStatus owner.id fun _ _ => rfl, fun after hafter => ?_,
    fun id hleads => ?_⟩
  · rw [List.mem_singleton.1 hafter]
    have hquiet := Seat.isQuiet_declareLeader (hmesh.mode_eq _ howner)
    exact .announce ⟨⟨isPlain_withLeader owner.id, fun _ => hquiet⟩, trivial⟩
  · refine (Brokers.leads_or_of_updateStatus hleads).imp_right fun hid => ⟨owner, ?_⟩
    rw [hid, Seat.onItsOwn_becomeLeader]

/-- **One step of what is under way.** -/
theorem Task.IsFair.step (h : task.IsFair roster brokers) (now : Int)
    (hdeliver : task.delivers brokers = false) :
    task.StepsFairly roster brokers (task.step now brokers) := by
  cases h with
  | announce hquiet => exact stepsFairly_quiet hquiet now hdeliver
  | count hplain hopen hpoll => exact stepsFairly_count hmesh hids hroster hplain hopen hpoll now
  | ask hpoll => exact stepsFairly_ask hmesh hroster hpoll now
  | ballot hvoter hplain hpoll => exact stepsFairly_ballot hmesh hids hroster hvoter hplain hpoll now
  | @voted poll voter rest granted hpoll hgave =>
    cases hfound : brokers.member? voter.id with
    | none =>
      rw [step_running_none hfound]
      exact .nothing
    | some member =>
      simp only [Task.step, hfound, Option.toList_none, List.map_nil]
      exact .next (.reply hpoll fun hgrants => hgave ((isVoteFor_voteReply _ _ _).1 hgrants))
  | @reply poll voter rest text hpoll hgave =>
    exact .next (isFair_action (poll.count voter rest text) [] (by simp) (hpoll.count hgave))
  | win howner => exact stepsFairly_win hmesh hroster howner now

omit hmesh hids hroster in
/-- Whoever is about to take the lead has a majority. -/
theorem Task.IsFair.hasMajority {id : BrokerId} {seat : Seat}
    (h : (Task.onItsOwn id seat.becomeLeader).IsFair roster brokers) :
    ∃ owner, (owner, true) ∈ roster ∧ owner.id = id ∧ brokers.HasMajority owner := by
  have hcrown : ¬ IsPlain (Status.withRole .leader) := fun hplain =>
    absurd (hplain.role (.fresh 0) rfl) (by decide)
  generalize htask : Task.onItsOwn id seat.becomeLeader = task at h
  rw [Seat.onItsOwn_becomeLeader] at htask
  cases h with
  | @count poll changes hplain hopen hpoll =>
    obtain ⟨-, haction, -⟩ := Task.running.inj htask
    cases changes with
    | cons first later =>
      obtain ⟨hchange, -⟩ := Action.update.inj haction
      exact absurd (hchange ▸ hplain first List.mem_cons_self) hcrown
    | nil =>
      obtain ⟨owner, granted, rest⟩ := poll
      cases rest with
      | nil => simp at hopen
      | cons peer rest =>
        rw [Change.before_nil, Poll.action_cons] at haction
        cases haction
  | ask => cases htask
  | ballot =>
    obtain ⟨-, -, hasker⟩ := Task.running.inj htask
    cases hasker
  | voted => cases htask
  | reply => cases htask
  | @win owner howner hmajority =>
    obtain ⟨hid, -, -⟩ := Task.running.inj htask
    exact ⟨owner, howner, hid.symm, hmajority⟩
  | announce hquiet =>
    subst htask
    exact absurd hquiet.1.1 hcrown

end Steps

end BrokerCluster.Election
