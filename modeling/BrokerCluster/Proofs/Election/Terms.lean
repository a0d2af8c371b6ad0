import BrokerCluster.Config.Validation
import BrokerCluster.Proofs.Election.OwnLeadership
import BrokerCluster.Proofs.Election.RaftElection

/-!
# Who gets a broker's vote in a term

In `raft` mode a term lasts from one announcement to the next. A broker that has given its
vote away names the one that has it to all who ask. The vote is kept as an id, and one id
means that nobody has it; a candidate with that id is told that it has the vote, and yet the
vote can still be given to another.
-/
namespace BrokerCluster.Election

/-- Who has a vote that `held` had before these candidates asked for it: the first that is somebody. -/
def holder (held : BrokerId) (asked : List BrokerId) : BrokerId :=
  ((held :: asked).find? (· != nobody)).getD nobody

theorem holder_nil (held : BrokerId) : holder held [] = held := by
  by_cases hheld : held = nobody
  · simp [holder, hheld]
  · simp [holder, hheld]

theorem holder_of_ne {held : BrokerId} (hheld : held ≠ nobody) (asked : List BrokerId) :
    holder held asked = held := by
  simp [holder, hheld]

theorem holder_nobody_cons (first : BrokerId) (rest : List BrokerId) :
    holder nobody (first :: rest) = holder first rest := by
  simp [holder]

/-- The holder of the vote is what decides over later requests. -/
theorem holder_append (held : BrokerId) (earlier later : List BrokerId) :
    holder held (earlier ++ later) = holder (holder held earlier) later := by
  induction earlier generalizing held with
  | nil => rw [holder_nil, List.nil_append]
  | cons first rest ih =>
    by_cases hheld : held = nobody
    · rw [hheld, List.cons_append, holder_nobody_cons, holder_nobody_cons, ih]
    · rw [holder_of_ne hheld, holder_of_ne hheld, holder_of_ne hheld]

theorem holder_eq_nobody_iff {held : BrokerId} {asked : List BrokerId} :
    holder held asked = nobody ↔ held = nobody ∧ ∀ candidate ∈ asked, candidate = nobody := by
  induction asked generalizing held with
  | nil => simp [holder_nil]
  | cons first rest ih =>
    by_cases hheld : held = nobody
    · rw [hheld, holder_nobody_cons, ih, List.forall_mem_cons]
      simp
    · simp [holder_of_ne hheld, hheld]

theorem votedFor_vote_eq_holder (status : Status) (candidate : BrokerId) :
    (status.vote candidate).1.votedFor = holder status.votedFor [candidate] := by
  rw [votedFor_vote, vote_snd]
  split
  · next hnone => rw [hnone, holder_nobody_cons, holder_nil]
  · next hsome => rw [holder_of_ne hsome]

/-- Whether a candidate asks at a moment at which it has the vote then. -/
def Gets (held : BrokerId) (asked : List BrokerId) (candidate : BrokerId) : Prop :=
  ∃ earlier later, asked = earlier ++ candidate :: later ∧
    holder held (earlier ++ [candidate]) = candidate

/-- The candidate whom all are told to have the vote, if it is but one: whoever had it before the first
asked, or else the first. -/
def firstHolder (held : BrokerId) (asked : List BrokerId) : BrokerId :=
  if held = nobody then asked.headD nobody else held

/-- The vote is given away as if nobody had it: first to the candidate with the id of nobody, and later
to another. -/
def IsGivenTwice (held : BrokerId) (asked : List BrokerId) : Prop :=
  held = nobody ∧ asked.head? = some nobody ∧ ∃ candidate ∈ asked, candidate ≠ nobody

section Gets

variable {held candidate : BrokerId} {asked : List BrokerId}

theorem holder_eq_firstHolder (hone : ¬ IsGivenTwice held asked) {earlier later : List BrokerId}
    (hasked : asked = earlier ++ candidate :: later) :
    holder held (earlier ++ [candidate]) = firstHolder held asked := by
  by_cases hheld : held = nobody
  · rw [firstHolder, if_pos hheld, hheld, hasked]
    cases earlier with
    | nil => exact (holder_nobody_cons _ _).trans (holder_nil _)
    | cons first rest =>
      rw [List.cons_append, holder_nobody_cons]
      show holder first (rest ++ [candidate]) = first
      by_cases hfirst : first = nobody
      -- Nobody has asked but the candidate that nobody can be told from.
      · have hall : ∀ other ∈ asked, other = nobody := by
          by_contra hnot
          push Not at hnot
          exact hone ⟨hheld, by rw [hasked, hfirst]; rfl, hnot⟩
        rw [hasked] at hall
        refine (holder_eq_nobody_iff.2 ⟨hfirst, fun other hother => hall other ?_⟩).trans hfirst.symm
        rcases List.mem_append.1 hother with hrest | hlast
        · exact List.mem_append_left _ (List.mem_cons_of_mem _ hrest)
        · rw [List.mem_singleton.1 hlast]
          exact List.mem_append_right _ List.mem_cons_self
      · exact holder_of_ne hfirst _
  · rw [firstHolder, if_neg hheld, holder_of_ne hheld]

theorem Gets.eq_holder (h : Gets held asked candidate) (hne : candidate ≠ nobody) :
    candidate = holder held asked := by
  obtain ⟨earlier, later, rfl, hholder⟩ := h
  have hlater : earlier ++ candidate :: later = (earlier ++ [candidate]) ++ later := by simp
  rw [hlater, holder_append, hholder, holder_of_ne hne]

theorem Gets.head_eq_nobody (h : Gets held asked nobody) :
    held = nobody ∧ asked.head? = some nobody := by
  obtain ⟨earlier, later, rfl, hholder⟩ := h
  obtain ⟨hheld, hall⟩ := holder_eq_nobody_iff.1 hholder
  refine ⟨hheld, ?_⟩
  cases earlier with
  | nil => rfl
  | cons first rest => exact congrArg some (hall first List.mem_cons_self)

theorem Gets.mem (h : Gets held asked candidate) : candidate ∈ asked := by
  obtain ⟨earlier, later, rfl, -⟩ := h
  exact List.mem_append_right _ List.mem_cons_self

theorem exists_gets_of_mem (hmem : candidate ∈ asked) (hne : candidate ≠ nobody) :
    ∃ other, other ≠ nobody ∧ Gets nobody asked other := by
  induction asked with
  | nil => cases hmem
  | cons first rest ih =>
    by_cases hfirst : first = nobody
    · have hrest : candidate ∈ rest := (List.mem_cons.1 hmem).resolve_left fun h => hne (h.trans hfirst)
      obtain ⟨other, hother, earlier, later, rfl, hholder⟩ := ih hrest
      refine ⟨other, hother, first :: earlier, later, rfl, ?_⟩
      rw [List.cons_append, holder_nobody_cons, hfirst, hholder]
    · exact ⟨first, hfirst, [], rest, rfl, (holder_nobody_cons _ _).trans (holder_nil _)⟩

/-- Two candidates get the vote of one term only by way of the id of nobody. -/
theorem exists_gets_two_iff :
    (∃ a b, a ≠ b ∧ Gets held asked a ∧ Gets held asked b) ↔ IsGivenTwice held asked := by
  have htwice : ∀ b, b ≠ nobody → Gets held asked nobody → Gets held asked b →
      IsGivenTwice held asked := fun b hb hnobody hgets =>
    ⟨hnobody.head_eq_nobody.1, hnobody.head_eq_nobody.2, b, hgets.mem, hb⟩
  constructor
  · rintro ⟨a, b, hne, ha, hb⟩
    by_cases hanone : a = nobody
    · exact htwice b (fun hb' => hne (hanone.trans hb'.symm)) (hanone ▸ ha) hb
    by_cases hbnone : b = nobody
    · exact htwice a hanone (hbnone ▸ hb) ha
    · exact absurd ((ha.eq_holder hanone).trans (hb.eq_holder hbnone).symm) hne
  · rintro ⟨rfl, hhead, candidate, hmem, hne⟩
    obtain ⟨other, hother, hgets⟩ := exists_gets_of_mem hmem hne
    obtain ⟨rest, rfl⟩ := List.head?_eq_some_iff.1 hhead
    exact ⟨nobody, other, hother.symm, ⟨[], rest, rfl, rfl⟩, hgets⟩

end Gets

namespace Seat

open BrokerCluster.Election.Action

variable {seat : Seat}

/-- A broker that stands as a candidate keeps its vote to itself. -/
theorem ensures_initiate_votedFor (seat : Seat) (status : Status) :
    seat.initiate.Ensures (fun after _ => after.votedFor = status.votedFor) status := by
  unfold initiate
  refine (ensures_bind _ _ _).2 ((ensures_change _ _).2 ?_)
  refine (ensures_bind _ _ _).2 ((ensures_change _ _).2 ?_)
  split
  · exact ensures_forward _ rfl
  · exact ensures_challengeHigher rfl rfl
  · refine (ensures_bind _ _ _).2 ((ensures_bind _ _ _).2 ?_)
    refine ensures_countReplies (fun count => ?_) _ _ _
    show Ensures _ (if decide (_ < count) then seat.becomeLeader else pure ()) _
    split
    · exact ensures_becomeLeader rfl
    · exact rfl
  · exact rfl

theorem ensures_complete_votedFor (seat : Seat) (followUp : FollowUp) (status : Status) :
    (seat.complete followUp).Ensures (fun after _ => after.votedFor = status.votedFor) status := by
  cases followUp with
  | declareLeadership => exact ensures_declareLeader seat rfl
  | forward candidate => exact ensures_forward candidate rfl
  | challengeHigher => exact ensures_challengeHigher rfl rfl

theorem ensures_answer_elect (hmode : seat.mode = .raft) (candidate : BrokerId) (now : Int)
    (status : Status) :
    (seat.answer now (.elect candidate)).Ensures (fun after answer =>
      after.votedFor = holder status.votedFor [candidate] ∧
        answer.reply = some (voteReply seat.id (holder status.votedFor [candidate]))) status := by
  have hvote := votedFor_vote_eq_holder ((status.forgetLeader).withRole .candidate) candidate
  refine (ensures_bind _ _ _).2 ?_
  unfold respond
  refine (ensures_bind _ _ _).2 ((ensures_change _ _).2 ?_)
  rw [hmode]
  refine (ensures_bind _ _ _).2 ((ensures_change _ _).2 ?_)
  refine (ensures_bind _ _ _).2 ((ensures_access _ _).2 ⟨hvote, ?_⟩)
  exact congrArg (fun granted => some (voteReply seat.id granted)) ((votedFor_vote _ _).symm.trans hvote)

end Seat

namespace Conduct

/-- Whether a turn is an announcement, which takes every vote back. -/
def Turn.endsTerm : Turn → Bool
  | .request (.declare _) _ => true
  | _ => false

def Turn.candidate? : Turn → Option BrokerId
  | .request (.elect candidate) _ => some candidate
  | _ => none

theorem Turn.eq_request_of_candidate? {turn : Turn} {candidate : BrokerId}
    (h : turn.candidate? = some candidate) : ∃ now, turn = .request (.elect candidate) now := by
  unfold candidate? at h
  split at h
  · next now => exact ⟨now, by rw [Option.some.inj h]⟩
  · cases h

def candidates (turns : List Turn) : List BrokerId := turns.filterMap Turn.candidate?

/-- Whether a candidate reads in the reply to a request of its own that it has the vote. -/
def Grants (seat : Seat) (replies : Replies) (conduct : Conduct) (turns : List Turn)
    (candidate : BrokerId) : Prop :=
  ∃ earlier now later reply, turns = earlier ++ .request (.elect candidate) now :: later ∧
    ((play seat replies turns).run conduct).1[earlier.length]? = some (some reply) ∧
      isVoteFor reply candidate = true

section Term

variable {seat : Seat} (hmode : seat.mode = .raft) (replies : Replies)
include hmode

/-- In one term the vote moves on only as candidates ask for it. -/
theorem votedFor_take (conduct : Conduct) {turn : Turn} (hterm : turn.endsTerm = false) :
    ((take seat replies turn).run conduct).2.status.votedFor =
      holder conduct.status.votedFor (candidates [turn]) := by
  cases turn with
  | initiate =>
    exact ((seat.ensures_initiate_votedFor conduct.status).run replies conduct).1.trans
      (holder_nil _).symm
  | request request now =>
    cases request with
    | elect candidate =>
      exact ((Seat.ensures_answer_elect hmode candidate now conduct.status).run replies conduct).1.1
    | declare leader => cases hterm
    | ping => exact (holder_nil _).symm
    | malformed reply => exact (holder_nil _).symm
    | unknown => exact (holder_nil _).symm
  | complete index =>
    show _ = holder conduct.status.votedFor []
    rw [holder_nil]
    cases hfound : conduct.owed[index]? with
    | none => rw [run_take_complete_of_none replies hfound]
    | some followUp =>
      rw [run_take_complete replies hfound]
      exact ((seat.ensures_complete_votedFor followUp conduct.status).run replies
        { conduct with owed := conduct.owed.eraseIdx index }).1

/-- A candidate is told who has the vote once it has asked. -/
theorem reply_take (conduct : Conduct) (candidate : BrokerId) (now : Int) :
    ((take seat replies (.request (.elect candidate) now)).run conduct).1 =
      some (voteReply seat.id (holder conduct.status.votedFor [candidate])) :=
  ((Seat.ensures_answer_elect hmode candidate now conduct.status).run replies conduct).1.2

/-- The reply to a request names who has the vote then, given all that was asked before. -/
theorem reply_play (conduct : Conduct) {earlier : List Turn}
    (hterm : ∀ turn ∈ earlier, turn.endsTerm = false) (candidate : BrokerId) (now : Int)
    (later : List Turn) :
    ((play seat replies (earlier ++ .request (.elect candidate) now :: later)).run conduct).1[
        earlier.length]? =
      some (some (voteReply seat.id
        (holder conduct.status.votedFor (candidates earlier ++ [candidate])))) := by
  induction earlier generalizing conduct with
  | nil => exact congrArg some (reply_take hmode replies conduct candidate now)
  | cons first rest ih =>
    obtain ⟨hfirst, hrest⟩ := List.forall_mem_cons.1 hterm
    have hcandidates : candidates (first :: rest) = candidates [first] ++ candidates rest :=
      List.filterMap_append (l := [first])
    refine (ih ((take seat replies first).run conduct).2 hrest).trans ?_
    rw [votedFor_take hmode replies conduct hfirst, hcandidates, List.append_assoc, ← holder_append]

/-- A candidate reads that it has the vote exactly if it has it. -/
theorem grants_iff_gets (conduct : Conduct) {turns : List Turn}
    (hterm : ∀ turn ∈ turns, turn.endsTerm = false) (candidate : BrokerId) :
    Grants seat replies conduct turns candidate ↔
      Gets conduct.status.votedFor (candidates turns) candidate := by
  constructor
  · rintro ⟨earlier, now, later, reply, rfl, hreply, hvote⟩
    have hearlier := fun turn hturn => hterm turn (List.mem_append_left _ hturn)
    rw [reply_play hmode replies conduct hearlier] at hreply
    obtain rfl := Option.some.inj (Option.some.inj hreply)
    refine ⟨candidates earlier, candidates later, ?_, (isVoteFor_voteReply _ _ _).1 hvote⟩
    simp [candidates, Turn.candidate?]
  · rintro ⟨earlier, later, hsplit, hholder⟩
    obtain ⟨before, after, rfl, rfl, hafter⟩ := List.filterMap_eq_append_iff.1 hsplit
    obtain ⟨silent, turn, rest, rfl, hsilent, hturn, -⟩ := List.filterMap_eq_cons_iff.1 hafter
    obtain ⟨now, rfl⟩ := turn.eq_request_of_candidate? hturn
    have hearlier := fun turn hturn => hterm turn (List.append_assoc before silent _ ▸
      List.mem_append_left _ hturn)
    have hcandidates : candidates (before ++ silent) = candidates before := by
      rw [candidates, List.filterMap_append, List.filterMap_eq_nil_iff.2 hsilent, List.append_nil]
      rfl
    have hreply := reply_play hmode replies conduct hearlier candidate now rest
    rw [hcandidates, List.append_assoc] at hreply
    exact ⟨before ++ silent, now, rest, _, (List.append_assoc ..).symm, hreply,
      (isVoteFor_voteReply _ _ _).2 hholder⟩

/-- **Who is told that it has the vote in a term.** Take any turns of a voter among which no leader is
announced. Each candidate that asks is told who has the vote then. Two are told that they have it
themselves exactly if nobody had the vote, the first to ask has the id that stands for nobody, and
another one asks later. Otherwise all are told the same. -/
theorem grants_two_iff (conduct : Conduct) (turns : List Turn)
    (hterm : ∀ turn ∈ turns, turn.endsTerm = false) :
    ((∃ a b, a ≠ b ∧ Grants seat replies conduct turns a ∧ Grants seat replies conduct turns b) ↔
      IsGivenTwice conduct.status.votedFor (candidates turns)) ∧
    ∀ earlier candidate now later, turns = earlier ++ .request (.elect candidate) now :: later →
      ∃ granted, ((play seat replies turns).run conduct).1[earlier.length]? =
          some (some (voteReply seat.id granted)) ∧
        granted = holder conduct.status.votedFor (candidates earlier ++ [candidate]) ∧
        (¬ IsGivenTwice conduct.status.votedFor (candidates turns) →
          granted = firstHolder conduct.status.votedFor (candidates turns)) := by
  constructor
  · simp only [grants_iff_gets hmode replies conduct hterm]
    exact exists_gets_two_iff
  · rintro earlier candidate now later rfl
    have hearlier := fun turn hturn => hterm turn (List.mem_append_left _ hturn)
    have hsplit : candidates (earlier ++ .request (.elect candidate) now :: later) =
        candidates earlier ++ candidate :: candidates later := by
      simp [candidates, Turn.candidate?]
    exact ⟨_, reply_play hmode replies conduct hearlier candidate now later, rfl,
      fun hone => holder_eq_firstHolder hone hsplit⟩

end Term

/-- A voter in `raft` mode that knows of no peers. -/
def voter : Seat := { id := 2, mode := .raft, peers := [], registration := none }

theorem voter_names_first :
    let turns : List Turn := [.request (.elect 5) 0, .initiate, .request (.elect (-1)) 0,
      .request .ping 3, .request (.elect 7) 4]
    (¬ ∃ a b, a ≠ b ∧ Grants voter (fun _ => none) { status := .fresh 0 } turns a ∧
      Grants voter (fun _ => none) { status := .fresh 0 } turns b) ∧
    ((play voter (fun _ => none) turns).run { status := .fresh 0 }).1[4]? =
      some (some "vote 2 5") := by
  intro turns
  have hterm : ∀ turn ∈ turns, turn.endsTerm = false := by decide
  have hone : ¬ IsGivenTwice nobody (candidates turns) := fun h => absurd h.2.1 (by decide)
  have hmode : voter.mode = .raft := rfl
  obtain ⟨htwo, hnames⟩ := grants_two_iff hmode (fun _ => none) { status := .fresh 0 } turns hterm
  obtain ⟨granted, hreply, -, hfirst⟩ := hnames [.request (.elect 5) 0, .initiate,
    .request (.elect (-1)) 0, .request .ping 3] 7 4 [] rfl
  exact ⟨fun h => hone (htwo.1 h), hreply.trans (by rw [hfirst hone]; decide)⟩

/-- A configuration may give a broker the id that stands for nobody. -/
def namedNobody : Config.Configuration where
  election := { mode := .raft, id := -1, peerHosts := ["b", "c"], peerPorts := [20102, 20105], peerIds := [2, 5] }

/-- The broker with that id asks first and is told that it has the vote, and so is the next. -/
theorem voter_grants_two : namedNobody.isValid = true ∧
    let turns : List Turn := [.request (.elect (-1)) 0, .request (.elect 5) 0]
    (∀ turn ∈ turns, turn.endsTerm = false) ∧
    ((play voter (fun _ => none) turns).run { status := .fresh 0 }).1 =
      [some "vote 2 -1", some "vote 2 5"] ∧
    Grants voter (fun _ => none) { status := .fresh 0 } turns (-1) ∧
    Grants voter (fun _ => none) { status := .fresh 0 } turns 5 := by
  refine ⟨by decide +kernel, by decide, by decide +kernel, ?_, ?_⟩
  · exact ⟨[], 0, [.request (.elect 5) 0], "vote 2 -1", rfl, by decide +kernel, by decide +kernel⟩
  · exact ⟨[.request (.elect (-1)) 0], 0, [], "vote 2 5", rfl, by decide +kernel, by decide +kernel⟩

end Conduct

end BrokerCluster.Election
