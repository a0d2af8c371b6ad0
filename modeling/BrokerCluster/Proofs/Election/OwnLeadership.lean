import Mathlib.Data.List.Induction
import BrokerCluster.Proofs.Election.Effects

/-!
# A leader and its own id

Whoever takes the lead follows itself, and whatever makes a broker forget its leader
also takes the lead from it. The one exception is an announcement in a ring, which
is taken over without a look at one's own role.
-/
namespace BrokerCluster.Election

open BrokerCluster.Election.Action

/-- If the broker leads then elections take place, and it follows itself. -/
def LeadsItself (seat : Seat) (status : Status) : Prop :=
  status.role = .leader → seat.mode ≠ .none ∧ status.leaderId = seat.id

/-- Only in `bully` mode may a reply leave higher brokers to be challenged. -/
def MayOwe (seat : Seat) (followUp : FollowUp) : Prop :=
  followUp = .challengeHigher → seat.mode = .bully

namespace Conduct

/-- Whether the broker starts an election or is asked to take part in one. -/
def Turn.isElection : Turn → Bool
  | .initiate | .request (.elect _) _ => true
  | _ => false

def Turn.isQuiet : Turn → Bool
  | .initiate | .request (.elect _) _ | .request (.declare _) _ => false
  | _ => true

theorem Turn.isQuiet_of_isElection {turn : Turn} (h : turn.isElection) : turn.isQuiet = false := by
  unfold isElection at h
  split at h
  · rfl
  · rfl
  · cases h

/-- What a turn makes of the role and of the leader. -/
inductive Takes (seat : Seat) (before after : Status) : Turn → Prop where
  /-- The broker makes up its mind anew. In a ring only an election does that. -/
  | settle {turn : Turn} (hturn : seat.mode = .ring → turn.isElection)
      (hleads : LeadsItself seat after) : Takes seat before after turn
  /-- A broker of a ring takes over whom it is told to follow, and nothing else. -/
  | follow {leader : BrokerId} {now : Int} (hmode : seat.mode = .ring)
      (hafter : after = before.withLeader leader) :
      Takes seat before after (.request (.declare leader) now)
  | keep {turn : Turn} (hquiet : turn.isQuiet) (hrole : after.role = before.role)
      (hleader : after.leaderId = before.leaderId) : Takes seat before after turn

end Conduct

namespace Seat

variable {seat : Seat}

theorem leadsItself_becomeLeader (hmode : seat.mode ≠ .none) (status : Status) :
    LeadsItself seat ((status.withRole .leader).withLeader seat.id) := fun _ => ⟨hmode, rfl⟩

theorem ensures_initiate (seat : Seat) (status : Status) :
    seat.initiate.Ensures (fun after _ => LeadsItself seat after) status := by
  let asked := (status.withRole .candidate).forgetLeader
  have hcandidate : LeadsItself seat asked := nofun
  unfold initiate
  refine (ensures_bind _ _ _).2 ((ensures_change _ _).2 ?_)
  refine (ensures_bind _ _ _).2 ((ensures_change _ _).2 ?_)
  split
  next => exact ensures_forward _ hcandidate
  next hmode =>
    have henabled : seat.mode ≠ .none := by rw [hmode]; nofun
    exact ensures_challengeHigher hcandidate (leadsItself_becomeLeader henabled asked)
  next hmode =>
    have henabled : seat.mode ≠ .none := by rw [hmode]; nofun
    refine (ensures_bind _ _ _).2 ((ensures_bind _ _ _).2 ?_)
    refine ensures_countReplies (fun count => ?_) _ _ _
    change Ensures _ (if decide (_ < count) then seat.becomeLeader else pure ()) _
    split
    · exact ensures_becomeLeader (leadsItself_becomeLeader henabled asked)
    · exact hcandidate
  next => exact hcandidate

theorem ensures_respond (sender : BrokerId) {status : Status}
    (henabled : status.role = .leader → seat.mode ≠ .none) :
    (seat.respond sender).Ensures (fun after response =>
      LeadsItself seat after ∧ ∀ followUp ∈ response.followUp, MayOwe seat followUp) status := by
  unfold respond
  refine (ensures_bind _ _ _).2 ((ensures_change _ _).2 ?_)
  split
  next hmode =>
    split
    · exact ⟨leadsItself_becomeLeader (by rw [hmode]; nofun) _, by simp [MayOwe]⟩
    · refine ⟨fun hrole => ?_, by simp [MayOwe]⟩
      change (if _ then Role.follower else Role.candidate) = .leader at hrole
      split at hrole <;> cases hrole
  next hmode => exact ⟨nofun, fun followUp _ _ => hmode⟩
  next =>
    refine (ensures_bind _ _ _).2 ((ensures_change _ _).2 ?_)
    refine (ensures_bind _ _ _).2 ((ensures_access _ _).2 ?_)
    have hrole : (((status.forgetLeader.withRole .candidate).vote sender).1).role ≠ .leader := by
      unfold Status.vote
      split <;> nofun
    exact ⟨fun hleader => absurd hleader hrole, by simp⟩
  next hmode => exact ⟨fun hrole => absurd hmode (henabled hrole), by simp⟩

/-- An announcement puts the other modes in order, but in a ring it leaves the role as it is. -/
theorem ensures_acknowledge (leader : BrokerId) {status : Status}
    (henabled : status.role = .leader → seat.mode ≠ .none) :
    (seat.acknowledge leader).Ensures (fun after _ =>
      seat.mode = .ring ∧ after = status.withLeader leader ∨
        seat.mode ≠ .ring ∧ LeadsItself seat after) status := by
  unfold acknowledge
  cases hmode : seat.mode with
  | ring =>
    dsimp only
    split
    · exact .inl ⟨rfl, rfl⟩
    · refine (ensures_bind _ _ _).2 ((ensures_bind _ _ _).2 ?_)
      exact ensures_askUntil (fun _ => .inl ⟨rfl, rfl⟩) _ _ _
  | bully => exact Or.inr ⟨nofun, nofun⟩
  | raft => exact Or.inr ⟨nofun, nofun⟩
  | none => exact Or.inr ⟨nofun, fun hrole => absurd hmode (henabled hrole)⟩

theorem ensures_complete {followUp : FollowUp} (hmay : MayOwe seat followUp) (status : Status) :
    (seat.complete followUp).Ensures (fun after _ =>
      after = status ∨ seat.mode = .bully ∧ LeadsItself seat after) status := by
  cases followUp with
  | declareLeadership => exact ensures_declareLeader seat (.inl rfl)
  | forward candidate => exact ensures_forward candidate (.inl rfl)
  | challengeHigher =>
    have hmode : seat.mode = .bully := hmay rfl
    have henabled : seat.mode ≠ .none := by rw [hmode]; nofun
    exact ensures_challengeHigher (.inl rfl)
      (.inr ⟨hmode, leadsItself_becomeLeader henabled status⟩)

theorem ensures_answer (request : Request) (now : Int) {status : Status}
    (henabled : status.role = .leader → seat.mode ≠ .none) :
    (seat.answer now request).Ensures (fun after answer =>
      Conduct.Takes seat status after (.request request now) ∧
        ∀ followUp ∈ answer.followUp, MayOwe seat followUp) status := by
  cases request with
  | ping => exact ⟨.keep rfl rfl rfl, by simp⟩
  | elect candidate =>
    refine (ensures_bind _ _ _).2 ((ensures_respond candidate henabled).mono ?_)
    exact fun after response h => ⟨.settle (fun _ => rfl) h.1, h.2⟩
  | declare leader =>
    refine (ensures_bind _ _ _).2 ((ensures_acknowledge leader henabled).mono ?_)
    rintro after reply (⟨hmode, hafter⟩ | ⟨hmode, hleads⟩)
    · exact ⟨.follow hmode hafter, by simp⟩
    · exact ⟨.settle (fun hring => absurd hring hmode) hleads, by simp⟩
  | malformed reply => exact ⟨.keep rfl rfl rfl, by simp⟩
  | unknown => exact ⟨.keep rfl rfl rfl, by simp⟩

end Seat

namespace Conduct

/-- What a broker satisfies between its turns. -/
structure IsSound (seat : Seat) (conduct : Conduct) : Prop where
  /-- Without elections nobody leads. -/
  enabled : conduct.status.role = .leader → seat.mode ≠ .none
  owed : ∀ followUp ∈ conduct.owed, MayOwe seat followUp

variable {seat : Seat} {conduct : Conduct}

/-- Whatever a turn does, nobody leads without elections. -/
theorem Takes.enabled {before after : Status} {turn : Turn}
    (henabled : before.role = .leader → seat.mode ≠ .none) (h : Takes seat before after turn) :
    after.role = .leader → seat.mode ≠ .none := by
  intro hrole
  cases h with
  | settle _ hleads => exact (hleads hrole).1
  | follow hmode _ => rw [hmode]; nofun
  | keep _ hkeeps _ => exact henabled (hkeeps ▸ hrole)

theorem run_take_complete {index : Nat} {followUp : FollowUp} (replies : Replies)
    (howed : conduct.owed[index]? = some followUp) :
    ((take seat replies (.complete index)).run conduct).2 =
      (((seat.complete followUp).run (interpreter replies)).run
        { conduct with owed := conduct.owed.eraseIdx index }).2 := by
  simp only [take, StateT.run_bind, StateT.run_get, pure_bind, howed]
  rfl

theorem run_take_complete_of_none {index : Nat} (replies : Replies)
    (howed : conduct.owed[index]? = none) :
    ((take seat replies (.complete index)).run conduct).2 = conduct := by
  simp only [take, StateT.run_bind, StateT.run_get, pure_bind, howed]
  rfl

/-- **One turn**, with any request and any replies, does one of the things that a turn can do. -/
theorem takes_take (h : conduct.IsSound seat) (replies : Replies) (turn : Turn) :
    let after := ((take seat replies turn).run conduct).2
    after.IsSound seat ∧ Takes seat conduct.status after.status turn := by
  cases turn with
  | initiate =>
    obtain ⟨hleads, howed⟩ := (seat.ensures_initiate conduct.status).run replies conduct
    exact ⟨⟨fun hrole => (hleads hrole).1, howed ▸ h.owed⟩, .settle (fun _ => rfl) hleads⟩
  | request request now =>
    have hanswer := seat.ensures_answer request now h.enabled
    obtain ⟨⟨htakes, hmay⟩, howed⟩ := hanswer.run replies conduct
    refine ⟨⟨htakes.enabled h.enabled, fun followUp hmem => ?_⟩, htakes⟩
    obtain hbefore | hnew := List.mem_append.1 hmem
    · exact h.owed followUp (howed ▸ hbefore)
    · exact hmay followUp (Option.mem_toList.1 hnew)
  | complete index =>
    cases hfound : conduct.owed[index]? with
    | none =>
      rw [run_take_complete_of_none replies hfound]
      exact ⟨h, .keep rfl rfl rfl⟩
    | some followUp =>
      have hmay : MayOwe seat followUp := h.owed followUp (List.mem_of_getElem? hfound)
      obtain ⟨hstatus, howed⟩ := (Seat.ensures_complete hmay conduct.status).run replies
        { conduct with owed := conduct.owed.eraseIdx index }
      rw [run_take_complete replies hfound]
      generalize ((seat.complete followUp).run (interpreter replies)).run _ = result at *
      have htakes : Takes seat conduct.status result.2.status (.complete index) := by
        obtain hkept | ⟨hmode, hleads⟩ := hstatus
        · exact .keep rfl (congrArg Status.role hkept) (congrArg Status.leaderId hkept)
        · exact .settle (fun hring => by rw [hmode] at hring; cases hring) hleads
      refine ⟨⟨htakes.enabled h.enabled, fun other hmem => h.owed other ?_⟩, htakes⟩
      exact (List.eraseIdx_sublist _ _).subset (howed ▸ hmem)

/-- What has become of a broker that just started. -/
def since (seat : Seat) (replies : Replies) (now : Int) (turns : List Turn) : Conduct :=
  ((play seat replies turns).run { status := .fresh now }).2

theorem run_play_append (seat : Seat) (replies : Replies) (turns : List Turn) (turn : Turn)
    (conduct : Conduct) :
    ((play seat replies (turns ++ [turn])).run conduct).2 =
      ((take seat replies turn).run ((play seat replies turns).run conduct).2).2 := by
  induction turns generalizing conduct with
  | nil => rfl
  | cons first rest ih => exact ih ((take seat replies first).run conduct).2

theorem since_append (seat : Seat) (replies : Replies) (now : Int) (turns : List Turn)
    (turn : Turn) :
    since seat replies now (turns ++ [turn]) =
      ((take seat replies turn).run (since seat replies now turns)).2 :=
  run_play_append seat replies turns turn _

/-- **Turn after turn** nobody leads without elections, and only what the mode allows is left to do.
-/
theorem isSound_since (seat : Seat) (replies : Replies) (now : Int) (turns : List Turn) :
    (since seat replies now turns).IsSound seat := by
  induction turns using List.reverseRecOn with
  | nil => exact ⟨nofun, nofun⟩
  | append_singleton turns turn ih =>
    rw [since_append]
    exact (takes_take ih replies turn).1

/-- Only a ring has a leader that follows another broker, which takes an announcement to a leader or
a quiet turn after one. -/
theorem Takes.strays_iff {before after : Status} {turn : Turn} (h : Takes seat before after turn)
    (hring : before.role = .leader → before.leaderId ≠ seat.id → seat.mode = .ring) :
    (after.role = .leader ∧ after.leaderId ≠ seat.id) ↔
      seat.mode = .ring ∧
        ((∃ leader time, turn = .request (.declare leader) time ∧ leader ≠ seat.id ∧
            before.role = .leader) ∨
          turn.isQuiet ∧ before.role = .leader ∧ before.leaderId ≠ seat.id) := by
  cases h with
  | settle hturn hleads =>
    refine ⟨fun ⟨hrole, hother⟩ => absurd (hleads hrole).2 hother, ?_⟩
    rintro ⟨hmode, ⟨leader, time, rfl, -⟩ | ⟨hquiet, -⟩⟩
    · cases hturn hmode
    · rw [Turn.isQuiet_of_isElection (hturn hmode)] at hquiet
      cases hquiet
  | @follow leader time hmode hafter =>
    rw [hafter]
    refine ⟨fun ⟨hrole, hother⟩ => ⟨hmode, .inl ⟨leader, time, rfl, hother, hrole⟩⟩, ?_⟩
    rintro ⟨-, ⟨_, _, ⟨⟩, hother, hrole⟩ | ⟨⟨⟩, -⟩⟩
    exact ⟨hrole, hother⟩
  | keep hquiet hrole hleader =>
    rw [hrole, hleader]
    refine ⟨fun ⟨hled, hother⟩ => ⟨hring hled hother, .inr ⟨hquiet, hled, hother⟩⟩, ?_⟩
    rintro ⟨-, ⟨_, _, rfl, -⟩ | ⟨-, hbefore⟩⟩
    · cases hquiet
    · exact hbefore

/-- A leader follows another broker exactly when, in a ring, it led as it was told to follow that
one and has neither started an election since nor been asked to take part in one or to follow. -/
theorem strays_since_iff (seat : Seat) (replies : Replies) (now : Int) (turns : List Turn) :
    let after := (since seat replies now turns).status
    (after.role = .leader ∧ after.leaderId ≠ seat.id) ↔
      seat.mode = .ring ∧ ∃ earlier leader time later,
        turns = earlier ++ .request (.declare leader) time :: later ∧ leader ≠ seat.id ∧
          (since seat replies now earlier).status.role = .leader ∧
            ∀ turn ∈ later, turn.isQuiet := by
  induction turns using List.reverseRecOn with
  | nil =>
    refine ⟨fun h => (by cases h.1), ?_⟩
    rintro ⟨-, earlier, leader, time, later, hturns, -⟩
    exact absurd hturns (by simp)
  | append_singleton turns turn ih =>
    have htakes := (takes_take (isSound_since seat replies now turns) replies turn).2
    rw [← since_append] at htakes
    refine (htakes.strays_iff fun hrole hother => (ih.1 ⟨hrole, hother⟩).1).trans ?_
    constructor
    · rintro ⟨hmode, ⟨leader, time, rfl, hne, hled⟩ | ⟨hquiet, hbefore⟩⟩
      · exact ⟨hmode, turns, leader, time, [], rfl, hne, hled, nofun⟩
      · obtain ⟨-, earlier, leader, time, later, hturns, hne, hled, hlater⟩ := ih.1 hbefore
        refine ⟨hmode, earlier, leader, time, later ++ [turn], ?_, hne, hled, ?_⟩
        · rw [hturns, List.append_assoc, List.cons_append]
        · exact List.forall_mem_append.2 ⟨hlater, List.forall_mem_singleton.2 hquiet⟩
    · rintro ⟨hmode, earlier, leader, time, later, hturns, hne, hled, hlater⟩
      refine ⟨hmode, ?_⟩
      obtain rfl | ⟨rest, last, rfl⟩ : later = [] ∨ ∃ rest last, later = rest ++ [last] := by
        simpa only [List.concat_eq_append] using List.eq_nil_or_concat later
      · obtain ⟨rfl, hturn⟩ := List.append_inj' hturns rfl
        exact .inl ⟨leader, time, List.singleton_inj.1 hturn, hne, hled⟩
      · rw [← List.cons_append, ← List.append_assoc] at hturns
        obtain ⟨hbefore, hturn⟩ := List.append_inj' hturns rfl
        obtain rfl := List.singleton_inj.1 hturn
        obtain ⟨hrest, hlast⟩ := List.forall_mem_append.1 hlater
        exact .inr ⟨hlast turn (List.mem_singleton_self turn),
          ih.2 ⟨hmode, earlier, leader, time, rest, hbefore, hne, hled, hrest⟩⟩

/-- A broker with a ring to itself. -/
def aloneInRing : Seat := { id := 1, mode := .ring, peers := [], registration := none }

/-- Its own candidacy came back to it, but another announcement followed. -/
theorem strays_aloneInRing :
    let after := (since aloneInRing (fun _ => none) 0
      [.request (.elect 1) 0, .complete 0, .request (.declare 2) 0]).status
    after.role = .leader ∧ after.leaderId ≠ aloneInRing.id := by decide

end Conduct

end BrokerCluster.Election
