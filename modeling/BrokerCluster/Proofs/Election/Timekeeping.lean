import BrokerCluster.Election.Watch
import BrokerCluster.Proofs.Election.Effects

/-!
# Who touches the time of the last heartbeat

`OnlyMakes allowed action` says that every change `action` may ever make is allowed, whatever
is replied and whatever else changes the status in between, and `EndsWith result action` that
it comes to that result. Of all that a broker sets out to do, only the answer to a ping and a
poll change the time of the last heartbeat.
-/
namespace BrokerCluster.Election

namespace Action

variable {α β : Type} {allowed : (Status → Status) → Prop}

/-- Whether every change that an action may ever make is allowed. -/
def OnlyMakes (allowed : (Status → Status) → Prop) : Action α → Prop
  | .done _ => True
  | .update change next => allowed change ∧ ∀ before, (next before).OnlyMakes allowed
  | .ask _ _ next => ∀ reply, (next reply).OnlyMakes allowed
  | .register _ _ next => next.OnlyMakes allowed

theorem onlyMakes_done (result : α) : (done result).OnlyMakes allowed := trivial

/-- What holds of both parts of an action holds of the action. -/
theorem OnlyMakes.bind {action : Action α} {next : α → Action β} (h : action.OnlyMakes allowed)
    (hnext : ∀ result, (next result).OnlyMakes allowed) :
    (action >>= next).OnlyMakes allowed := by
  change (action.bind next).OnlyMakes allowed
  induction action with
  | done result => exact hnext result
  | update change rest ih => exact ⟨h.1, fun before => ih before (h.2 before)⟩
  | ask peer line rest ih => exact fun reply => ih reply (h reply)
  | register name address rest ih => exact ih h

theorem OnlyMakes.map {action : Action α} (h : action.OnlyMakes allowed) (f : α → β) :
    (f <$> action).OnlyMakes allowed := by
  rw [← bind_pure_comp]
  exact h.bind fun _ => onlyMakes_done _

theorem onlyMakes_change {f : Status → Status} (h : allowed f) : (change f).OnlyMakes allowed :=
  ⟨h, fun _ => trivial⟩

theorem onlyMakes_askUntil (line expected : String) (peers : List Peer) :
    (askUntil askPeer line expected peers).OnlyMakes allowed := by
  induction peers with
  | nil => exact onlyMakes_done false
  | cons peer rest ih =>
    intro reply
    change OnlyMakes allowed (if isExpected expected reply then .done true
      else askUntil askPeer line expected rest)
    split
    · exact onlyMakes_done true
    · exact ih

theorem onlyMakes_countReplies (line : String) (test : Option String → Bool) (peers : List Peer) :
    (countReplies askPeer line test peers).OnlyMakes allowed := by
  induction peers with
  | nil => exact onlyMakes_done 0
  | cons peer rest ih => exact fun reply => ih.bind fun others => onlyMakes_done _

/-- Beginning an action and carrying it on later is carrying it out. -/
theorem run_advance (replies : Replies) (action : Action α) (conduct : Conduct) :
    (action.run (Conduct.interpreter replies)).run conduct =
      ((action.advance conduct.status).2.run (Conduct.interpreter replies)).run
        { conduct with status := (action.advance conduct.status).1 } := by
  induction action generalizing conduct with
  | update change next ih => exact ih conduct.status { conduct with status := change conduct.status }
  | done | ask | register => rfl

/-- The action ends with this result, whatever replies come and whatever else happens to the status
while it waits. -/
def EndsWith (result : α) : Action α → Prop
  | .done ended => ended = result
  | .update _ next => ∀ before, (next before).EndsWith result
  | .ask _ _ next => ∀ reply, (next reply).EndsWith result
  | .register _ _ next => next.EndsWith result

theorem EndsWith.bind {result : β} {action : Action α} {next : α → Action β}
    (h : ∀ a, (next a).EndsWith result) : (action.bind next).EndsWith result := by
  induction action with
  | done a => exact h a
  | update change rest ih | ask peer line rest ih => exact ih
  | register name address rest ih => exact ih

theorem EndsWith.advance {result : α} {action : Action α} (h : action.EndsWith result)
    (status : Status) : (action.advance status).2.EndsWith result := by
  induction action generalizing status with
  | update change rest ih => exact ih status (h status) (change status)
  | done | ask | register => exact h

theorem EndsWith.ensures {result : α} {action : Action α} (h : action.EndsWith result)
    (status : Status) : action.Ensures (fun _ ended => ended = result) status := by
  induction action generalizing status with
  | done => exact h
  | update change rest ih => exact ih status (h status) (change status)
  | ask peer line rest ih => exact fun reply => ih reply (h reply) status
  | register name address rest ih => exact ih h status

end Action

def KeepsTime (change : Status → Status) : Prop :=
  ∀ status, (change status).lastHeartbeat = status.lastHeartbeat

theorem keepsTime_vote (candidate : BrokerId) : KeepsTime fun status => (status.vote candidate).1 := by
  intro status
  dsimp only
  unfold Status.vote
  split <;> rfl

theorem Action.OnlyMakes.lastHeartbeat_advance {α : Type} {action : Action α}
    (h : action.OnlyMakes KeepsTime) (status : Status) :
    (action.advance status).1.lastHeartbeat = status.lastHeartbeat := by
  induction action generalizing status with
  | update change next ih => exact (ih status (h.2 status) (change status)).trans (h.1 status)
  | done | ask | register => rfl

theorem Action.OnlyMakes.advance {α : Type} {allowed : (Status → Status) → Prop} {action : Action α}
    (h : action.OnlyMakes allowed) (status : Status) :
    (action.advance status).2.OnlyMakes allowed := by
  induction action generalizing status with
  | update change next ih => exact ih status (h.2 status) (change status)
  | done | ask | register => exact h

namespace Seat

open BrokerCluster.Election.Action

variable (seat : Seat)

theorem onlyMakes_registerDomain {allowed : (Status → Status) → Prop} :
    seat.registerDomain.OnlyMakes allowed := by
  unfold registerDomain
  split <;> trivial

theorem onlyMakes_declareLeader {allowed : (Status → Status) → Prop} :
    seat.declareLeader.OnlyMakes allowed := by
  have hregister : seat.registerDomain.OnlyMakes allowed := seat.onlyMakes_registerDomain
  unfold declareLeader
  split
  · exact ((onlyMakes_askUntil _ _ _).map _).bind fun _ => hregister
  · exact ((onlyMakes_countReplies _ _ _).map _).bind fun _ => hregister
  · exact ((onlyMakes_countReplies _ _ _).map _).bind fun _ => hregister
  · exact hregister

theorem keepsTime_becomeLeader : seat.becomeLeader.OnlyMakes KeepsTime :=
  (onlyMakes_change fun _ => rfl).bind fun _ =>
    (onlyMakes_change fun _ => rfl).bind fun _ => seat.onlyMakes_declareLeader

theorem keepsTime_challengeHigher : seat.challengeHigher.OnlyMakes KeepsTime := by
  refine (onlyMakes_askUntil _ _ _).bind fun accepted => ?_
  cases accepted
  · exact seat.keepsTime_becomeLeader
  · exact onlyMakes_done ()

theorem onlyMakes_forward {allowed : (Status → Status) → Prop} (candidate : BrokerId) :
    (seat.forward candidate).OnlyMakes allowed := (onlyMakes_askUntil _ _ _).map _

/-- An election does not count as a heartbeat by itself. -/
theorem keepsTime_initiate : seat.initiate.OnlyMakes KeepsTime := by
  refine (onlyMakes_change fun _ => rfl).bind fun _ =>
    (onlyMakes_change fun _ => rfl).bind fun _ => ?_
  split
  · exact seat.onlyMakes_forward seat.id
  · exact seat.keepsTime_challengeHigher
  · refine ((onlyMakes_countReplies _ _ _).bind fun _ => onlyMakes_done _).bind fun won => ?_
    cases won
    · exact onlyMakes_done ()
    · exact seat.keepsTime_becomeLeader
  · exact onlyMakes_done ()

theorem keepsTime_respond (sender : BrokerId) : (seat.respond sender).OnlyMakes KeepsTime := by
  have hrole : ∀ role, (change (·.withRole role)).OnlyMakes KeepsTime := fun _ =>
    onlyMakes_change fun _ => rfl
  have hvote : (access (·.vote sender)).OnlyMakes KeepsTime :=
    ⟨keepsTime_vote sender, fun _ => trivial⟩
  refine (onlyMakes_change fun _ => rfl).bind fun _ => ?_
  split
  · split
    · exact (hrole _).bind fun _ => (onlyMakes_change fun _ => rfl).bind fun _ => onlyMakes_done _
    · exact (hrole _).bind fun _ => onlyMakes_done _
  · exact (hrole _).bind fun _ => onlyMakes_done _
  · exact (hrole _).bind fun _ => hvote.bind fun _ => onlyMakes_done _
  · exact onlyMakes_done _

theorem keepsTime_acknowledge (leader : BrokerId) :
    (seat.acknowledge leader).OnlyMakes KeepsTime := by
  have hfollow : ∀ reply : Option String,
      (do change (·.withLeader leader); pure reply : Action (Option String)).OnlyMakes KeepsTime :=
    fun _ => (onlyMakes_change fun _ => rfl).bind fun _ => onlyMakes_done _
  unfold acknowledge
  cases hmode : seat.mode with
  | raft =>
    exact (onlyMakes_change fun _ => rfl).bind fun _ =>
      (onlyMakes_change fun _ => rfl).bind fun _ => hfollow _
  | bully => exact (onlyMakes_change fun _ => rfl).bind fun _ => hfollow _
  | ring =>
    dsimp only
    split
    · exact hfollow _
    · exact ((onlyMakes_askUntil _ _ _).map _).bind fun _ => hfollow _
  | none => exact hfollow _

/-- What a reply to `elect` has left to do does not count as a heartbeat either. -/
theorem keepsTime_complete (followUp : FollowUp) :
    (seat.complete followUp).OnlyMakes KeepsTime := by
  cases followUp with
  | declareLeadership => exact seat.onlyMakes_declareLeader
  | forward candidate => exact seat.onlyMakes_forward candidate
  | challengeHigher => exact seat.keepsTime_challengeHigher

/-- Of all requests only a ping touches the time. -/
theorem keepsTime_answer {request : Request} (hping : request ≠ .ping) (now : Int) :
    (seat.answer now request).OnlyMakes KeepsTime := by
  cases request with
  | ping => exact absurd rfl hping
  | elect candidate => exact (seat.keepsTime_respond candidate).bind fun _ => onlyMakes_done _
  | declare leader => exact (seat.keepsTime_acknowledge leader).bind fun _ => onlyMakes_done _
  | malformed reply => exact onlyMakes_done _
  | unknown => exact onlyMakes_done _

end Seat

end BrokerCluster.Election
