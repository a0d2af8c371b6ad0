import BrokerCluster.Election.Conduct

/-!
# What an action does to a status, whatever is replied

`Ensures post action before` says that `action`, started with the status `before`,
ends with a status and a result that satisfy `post`, whatever the peers reply. It is
computed along the action, so it follows from the same for the parts.
-/
namespace BrokerCluster.Election

namespace Action

variable {α β : Type}

def Ensures (post : Status → α → Prop) : Action α → Status → Prop
  | .done result, status => post status result
  | .update change next, status => (next status).Ensures post (change status)
  | .ask _ _ next, status => ∀ reply, (next reply).Ensures post status
  | .register _ _ next, status => next.Ensures post status

/-- What follows starts with the status that the first action leaves. -/
theorem ensures_bind {post : Status → β → Prop} (action : Action α) (next : α → Action β)
    (status : Status) :
    (action >>= next).Ensures post status ↔
      action.Ensures (fun after result => (next result).Ensures post after) status := by
  change (action.bind next).Ensures post status ↔ _
  induction action generalizing status with
  | done result => rfl
  | update change rest ih => exact ih status (change status)
  | ask peer line rest ih => exact forall_congr' fun reply => ih reply status
  | register name address rest ih => exact ih status

theorem Ensures.mono {post post' : Status → α → Prop} {action : Action α} {status : Status}
    (h : action.Ensures post status)
    (himp : ∀ after result, post after result → post' after result) :
    action.Ensures post' status := by
  induction action generalizing status with
  | done result => exact himp _ _ h
  | update change rest ih => exact ih status h
  | ask peer line rest ih => exact fun reply => ih reply (h reply)
  | register name address rest ih => exact ih h

theorem ensures_change {post : Status → Unit → Prop} (f : Status → Status) (status : Status) :
    (change f).Ensures post status ↔ post (f status) () := Iff.rfl

theorem ensures_access {post : Status → α → Prop} (f : Status → Status × α) (status : Status) :
    (access f).Ensures post status ↔ post (f status).1 (f status).2 := Iff.rfl

/-- Asking alone leaves the status as it is. -/
theorem ensures_askUntil {post : Status → Bool → Prop} {status : Status}
    (h : ∀ accepted, post status accepted) (line expected : String) (peers : List Peer) :
    (askUntil askPeer line expected peers).Ensures post status := by
  induction peers with
  | nil => exact h false
  | cons peer rest ih =>
    intro reply
    change Ensures post (if isExpected expected reply then .done true
      else askUntil askPeer line expected rest) status
    split
    · exact h true
    · exact ih

theorem ensures_countReplies {post : Status → Nat → Prop} {status : Status}
    (h : ∀ count, post status count) (line : String) (test : Option String → Bool)
    (peers : List Peer) : (countReplies askPeer line test peers).Ensures post status := by
  induction peers generalizing post with
  | nil => exact h 0
  | cons peer rest ih =>
    intro reply
    change Ensures post (countReplies askPeer line test rest >>= _) status
    exact (ensures_bind _ _ _).2 (ih fun count => h _)

/-- An action that is run for one broker changes the status as it ensures, and leaves what is owed
alone. -/
theorem Ensures.run {post : Status → α → Prop} {action : Action α} (replies : Replies)
    (conduct : Conduct) (h : action.Ensures post conduct.status) :
    let result := (action.run (Conduct.interpreter replies)).run conduct
    post result.2.status result.1 ∧ result.2.owed = conduct.owed := by
  induction action generalizing conduct with
  | done result => exact ⟨h, rfl⟩
  | update change rest ih =>
    exact ih conduct.status { conduct with status := change conduct.status } h
  | ask peer line rest ih =>
    exact ih _ { conduct with asked := conduct.asked ++ [(peer, line)] } (h _)
  | register name address rest ih => exact ih conduct h

end Action

namespace Seat

open BrokerCluster.Election.Action

variable {seat : Seat} {status : Status}

theorem ensures_registerDomain {post : Status → Unit → Prop} (seat : Seat)
    (h : post status ()) : seat.registerDomain.Ensures post status := by
  unfold registerDomain
  split <;> exact h

/-- Announcing oneself changes nothing at home. -/
theorem ensures_declareLeader {post : Status → Unit → Prop} (seat : Seat) (h : post status ()) :
    seat.declareLeader.Ensures post status := by
  unfold declareLeader
  split
  · refine (ensures_bind _ _ _).2 ((ensures_bind _ _ _).2 ?_)
    exact ensures_askUntil (fun _ => ensures_registerDomain seat h) _ _ _
  · refine (ensures_bind _ _ _).2 ((ensures_bind _ _ _).2 ?_)
    exact ensures_countReplies (fun _ => ensures_registerDomain seat h) _ _ _
  · refine (ensures_bind _ _ _).2 ((ensures_bind _ _ _).2 ?_)
    exact ensures_countReplies (fun _ => ensures_registerDomain seat h) _ _ _
  · exact ensures_registerDomain seat h

/-- To announce the leader changes nothing in its own status any more. -/
theorem ensures_becomeLeader {post : Status → Unit → Prop}
    (h : post ((status.withRole .leader).withLeader seat.id) ()) :
    seat.becomeLeader.Ensures post status := ensures_declareLeader seat h

theorem ensures_challengeHigher {post : Status → Unit → Prop} (hyield : post status ())
    (hlead : post ((status.withRole .leader).withLeader seat.id) ()) :
    seat.challengeHigher.Ensures post status := by
  refine (ensures_bind _ _ _).2 (ensures_askUntil (fun accepted => ?_) _ _ _)
  cases accepted
  · exact ensures_becomeLeader hlead
  · exact hyield

theorem ensures_forward {post : Status → Unit → Prop} (candidate : BrokerId) (h : post status ()) :
    (seat.forward candidate).Ensures post status :=
  (ensures_bind _ _ _).2 (ensures_askUntil (fun _ => h) _ _ _)

end Seat

end BrokerCluster.Election
