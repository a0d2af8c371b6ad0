import BrokerCluster.Proofs.Messaging.PassedOver
import BrokerCluster.Proofs.Sessions

/-!
# A client that was told `ok bye`

Whoever is told `ok bye` has left: the session reads no more, whatever follows. So the
lines that the client sent after that are as if they had never been sent, and all
goes on as if the input of the client had ended.
-/
namespace BrokerCluster.Messaging

theorem ne_bye_of_mem {reply : String} (h : reply ∈ errorReplies) : reply ≠ "ok bye" := by
  rintro rfl
  have hbye := not_isErrorLine_of_mem "ok bye" (by simp [acceptedReplies])
  rw [isErrorLine_of_mem _ h] at hbye
  cases hbye

/-- Only a session that comes to its end says `ok bye`. -/
theorem Session.finished_of_bye {registry : Routing.Registry} {session : Session} {line : String}
    (h : (session.process registry line).reply = some "ok bye") :
    (session.process registry line).session.finished = true := by
  have hrefused : ∀ reply ∈ errorReplies, some reply ≠ some "ok bye" := fun reply hmem heq =>
    ne_bye_of_mem hmem (Option.some.inj heq)
  have herror : ∀ error, (refuse registry session error).reply ≠ some "ok bye" := fun error =>
    hrefused _ (message_mem_errorReplies error)
  have hok : some okReply ≠ some "ok bye" := by decide
  unfold process at h ⊢
  split at h
  · cases h
  · next hidle =>
    rw [if_neg hidle]
    cases hcommand : Command.ofLine line with
    | exit => rfl
    | malformed reply =>
      rw [hcommand] at h
      exact absurd h (hrefused reply (List.mem_append_left _ (mem_usageReplies hcommand)))
    | exchange kind name =>
      rw [hcommand, perform] at h
      split at h
      · exact absurd h (herror _)
      · split at h
        · exact absurd h (herror _)
        · exact absurd h hok
    | queue name =>
      rw [hcommand] at h
      exact absurd h hok
    | bind key =>
      rw [hcommand, perform] at h
      split at h
      · exact absurd h (herror _)
      · exact absurd h (herror _)
      · exact absurd h hok
    | publish key message =>
      rw [hcommand, perform] at h
      split at h
      · exact absurd h (herror _)
      · exact absurd h hok
    | subscribe =>
      rw [hcommand, perform] at h
      split at h
      · exact absurd h (herror _)
      · cases h

namespace Service

variable {service : Service} {id : ClientId} {line : String}

theorem disconnect_disconnect (service : Service) (id : ClientId) :
    (service.disconnect id).disconnect id = service.disconnect id := by
  simp only [disconnect, stop, updateSession, updateClient, List.modify_modify_eq]
  rfl

/-- Whoever is told `ok bye` is let go. -/
theorem receive_of_bye (h : .line id "ok bye" ∈ (service.receive id line).2) :
    ∃ processed : Service, id < processed.clients.length ∧
      (service.receive id line).1 = processed.disconnect id := by
  rcases hreceive : service.receive id line with ⟨after, outputs⟩
  rw [hreceive] at h
  cases received_of_receive hreceive with
  | unread => cases h
  | stays hclient hreading hunfinished =>
    rw [Session.finished_of_bye (reply_of_mem_answer h)] at hunfinished
    cases hunfinished
  | leaves hclient =>
    exact ⟨_, (List.getElem?_eq_some_iff.1 (client_process hclient line)).1, rfl⟩

/-- Whether it is a line of a client that comes. -/
def Happening.isLineOf (id : ClientId) : Happening → Bool
  | .move (.event (.line client _)) => client == id
  | _ => false

/-- The lines of a client that has left do nothing. -/
theorem HasLeft.undergo (h : service.HasLeft id) {next : Happening} (hnext : next.isLineOf id = true) :
    service.undergo next = (service, []) := by
  match next with
  | .move (.event (.line client text)) =>
    obtain rfl := beq_iff_eq.1 hnext
    obtain ⟨found, hfound, hleft⟩ := h
    refine receive_none fun other hother => ?_
    rw [← Option.some.inj (hfound.symm.trans hother), hleft]
  | .move (.event .connect) | .move (.event (.disconnect _)) | .move (.advance _) | .hangUp _
  | .shutdown => cases hnext

/-- **Whoever is told `ok bye` has left**, in whatever state the service is. -/
theorem sessionIsOver_of_bye (h : .line id "ok bye" ∈ (service.receive id line).2) :
    SessionIsOver undergo (Happening.isLineOf id) (.move (.event (.disconnect id)))
      (service.receive id line).1 := by
  obtain ⟨processed, hid, hreceive⟩ := receive_of_bye h
  have hgone : (processed.disconnect id).undergo (.move (.event (.disconnect id))) =
      (processed.disconnect id, []) := congrArg (·, []) (disconnect_disconnect processed id)
  rw [hreceive]
  have hkeeps : ∀ (service : Service) (next : Happening), service.HasLeft id →
      (service.undergo next).1.HasLeft id := fun service next hleft =>
    hleft.mono (keeps_undergo service next)
  exact sessionIsOver_of_left hkeeps (fun _ _ hleft => hleft.undergo) (hasLeft_disconnect hid) hgone

end Service

end BrokerCluster.Messaging
