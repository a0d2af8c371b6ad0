import BrokerCluster.Messaging.Server
import BrokerCluster.Proofs.Messaging.Refusals
import BrokerCluster.Proofs.Wire.Lines

/-!
# Messages on the wire

Reading limits a line and drops a carriage return at its end; writing does neither. So
it takes an argument that a client receives what was sent to it. A message is words
joined by single spaces, and shorter than the line it came in. This is kept by every
step of the service, whatever bytes the clients send: the replies are lines, and so is
every message, which is the same message if a client publishes it again.
-/
namespace BrokerCluster.Messaging

open Routing Text Wire

/-- What a queue can hold. -/
structure IsMessage (text : String) : Prop where
  words : ∃ ws, ws ≠ [] ∧ (∀ w ∈ ws, IsWord w) ∧ joinWords ws = text
  length_lt : (encode text).length < lineLimit

theorem IsMessage.isLine {text : String} (h : IsMessage text) : IsLine text := by
  obtain ⟨ws, -, hws, rfl⟩ := h.words
  exact isLine_joinWords hws (Nat.le_of_lt h.length_lt)

def publishLine (key message : String) : String := joinWords ["publish", key, message]

theorem publishLine_joinWords (key : String) {ws : List String} (h : ws ≠ []) :
    publishLine key (joinWords ws) = joinWords ("publish" :: key :: ws) := by
  rw [publishLine, joinWords_cons _ (List.cons_ne_nil key ws), joinWords_cons key h,
    joinWords_cons _ (List.cons_ne_nil key _), joinWords_cons key (List.cons_ne_nil _ _)]
  simp [joinWords]

theorem isWord_publish : IsWord "publish" := by decide

/-- A message that is published again is the same message. -/
theorem ofLine_publishLine {key message : String} (hkey : IsWord key)
    (hmessage : IsMessage message) :
    Command.ofLine (publishLine key message) = .publish key message := by
  obtain ⟨ws, hne, hws, rfl⟩ := hmessage.words
  have hall : ∀ w ∈ "publish" :: key :: ws, IsWord w :=
    List.forall_mem_cons.2 ⟨isWord_publish, List.forall_mem_cons.2 ⟨hkey, hws⟩⟩
  obtain ⟨word, more, rfl⟩ := List.exists_cons_of_ne_nil hne
  rw [publishLine_joinWords key hne, Command.ofLine, words_joinWords hall]
  rfl

/-- The line that publishes a message is longer than the message. -/
theorem isMessage_of_publish {line key message : String}
    (h : Command.ofLine line = .publish key message) (hlimit : (encode line).length ≤ lineLimit) :
    IsMessage message := by
  obtain ⟨word, more, hwords, rfl⟩ := words_of_publish h
  have hall : ∀ w ∈ word :: more, IsWord w := by
    intro w hw
    have hmem : w ∈ words line := by
      rw [hwords]
      exact List.mem_cons_of_mem _ (List.mem_cons_of_mem _ hw)
    exact isWord_of_mem_words hmem
  have hroom := length_writeLines_words_le line
  have hsplit : writeLines (words line) =
      writeLine "publish" ++ (writeLine key ++ writeLines (word :: more)) := by
    rw [hwords]
    rfl
  have hcommand : (writeLine "publish").length = 8 := by decide
  rw [hsplit, List.length_append, List.length_append, hcommand,
    ← length_writeLine_joinWords (List.cons_ne_nil word more), length_writeLine, length_writeLine,
    length_writeLine] at hroom
  exact ⟨⟨word :: more, List.cons_ne_nil _ _, hall, rfl⟩, by omega⟩

/-- Whether an output comes through as it was sent. -/
def Output.IsSendable : Output → Prop
  | .line _ text => IsLine text
  | .message _ _ text => IsMessage text
  | .notice _ => True

theorem isLine_of_mem_replies {reply : String} (h : reply ∈ acceptedReplies ++ errorReplies) :
    IsLine reply := by
  have hall : ∀ said ∈ acceptedReplies ++ errorReplies,
      (encode said).length ≤ lineLimit ∧ lineFeed ∉ encode said ∧
        (encode said).getLast? ≠ some carriageReturn := by decide +kernel
  obtain ⟨hlength, hfeed, hlast⟩ := hall reply h
  exact ⟨hlength, hfeed, hlast⟩

theorem Session.isLine_reply {registry : Registry} {session : Session} {line reply : String}
    (h : (session.process registry line).reply = some reply) : IsLine reply := by
  refine isLine_of_mem_replies (List.mem_append.2 ?_)
  rcases process_cases registry session line with ⟨said, hsaid, hrefused⟩ | haccepted
  · rw [hrefused] at h
    exact .inr (Option.some.inj h ▸ hsaid)
  · exact .inl (haccepted reply h)

theorem isLine_banner : IsLine Service.banner := ⟨by decide, by decide, by decide⟩

namespace Service

/-- The lines that a client gets of sendable outputs. -/
theorem isLine_of_mem_linesTo {outputs : List Output} (h : ∀ output ∈ outputs, output.IsSendable)
    {id : ClientId} {text : String} (hmem : text ∈ linesTo id outputs) : IsLine text := by
  obtain ⟨output, houtput, hto⟩ := List.mem_filterMap.1 hmem
  have hsendable := h output houtput
  cases output with
  | line client said =>
    obtain ⟨-, rfl⟩ : client = id ∧ said = text := by simpa using hto
    exact hsendable
  | message queue client said =>
    obtain ⟨-, rfl⟩ : client = id ∧ said = text := by simpa using hto
    exact hsendable.isLine
  | notice key => cases hto

/-- A client receives the lines that were sent to it, and nothing else. -/
theorem readLines_bytesTo {outputs : List Output} (h : ∀ output ∈ outputs, output.IsSendable)
    (id : ClientId) : readLines (bytesTo id outputs) = (linesTo id outputs, none) :=
  readLines_writeLines fun _ hmem => isLine_of_mem_linesTo h hmem

/-- A service whose queues hold messages, and whose exchanges and sessions know declared queues. -/
structure Carries (service : Service) : Prop where
  sound : service.registry.Sound
  declared : ∀ client ∈ service.clients, client.session.Declared service.registry
  messages : ∀ queue, ∀ message ∈ service.registry.pending queue, IsMessage message

theorem carries_fresh : ({} : Service).Carries where
  sound := Registry.sound_fresh
  declared := by simp
  messages := by simp [Registry.pending, Registry.fresh]

variable {service : Service}

theorem carries_updateClient (h : service.Carries) (id : ClientId) {change : Client → Client}
    (hd : ∀ client ∈ service.clients, (change client).session.Declared service.registry) :
    (service.updateClient id change).Carries where
  sound := h.sound
  declared := forall_mem_modify h.declared fun old hold => hd old (List.mem_of_getElem? hold)
  messages := h.messages

theorem carries_stop (h : service.Carries) (id : ClientId) : (service.stop id).Carries :=
  carries_updateClient h id h.declared

theorem carries_disconnect (h : service.Carries) (id : ClientId) :
    (service.disconnect id).Carries :=
  carries_updateClient (carries_stop h id) id (carries_stop h id).declared

theorem carries_registry (h : service.Carries) {registry : Registry} (hr : registry.Sound)
    (hl : service.registry.queues.length ≤ registry.queues.length)
    (hm : ∀ queue, ∀ message ∈ registry.pending queue, IsMessage message) :
    ({ service with registry } : Service).Carries where
  sound := hr
  declared client hmem queue hq := Nat.lt_of_lt_of_le (h.declared client hmem queue hq) hl
  messages := hm

/-- What a line adds to a queue is a message. -/
theorem isMessage_of_mem_lineContribution {registry : Registry} {session : Session}
    {queue : QueueId} {line message : String} (hlimit : (encode line).length ≤ lineLimit)
    (h : message ∈ session.lineContribution registry queue line) : IsMessage message := by
  unfold Session.lineContribution at h
  split at h
  · cases h
  · cases hcommand : Command.ofLine line with
    | publish key text =>
      simp only [hcommand, Session.contribution] at h
      split at h
      · split at h
        · rw [List.mem_singleton.1 h]
          exact isMessage_of_publish hcommand hlimit
        · cases h
      · cases h
    | _ =>
      rw [hcommand] at h
      cases h

/-- What a line of limited length publishes fits on a line again. -/
theorem carries_process (h : service.Carries) (id : ClientId) {line : String}
    (hlimit : (encode line).length ≤ lineLimit) : (service.process id line).1.Carries := by
  cases hclient : service.clients[id]? with
  | none =>
    rw [process_none hclient]
    exact h
  | some client =>
    obtain ⟨hsound, hdeclared, hgrown, hpending⟩ := Session.kept_process h.sound
      (h.declared client (List.mem_of_getElem? hclient)) line
    have hregistry := carries_registry h hsound hgrown fun queue message hmem => by
      rw [hpending queue] at hmem
      rcases List.mem_append.1 hmem with hold | hnew
      · exact h.messages queue message hold
      · exact isMessage_of_mem_lineContribution hlimit hnew
    simp only [process_eq hclient]
    exact carries_updateClient hregistry id fun _ _ => hdeclared

theorem carries_receive (h : service.Carries) (id : ClientId) {line : String}
    (hlimit : (encode line).length ≤ lineLimit) : (service.receive id line).1.Carries := by
  rcases hreceive : service.receive id line with ⟨after, outputs⟩
  cases received_of_receive hreceive with
  | unread => exact h
  | stays => exact carries_process h id hlimit
  | leaves => exact carries_disconnect (carries_process h id hlimit) id

theorem isSendable_answer (registry : Registry) (client : Client) (id : ClientId) (line : String) :
    ∀ output ∈ answer client id (client.session.process registry line), output.IsSendable := by
  intro output hmem
  rcases List.mem_append.1 hmem with hnotice | hwritten
  · obtain ⟨key, -, rfl⟩ := List.mem_map.1 hnotice
    trivial
  · obtain ⟨reply, hreply, hwrite⟩ := List.mem_flatMap.1 hwritten
    unfold write at hwrite
    split at hwrite
    · rw [List.mem_singleton.1 hwrite]
      exact Session.isLine_reply (Option.mem_toList.1 hreply)
    · cases hwrite

/-- Every reply can be sent as one line. -/
theorem isSendable_receive (service : Service) (id : ClientId) (line : String) :
    ∀ output ∈ (service.receive id line).2, output.IsSendable := by
  rcases hreceive : service.receive id line with ⟨after, outputs⟩
  cases received_of_receive hreceive with
  | unread => simp
  | stays => exact isSendable_answer service.registry _ id line
  | leaves => exact isSendable_answer service.registry _ id line

/-- A subscription takes messages and gives back what it cannot deliver. -/
theorem carries_advanced {after : Service} {id : ClientId} {outputs : List Output}
    (h : service.Carries) (ha : Advanced service id after outputs) :
    after.Carries ∧ ∀ output ∈ outputs, output.IsSendable := by
  cases ha with
  | announce =>
    have hok : IsLine okReply := isLine_of_mem_replies (by decide)
    exact ⟨carries_updateClient h id h.declared, by simpa [Output.IsSendable] using hok⟩
  | leave => exact ⟨carries_stop h id, by simp⟩
  | @deliver client subscription message registry _ _ _ htake =>
    have hmessages : ∀ queue, ∀ text ∈ (if queue = subscription.queue then [message] else []) ++
        registry.pending queue, IsMessage text := by
      intro queue
      rw [← Registry.pending_take? htake]
      exact h.messages queue
    refine ⟨carries_registry h (Registry.sound_take? h.sound htake) ?_ ?_, ?_⟩
    · obtain ⟨rest, -, rfl⟩ := Registry.take?_eq_some htake
      exact Nat.le_of_eq (Registry.length_queues_updateQueue _ _ _).symm
    · exact fun queue text hmem => hmessages queue text (List.mem_append_right _ hmem)
    · have htaken := hmessages subscription.queue message (by simp)
      simpa [Output.IsSendable] using htaken

theorem carries_connect (h : service.Carries) : service.connect.1.Carries where
  sound := h.sound
  declared := by
    intro client hmem
    rcases List.mem_append.1 hmem with hmem | hmem
    · exact h.declared client hmem
    · rw [List.mem_singleton.1 hmem]
      intro queue hq
      cases hq
  messages := h.messages

end Service

namespace Server

open Service

variable {server : Server}

/-- One step: a service that holds messages sends lines, and holds messages after it. -/
theorem carries_step (h : server.service.Carries) (next : Step) :
    (server.step next).1.service.Carries ∧
      ∀ output ∈ (server.step next).2, output.IsSendable := by
  cases next with
  | connect =>
    refine ⟨carries_connect h, ?_⟩
    simpa [step, connect, Output.IsSendable] using isLine_banner
  | send id bytes => exact ⟨h, by simp [step]⟩
  | finish id => exact ⟨h, by simp [step]⟩
  | read id =>
    simp only [step]
    cases hnext : server.inboxes[id]?.bind Inbox.next? with
    | none => exact ⟨h, by simp⟩
    | some found =>
      cases found with
      | line text rest =>
        have hlimit : (encode text).length ≤ lineLimit := by
          obtain ⟨inbox, -, hinbox⟩ := Option.bind_eq_some_iff.1 hnext
          unfold Inbox.next? at hinbox
          split at hinbox
          · exact length_encode_le_of_readLine (Option.some.inj hinbox)
          · cases hinbox
        exact ⟨carries_receive h id hlimit, isSendable_receive server.service id text⟩
      | ended => exact ⟨carries_disconnect h id, by simp [take]⟩
      | fault reason => exact ⟨carries_disconnect h id, by simp [take]⟩
  | disconnect id => exact ⟨carries_disconnect h id, by simp [step]⟩
  | hangUp id => exact ⟨carries_updateClient h id h.declared, by simp [step]⟩
  | advance id =>
    simp only [step]
    cases ha : server.service.advance id with
    | none => exact ⟨h, by simp⟩
    | some result => exact carries_advanced h (advanced_of_advance ha)
  | shutdown => exact ⟨⟨h.sound, h.declared, h.messages⟩, by simp [step]⟩

/-- **A whole run**, whatever bytes come: queues hold messages, and only whole lines are sent. -/
theorem carries_play (h : server.service.Carries) (steps : List Step) :
    (server.play steps).1.service.Carries ∧
      ∀ output ∈ (server.play steps).2, output.IsSendable := by
  induction steps generalizing server with
  | nil => exact ⟨h, by simp [play]⟩
  | cons next rest ih =>
    obtain ⟨hafter, hsent⟩ := carries_step h next
    obtain ⟨hlast, hlater⟩ := ih hafter
    refine ⟨hlast, fun output hmem => ?_⟩
    rcases List.mem_append.1 hmem with hfirst | hrest
    · exact hsent output hfirst
    · exact hlater output hrest

/-- A client that sends a line to its empty inbox has it processed. -/
theorem play_send_read {id : ClientId} {text : String} (hinbox : server.inboxes[id]? = some {})
    (hline : IsLine text) :
    (server.play [.send id (writeLine text), .read id]).1.service =
      (server.service.receive id text).1 := by
  have hread : readLine (writeLine text) = .line text [] := by
    have hrest := readLine_writeLine hline []
    rwa [List.append_nil] at hrest
  have hknown : hasLine (writeLine text) = true := by simp [hasLine, writeLine]
  have hfilled : (server.step (.send id (writeLine text))).1.inboxes[id]? =
      some { bytes := writeLine text } := by
    simp [step, updateInbox, hinbox]
  simp only [play, step] at hfilled ⊢
  rw [hfilled]
  simp [Inbox.next?, hknown, hread, take, updateInbox]

theorem isLine_publishLine {key message : String} (hkey : IsWord key) (hmessage : IsMessage message)
    (hlimit : (encode (publishLine key message)).length ≤ lineLimit) :
    IsLine (publishLine key message) := by
  obtain ⟨ws, hne, hws, rfl⟩ := hmessage.words
  rw [publishLine_joinWords key hne] at hlimit ⊢
  exact isLine_joinWords
    (List.forall_mem_cons.2 ⟨isWord_publish, List.forall_mem_cons.2 ⟨hkey, hws⟩⟩) hlimit

/-- What it means that a client publishes a message again under a key. -/
structure Republishes (server : Server) (key message : String) : Prop where
  command : Command.ofLine (publishLine key message) = .publish key message
  /-- Each queue that the key finds gets the message itself, however long the line. -/
  pending : ∀ id client exchange, server.service.clients[id]? = some client →
    client.reading = true → client.session.isSubscribed = false →
    client.session.exchange = some exchange →
    ∀ queue, (server.service.receive id (publishLine key message)).1.registry.pending queue =
      server.service.registry.pending queue ++
        if queue ∈ server.service.registry.route exchange key then [message] else []
  /-- A line that is short enough can be sent for that. -/
  sent : (encode (publishLine key message)).length ≤ lineLimit → ∀ id : ClientId,
    server.inboxes[id]? = some {} →
    (server.play [.send id (writeLine (publishLine key message)), .read id]).1.service =
      (server.service.receive id (publishLine key message)).1

/-- A message of a queue can be published again as it is. -/
theorem republishes (h : server.service.Carries) {key message : String} (hkey : IsWord key)
    (hmessage : IsMessage message) : server.Republishes key message where
  command := ofLine_publishLine hkey hmessage
  pending := by
    intro id client exchange hclient hreading hidle hexchange queue
    obtain ⟨-, -, -, hpending⟩ := Session.kept_process h.sound
      (h.declared client (List.mem_of_getElem? hclient)) (publishLine key message)
    have hcontribution : client.session.lineContribution server.service.registry queue
        (publishLine key message) =
          if queue ∈ server.service.registry.route exchange key then [message] else [] := by
      rw [Session.lineContribution, hidle, if_neg (by decide), ofLine_publishLine hkey hmessage]
      simp only [Session.contribution, hexchange]
    rw [registry_receive hclient hreading, hpending queue, hcontribution]
  sent := fun hlimit _ hinbox => play_send_read hinbox (isLine_publishLine hkey hmessage hlimit)

/-- **What the service stores and sends survives the wire.** After any steps, whatever bytes the
clients sent, every queue holds messages, and the bytes written to a client are read as the lines
that were sent to it. A message that was delivered is the same message when it is published again,
under any key. -/
theorem readLines_bytesTo_play (steps : List Step) :
    (∀ queue ∈ (play {} steps).1.service.registry.queues,
      ∀ message ∈ queue.pending, IsMessage message) ∧
    (∀ id, readLines (bytesTo id (play {} steps).2) = (linesTo id (play {} steps).2, none)) ∧
    ∀ queue id message, .message queue id message ∈ (play {} steps).2 →
      ∀ key, IsWord key → (play {} steps).1.Republishes key message := by
  have hfresh : ({} : Server).service.Carries := carries_fresh
  obtain ⟨hcarries, hsendable⟩ := carries_play hfresh steps
  refine ⟨fun queue hqueue message hmem => ?_, readLines_bytesTo hsendable, ?_⟩
  · obtain ⟨id, hid⟩ := List.getElem?_of_mem hqueue
    refine hcarries.messages id message ?_
    rw [Registry.pending, hid]
    exact hmem
  · intro queue id message hmem key hkey
    exact republishes hcarries hkey (hsendable _ hmem)

/-- White space in what a client sends is not what its subscribers receive. -/
example : linesTo 0 (play {}
    [.connect, .send 0 (encode "queue q\nexchange default default\npublish q \t a"), .read 0,
      .read 0, .read 0, .send 0 (encode "  b \r\nsubscribe\n"), .read 0, .read 0, .advance 0,
      .advance 0]).2 =
    ["ok SMQP", "ok", "ok", "ok", "ok", "a b"] := by decide +kernel

end Server

end BrokerCluster.Messaging
