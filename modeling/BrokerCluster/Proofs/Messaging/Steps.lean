import BrokerCluster.Messaging.Service
import BrokerCluster.Proofs.Routing.Registry

/-!
# Single steps of the messaging service

What a command does to the registry and to its session, what the line of a client
does to the service, and the three things that a step of a subscription can be.
Later proofs use these lemmas and never look at how a step is computed.
-/
namespace BrokerCluster.Messaging

open Routing

namespace Session

variable {registry : Registry} {session : Session}

/-- What a command adds to a queue. -/
def contribution (registry : Registry) (session : Session) (queue : QueueId) :
    Command → List String
  | .publish key message =>
    match session.exchange with
    | some exchange => if queue ∈ registry.route exchange key then [message] else []
    | none => []
  | _ => []

/-- What a session has selected exists. -/
def Declared (registry : Registry) (session : Session) : Prop :=
  ∀ queue, session.queue = some queue → queue < registry.queues.length

/-- What is kept by a command, and what the command adds to each queue. -/
structure Kept (registry : Registry) (session : Session) (command : Command)
    (outcome : Outcome) : Prop where
  sound : outcome.registry.Sound
  declared : outcome.session.Declared outcome.registry
  grown : registry.queues.length ≤ outcome.registry.queues.length
  pending : ∀ queue, outcome.registry.pending queue =
    registry.pending queue ++ session.contribution registry queue command

theorem Kept.refuse (hr : registry.Sound) (hs : session.Declared registry) {command : Command}
    (hc : ∀ queue, session.contribution registry queue command = []) (error : RoutingError) :
    Kept registry session command (refuse registry session error) where
  sound := hr
  declared := hs
  grown := Nat.le_refl _
  pending queue := by simp [hc, Session.refuse]

/-- No command loses a queue, or a message in one. -/
theorem kept_perform (hr : registry.Sound) (hs : session.Declared registry) (command : Command) :
    Kept registry session command (session.perform registry command) := by
  cases command with
  | exchange kind name =>
    simp only [perform]
    split
    · exact .refuse hr hs (fun _ => rfl) _
    · split
      · exact .refuse hr hs (fun _ => rfl) _
      · next after hd =>
        have hq := Registry.declareExchange_queues hd
        refine ⟨Registry.sound_declareExchange hr hd, ?_, ?_, fun queue => ?_⟩
        · intro queue hqueue
          rw [hq]
          exact hs queue hqueue
        · exact Nat.le_of_eq (congrArg List.length hq).symm
        · simp [Registry.pending, hq, contribution]
  | queue name =>
    refine ⟨Registry.sound_declareQueue hr name, ?_, Registry.length_le_declareQueue _ _,
      fun queue => ?_⟩
    · intro queue hqueue
      obtain rfl := Option.some.inj hqueue
      exact Registry.declareQueue_declared registry name
    · simp [perform, Registry.pending_declareQueue, contribution]
  | bind key =>
    simp only [perform]
    split
    · exact .refuse hr hs (fun _ => rfl) _
    · exact .refuse hr hs (fun _ => rfl) _
    · next exchange queue _ hq =>
      exact ⟨Registry.sound_bind hr exchange key (hs queue hq), hs, Nat.le_refl _,
        fun other => by simp [Registry.pending, Registry.bind, contribution]⟩
  | publish key message =>
    simp only [perform]
    split
    · next he => exact .refuse hr hs (fun _ => by simp [contribution, he]) _
    · next exchange he =>
      refine ⟨Registry.sound_publish hr exchange key message, ?_, ?_, fun queue => ?_⟩
      · intro queue hqueue
        rw [Registry.length_queues_publish]
        exact hs queue hqueue
      · exact Nat.le_of_eq (Registry.length_queues_publish _ _ _ _).symm
      · rw [Registry.pending_publish hr]
        simp only [contribution, he]
  | subscribe =>
    simp only [perform]
    split
    · exact .refuse hr hs (fun _ => rfl) _
    · exact ⟨hr, hs, Nat.le_refl _, fun queue => by simp [contribution]⟩
  | exit => exact ⟨hr, hs, Nat.le_refl _, fun queue => by simp [perform, contribution]⟩
  | malformed reply => exact ⟨hr, hs, Nat.le_refl _, fun queue => by simp [perform, contribution]⟩

/-- What a line adds to a queue; that of a subscribed session adds nothing. -/
def lineContribution (registry : Registry) (session : Session) (queue : QueueId) (line : String) :
    List String :=
  if session.isSubscribed then [] else session.contribution registry queue (.ofLine line)

/-- What is kept by a line, and what the line adds to each queue. -/
theorem kept_process (hr : registry.Sound) (hs : session.Declared registry) (line : String) :
    (session.process registry line).registry.Sound ∧
    (session.process registry line).session.Declared (session.process registry line).registry ∧
    registry.queues.length ≤ (session.process registry line).registry.queues.length ∧
    ∀ queue, (session.process registry line).registry.pending queue =
      registry.pending queue ++ session.lineContribution registry queue line := by
  by_cases hsub : session.isSubscribed = true
  · simp only [process, lineContribution, if_pos hsub, List.append_nil]
    refine ⟨hr, ?_, Nat.le_refl _, fun _ => trivial⟩
    split
    · exact hs
    · exact hs
  · simp only [process, lineContribution, if_neg hsub]
    have hkept := kept_perform hr hs (.ofLine line)
    exact ⟨hkept.sound, hkept.declared, hkept.grown, hkept.pending⟩

/-- A publish is answered `ok` exactly if an exchange is selected. -/
theorem perform_publish_reply (registry : Registry) (session : Session) (key message : String) :
    (session.perform registry (.publish key message)).reply = some okReply ↔
      session.exchange ≠ none := by
  cases he : session.exchange with
  | none =>
    simp [perform, he, refuse, RoutingError.message, okReply]
  | some exchange => simp [perform, he]

end Session

namespace Service

variable {service after : Service} {id : ClientId} {client : Client} {line : String}
  {outputs : List Output}

/-- What every service satisfies in the runs of a broker. -/
structure Sound (service : Service) : Prop where
  registry : service.registry.Sound
  declared : ∀ client ∈ service.clients, client.session.Declared service.registry
  writable : ∀ client ∈ service.clients, client.reading = true → client.writable = true

theorem sound_fresh : ({} : Service).Sound where
  registry := Registry.sound_fresh
  declared := by simp
  writable := by simp

theorem sound_updateClient (h : service.Sound) (id : ClientId)
    {change : Client → Client}
    (hd : ∀ client, service.clients[id]? = some client →
      (change client).session.Declared service.registry)
    (hw : ∀ client, service.clients[id]? = some client →
      (change client).reading = true → (change client).writable = true) :
    (service.updateClient id change).Sound where
  registry := h.registry
  declared := forall_mem_modify h.declared hd
  writable := forall_mem_modify h.writable hw

theorem sound_updateSession (h : service.Sound) (id : ClientId)
    {change : Session → Session}
    (hd : ∀ client, service.clients[id]? = some client →
      (change client.session).Declared service.registry) :
    (service.updateSession id change).Sound :=
  sound_updateClient h id hd fun client hc => h.writable client (List.mem_of_getElem? hc)

theorem sound_stop (h : service.Sound) (id : ClientId) :
    (service.stop id).Sound :=
  sound_updateSession h id fun client hc => h.declared client (List.mem_of_getElem? hc)

theorem sound_disconnect (h : service.Sound) (id : ClientId) :
    (service.disconnect id).Sound :=
  sound_updateClient (sound_stop h id) id
    (fun client hc => (sound_stop h id).declared client (List.mem_of_getElem? hc))
    (fun _ _ hr => Bool.noConfusion hr)

/-- A registry that has no fewer queues takes the place of the old one. -/
theorem sound_registry (h : service.Sound) {registry : Registry}
    (hr : registry.Sound) (hl : service.registry.queues.length ≤ registry.queues.length) :
    ({ service with registry } : Service).Sound where
  registry := hr
  declared client hc queue hq := Nat.lt_of_lt_of_le (h.declared client hc queue hq) hl
  writable := h.writable

/-- What is sent when a line was processed: a notice of what it published, and the reply if that can
be written. -/
def answer (client : Client) (id : ClientId) (outcome : Outcome) : List Output :=
  outcome.published.toList.map .notice ++ outcome.reply.toList.flatMap (write client id)

theorem process_none (hnone : service.clients[id]? = none) (line : String) :
    service.process id line = (service, none, []) := by
  simp only [process, hnone]

theorem process_eq (hclient : service.clients[id]? = some client) (line : String) :
    let outcome := client.session.process service.registry line
    service.process id line =
      ({ service with registry := outcome.registry }.updateSession id fun _ => outcome.session,
        outcome.reply, outcome.published.toList.map .notice) := by
  simp only [process, hclient]

theorem registry_process (hclient : service.clients[id]? = some client) (line : String) :
    (service.process id line).1.registry =
      (client.session.process service.registry line).registry := by
  rw [process_eq hclient]
  rfl

theorem client_process (hclient : service.clients[id]? = some client) (line : String) :
    (service.process id line).1.clients[id]? =
      some { client with session := (client.session.process service.registry line).session } := by
  simp [process_eq hclient, updateSession, updateClient, hclient]

theorem receive_none (hunread : ∀ client, service.clients[id]? = some client →
    client.reading = false) : service.receive id line = (service, []) := by
  unfold receive
  split
  · rfl
  · next client hclient => simp [hunread client hclient]

/-- The client is let go when its session has finished, or when it cannot take the reply. -/
theorem receive_of_reading (hclient : service.clients[id]? = some client)
    (hreading : client.reading = true) (line : String) :
    let outcome := client.session.process service.registry line
    service.receive id line =
      (if outcome.session.finished || (outcome.reply.isSome && !client.writable) then
          (service.process id line).1.disconnect id
        else (service.process id line).1,
        answer client id outcome) := by
  simp only [receive, hclient, hreading, if_true, client_process hclient, Option.any_some]
  simp only [process_eq hclient, answer]

/-- What the line of a client can lead to. -/
inductive Received (service : Service) (id : ClientId) (line : String) :
    Service → List Output → Prop where
  /-- Nothing is read from the client. -/
  | unread (hunread : ∀ client, service.clients[id]? = some client → client.reading = false) :
      Received service id line service []
  /-- The line is processed, and the client may send another. -/
  | stays {client : Client} (hclient : service.clients[id]? = some client)
      (hreading : client.reading = true)
      (hunfinished : (client.session.process service.registry line).session.finished = false)
      (hwritten : (client.session.process service.registry line).reply.isSome = true →
        client.writable = true) :
      Received service id line (service.process id line).1
        (answer client id (client.session.process service.registry line))
  /-- The line is processed, and the client is let go. -/
  | leaves {client : Client} (hclient : service.clients[id]? = some client)
      (hreading : client.reading = true)
      (hleft : (client.session.process service.registry line).session.finished = true ∨
        (client.session.process service.registry line).reply.isSome = true ∧
          client.writable = false) :
      Received service id line ((service.process id line).1.disconnect id)
        (answer client id (client.session.process service.registry line))

/-- Whatever the state and the line, one of the three cases holds. -/
theorem received_of_receive (h : service.receive id line = (after, outputs)) :
    Received service id line after outputs := by
  by_cases hread : ∃ client, service.clients[id]? = some client ∧ client.reading = true
  · obtain ⟨client, hclient, hreading⟩ := hread
    rw [receive_of_reading hclient hreading] at h
    split at h
    · next hleft =>
      cases h
      exact .leaves hclient hreading (by simpa using hleft)
    · next hstays =>
      cases h
      simp only [Bool.or_eq_true, Bool.and_eq_true, Bool.not_eq_true', not_or, not_and,
        Bool.not_eq_true, Bool.not_eq_false] at hstays
      exact .stays hclient hreading hstays.1 hstays.2
  · have hunread : ∀ client, service.clients[id]? = some client → client.reading = false :=
      fun client hclient => Bool.eq_false_iff.2 fun hreading => hread ⟨client, hclient, hreading⟩
    rw [receive_none hunread] at h
    cases h
    exact .unread hunread

theorem registry_receive (hclient : service.clients[id]? = some client)
    (hreading : client.reading = true) (line : String) :
    (service.receive id line).1.registry =
      (client.session.process service.registry line).registry := by
  rw [receive_of_reading hclient hreading, ← registry_process hclient]
  dsimp only
  split <;> rfl

theorem receive_eq (h : service.Sound) (hclient : service.clients[id]? = some client)
    (hreading : client.reading = true) (line : String) :
    let outcome := client.session.process service.registry line
    (service.receive id line).1.registry = outcome.registry ∧
    (service.receive id line).2 =
      outcome.published.toList.map .notice ++ outcome.reply.toList.map (.line id) := by
  have hwritable := h.writable client (List.mem_of_getElem? hclient) hreading
  refine ⟨registry_receive hclient hreading line, ?_⟩
  rw [receive_of_reading hclient hreading]
  cases hreply : (client.session.process service.registry line).reply <;>
    simp [answer, write, hreply, hwritable]

theorem sound_process (h : service.Sound) (id : ClientId) (line : String) :
    (service.process id line).1.Sound := by
  cases hclient : service.clients[id]? with
  | none =>
    rw [process_none hclient]
    exact h
  | some client =>
    obtain ⟨hsound, hdeclared, hgrown, -⟩ := Session.kept_process h.registry
      (h.declared client (List.mem_of_getElem? hclient)) line
    simp only [process_eq hclient]
    exact sound_updateSession (sound_registry h hsound hgrown) id fun _ _ => hdeclared

theorem sound_receive (h : service.Sound) (id : ClientId) (line : String) :
    (service.receive id line).1.Sound := by
  rcases hreceive : service.receive id line with ⟨after, outputs⟩
  cases received_of_receive hreceive with
  | unread => exact h
  | stays => exact sound_process h id line
  | leaves => exact sound_disconnect (sound_process h id line) id

/-- What the line of a client adds to a queue. -/
def contribution (service : Service) (queue : QueueId) (id : ClientId) (line : String) :
    List String :=
  match service.clients[id]? with
  | some client =>
    if client.reading && !client.session.isSubscribed then
      client.session.contribution service.registry queue (.ofLine line)
    else []
  | none => []

/-- Only what a line publishes comes into a queue, and nothing is taken out. -/
theorem pending_receive (h : service.Sound) (id : ClientId) (line : String) (queue : QueueId) :
    (service.receive id line).1.registry.pending queue =
      service.registry.pending queue ++ service.contribution queue id line := by
  unfold contribution
  split
  · next client hclient =>
    cases hreading : client.reading with
    | true =>
      obtain ⟨-, -, -, hpending⟩ := Session.kept_process h.registry
        (h.declared client (List.mem_of_getElem? hclient)) line
      rw [registry_receive hclient hreading, hpending queue, Session.lineContribution]
      cases client.session.isSubscribed <;> simp
    | false => simp [receive_none, hclient, hreading]
  · next hnone => simp [receive_none, hnone]

/-- What a step of a client's subscription can be. -/
inductive Advanced (service : Service) (id : ClientId) : Service → List Output → Prop where
  /-- The client is told that it is subscribed. -/
  | announce {client : Client} {subscription : Subscription}
      (hclient : service.clients[id]? = some client)
      (hsub : client.session.subscription = some subscription)
      (hannounced : subscription.announced = false) :
      Advanced service id
        (service.updateSession id fun session =>
          { session with subscription := some { subscription with announced := true } })
        [.line id okReply]
  /-- The subscription ends, and nothing is taken. -/
  | leave {client : Client} {subscription : Subscription}
      (hclient : service.clients[id]? = some client)
      (hsub : client.session.subscription = some subscription) :
      Advanced service id (service.stop id) []
  /-- The first message of the queue is written to the client. -/
  | deliver {client : Client} {subscription : Subscription} {message : String}
      {registry : Registry} (hclient : service.clients[id]? = some client)
      (hsub : client.session.subscription = some subscription)
      (hannounced : subscription.announced = true)
      (htake : service.registry.take? subscription.queue = some (message, registry)) :
      Advanced service id { service with registry } [.message subscription.queue id message]

/-- A message that cannot be written is put back, so that the step only ends the subscription. -/
theorem advanced_of_advance (h : service.advance id = some (after, outputs)) :
    Advanced service id after outputs := by
  unfold advance at h
  obtain ⟨client, hclient, h⟩ := Option.bind_eq_some_iff.1 h
  obtain ⟨subscription, hsub, h⟩ := Option.bind_eq_some_iff.1 h
  have hleave : some (service.stop id, []) = some (after, outputs) →
      Advanced service id after outputs := by
    intro he
    cases he
    exact .leave hclient hsub
  cases ha : subscription.announced with
  | false =>
    simp only [ha, Bool.not_false, if_true] at h
    split at h
    · cases h
      exact .announce hclient hsub ha
    · exact hleave h
  | true =>
    simp only [ha, Bool.not_true, Bool.false_eq_true, if_false] at h
    split at h
    · exact hleave h
    · obtain ⟨⟨message, registry⟩, htake, h⟩ := Option.bind_eq_some_iff.1 h
      dsimp only at h
      split at h
      · cases h
        exact .deliver hclient hsub ha htake
      -- The message goes back, which leaves the registry as it was.
      · rw [Registry.requeue_take? htake] at h
        exact hleave h

/-- A subscription waits if it is announced and its queue is empty; a service that shuts down waits
for nothing. -/
theorem advance_eq_none_iff :
    service.advance id = none ↔
      ∀ client subscription, service.clients[id]? = some client →
        client.session.subscription = some subscription →
        subscription.announced = true ∧ service.stopping = false ∧
          service.registry.pending subscription.queue = [] := by
  unfold advance
  cases hclient : service.clients[id]? with
  | none => simp
  | some client =>
    cases hsub : client.session.subscription with
    | none =>
      refine ⟨fun _ c s hc hs => ?_, fun _ => by simp [hsub]⟩
      cases hc
      rw [hsub] at hs
      cases hs
    | some subscription =>
      have hone : (∀ c s, some client = some c → c.session.subscription = some s →
            s.announced = true ∧ service.stopping = false ∧
              service.registry.pending s.queue = []) ↔
          subscription.announced = true ∧ service.stopping = false ∧
            service.registry.pending subscription.queue = [] := by
        constructor
        · intro h
          exact h client subscription rfl hsub
        · rintro h c s hc hs
          cases hc
          rw [hsub] at hs
          cases hs
          exact h
      rw [hone, ← Registry.take?_eq_none_iff]
      simp only [Option.bind_eq_bind, Option.bind_some, hsub]
      cases subscription.announced
      · cases client.writable <;> simp
      · cases service.stopping
        · cases service.registry.take? subscription.queue
          · simp
          · cases client.writable <;> simp
        · simp

theorem sound_advanced (h : service.Sound) (ha : Advanced service id after outputs) :
    after.Sound := by
  cases ha with
  | announce hclient hsub =>
    exact sound_updateSession h id fun client hc => h.declared client (List.mem_of_getElem? hc)
  | leave => exact sound_stop h id
  | @deliver client subscription message registry _ _ _ htake =>
    refine sound_registry h (Registry.sound_take? h.registry htake) ?_
    obtain ⟨rest, -, rfl⟩ := Registry.take?_eq_some htake
    exact Nat.le_of_eq (Registry.length_queues_updateQueue _ _ _).symm

end Service

end BrokerCluster.Messaging
