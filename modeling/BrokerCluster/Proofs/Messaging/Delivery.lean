import BrokerCluster.Proofs.Messaging.Settling

/-!
# Messages are delivered once and in order

For each queue, what was written to its subscribers, followed by what is still
pending, is what was published to it, in the same order. This holds after every
schedule of events and steps of subscriptions; no message is lost or doubled
between subscriptions.
-/
namespace BrokerCluster.Messaging.Service

open Routing

variable {service : Service}

/-- The messages taken from a queue, in order, each with the client that it was written to. -/
def deliveries (queue : QueueId) (outputs : List Output) : List (ClientId × String) :=
  outputs.filterMap fun
    | .message from_ client text => if from_ = queue then some (client, text) else none
    | _ => none

/-- What an event publishes to a queue: the message of a publish that is answered `ok` and whose
exchange resolves the key to the queue at that moment. -/
def publishedBy (service : Service) (queue : QueueId) : Event → List String
  | .line id text =>
    match Command.ofLine text, service.clients[id]?.bind (·.session.exchange) with
    | .publish key message, some exchange =>
      if .line id okReply ∈ (service.react (.line id text)).2 ∧
          queue ∈ service.registry.route exchange key then [message]
      else []
    | _, _ => []
  | _ => []

/-- What the events of a schedule publish to a queue, in order. -/
def published (queue : QueueId) (service : Service) : List Move → List String
  | [] => []
  | next :: rest =>
    (next.event?.toList.flatMap (service.publishedBy queue)) ++
      published queue (service.move next).1 rest

theorem deliveries_append (queue : QueueId) (first second : List Output) :
    deliveries queue (first ++ second) = deliveries queue first ++ deliveries queue second :=
  List.filterMap_append

/-- A notice is no line to a client. -/
theorem reply_of_mem_answer {client : Client} {id : ClientId} {outcome : Outcome} {reply : String}
    (h : .line id reply ∈ answer client id outcome) : outcome.reply = some reply := by
  simp only [answer, List.mem_append, List.mem_map, List.mem_flatMap, Option.mem_toList,
    reduceCtorEq, and_false, exists_false, false_or] at h
  obtain ⟨said, hsaid, hwritten⟩ := h
  unfold write at hwritten
  split at hwritten
  · obtain ⟨-, rfl⟩ := Output.line.inj (List.mem_singleton.1 hwritten)
    exact hsaid
  · cases hwritten

/-- A client is told the reply of its session and nothing else. -/
theorem line_mem_receive_iff (h : service.Sound) {id : ClientId}
    {text reply : String} :
    .line id reply ∈ (service.receive id text).2 ↔
      ∃ client, service.clients[id]? = some client ∧ client.reading = true ∧
        (client.session.process service.registry text).reply = some reply := by
  constructor
  · intro hm
    rcases hreceive : service.receive id text with ⟨after, outputs⟩
    rw [hreceive] at hm
    cases received_of_receive hreceive with
    | unread => cases hm
    | stays hc hr => exact ⟨_, hc, hr, reply_of_mem_answer hm⟩
    | leaves hc hr => exact ⟨_, hc, hr, reply_of_mem_answer hm⟩
  · rintro ⟨client, hc, hr, hreply⟩
    simp [(receive_eq h hc hr text).2, hreply]

/-- The queue gains exactly what the event is said to publish to it. -/
theorem contribution_eq_publishedBy (h : service.Sound) (queue : QueueId)
    (id : ClientId) (text : String) :
    service.contribution queue id text = service.publishedBy queue (.line id text) := by
  simp only [contribution, publishedBy]
  cases hc : service.clients[id]? with
  | none => cases Command.ofLine text <;> rfl
  | some client =>
    simp only [Option.bind_some, react, line_mem_receive_iff h, hc, Option.some.injEq,
      exists_eq_left']
    cases hcommand : Command.ofLine text with
    | publish key message =>
      cases he : client.session.exchange with
      | none => simp [Session.contribution, he]
      | some exchange =>
        have hreply : (client.session.process service.registry text).reply = some okReply ↔
            client.session.isSubscribed = false := by
          cases hs : client.session.isSubscribed with
          | true => simp [Session.process, hs]
          | false =>
            simp [Session.process, hs, hcommand, Session.perform_publish_reply, he]
        simp only [hreply, Session.contribution, he]
        cases client.reading <;> cases client.session.isSubscribed <;> simp
    | _ => simp [Session.contribution]

theorem deliveries_write (queue : QueueId) (client : Client) (id : ClientId) (texts : List String) :
    deliveries queue (texts.flatMap (write client id)) = [] := by
  induction texts with
  | nil => rfl
  | cons text texts ih =>
    rw [List.flatMap_cons, deliveries_append, ih, List.append_nil]
    unfold write
    split <;> rfl

theorem deliveries_notices (queue : QueueId) (keys : List String) :
    deliveries queue (keys.map .notice) = [] := by
  induction keys with
  | nil => rfl
  | cons key keys ih => exact ih

theorem deliveries_answer (queue : QueueId) (client : Client) (id : ClientId) (outcome : Outcome) :
    deliveries queue (answer client id outcome) = [] := by
  rw [answer, deliveries_append, deliveries_notices, deliveries_write, List.append_nil]

/-- The line of a client leads to a reply and a notice, never to a delivery. -/
theorem deliveries_receive (service : Service) (queue : QueueId) (id : ClientId) (text : String) :
    deliveries queue (service.receive id text).2 = [] := by
  rcases hreceive : service.receive id text with ⟨after, outputs⟩
  cases received_of_receive hreceive with
  | unread => rfl
  | stays => exact deliveries_answer queue _ id _
  | leaves => exact deliveries_answer queue _ id _

theorem sound_move (h : service.Sound) (next : Move) :
    (service.move next).1.Sound := by
  cases next with
  | event event =>
    cases event with
    | connect =>
      refine ⟨h.registry, ?_, ?_⟩
      · intro client hc
        rcases List.mem_append.1 hc with hc | hc
        · exact h.declared client hc
        · obtain rfl := List.mem_singleton.1 hc
          intro queue hq
          cases hq
      · intro client hc
        rcases List.mem_append.1 hc with hc | hc
        · exact h.writable client hc
        · obtain rfl := List.mem_singleton.1 hc
          exact fun _ => rfl
    | line id text => exact sound_receive h id text
    | disconnect id => exact sound_disconnect h id
  | advance id =>
    simp only [move]
    cases ha : service.advance id with
    | none => exact h
    | some result =>
      obtain ⟨after, outputs⟩ := result
      exact sound_advanced h (advanced_of_advance ha)

/-- **One move conserves messages**: what was pending and what is published is what is delivered and
what stays pending. -/
theorem deliveries_move (h : service.Sound) (next : Move) (queue : QueueId) :
    (deliveries queue (service.move next).2).map Prod.snd ++
        (service.move next).1.registry.pending queue =
      service.registry.pending queue ++
        next.event?.toList.flatMap (service.publishedBy queue) := by
  cases next with
  | event event =>
    simp only [move, Move.event?, Option.toList_some, List.flatMap_singleton]
    cases event with
    | connect => simp [react, connect, deliveries, publishedBy]
    | line id text =>
      have hpending := pending_receive h id text queue
      rw [contribution_eq_publishedBy h] at hpending
      rw [react, deliveries_receive, hpending]
      rfl
    | disconnect id =>
      simp [react, disconnect, stop, updateSession, updateClient, deliveries, publishedBy]
  | advance id =>
    simp only [move, Move.event?, Option.toList_none, List.flatMap_nil, List.append_nil]
    cases ha : service.advance id with
    | none => rfl
    | some result =>
      obtain ⟨after, outputs⟩ := result
      simp only [Option.getD_some]
      cases advanced_of_advance ha with
      | announce => rfl
      | leave => rfl
      | @deliver client subscription message registry hclient hsub hannounced htake =>
        rw [Registry.pending_take? htake]
        by_cases hq : queue = subscription.queue
        · simp [deliveries, hq]
        · simp [deliveries, hq, Ne.symm hq]

/-- **A whole schedule conserves messages**, from any sound service on. -/
theorem deliveries_play (h : service.Sound) (moves : List Move)
    (queue : QueueId) :
    (deliveries queue (service.play moves).2).map Prod.snd ++
        (service.play moves).1.registry.pending queue =
      service.registry.pending queue ++ published queue service moves := by
  induction moves generalizing service with
  | nil => simp [play, published, deliveries]
  | cons next rest ih =>
    have hstep := deliveries_move h next queue
    have hrest := ih (sound_move h next)
    simp only [play, published, deliveries_append, List.map_append, List.append_assoc]
    rw [hrest, ← List.append_assoc, hstep, List.append_assoc]

/-- Only subscribers get messages, and only of their queue. -/
theorem subscribed_of_delivery {next : Move} {queue : QueueId} {id : ClientId}
    {text : String} (hm : (id, text) ∈ deliveries queue (service.move next).2) :
    ∃ client subscription, service.clients[id]? = some client ∧
      client.session.subscription = some subscription ∧ subscription.queue = queue := by
  cases next with
  | event event =>
    cases event with
    | connect => cases hm
    | line other line =>
      rw [move, react, deliveries_receive] at hm
      cases hm
    | disconnect => cases hm
  | advance other =>
    simp only [move] at hm
    cases ha : service.advance other with
    | none =>
      rw [ha] at hm
      cases hm
    | some result =>
      obtain ⟨after, outputs⟩ := result
      simp only [ha, Option.getD_some] at hm
      cases advanced_of_advance ha with
      | announce => cases hm
      | leave => cases hm
      | @deliver client subscription message registry hclient hsub hannounced htake =>
        by_cases hq : subscription.queue = queue
        · obtain ⟨rfl, rfl⟩ : id = other ∧ text = message := by simpa [deliveries, hq] using hm
          exact ⟨client, subscription, hclient, hsub, hq⟩
        · simp [deliveries, hq] at hm

/-- **Every message is delivered once and in order.** After any schedule, what was taken from a
queue and written, followed by what is pending there, is what was published to the queue; each
delivery goes to one client, which is subscribed to the queue at that moment. The runs that leave
nothing to do between events are schedules: after them every subscribed client was told so, and
nothing is pending in its queue, so that all that was published there has been written. -/
theorem deliveries_append_pending :
    (∀ (moves : List Move) (queue : QueueId),
      (deliveries queue (play {} moves).2).map Prod.snd ++
          (play {} moves).1.registry.pending queue = published queue {} moves) ∧
    (∀ (service : Service) (next : Move) (queue : QueueId) (id : ClientId) (text : String),
      (id, text) ∈ deliveries queue (service.move next).2 →
        ∃ client subscription, service.clients[id]? = some client ∧
          client.session.subscription = some subscription ∧ subscription.queue = queue) ∧
    ∀ events : List Event,
      ∃ moves, moves.filterMap Move.event? = events ∧ play {} moves = run {} events ∧
        ∀ (id : ClientId) (client : Client) (subscription : Subscription),
          (run {} events).1.clients[id]? = some client →
          client.session.subscription = some subscription →
            subscription.announced = true ∧ (run {} events).1.stopping = false ∧
            (run {} events).1.registry.pending subscription.queue = [] ∧
            (deliveries subscription.queue (run {} events).2).map Prod.snd =
              published subscription.queue {} moves := by
  have hconserved : ∀ (moves : List Move) (queue : QueueId),
      (deliveries queue (play {} moves).2).map Prod.snd ++
          (play {} moves).1.registry.pending queue = published queue {} moves := by
    intro moves queue
    have hplay := deliveries_play sound_fresh moves queue
    have hnone : ({} : Service).registry.pending queue = [] := by
      simp [Registry.pending, Registry.fresh]
    rwa [hnone] at hplay
  refine ⟨hconserved, fun service next queue id text => subscribed_of_delivery, fun events => ?_⟩
  obtain ⟨moves, hevents, hplay⟩ := exists_play_run {} events
  refine ⟨moves, hevents, hplay, fun id client subscription hclient hsub => ?_⟩
  have hwaits : (run {} events).1.advance id = none := advance_run (fun _ => rfl) events id
  obtain ⟨hannounced, hstopping, hnone⟩ :=
    advance_eq_none_iff.1 hwaits client subscription hclient hsub
  have hall := hconserved moves subscription.queue
  rw [hplay, hnone, List.append_nil] at hall
  exact ⟨hannounced, hstopping, hnone, hall⟩

end BrokerCluster.Messaging.Service
