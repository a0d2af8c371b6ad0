import BrokerCluster.Proofs.Messaging.Conservation
import BrokerCluster.Proofs.Messaging.Delivery

/-!
# A service seen from one of its queues

For each queue, what a schedule of the service does is a run of the queue and its
subscribers: an event publishes, lets a client join or lets it leave, and a step of a
subscription takes a message and completes it at once. Such runs are the ones in
which nothing comes between the two.
-/
namespace BrokerCluster.Messaging

open Routing

namespace Dispatch

theorem stage?_setStage (dispatch : Dispatch) (client : ClientId) (stage : Stage)
    (other : ClientId) :
    (dispatch.setStage client stage).stage? other =
      if other = client then (dispatch.stage? client).map fun _ => stage
      else dispatch.stage? other := by
  simp only [stage?, setStage]
  induction dispatch.subscribers with
  | nil => simp
  | cons entry rest ih =>
    obtain ⟨name, held⟩ := entry
    by_cases hname : name = client
    · subst hname
      by_cases hother : other = name
      · simp [hother]
      · simpa [List.lookup_cons, hother, beq_false_of_ne hother] using ih
    · by_cases hother : other = name
      · subst hother
        simp [hname]
      · simp only [List.map_cons, hname, if_false, List.lookup_cons, beq_false_of_ne hother]
        rw [ih, beq_false_of_ne (Ne.symm hname)]

theorem stage?_leave (dispatch : Dispatch) (client other : ClientId) :
    (dispatch.leave client).stage? other =
      if other = client then none else dispatch.stage? other := by
  simp only [stage?, leave]
  induction dispatch.subscribers with
  | nil => simp
  | cons entry rest ih =>
    obtain ⟨name, held⟩ := entry
    by_cases hname : name = client
    · subst hname
      rw [List.filter_cons_of_neg (by simp), ih]
      by_cases hother : other = name
      · simp [hother]
      · simp [hother, List.lookup_cons, beq_false_of_ne hother]
    · rw [List.filter_cons_of_pos (by simpa using hname)]
      by_cases hother : other = name
      · subst hother
        simp [hname]
      · simp only [List.lookup_cons, beq_false_of_ne hother]
        exact ih

theorem stage?_append (dispatch : Dispatch) {client : ClientId} (stage : Stage)
    (hnone : dispatch.stage? client = none) (other : ClientId) :
    ({ dispatch with subscribers := dispatch.subscribers ++ [(client, stage)] }).stage? other =
      if other = client then some stage else dispatch.stage? other := by
  by_cases hother : other = client
  · subst hother
    simp only [stage?, List.lookup_append] at hnone ⊢
    simp [hnone]
  · simp only [stage?, List.lookup_append, hother, if_false]
    simp [List.lookup_cons, beq_false_of_ne hother]

end Dispatch

/-- What the subscriber of a session to a queue is at. -/
def Session.stage? (session : Session) (queue : QueueId) : Option Stage :=
  (session.subscription.filter fun subscription => subscription.queue == queue).map
    fun subscription => if subscription.announced then .waiting else .joining

theorem Session.stage?_of_none {session : Session} (h : session.subscription = none)
    (queue : QueueId) : session.stage? queue = none := by
  simp [Session.stage?, h]

theorem Session.stage?_of_some {session : Session} {subscription : Subscription}
    (h : session.subscription = some subscription) (queue : QueueId) :
    session.stage? queue =
      if subscription.queue = queue then
        some (if subscription.announced then .waiting else .joining)
      else none := by
  rw [Session.stage?, h]
  by_cases hqueue : subscription.queue = queue
  · rw [Option.filter_some_pos (by simpa using hqueue), if_pos hqueue]
    rfl
  · rw [Option.filter_some_neg (by simpa using hqueue), if_neg hqueue]
    rfl

namespace Service

def stage? (service : Service) (queue : QueueId) (client : ClientId) : Option Stage :=
  service.clients[client]?.bind fun c => c.session.stage? queue

/-- A dispatch shows what a service has at one of its queues. -/
structure Shows (service : Service) (queue : QueueId) (dispatch : Dispatch) : Prop where
  pending : dispatch.queue.pending = service.registry.pending queue
  stage : ∀ client, dispatch.stage? client = service.stage? queue client

/-- How a subscriber may change in a move in which it delivers nothing. -/
inductive Turns : Option Stage → Option Stage → Prop where
  | same (stage : Option Stage) : Turns stage stage
  | join : Turns none (some .joining)
  | announce : Turns (some .joining) (some .waiting)
  | leave (stage : Option Stage) : Turns stage none

/-- A change of a subscriber comes of steps of a dispatch that leave the queue alone. -/
theorem exists_steps_of_turns {dispatch : Dispatch} {client : ClientId} {before after : Option Stage}
    (hturns : Turns before after) (hstage : dispatch.stage? client = before)
    (hholds : ∀ message, before ≠ some (.holding message)) :
    ∃ steps, Dispatch.published steps = [] ∧ (dispatch.play steps).2 = [] ∧
      (dispatch.play steps).1.queue = dispatch.queue ∧
      ∀ other, (dispatch.play steps).1.stage? other =
        if other = client then after else dispatch.stage? other := by
  cases hturns with
  | same =>
    refine ⟨[], rfl, rfl, rfl, fun other => ?_⟩
    by_cases hother : other = client
    · rw [if_pos hother, hother, ← hstage]
      rfl
    · rw [if_neg hother]
      rfl
  | join =>
    refine ⟨[.join client], rfl, ?_, ?_, fun other => ?_⟩
    · simp [Dispatch.play, Dispatch.step, hstage]
    · simp [Dispatch.play, Dispatch.step, hstage]
    · simp [Dispatch.play, Dispatch.step, hstage, Dispatch.stage?_append _ _ hstage]
  | announce =>
    refine ⟨[.complete client], rfl, ?_, ?_, fun other => ?_⟩
    · simp [Dispatch.play, Dispatch.step, hstage]
    · simp [Dispatch.play, Dispatch.step, hstage, Dispatch.setStage]
    · simp [Dispatch.play, Dispatch.step, hstage, Dispatch.stage?_setStage]
  | leave =>
    cases hbefore : before with
    | none =>
      refine ⟨[], rfl, rfl, rfl, fun other => ?_⟩
      by_cases hother : other = client
      · rw [if_pos hother, hother, ← hbefore, ← hstage]
        rfl
      · rw [if_neg hother]
        rfl
    | some stage =>
      rw [hbefore] at hstage
      cases stage with
      | joining =>
        refine ⟨[.fail client], rfl, ?_, ?_, fun other => ?_⟩
        · simp [Dispatch.play, Dispatch.step, hstage]
        · simp [Dispatch.play, Dispatch.step, hstage, Dispatch.leave]
        · simp [Dispatch.play, Dispatch.step, hstage, Dispatch.stage?_leave]
      | waiting =>
        refine ⟨[.cancel client], rfl, ?_, ?_, fun other => ?_⟩
        · simp [Dispatch.play, Dispatch.step, hstage]
        · simp [Dispatch.play, Dispatch.step, hstage, Dispatch.leave]
        · simp [Dispatch.play, Dispatch.step, hstage, Dispatch.stage?_leave]
      | holding message => exact absurd hbefore (hholds message)

/-- A subscriber of a service never holds a message between two moves. -/
theorem stage?_ne_holding (service : Service) (queue : QueueId) (client : ClientId)
    (message : String) : service.stage? queue client ≠ some (.holding message) := by
  intro h
  obtain ⟨c, -, hstage⟩ := Option.bind_eq_some_iff.1 h
  obtain ⟨subscription, -, hholding⟩ := Option.map_eq_some_iff.1 hstage
  split at hholding <;> cases hholding

theorem play_publish (dispatch : Dispatch) (messages : List String) :
    Dispatch.published (messages.map .publish) = messages ∧
      (dispatch.play (messages.map .publish)).2 = [] ∧
      (dispatch.play (messages.map .publish)).1.queue.pending =
        dispatch.queue.pending ++ messages ∧
      (dispatch.play (messages.map .publish)).1.subscribers = dispatch.subscribers := by
  induction messages generalizing dispatch with
  | nil => simp [Dispatch.published, Dispatch.play]
  | cons message messages ih =>
    obtain ⟨hpublished, hdelivered, hpending, hsubscribers⟩ :=
      ih (dispatch.step (.publish message)).1
    refine ⟨?_, ?_, ?_, ?_⟩
    · rw [List.map_cons, Dispatch.published_cons, hpublished]
      rfl
    · rw [List.map_cons, Dispatch.play_cons, hdelivered]
      rfl
    · rw [List.map_cons, Dispatch.play_cons, hpending]
      simp [Dispatch.step]
    · rw [List.map_cons, Dispatch.play_cons, hsubscribers]
      rfl

/-- A move that publishes messages and then turns one subscriber is a run of the dispatch. -/
theorem Shows.follow {before after : Service} {queue : QueueId} {dispatch : Dispatch}
    (h : before.Shows queue dispatch) (id : ClientId) {messages : List String}
    (hpending : after.registry.pending queue = before.registry.pending queue ++ messages)
    (hother : ∀ other, other ≠ id → after.stage? queue other = before.stage? queue other)
    (hturns : Turns (before.stage? queue id) (after.stage? queue id)) :
    ∃ steps, Dispatch.published steps = messages ∧ (dispatch.play steps).2 = [] ∧
      after.Shows queue (dispatch.play steps).1 := by
  obtain ⟨hpublished, hsilent, hqueue, hsubscribers⟩ := play_publish dispatch messages
  have hstage : ∀ client, (dispatch.play (messages.map .publish)).1.stage? client =
      before.stage? queue client := fun client => by
    rw [Dispatch.stage?, hsubscribers]
    exact h.stage client
  obtain ⟨steps, hnone, hquiet, hkept, hafter⟩ := exists_steps_of_turns hturns (hstage id)
    (stage?_ne_holding before queue id)
  refine ⟨messages.map .publish ++ steps, ?_, ?_, ?_, fun other => ?_⟩
  · rw [Dispatch.published, List.filterMap_append]
    exact (congrArg₂ _ hpublished hnone).trans (List.append_nil _)
  · rw [Dispatch.play_append, hsilent, hquiet]
    rfl
  · rw [Dispatch.play_append, hkept, hqueue, h.pending, hpending]
  · rw [Dispatch.play_append, hafter other, hstage other]
    by_cases he : other = id
    · rw [if_pos he, he]
    · rw [if_neg he, hother other he]

theorem stage?_updateClient (service : Service) (id : ClientId) (change : Client → Client)
    (queue : QueueId) (other : ClientId) :
    (service.updateClient id change).stage? queue other =
      if other = id then service.clients[id]?.bind fun c => (change c).session.stage? queue
      else service.stage? queue other := by
  by_cases he : other = id
  · subst he
    cases hclient : service.clients[other]? <;> simp [stage?, updateClient, hclient]
  · simp [stage?, updateClient, he, List.getElem?_modify_ne _ _ (Ne.symm he)]

theorem stage?_stop (service : Service) (id : ClientId) (queue : QueueId) (other : ClientId) :
    (service.stop id).stage? queue other =
      if other = id then none else service.stage? queue other := by
  rw [stop, updateSession, stage?_updateClient]
  cases service.clients[id]? <;> simp [Session.stop, Session.stage?]

theorem stage?_disconnect (service : Service) (id : ClientId) (queue : QueueId)
    (other : ClientId) :
    (service.disconnect id).stage? queue other =
      if other = id then none else service.stage? queue other := by
  have hstopped := stage?_stop service id queue
  rw [disconnect, stage?_updateClient]
  by_cases he : other = id
  · have hself := hstopped id
    rw [if_pos rfl] at hself
    rw [if_pos he, if_pos he]
    exact hself
  · rw [if_neg he, hstopped other]

/-- A line begins or ends the subscription of its session, or leaves it as it is. -/
theorem turns_process (registry : Registry) (session : Session) (line : String) (queue : QueueId) :
    Turns (session.stage? queue) ((session.process registry line).session.stage? queue) := by
  unfold Session.process
  split
  · split
    · exact .leave _
    · exact .same _
  · next hidle =>
    have hnone : session.subscription = none := by simpa [Session.isSubscribed] using hidle
    cases Command.ofLine line with
    | exchange kind name =>
      simp only [Session.perform]
      split
      · exact .same _
      · split <;> exact .same _
    | bind key =>
      simp only [Session.perform]
      split <;> exact .same _
    | publish key message =>
      simp only [Session.perform]
      split <;> exact .same _
    | subscribe =>
      simp only [Session.perform]
      split
      · exact .same _
      · next chosen _ =>
        rw [Session.stage?_of_none hnone, Session.stage?_of_some rfl]
        split
        · exact .join
        · exact .same none
    | queue name => exact .same _
    | exit => exact .same _
    | malformed reply => exact .same _

theorem stage?_process (service : Service) (id : ClientId) (line : String) (queue : QueueId) :
    (∀ other, other ≠ id →
      (service.process id line).1.stage? queue other = service.stage? queue other) ∧
    Turns (service.stage? queue id) ((service.process id line).1.stage? queue id) := by
  cases hclient : service.clients[id]? with
  | none =>
    rw [process_none hclient]
    exact ⟨fun _ _ => rfl, .same _⟩
  | some client =>
    simp only [process_eq hclient]
    refine ⟨fun other hother => ?_, ?_⟩
    · rw [updateSession, stage?_updateClient, if_neg hother]
      rfl
    · rw [updateSession, stage?_updateClient, if_pos rfl]
      have hbefore : service.stage? queue id = client.session.stage? queue := by
        simp [stage?, hclient]
      simp only [hclient, Option.bind_some]
      rw [hbefore]
      exact turns_process service.registry client.session line queue

theorem stage?_receive (service : Service) (id : ClientId) (line : String) (queue : QueueId) :
    (∀ other, other ≠ id →
      (service.receive id line).1.stage? queue other = service.stage? queue other) ∧
    Turns (service.stage? queue id) ((service.receive id line).1.stage? queue id) := by
  have hprocess := stage?_process service id line queue
  rcases hreceive : service.receive id line with ⟨after, outputs⟩
  cases received_of_receive hreceive with
  | unread => exact ⟨fun _ _ => rfl, .same _⟩
  | stays => exact hprocess
  | leaves =>
    refine ⟨fun other hother => ?_, ?_⟩
    · rw [stage?_disconnect, if_neg hother]
      exact hprocess.1 other hother
    · rw [stage?_disconnect, if_pos rfl]
      exact .leave _

theorem stage?_connect (service : Service) (queue : QueueId) (client : ClientId) :
    service.connect.1.stage? queue client = service.stage? queue client := by
  simp only [stage?, connect]
  by_cases hold : client < service.clients.length
  · rw [List.getElem?_append_left hold]
  · rw [List.getElem?_append_right (Nat.le_of_not_lt hold),
      List.getElem?_eq_none (Nat.le_of_not_lt hold)]
    -- A client that has just come has no subscription.
    cases client - service.clients.length <;> rfl

/-- A message that is taken and written at once. -/
theorem Shows.deliver {service : Service} {queue : QueueId} {dispatch : Dispatch}
    (h : service.Shows queue dispatch) {id : ClientId} {message : String} {registry : Registry}
    (hstage : service.stage? queue id = some .waiting)
    (htake : service.registry.take? queue = some (message, registry)) :
    (dispatch.play [.take id, .complete id]).2 = [(id, message)] ∧
      ({ service with registry } : Service).Shows queue
        (dispatch.play [.take id, .complete id]).1 := by
  have hpending : dispatch.queue.pending = message :: registry.pending queue := by
    rw [h.pending, Registry.pending_take? htake, if_pos rfl]
    rfl
  have hqueue : dispatch.queue.take? =
      some (message, { dispatch.queue with pending := registry.pending queue }) := by
    simp [Queue.take?, hpending]
  have hwaiting : dispatch.stage? id = some .waiting := (h.stage id).trans hstage
  let taken : Dispatch :=
    { dispatch with queue := { dispatch.queue with pending := registry.pending queue } }
  have hfound : taken.stage? id = some .waiting := hwaiting
  have hholding : (taken.setStage id (.holding message)).stage? id = some (.holding message) := by
    rw [Dispatch.stage?_setStage, if_pos rfl, hfound]
    rfl
  have hplay : dispatch.play [.take id, .complete id] =
      ((taken.setStage id (.holding message)).setStage id .waiting, [(id, message)]) := by
    simp only [Dispatch.play, Dispatch.step, hwaiting, hqueue]
    simp only [hholding, taken]
    rfl
  rw [hplay]
  refine ⟨rfl, rfl, fun client => ?_⟩
  by_cases he : client = id
  · rw [Dispatch.stage?_setStage, if_pos he, hholding, he]
    exact hstage.symm
  · rw [Dispatch.stage?_setStage, if_neg he, Dispatch.stage?_setStage, if_neg he]
    exact h.stage client

/-- Every move of a service is a run of what it shows at a queue, with the same messages published and
delivered. -/
theorem Shows.move {service : Service} (hs : service.Sound) {queue : QueueId} {dispatch : Dispatch}
    (h : service.Shows queue dispatch) (next : Move) :
    ∃ steps, Dispatch.published steps = next.event?.toList.flatMap (service.publishedBy queue) ∧
      (dispatch.play steps).2 = deliveries queue (service.move next).2 ∧
      (service.move next).1.Shows queue (dispatch.play steps).1 := by
  cases next with
  | event event =>
    simp only [Move.event?, Option.toList_some, List.flatMap_singleton]
    cases event with
    | connect =>
      exact h.follow 0 (List.append_nil _).symm (fun other _ => stage?_connect ..)
        ((stage?_connect service queue 0).symm ▸ .same _)
    | line id text =>
      have hpending := pending_receive hs id text queue
      rw [contribution_eq_publishedBy hs] at hpending
      rw [Service.move, react, deliveries_receive]
      exact h.follow id hpending (stage?_receive service id text queue).1
        (stage?_receive service id text queue).2
    | disconnect id =>
      refine h.follow id (List.append_nil _).symm (fun other hother => ?_) ?_
      · exact (stage?_disconnect ..).trans (if_neg hother)
      · have hgone : (service.disconnect id).stage? queue id = none :=
          (stage?_disconnect ..).trans (if_pos rfl)
        exact hgone.symm ▸ .leave _
  | advance id =>
    simp only [Service.move, Move.event?, Option.toList_none, List.flatMap_nil]
    cases hadvance : service.advance id with
    | none => exact ⟨[], rfl, rfl, h⟩
    | some result =>
      obtain ⟨after, outputs⟩ := result
      simp only [Option.getD_some]
      cases advanced_of_advance hadvance with
      | @announce client subscription hclient hsub hannounced =>
        refine h.follow id (List.append_nil _).symm (fun other hother => ?_) ?_
        · rw [updateSession, stage?_updateClient, if_neg hother]
        · have hbefore : service.stage? queue id = client.session.stage? queue := by
            simp [stage?, hclient]
          rw [hbefore, updateSession, stage?_updateClient, if_pos rfl, hclient, Option.bind_some,
            Session.stage?_of_some hsub, Session.stage?_of_some rfl, hannounced]
          split
          · exact .announce
          · exact .same none
      | leave =>
        refine h.follow id (List.append_nil _).symm (fun other hother => ?_) ?_
        · exact (stage?_stop ..).trans (if_neg hother)
        · rw [stage?_stop, if_pos rfl]
          exact .leave _
      | @deliver client subscription message registry hclient hsub hannounced htake =>
        by_cases hqueue : subscription.queue = queue
        · rw [hqueue] at htake ⊢
          have hwaiting : service.stage? queue id = some .waiting := by
            simp [stage?, hclient, Session.stage?_of_some hsub, hannounced, hqueue]
          obtain ⟨hdelivered, hshows⟩ := h.deliver hwaiting htake
          exact ⟨[.take id, .complete id], rfl, by simpa [deliveries] using hdelivered, hshows⟩
        · have hnone : deliveries queue [Output.message subscription.queue id message] = [] := by
            simp [deliveries, hqueue]
          rw [hnone]
          refine h.follow id ?_ (fun _ _ => rfl) (.same _)
          rw [Registry.pending_take? htake, if_neg (Ne.symm hqueue), List.append_nil]
          rfl

theorem shows_fresh (queue : QueueId) (name : String) :
    ({} : Service).Shows queue (.fresh name) where
  pending := by simp [Registry.pending, Registry.fresh, Dispatch.fresh, Queue.fresh]
  stage client := by simp [stage?, Dispatch.stage?, Dispatch.fresh]

/-- Every schedule of a service is a run of what it shows at a queue. -/
theorem Shows.play {service : Service} (hs : service.Sound) {queue : QueueId} {dispatch : Dispatch}
    (h : service.Shows queue dispatch) (moves : List Move) :
    ∃ steps, Dispatch.published steps = published queue service moves ∧
      (dispatch.play steps).2 = deliveries queue (service.play moves).2 ∧
      (service.play moves).1.Shows queue (dispatch.play steps).1 := by
  induction moves generalizing service dispatch with
  | nil => exact ⟨[], rfl, rfl, h⟩
  | cons next rest ih =>
    obtain ⟨first, hpublished, hdelivered, hshows⟩ := h.move hs next
    obtain ⟨later, hlaterPublished, hlaterDelivered, hlaterShows⟩ := ih (sound_move hs next) hshows
    refine ⟨first ++ later, ?_, ?_, ?_⟩
    · rw [Dispatch.published, List.filterMap_append]
      exact congrArg₂ _ hpublished hlaterPublished
    · rw [Dispatch.play_append, hdelivered, hlaterDelivered]
      exact (deliveries_append ..).symm
    · rw [Dispatch.play_append]
      exact hlaterShows

end Service

namespace Dispatch

/-- **Every published message is in exactly one place**: however the steps of any number of subscribers
and the publishes follow one another, what was delivered, what subscribers hold and what is pending is,
each text as many times, what was published. While no more than one subscriber is attached at a time it
is also in the order of the publishes. What a service does at one of its queues is such a run, with the
same messages published, delivered and pending. -/
theorem published_accounted :
    (∀ (name : String) (steps : List Step),
      (((fresh name).play steps).2.map Prod.snd ++
        (((fresh name).play steps).1.held ++ ((fresh name).play steps).1.queue.pending)).Perm
          (published steps)) ∧
    (∀ (name : String) (steps : List Step), (fresh name).HasOneAtMost steps →
      ((fresh name).play steps).2.map Prod.snd ++
        (((fresh name).play steps).1.held ++ ((fresh name).play steps).1.queue.pending) =
          published steps) ∧
    ∀ (name : String) (moves : List Service.Move) (queue : QueueId), ∃ steps : List Step,
      published steps = Service.published queue {} moves ∧
        ((fresh name).play steps).2 = Service.deliveries queue (Service.play {} moves).2 ∧
        (Service.play {} moves).1.Shows queue ((fresh name).play steps).1 := by
  refine ⟨fun name steps => ?_, fun name steps hone => ?_, fun name moves queue => ?_⟩
  · have hplay := perm_play (isSound_fresh name) steps
    simpa [fresh, held, Queue.fresh] using hplay
  · have hplay := eq_play (isSound_fresh name) hone
    simpa [fresh, held, Queue.fresh] using hplay
  · exact Service.Shows.play Service.sound_fresh (Service.shows_fresh queue name) moves

/-- A subscriber that cannot write its first message, and another that comes after it. -/
def secondTry : List Step :=
  [.publish "a", .join 0, .complete 0, .take 0, .publish "b", .fail 0, .join 1, .complete 1, .take 1,
    .complete 1, .take 1, .publish "c"]

/-- A message that could not be written is delivered to the next subscriber. -/
theorem secondTry_accounted :
    (fresh "q").HasOneAtMost secondTry ∧ ((fresh "q").play secondTry).2 = [(1, "a")] ∧
      ((fresh "q").play secondTry).1.held = ["b"] ∧
      ((fresh "q").play secondTry).2.map Prod.snd ++
        (((fresh "q").play secondTry).1.held ++ ((fresh "q").play secondTry).1.queue.pending) =
          published secondTry := by
  have hone : (fresh "q").HasOneAtMost secondTry := by decide
  exact ⟨hone, by decide, by decide, published_accounted.2.1 "q" secondTry hone⟩

end Dispatch

end BrokerCluster.Messaging
