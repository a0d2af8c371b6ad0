import BrokerCluster.Proofs.Messaging.Delivery
import BrokerCluster.Proofs.Routing.Growth

/-!
# What names and selections lead to

Exchanges and queues are declared by name, and sessions hold what they declared. After
any schedule a name leads to the one exchange or queue that was first declared under
it, and whatever is bound, selected or subscribed to is what its name leads to. An
exchange keeps the kind of its first declaration and whatever it finds for a key.
-/
namespace BrokerCluster.Messaging

open Routing

namespace Session

variable {registry after : Registry} {session : Session}

/-- What a session holds is in the registry. -/
structure Selects (registry : Registry) (session : Session) : Prop where
  exchange : ∀ exchange, session.exchange = some exchange → exchange < registry.exchanges.length
  queue : session.Declared registry
  subscription : ∀ subscription, session.subscription = some subscription →
    subscription.queue < registry.queues.length

theorem selects_fresh (registry : Registry) : ({} : Session).Selects registry := by
  constructor <;> intro _ h <;> cases h

theorem Selects.mono (h : session.Selects registry) (he : registry.Extends after) :
    session.Selects after where
  exchange exchange hx := Nat.lt_of_lt_of_le (h.exchange exchange hx) he.length_exchanges
  queue queue hq := Nat.lt_of_lt_of_le (h.queue queue hq) he.length_queues
  subscription subscription hs :=
    Nat.lt_of_lt_of_le (h.subscription subscription hs) he.length_queues

theorem Selects.stop (h : session.Selects registry) : session.stop.Selects registry where
  exchange := h.exchange
  queue := h.queue
  subscription := by
    intro _ hs
    cases hs

theorem reply_refuse_ne (registry : Registry) (session : Session) (error : RoutingError) :
    (refuse registry session error).reply ≠ some okReply := by
  cases error <;> simp [refuse, RoutingError.message, okReply]

/-- A declaration of an exchange is refused, or it declares an exchange of the kind that it names. -/
theorem perform_exchange (registry : Registry) (session : Session) (text name : String) :
    (∃ kind exchange after, ExchangeKind.parse? text = some kind ∧
      registry.declareExchange kind name = .ok (exchange, after) ∧
      session.perform registry (.exchange text name) =
        { registry := after, session := { session with exchange := some exchange },
          reply := some okReply }) ∨
    ((∀ kind, ExchangeKind.parse? text = some kind →
        ¬ ∃ exchange after, registry.declareExchange kind name = .ok (exchange, after)) ∧
      ∃ error, session.perform registry (.exchange text name) = refuse registry session error) := by
  simp only [perform]
  cases hp : ExchangeKind.parse? text with
  | none =>
    refine .inr ⟨?_, _, rfl⟩
    intro kind hk
    cases hk
  | some kind =>
    cases hd : registry.declareExchange kind name with
    | error error =>
      refine .inr ⟨?_, error, by simp only [hd]⟩
      rintro _ hk ⟨exchange, after, h⟩
      cases hk
      rw [hd] at h
      cases h
    | ok result =>
      obtain ⟨exchange, after⟩ := result
      exact .inl ⟨kind, exchange, after, rfl, hd, by simp only [hd]⟩

/-- A declaration of an exchange is answered `ok` exactly if it names a kind and no exchange of the
name has another kind. -/
theorem perform_exchange_reply (registry : Registry) (session : Session) (text name : String) :
    (session.perform registry (.exchange text name)).reply = some okReply ↔
      ∃ kind, ExchangeKind.parse? text = some kind ∧
        ∀ first, registry.kinds.lookup name = some first → first = kind := by
  simp only [← Registry.declareExchange_ok_iff]
  rcases perform_exchange registry session text name with
    ⟨kind, exchange, after, hp, hd, hperform⟩ | ⟨hno, error, hperform⟩
  · rw [hperform]
    exact ⟨fun _ => ⟨kind, hp, exchange, after, hd⟩, fun _ => rfl⟩
  · rw [hperform]
    refine ⟨fun h => absurd h (reply_refuse_ne _ _ _), ?_⟩
    rintro ⟨kind, hp, h⟩
    exact absurd h (hno kind hp)

/-- The exchange that a command declares, unless it is refused. -/
def declares (registry : Registry) (session : Session) : Command → List (String × ExchangeKind)
  | .exchange text name =>
    if (session.perform registry (.exchange text name)).reply = some okReply then
      (ExchangeKind.parse? text).toList.map fun kind => (name, kind)
    else []
  | _ => []

/-- What a command does to names and selections. -/
structure Leads (registry : Registry) (session : Session) (command : Command)
    (outcome : Outcome) : Prop where
  change : Registry.Change registry outcome.registry
  selects : outcome.session.Selects outcome.registry
  /-- The first declaration of a name gives the exchange its kind. -/
  kinds : ∀ name, outcome.registry.kinds.lookup name =
    (registry.kinds ++ session.declares registry command).lookup name

theorem Leads.refuse (h : session.Selects registry) {command : Command}
    (hc : session.declares registry command = []) (error : RoutingError) :
    Leads registry session command (refuse registry session error) where
  change := .refl registry
  selects := h
  kinds name := by rw [hc, List.append_nil]; rfl

theorem leads_perform_exchange (h : session.Selects registry) (text name : String) :
    Leads registry session (.exchange text name)
      (session.perform registry (.exchange text name)) := by
  rcases perform_exchange registry session text name with
    ⟨kind, exchange, after, hp, hd, hperform⟩ | ⟨-, error, hperform⟩
  · obtain ⟨hchange, hlt, hkinds⟩ := Registry.declareExchange_eq_ok hd
    have hselects := h.mono hchange.extends
    have hdeclares : session.declares registry (.exchange text name) = [(name, kind)] := by
      simp [declares, hperform, hp]
    rw [hperform]
    refine ⟨hchange, ⟨?_, hselects.queue, hselects.subscription⟩, fun other => ?_⟩
    · intro _ hx
      obtain rfl := Option.some.inj hx
      exact hlt
    · rw [hdeclares]
      exact hkinds other
  · have hnothing : session.declares registry (.exchange text name) = [] := by
      rw [declares, hperform, if_neg (reply_refuse_ne _ _ _)]
    rw [hperform]
    exact .refuse h hnothing error

/-- **One command** does to names and selections what it says, or nothing if it is refused. -/
theorem leads_perform (h : session.Selects registry) (command : Command) :
    Leads registry session command (session.perform registry command) := by
  cases command with
  | exchange text name => exact leads_perform_exchange h text name
  | queue name =>
    have hchange := Registry.change_declareQueue registry name
    have hselects := h.mono hchange.extends
    refine ⟨hchange, ⟨hselects.exchange, ?_, hselects.subscription⟩, fun other => ?_⟩
    · intro _ hq
      obtain rfl := Option.some.inj hq
      exact Registry.declareQueue_declared registry name
    · have hnone : session.declares registry (.queue name) = [] := rfl
      rw [hnone, List.append_nil]
      exact congrArg (List.lookup other) (Registry.kinds_declareQueue registry name)
  | bind key =>
    simp only [perform]
    split
    · exact .refuse h rfl _
    · exact .refuse h rfl _
    · next exchange queue _ hq =>
      have hchange := Registry.Change.bind (h.queue queue hq) exchange key
      exact ⟨hchange, h.mono hchange.extends, fun other => by simp [declares]⟩
  | publish key message =>
    simp only [perform]
    split
    · exact .refuse h rfl _
    · next exchange he =>
      have hchange := Registry.change_publish registry exchange key message
      exact ⟨hchange, h.mono hchange.extends,
        fun other => by simp [declares, Registry.kinds_publish]⟩
  | subscribe =>
    simp only [perform]
    split
    · exact .refuse h rfl _
    · next queue hq =>
      refine ⟨.refl registry, ⟨h.exchange, h.queue, ?_⟩, fun other => by simp [declares]⟩
      intro _ hs
      obtain rfl := Option.some.inj hs
      exact h.queue queue hq
  | exit =>
    exact ⟨.refl registry, ⟨h.exchange, h.queue, h.subscription⟩,
      fun other => by simp [perform, declares]⟩
  | malformed reply => exact ⟨.refl registry, h, fun other => by simp [perform, declares]⟩

theorem selects_process (h : session.Selects registry) (line : String) :
    Registry.Change registry (session.process registry line).registry ∧
      (session.process registry line).session.Selects (session.process registry line).registry := by
  unfold process
  split
  · refine ⟨.refl registry, ?_⟩
    dsimp only
    split
    · exact h.stop
    · exact h
  · have hleads := leads_perform h (.ofLine line)
    exact ⟨hleads.change, hleads.selects⟩

end Session

namespace Service

variable {service : Service}

/-- Names and what the sessions hold lead to what was declared. -/
structure Linked (service : Service) : Prop where
  indexed : service.registry.Indexed
  homes : service.registry.Homes
  selects : ∀ client ∈ service.clients, client.session.Selects service.registry

theorem linked_fresh : ({} : Service).Linked where
  indexed := Registry.indexed_fresh
  homes := Registry.homes_fresh
  selects := by simp

theorem linked_registry (h : service.Linked) {registry : Registry}
    (hchange : Registry.Change service.registry registry) :
    ({ service with registry } : Service).Linked where
  indexed := h.indexed.change hchange
  homes := h.homes.change h.indexed hchange
  selects client hc := (h.selects client hc).mono hchange.extends

theorem linked_updateClient (h : service.Linked) (id : ClientId)
    {change : Client → Client}
    (hs : ∀ client, service.clients[id]? = some client →
      (change client).session.Selects service.registry) :
    (service.updateClient id change).Linked where
  indexed := h.indexed
  homes := h.homes
  selects := forall_mem_modify h.selects hs

theorem linked_stop (h : service.Linked) (id : ClientId) :
    (service.stop id).Linked :=
  linked_updateClient h id fun client hc => (h.selects client (List.mem_of_getElem? hc)).stop

theorem linked_disconnect (h : service.Linked) (id : ClientId) :
    (service.disconnect id).Linked :=
  linked_updateClient (linked_stop h id) id fun client hc =>
    (linked_stop h id).selects client (List.mem_of_getElem? hc)

theorem linked_process (h : service.Linked) (id : ClientId) (line : String) :
    (service.process id line).1.Linked := by
  cases hclient : service.clients[id]? with
  | none =>
    rw [process_none hclient]
    exact h
  | some client =>
    obtain ⟨hchange, hselects⟩ :=
      Session.selects_process (h.selects client (List.mem_of_getElem? hclient)) line
    simp only [process_eq hclient]
    exact linked_updateClient (linked_registry h hchange) id fun _ _ => hselects

theorem linked_receive (h : service.Linked) (id : ClientId) (line : String) :
    (service.receive id line).1.Linked := by
  rcases hreceive : service.receive id line with ⟨after, outputs⟩
  cases received_of_receive hreceive with
  | unread => exact h
  | stays => exact linked_process h id line
  | leaves => exact linked_disconnect (linked_process h id line) id

/-- **One move** keeps names and selections linked to what was declared. -/
theorem linked_move (h : service.Linked) (next : Move) :
    (service.move next).1.Linked := by
  cases next with
  | event event =>
    cases event with
    | connect =>
      refine ⟨h.indexed, h.homes, ?_⟩
      intro client hc
      rcases List.mem_append.1 hc with hc | hc
      · exact h.selects client hc
      · obtain rfl := List.mem_singleton.1 hc
        exact Session.selects_fresh _
    | line id text => exact linked_receive h id text
    | disconnect id => exact linked_disconnect h id
  | advance id =>
    simp only [move]
    cases ha : service.advance id with
    | none => exact h
    | some result =>
      obtain ⟨after, outputs⟩ := result
      cases advanced_of_advance ha with
      | @announce client subscription hclient hsub =>
        have hold := h.selects client (List.mem_of_getElem? hclient)
        refine linked_updateClient h id fun other ho => ?_
        rw [hclient] at ho
        cases ho
        refine ⟨hold.exchange, hold.queue, ?_⟩
        intro _ hs
        obtain rfl := Option.some.inj hs
        exact hold.subscription subscription hsub
      | leave => exact linked_stop h id
      | deliver _ _ _ htake => exact linked_registry h (Registry.change_take? htake)

theorem change_process (h : service.Linked) (id : ClientId) (line : String) :
    Registry.Change service.registry (service.process id line).1.registry := by
  cases hclient : service.clients[id]? with
  | none =>
    rw [process_none hclient]
    exact .refl _
  | some client =>
    rw [registry_process hclient]
    exact (Session.selects_process (h.selects client (List.mem_of_getElem? hclient)) line).1

theorem change_receive (h : service.Linked) (id : ClientId) (line : String) :
    Registry.Change service.registry (service.receive id line).1.registry := by
  rcases hreceive : service.receive id line with ⟨after, outputs⟩
  cases received_of_receive hreceive with
  | unread => exact .refl _
  | stays => exact change_process h id line
  | leaves => exact change_process h id line

/-- A move changes a registry in one of the few ways in which it can change. -/
theorem change_move (h : service.Linked) (next : Move) :
    Registry.Change service.registry (service.move next).1.registry := by
  cases next with
  | event event =>
    cases event with
    | connect => exact .refl _
    | line id text => exact change_receive h id text
    | disconnect id => exact .refl _
  | advance id =>
    simp only [move]
    cases ha : service.advance id with
    | none => exact .refl _
    | some result =>
      obtain ⟨after, outputs⟩ := result
      cases advanced_of_advance ha with
      | announce => exact .refl _
      | leave => exact .refl _
      | deliver _ _ _ htake => exact Registry.change_take? htake

/-- The exchange that an event declares, if the declaration is answered `ok`. -/
def declaredBy (service : Service) : Event → List (String × ExchangeKind)
  | .line id text =>
    match Command.ofLine text with
    | .exchange kind name =>
      if .line id okReply ∈ (service.react (.line id text)).2 then
        (ExchangeKind.parse? kind).toList.map fun kind => (name, kind)
      else []
    | _ => []
  | _ => []

def declarations (service : Service) : List Move → List (String × ExchangeKind)
  | [] => []
  | next :: rest =>
    next.event?.toList.flatMap service.declaredBy ++ declarations (service.move next).1 rest

theorem declaredBy_of_not_mem {id : ClientId} {text : String}
    (h : .line id okReply ∉ (service.receive id text).2) :
    service.declaredBy (.line id text) = [] := by
  simp only [declaredBy]
  cases Command.ofLine text with
  | exchange kind name => exact if_neg h
  | _ => rfl

/-- The line of a client declares what its command declares. -/
theorem declaredBy_line (hs : service.Sound) {id : ClientId} {client : Client}
    (hc : service.clients[id]? = some client) (hr : client.reading = true)
    (hidle : client.session.isSubscribed = false) (text : String) :
    service.declaredBy (.line id text) =
      client.session.declares service.registry (.ofLine text) := by
  have hreply : .line id okReply ∈ (service.receive id text).2 ↔
      (client.session.perform service.registry (.ofLine text)).reply = some okReply := by
    rw [line_mem_receive_iff hs]
    simp [hc, hr, Session.process, hidle]
  simp only [declaredBy, react, hreply]
  cases Command.ofLine text with
  | exchange kind name => rfl
  | _ => rfl

/-- A declaration is answered `ok` to an idle client exactly if the kind exists and is that of the
first declaration of the name. -/
theorem mem_receive_exchange_iff (hs : service.Sound) {id : ClientId}
    {text kind name : String} (hcommand : Command.ofLine text = .exchange kind name) :
    .line id okReply ∈ (service.receive id text).2 ↔
      (∃ client, service.clients[id]? = some client ∧ client.reading = true ∧
        client.session.isSubscribed = false) ∧
      ∃ named, ExchangeKind.parse? kind = some named ∧
        ∀ first, service.registry.kinds.lookup name = some first → first = named := by
  rw [line_mem_receive_iff hs]
  constructor
  · rintro ⟨client, hc, hr, hreply⟩
    cases hidle : client.session.isSubscribed with
    | true => simp [Session.process, hidle] at hreply
    | false =>
      simp only [Session.process, hidle, hcommand, Bool.false_eq_true, if_false] at hreply
      exact ⟨⟨client, hc, hr, hidle⟩, (Session.perform_exchange_reply _ _ _ _).1 hreply⟩
  · rintro ⟨⟨client, hc, hr, hidle⟩, hnamed⟩
    refine ⟨client, hc, hr, ?_⟩
    simp only [Session.process, hidle, hcommand, Bool.false_eq_true, if_false]
    exact (Session.perform_exchange_reply _ _ _ _).2 hnamed

theorem lookup_kinds_process (hs : service.Sound) (h : service.Linked)
    {id : ClientId} {client : Client} (hc : service.clients[id]? = some client)
    (hr : client.reading = true) (text name : String) :
    (service.process id text).1.registry.kinds.lookup name =
      (service.registry.kinds ++ service.declaredBy (.line id text)).lookup name := by
  rw [registry_process hc]
  cases hidle : client.session.isSubscribed with
  | true =>
    -- The line of a subscribed client is passed over, so it declares nothing.
    have hsilent : .line id okReply ∉ (service.receive id text).2 := by
      rw [line_mem_receive_iff hs]
      simp [hc, Session.process, hidle]
    rw [declaredBy_of_not_mem hsilent, List.append_nil]
    simp [Session.process, hidle]
  | false =>
    have hleads := Session.leads_perform (h.selects client (List.mem_of_getElem? hc))
      (.ofLine text)
    rw [declaredBy_line hs hc hr hidle text, ← hleads.kinds name]
    simp [Session.process, hidle]

theorem lookup_kinds_receive (hs : service.Sound) (h : service.Linked)
    (id : ClientId) (text name : String) :
    (service.receive id text).1.registry.kinds.lookup name =
      (service.registry.kinds ++ service.declaredBy (.line id text)).lookup name := by
  rcases hreceive : service.receive id text with ⟨after, outputs⟩
  cases received_of_receive hreceive with
  | unread hunread =>
    have hsilent : .line id okReply ∉ (service.receive id text).2 := by
      rw [hreceive]
      exact List.not_mem_nil
    rw [declaredBy_of_not_mem hsilent, List.append_nil]
  | stays hc hr => exact lookup_kinds_process hs h hc hr text name
  | leaves hc hr => exact lookup_kinds_process hs h hc hr text name

/-- **The kind of an exchange is that of the first declaration of its name.** A move leaves the kinds
as they are and adds those that it declares. -/
theorem lookup_kinds_move (hs : service.Sound) (h : service.Linked)
    (next : Move) (name : String) :
    (service.move next).1.registry.kinds.lookup name =
      (service.registry.kinds ++ next.event?.toList.flatMap service.declaredBy).lookup name := by
  cases next with
  | event event =>
    simp only [move, Move.event?, Option.toList_some, List.flatMap_singleton]
    cases event with
    | connect => simp [react, connect, declaredBy]
    | line id text => exact lookup_kinds_receive hs h id text name
    | disconnect id =>
      simp [react, disconnect, stop, updateSession, updateClient, declaredBy]
  | advance id =>
    simp only [move, Move.event?, Option.toList_none, List.flatMap_nil, List.append_nil]
    cases ha : service.advance id with
    | none => rfl
    | some result =>
      obtain ⟨after, outputs⟩ := result
      cases advanced_of_advance ha with
      | announce => rfl
      | leave => rfl
      | deliver _ _ _ htake =>
        obtain ⟨rest, -, rfl⟩ := Registry.take?_eq_some htake
        rfl

theorem sound_play (h : service.Sound) (moves : List Move) :
    (service.play moves).1.Sound := by
  induction moves generalizing service with
  | nil => exact h
  | cons next rest ih => exact ih (sound_move h next)

theorem linked_play (h : service.Linked) (moves : List Move) :
    (service.play moves).1.Linked := by
  induction moves generalizing service with
  | nil => exact h
  | cons next rest ih => exact ih (linked_move h next)

/-- After a schedule the kinds are those of the first declarations. -/
theorem lookup_kinds_play (hs : service.Sound) (h : service.Linked)
    (moves : List Move) (name : String) :
    (service.play moves).1.registry.kinds.lookup name =
      (service.registry.kinds ++ declarations service moves).lookup name := by
  induction moves generalizing service with
  | nil => simp [play, declarations]
  | cons next rest ih =>
    have hstep := lookup_kinds_move hs h next name
    have hrest := ih (sound_move hs next) (linked_move h next)
    simp only [play, declarations]
    rw [hrest, List.lookup_append, hstep, ← List.lookup_append, List.append_assoc]

/-- What names, bindings and selections of a service have to do with each other. -/
structure IsConsistent (service : Service) : Prop where
  /-- The exchange registered as `default` is of that kind, and new queues are bound to it. -/
  default : ∃ id exchange, service.registry.exchange? Registry.defaultName = some id ∧
    service.registry.exchanges[id]? = some exchange ∧ exchange.kind = .default ∧
    ∀ name, service.registry.queue? name = none →
      service.registry.declareQueue name = (service.registry.queues.length,
        (service.registry.addQueue name).bind id name service.registry.queues.length)
  /-- What is bound is what its name leads to. -/
  bound : ∀ exchange ∈ service.registry.exchanges, ∀ queue, exchange.bindings.Holds queue →
    service.registry.IsQueue queue
  /-- What a session selected or is subscribed to is what its name leads to. -/
  exchanges : ∀ client ∈ service.clients, ∀ exchange, client.session.exchange = some exchange →
    service.registry.IsExchange exchange
  queues : ∀ client ∈ service.clients, ∀ queue, client.session.queue = some queue →
    service.registry.IsQueue queue
  subscriptions : ∀ client ∈ service.clients, ∀ subscription,
    client.session.subscription = some subscription → service.registry.IsQueue subscription.queue
  /-- What a key resolves to is bound, and no two of the queues have one name. -/
  resolutions : ∀ exchange key,
    (∀ queue ∈ service.registry.route exchange key, service.registry.IsQueue queue) ∧
    ((service.registry.route exchange key).map fun queue =>
      service.registry.queues[queue]?.map (·.name)).Nodup
  /-- The default exchange resolves the name of a queue to the queue, once. -/
  home : ∀ name queue, service.registry.queue? name = some queue →
    ∃ id, service.registry.exchange? Registry.defaultName = some id ∧
      (service.registry.route id name).count queue = 1

theorem exchange?_defaultName {registry : Registry} (h : registry.Indexed) :
    registry.exchange? Registry.defaultName = some Registry.defaultExchange := by
  obtain ⟨routes, hroutes⟩ := h.default
  rw [Registry.exchange?_eq, Registry.findIdx?_beq_eq_some_iff h.exchanges]
  simp [Registry.kinds, hroutes]

/-- What names, bindings and selections have to do with each other follows from what they lead to.
-/
theorem Linked.isConsistent (h : service.Linked) (hs : service.Sound) :
    service.IsConsistent where
  default := by
    obtain ⟨routes, hroutes⟩ := h.indexed.default
    refine ⟨_, _, exchange?_defaultName h.indexed, hroutes, rfl, fun name hnew => ?_⟩
    rw [Registry.declareQueue_eq, hnew]
  bound exchange he queue hq := h.indexed.isQueue (h.indexed.bound exchange he queue hq)
  exchanges client hc exchange he := h.indexed.isExchange ((h.selects client hc).exchange exchange he)
  queues client hc queue hq := h.indexed.isQueue ((h.selects client hc).queue queue hq)
  subscriptions client hc subscription hsub :=
    h.indexed.isQueue ((h.selects client hc).subscription subscription hsub)
  resolutions exchange key := by
    refine ⟨fun queue hq => h.indexed.isQueue (h.indexed.lt_of_mem_route hq), ?_⟩
    have hnames := h.indexed.nodup_names hs.registry exchange key
    simpa only [Registry.queueNames, List.getElem?_map] using hnames
  home name queue hq :=
    ⟨_, exchange?_defaultName h.indexed, Registry.count_home h.indexed h.homes hs.registry hq⟩

/-- **Names, bindings and selections agree after every schedule.** A declaration of an exchange is
answered `ok` exactly if the client is not subscribed and names the kind that the first declaration of
the exchange gave it, and any kind will do for the first one. No move changes the kind of an exchange or
takes a queue away from a key. -/
theorem isConsistent_play :
    (∀ moves, (play {} moves).1.IsConsistent) ∧
    (∀ moves id text kind name, Command.ofLine text = .exchange kind name →
      (.line id okReply ∈ ((play {} moves).1.react (.line id text)).2 ↔
        (∃ client, (play {} moves).1.clients[id]? = some client ∧ client.reading = true ∧
          client.session.isSubscribed = false) ∧
        ∃ named, ExchangeKind.parse? kind = some named ∧
          ∀ first, ((Registry.defaultName, .default) :: declarations {} moves).lookup name =
            some first → first = named)) ∧
    ∀ moves next, (play {} moves).1.registry.Extends ((play {} moves).1.move next).1.registry := by
  refine ⟨fun moves => ?_, fun moves id text kind name hcommand => ?_, fun moves next => ?_⟩
  · exact (linked_play linked_fresh moves).isConsistent (sound_play sound_fresh moves)
  · have hs := sound_play sound_fresh moves
    have hkinds : (play {} moves).1.registry.kinds.lookup name =
        ((Registry.defaultName, .default) :: declarations {} moves).lookup name :=
      lookup_kinds_play sound_fresh linked_fresh moves name
    rw [react, ← hkinds]
    exact mem_receive_exchange_iff hs hcommand
  · exact (change_move (linked_play linked_fresh moves) next).extends

/-- Of two clients, one declares an exchange. -/
def oneDeclares : List Move :=
  [.event .connect, .event .connect, .event (.line 0 "exchange direct x")]

/-- The other client may declare the same exchange. -/
theorem oneDeclares_shared :
    Command.ofLine "exchange DIRECT x" = .exchange "DIRECT" "x" ∧
    .line 1 okReply ∈ ((play {} oneDeclares).1.react (.line 1 "exchange DIRECT x")).2 := by
  have hcommand : Command.ofLine "exchange DIRECT x" = .exchange "DIRECT" "x" := by decide +kernel
  have hanswered := isConsistent_play.2.1 oneDeclares 1 _ _ _ hcommand
  refine ⟨hcommand, hanswered.2 ⟨⟨{}, ?_, rfl, rfl⟩, ?_⟩⟩
  · decide +kernel
  · refine ⟨.direct, by decide +kernel, fun first hfirst => ?_⟩
    have hdirect : ((Registry.defaultName, .default) :: declarations {} oneDeclares).lookup "x" =
        some .direct := by decide +kernel
    rw [hdirect] at hfirst
    exact (Option.some.inj hfirst).symm

/-- A client declares an exchange and subscribes. -/
def oneSubscribes : List Move :=
  [.event .connect, .event (.line 0 "exchange direct x"), .event (.line 0 "queue q"),
    .event (.line 0 "subscribe")]

/-- While a client is subscribed, it is not even told that an exchange exists. -/
theorem oneSubscribes_ignored :
    Command.ofLine "exchange direct x" = .exchange "direct" "x" ∧
    ExchangeKind.parse? "direct" = some .direct ∧
    (declarations {} oneSubscribes).lookup "x" = some .direct ∧
    .line 0 okReply ∉ ((play {} oneSubscribes).1.react (.line 0 "exchange direct x")).2 := by
  decide +kernel

end Service

end BrokerCluster.Messaging
