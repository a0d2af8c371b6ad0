import BrokerCluster.Messaging.Handlers
import BrokerCluster.Proofs.Messaging.Notices
import BrokerCluster.Proofs.Messaging.Selections

/-!
# Refused commands

A command that is answered with an error leaves everything as it was, although its handler
works in place and may have come far before it is refused. What is entered by a
declaration that then fails its check cannot be: an exchange that was just entered has
the kind that was asked for.
-/
namespace BrokerCluster.Messaging

open Routing

namespace Handler

theorem on_entry (kind : ExchangeKind) (name : String) (work : Workspace) :
    (entry kind name).on work =
      match work.registry.exchange? name with
      | some exchange => (.ok exchange, work)
      | none => (.ok work.registry.exchanges.length,
          { work with registry.exchanges := work.registry.exchanges ++ [.fresh name kind] }) := by
  rw [entry, on_bind, on_get]
  dsimp only
  cases work.registry.exchange? name with
  | some exchange => rfl
  | none => rfl

/-- An exchange that was just entered has the kind that was asked for. -/
theorem on_exchangeOf (kind : ExchangeKind) (name : String) (work : Workspace) :
    (exchangeOf kind name).on work =
      match work.registry.declareExchange kind name with
      | .ok (exchange, registry) => (.ok exchange, { work with registry })
      | .error error => (.error error, work) := by
  rw [exchangeOf, on_bind, on_entry, Registry.declareExchange]
  cases work.registry.exchange? name with
  | none => simp [on_bind, Exchange.fresh]
  | some exchange =>
    simp only [on_bind, on_get]
    by_cases h : work.registry.exchanges[exchange]?.map (·.kind) = some kind
    · rw [if_neg (not_not_intro h), if_pos h]
      rfl
    · rw [if_pos h, if_neg h]
      rfl

theorem on_queueOf (name : String) (work : Workspace) :
    (queueOf name).on work =
      (.ok (work.registry.declareQueue name).1,
        { work with registry := (work.registry.declareQueue name).2 }) := by
  rw [queueOf, on_bind, on_get, Registry.declareQueue]
  dsimp only
  cases work.registry.queue? name with
  | some queue => rfl
  | none => rfl

/-- The reply and the workspace, if carrying out a line had this outcome. -/
def ofOutcome (work : Workspace) (outcome : Outcome) : Option String × Workspace :=
  (outcome.reply, {
    registry := outcome.registry, session := outcome.session,
    published := work.published ++ outcome.published.toList })

theorem reported_exchange (first kind name : String) (work : Workspace) :
    reported ((some <$> exchange [first, kind, name]).on work) =
      ofOutcome work (work.session.perform work.registry (.exchange kind name)) := by
  rw [on_map, exchange, Session.perform]
  cases ExchangeKind.parse? kind with
  | none => simp [required, reported, ofOutcome, Session.refuse]
  | some found =>
    simp only [required, on_bind, on_pure, on_exchangeOf]
    cases work.registry.declareExchange found name with
    | error error => simp [reported, ofOutcome, Session.refuse]
    | ok result => simp [reported, ofOutcome]

theorem reported_queue (first name : String) (work : Workspace) :
    reported ((some <$> queue [first, name]).on work) =
      ofOutcome work (work.session.perform work.registry (.queue name)) := by
  simp [on_map, queue, on_bind, on_queueOf, reported, ofOutcome, Session.perform]

theorem reported_bind (first key : String) (work : Workspace) :
    reported ((some <$> bind [first, key]).on work) =
      ofOutcome work (work.session.perform work.registry (.bind key)) := by
  rw [on_map, bind, on_bind, on_get]
  simp only [Session.perform]
  cases work.session.exchange with
  | none => simp [required, reported, ofOutcome, Session.refuse]
  | some exchange =>
    cases work.session.queue with
    | none => simp [required, reported, ofOutcome, Session.refuse]
    | some queue => simp [required, on_map, reported, ofOutcome]

theorem reported_publish (first key word : String) (more : List String) (work : Workspace) :
    reported ((some <$> publish (first :: key :: word :: more)).on work) =
      ofOutcome work
        (work.session.perform work.registry (.publish key (Text.joinWords (word :: more)))) := by
  rw [on_map, publish, on_bind, on_get]
  simp only [Session.perform]
  cases work.session.exchange with
  | none => simp [required, reported, ofOutcome, Session.refuse]
  | some exchange => simp [required, on_bind, on_map, reported, ofOutcome]

theorem reported_subscribe (work : Workspace) :
    reported ((do subscribe; return none : Handler (Option String)).on work) =
      ofOutcome work (work.session.perform work.registry .subscribe) := by
  obtain ⟨registry, ⟨exchange, queue, subscription, finished⟩, published⟩ := work
  cases queue with
  | none =>
    simp [subscribe, on_bind, required, reported, ofOutcome, Session.perform, Session.refuse]
  | some queue => simp [subscribe, on_bind, on_map, required, reported, ofOutcome, Session.perform]

theorem reported_malformed (reply : String) (work : Workspace) :
    reported ((some <$> (pure reply : Handler String)).on work) =
      ofOutcome work (work.session.perform work.registry (.malformed reply)) := by
  simp [reported, ofOutcome, Session.perform]

/-- While a client is subscribed, its line stops the subscription or does nothing. -/
theorem reported_line_of_subscribed {work : Workspace} (h : work.session.isSubscribed = true)
    (text : String) :
    reported ((line text).on work) =
      ofOutcome work (work.session.process work.registry text) := by
  rw [line, on_bind, on_get, Session.process]
  dsimp only
  rw [if_pos h, if_pos h, isStop]
  by_cases hstop : (Text.words text).head? = some "stop"
  · simp [hstop, on_map, reported, ofOutcome]
  · have hother : (Text.words text).head?.getD "" ≠ "stop" := by
      intro he
      cases hhead : (Text.words text).head? with
      | none =>
        rw [hhead] at he
        exact absurd he (by decide)
      | some first =>
        rw [hhead] at he hstop
        exact hstop (congrArg some he)
    simp [hstop, hother, reported, ofOutcome]

/-- The handler that the first word names carries out what the line asks for. -/
theorem reported_line_of_idle {work : Workspace} (h : ¬ work.session.isSubscribed = true)
    (text : String) :
    reported ((line text).on work) =
      ofOutcome work (work.session.process work.registry text) := by
  rw [line, on_bind, on_get, Session.process]
  dsimp only
  rw [if_neg h, if_neg h]
  unfold Command.ofLine
  generalize Text.words text = parts
  cases parts with
  | nil =>
    have hreported := reported_malformed "error usage: <command> <args>" work
    simpa using hreported
  | cons first arguments =>
    simp only [List.head?_cons, Option.getD_some]
    -- The handlers in their order; each takes apart the words that follow.
    split
    · rcases arguments with _ | ⟨kind, _ | ⟨name, _ | ⟨more, rest⟩⟩⟩
      · exact reported_malformed _ work
      · exact reported_malformed _ work
      · exact reported_exchange _ kind name work
      · exact reported_malformed _ work
    · rcases arguments with _ | ⟨name, _ | ⟨more, rest⟩⟩
      · exact reported_malformed _ work
      · exact reported_queue _ name work
      · exact reported_malformed _ work
    · rcases arguments with _ | ⟨key, _ | ⟨more, rest⟩⟩
      · exact reported_malformed _ work
      · exact reported_bind _ key work
      · exact reported_malformed _ work
    · rcases arguments with _ | ⟨key, _ | ⟨word, more⟩⟩
      · exact reported_malformed _ work
      · exact reported_malformed _ work
      · exact reported_publish _ key word more work
    · exact reported_subscribe work
    · simp [on_map, reported, ofOutcome, Session.perform]
    -- Any other word is no command.
    · simp only [reported, ofOutcome, on_pure]
      split <;> simp_all [Session.perform]

/-- Carrying out a line in place comes to the outcome that the session gives for it. -/
theorem carryOut_eq_process (work : Workspace) (text : String) :
    work.carryOut text = ofOutcome work (work.session.process work.registry text) := by
  rw [Workspace.carryOut]
  by_cases h : work.session.isSubscribed = true
  · exact reported_line_of_subscribed h text
  · exact reported_line_of_idle h text

end Handler

/-- The replies to lines that have the wrong words for a command. -/
def usageReplies : List String :=
  ["error usage: exchange <type> <name>", "error usage: queue <name>",
    "error usage: bind <binding-key>", "error usage: publish <routing-key> <message>",
    "error usage: <command> <args>"]

def errorReplies : List String :=
  usageReplies ++
    [RoutingError.invalidKind "", .kindConflict "", .noExchange, .noQueue].map RoutingError.message

def acceptedReplies : List String := [okReply, "ok bye"]

def isErrorLine (reply : String) : Bool := "error".isPrefixOf reply

theorem isErrorLine_of_mem : ∀ reply ∈ errorReplies, isErrorLine reply = true := by decide +kernel

theorem not_isErrorLine_of_mem : ∀ reply ∈ acceptedReplies, isErrorLine reply = false := by
  decide +kernel

theorem message_mem_errorReplies (error : RoutingError) : error.message ∈ errorReplies := by
  refine List.mem_append_right _ (List.mem_map.2 ?_)
  cases error with
  | invalidKind text => exact ⟨.invalidKind "", by simp, rfl⟩
  | kindConflict name => exact ⟨.kindConflict "", by simp, rfl⟩
  | noExchange => exact ⟨.noExchange, by simp, rfl⟩
  | noQueue => exact ⟨.noQueue, by simp, rfl⟩

theorem mem_usageReplies {line reply : String} (h : Command.ofLine line = .malformed reply) :
    reply ∈ usageReplies := by
  unfold Command.ofLine at h
  split at h
  all_goals
    try split at h
    all_goals
      cases h
      try simp [usageReplies]

namespace Session

variable {registry : Registry} {session : Session} {line reply : String}

/-- An outcome that refuses a command for a reason that it reports, and changes nothing. -/
def Refuses (registry : Registry) (session : Session) (outcome : Outcome) : Prop :=
  ∃ reply ∈ errorReplies, outcome = { registry, session, reply := some reply }

theorem refuses_refuse (registry : Registry) (session : Session) (error : RoutingError) :
    Refuses registry session (refuse registry session error) :=
  ⟨error.message, message_mem_errorReplies error, rfl⟩

/-- A command is refused, or answered `ok`, or not at all. -/
theorem perform_cases (registry : Registry) (session : Session) {command : Command}
    (hcommand : command = .ofLine line) :
    Refuses registry session (session.perform registry command) ∨
      ∀ reply, (session.perform registry command).reply = some reply → reply ∈ acceptedReplies := by
  have haccepted : ∀ {said : String}, said ∈ acceptedReplies → ∀ reply, some said = some reply →
      reply ∈ acceptedReplies := by
    intro said hsaid reply heq
    exact Option.some.inj heq ▸ hsaid
  have hok : okReply ∈ acceptedReplies := by simp [acceptedReplies]
  cases command with
  | exchange text name =>
    rcases perform_exchange registry session text name with
      ⟨_, _, _, -, -, hperform⟩ | ⟨-, error, hperform⟩
    · rw [hperform]
      exact .inr (haccepted hok)
    · rw [hperform]
      exact .inl (refuses_refuse registry session error)
  | queue name => exact .inr (haccepted hok)
  | bind key =>
    simp only [perform]
    split
    · exact .inl (refuses_refuse registry session _)
    · exact .inl (refuses_refuse registry session _)
    · exact .inr (haccepted hok)
  | publish key message =>
    simp only [perform]
    split
    · exact .inl (refuses_refuse registry session _)
    · exact .inr (haccepted hok)
  | subscribe =>
    simp only [perform]
    split
    · exact .inl (refuses_refuse registry session _)
    · refine .inr fun reply hreply => ?_
      cases hreply
  | exit => exact .inr (haccepted (by simp [acceptedReplies]))
  | malformed said =>
    exact .inl ⟨said, List.mem_append_left _ (mem_usageReplies hcommand.symm), rfl⟩

/-- A line is refused and changes nothing, or its reply is no error. -/
theorem process_cases (registry : Registry) (session : Session) (line : String) :
    Refuses registry session (session.process registry line) ∨
      ∀ reply, (session.process registry line).reply = some reply → reply ∈ acceptedReplies := by
  unfold process
  split
  -- A subscribed session is not answered.
  · refine .inr fun reply hreply => ?_
    cases hreply
  · exact perform_cases registry session rfl

/-- Exactly the refused commands are answered with an error. -/
theorem refuses_process_iff (registry : Registry) (session : Session) (line : String) :
    Refuses registry session (session.process registry line) ↔
      ∃ reply, (session.process registry line).reply = some reply ∧ isErrorLine reply = true := by
  constructor
  · rintro ⟨reply, hmem, hrefused⟩
    exact ⟨reply, by rw [hrefused], isErrorLine_of_mem reply hmem⟩
  · rintro ⟨reply, hreply, herror⟩
    refine (process_cases registry session line).resolve_right fun haccepted => ?_
    rw [not_isErrorLine_of_mem reply (haccepted reply hreply)] at herror
    cases herror

theorem process_eq_of_isErrorLine (hreply : (session.process registry line).reply = some reply)
    (herror : isErrorLine reply = true) :
    session.process registry line = { registry, session, reply := some reply } := by
  obtain ⟨said, -, hrefused⟩ :=
    (refuses_process_iff registry session line).2 ⟨reply, hreply, herror⟩
  rw [hrefused] at hreply ⊢
  rw [Option.some.inj hreply]

end Session

namespace Service

variable {service : Service} {id : ClientId} {client : Client} {line reply : String}

theorem updateSession_self (hclient : service.clients[id]? = some client) :
    (service.updateSession id fun _ => client.session) = service := by
  have hclients : (service.clients.modify id fun c => { c with session := client.session }) =
      service.clients := by
    refine List.ext_getElem? fun i => ?_
    rw [List.getElem?_modify]
    by_cases hi : id = i
    · rw [← hi, hclient]
      simp
    · simp [hi]
  rw [updateSession, updateClient, hclients]

/-- An error reply leaves the service as it was, all sessions included. -/
theorem process_of_isErrorLine (hclient : service.clients[id]? = some client)
    (hreply : (client.session.process service.registry line).reply = some reply)
    (herror : isErrorLine reply = true) : service.process id line = (service, some reply, []) := by
  rw [process_eq hclient, Session.process_eq_of_isErrorLine hreply herror]
  exact congrArg (·, some reply, []) (updateSession_self hclient)

/-- A client that asked to leave is not read any more, unless it is excepted. -/
def LetsGo (service : Service) (except : List ClientId) : Prop :=
  ∀ id client, id ∉ except → service.clients[id]? = some client → client.reading = true →
    client.session.finished = false

theorem letsGo_fresh : ({} : Service).LetsGo [] := by
  intro id client _ hc
  cases hc

/-- Nobody can break the rule by a change that neither reads again nor finishes. -/
theorem letsGo_updateClient {except : List ClientId} (h : service.LetsGo except) (id : ClientId)
    {change : Client → Client}
    (hc : ∀ client, (client.reading = true → client.session.finished = false) →
      (change client).reading = true → (change client).session.finished = false) :
    (service.updateClient id change).LetsGo except := by
  intro other client hother hclient
  rw [updateClient, List.getElem?_modify] at hclient
  obtain ⟨old, hold, rfl⟩ := Option.map_eq_some_iff.1 hclient
  by_cases hid : id = other
  · rw [if_pos hid]
    exact hc old (h other old hother hold)
  · rw [if_neg hid]
    exact h other old hother hold

theorem letsGo_stop {except : List ClientId} (h : service.LetsGo except) (id : ClientId) :
    (service.stop id).LetsGo except :=
  letsGo_updateClient h id fun _ hold => hold

/-- Once a client is gone, nothing need be known of it. -/
theorem letsGo_disconnect (h : service.LetsGo [id]) : (service.disconnect id).LetsGo [] := by
  intro other client _ hclient hreading
  rw [disconnect, updateClient, List.getElem?_modify] at hclient
  obtain ⟨old, hold, rfl⟩ := Option.map_eq_some_iff.1 hclient
  by_cases hid : id = other
  · rw [if_pos hid] at hreading
    cases hreading
  · rw [if_neg hid] at hreading ⊢
    have hother : other ∉ [id] := fun hmem => hid (List.mem_singleton.1 hmem).symm
    exact letsGo_stop h id other old hother hold hreading

theorem LetsGo.weaken (h : service.LetsGo []) (except : List ClientId) : service.LetsGo except :=
  fun id client _ => h id client List.not_mem_nil

theorem letsGo_process (h : service.LetsGo []) (id : ClientId) (line : String) :
    (service.process id line).1.LetsGo [id] := by
  cases hclient : service.clients[id]? with
  | none =>
    rw [process_none hclient]
    exact h.weaken [id]
  | some client =>
    simp only [process_eq hclient]
    intro other found hother hfound
    have hid : ¬ id = other := fun heq => hother (List.mem_singleton.2 heq.symm)
    simp only [updateSession, updateClient, List.getElem?_modify_ne _ _ hid] at hfound
    exact h other found List.not_mem_nil hfound

/-- Whoever stays after a line has not asked to leave. -/
theorem letsGo_receive (h : service.LetsGo []) (id : ClientId) (line : String) :
    (service.receive id line).1.LetsGo [] := by
  have hprocessed := letsGo_process h id line
  rcases hreceive : service.receive id line with ⟨after, outputs⟩
  cases received_of_receive hreceive with
  | unread => exact h
  | stays hclient _ hunfinished =>
    intro other client _ hother
    by_cases hid : other = id
    · rw [hid, client_process hclient] at hother
      exact fun _ => Option.some.inj hother ▸ hunfinished
    · exact hprocessed other client (fun hmem => hid (List.mem_singleton.1 hmem)) hother
  | leaves => exact letsGo_disconnect hprocessed

theorem letsGo_advanced {after : Service} {outputs : List Output} (h : service.LetsGo [])
    (ha : Advanced service id after outputs) : after.LetsGo [] := by
  cases ha with
  | announce => exact letsGo_updateClient h id fun _ hold => hold
  | leave => exact letsGo_stop h id
  | deliver => exact h

theorem letsGo_undergo (h : service.LetsGo []) (next : Happening) :
    (service.undergo next).1.LetsGo [] := by
  cases next with
  | move next =>
    cases next with
    | event event =>
      cases event with
      | connect =>
        intro other client _ hclient hreading
        rcases List.mem_append.1 (List.mem_of_getElem? hclient) with hold | hnew
        · obtain ⟨i, hi⟩ := List.getElem?_of_mem hold
          exact h i client List.not_mem_nil hi hreading
        · rw [List.mem_singleton.1 hnew]
      | line id text => exact letsGo_receive h id text
      | disconnect id => exact letsGo_disconnect (h.weaken [id])
    | advance id =>
      simp only [undergo, move]
      cases ha : service.advance id with
      | none => exact h
      | some result => exact letsGo_advanced h (advanced_of_advance ha)
  | hangUp id => exact letsGo_updateClient h id fun _ hold => hold
  | shutdown => exact h

/-- **In every run** whoever asked to leave is not read any more. -/
theorem letsGo_undergoAll (h : service.LetsGo []) (happenings : List Happening) :
    (service.undergoAll happenings).1.LetsGo [] := by
  induction happenings generalizing service with
  | nil => exact h
  | cons next rest ih => exact ih (letsGo_undergo h next)

/-- Two states of a service that differ at most in who is still read and written to. -/
structure Alike (before after : Service) : Prop where
  registry : after.registry = before.registry
  sessions : after.clients.map (·.session) = before.clients.map (·.session)
  stopping : after.stopping = before.stopping

theorem Alike.refl (service : Service) : Alike service service := ⟨rfl, rfl, rfl⟩

theorem Alike.trans {first second third : Service} (h : Alike first second)
    (h' : Alike second third) : Alike first third :=
  ⟨h'.registry.trans h.registry, h'.sessions.trans h.sessions, h'.stopping.trans h.stopping⟩

theorem alike_updateClient (service : Service) (id : ClientId) {change : Client → Client}
    (hchange : ∀ client, service.clients[id]? = some client →
      (change client).session = client.session) :
    Alike service (service.updateClient id change) where
  registry := rfl
  sessions := by
    refine List.ext_getElem? fun i => ?_
    rw [updateClient, List.getElem?_map, List.getElem?_map, List.getElem?_modify]
    cases hold : service.clients[i]? with
    | none => rfl
    | some old =>
      by_cases hid : id = i
      · simpa [hid] using hchange old (hid ▸ hold)
      · simp [hid]
  stopping := rfl

/-- To an idle client it makes no difference that its subscription would end. -/
theorem alike_disconnect (hclient : service.clients[id]? = some client)
    (hidle : client.session.isSubscribed = false) : Alike service (service.disconnect id) := by
  refine (alike_updateClient service id fun found hfound => ?_).trans
    (alike_updateClient (service.stop id) id fun _ _ => rfl)
  obtain rfl : client = found := Option.some.inj (hclient.symm.trans hfound)
  have hnone : client.session.subscription = none := by
    simpa [Session.isSubscribed] using hidle
  rw [Session.stop, ← hnone]

theorem isSubscribed_of_reply {registry : Registry} {session : Session}
    (h : (session.process registry line).reply = some reply) : session.isSubscribed = false := by
  cases hsub : session.isSubscribed with
  | false => rfl
  | true =>
    rw [Session.process, if_pos hsub] at h
    cases h

/-- A refused line can only cost its own client the connection. -/
theorem receive_of_refused (hclient : service.clients[id]? = some client)
    (hreply : (client.session.process service.registry line).reply = some reply)
    (herror : isErrorLine reply = true) :
    service.receive id line =
      if client.reading then
        (if client.session.finished || !client.writable then service.disconnect id else service,
          write client id reply)
      else (service, []) := by
  cases hreading : client.reading with
  | false => simp [receive_none, hclient, hreading]
  | true =>
    rw [receive_of_reading hclient hreading, process_of_isErrorLine hclient hreply herror,
      Session.process_eq_of_isErrorLine hreply herror]
    simp [answer]

/-- What the handlers of a client's session work on. -/
def workspace (service : Service) (client : Client) : Workspace where
  registry := service.registry
  session := client.session

/-- **A command that is answered with an error changes nothing.** Whatever the state of the service,
the handler of the line leaves the registry and the session as they were and tells the monitor
nothing, and so does the service, whose other sessions are as before too. In every state that the
service can come to it is the same service after that, unless the client cannot take the reply. -/
theorem receive_of_isErrorLine (hclient : service.clients[id]? = some client)
    (hreply : ((service.workspace client).carryOut line).1 = some reply)
    (herror : isErrorLine reply = true) :
    (service.workspace client).carryOut line = (some reply, service.workspace client) ∧
    service.process id line = (service, some reply, []) ∧
    Alike service (service.receive id line).1 ∧
    notices (service.receive id line).2 = [] ∧
    (client.reading = true → client.writable = true →
      (∃ happenings, (undergoAll {} happenings).1 = service) →
      service.receive id line = (service, [.line id reply])) := by
  rw [Handler.carryOut_eq_process] at hreply ⊢
  have hrefused := Session.process_eq_of_isErrorLine hreply herror
  have hreceive := receive_of_refused hclient hreply herror
  refine ⟨?_, process_of_isErrorLine hclient hreply herror, ?_, ?_, ?_⟩
  · rw [hrefused]
    rfl
  · rw [hreceive]
    split
    · dsimp only
      split
      · exact alike_disconnect hclient (isSubscribed_of_reply hreply)
      · exact Alike.refl service
    · exact Alike.refl service
  · rw [hreceive]
    split
    · have hwritten := notices_write client id [reply]
      simpa using hwritten
    · rfl
  · rintro hreading hwritable ⟨happenings, hreached⟩
    have hletsGo : service.LetsGo [] := hreached ▸ letsGo_undergoAll letsGo_fresh happenings
    have hstays := hletsGo id client List.not_mem_nil hclient hreading
    rw [hreceive]
    simp [hreading, hstays, hwritable, write]

/-- Of two clients, one has published at a direct exchange of its own. -/
def directDeclared : List Happening :=
  [.move (.event .connect), .move (.event .connect), .move (.event (.line 0 "exchange direct x")),
    .move (.event (.line 0 "queue q")), .move (.event (.line 0 "bind k")),
    .move (.event (.line 0 "publish k m"))]

/-- The other client cannot make it a topic exchange. -/
theorem directDeclared_refused :
    let service := (undergoAll {} directDeclared).1
    let reply := "error exchange already exists with a different type"
    service.clients[1]? = some ({} : Client) ∧
    ((service.workspace {}).carryOut "exchange topic x").1 = some reply ∧
    isErrorLine reply = true ∧
    service.receive 1 "exchange topic x" = (service, [.line 1 reply]) ∧
    service.registry.pending 0 = ["m"] := by
  intro service reply
  have hclient : service.clients[1]? = some ({} : Client) := by decide +kernel
  have hreply : ((service.workspace {}).carryOut "exchange topic x").1 = some reply := by
    decide +kernel
  have herror : isErrorLine reply = true := by decide +kernel
  have hrefused := receive_of_isErrorLine hclient hreply herror
  exact ⟨hclient, hreply, herror, hrefused.2.2.2.2 rfl rfl ⟨directDeclared, rfl⟩, by decide +kernel⟩

end Service

end BrokerCluster.Messaging
