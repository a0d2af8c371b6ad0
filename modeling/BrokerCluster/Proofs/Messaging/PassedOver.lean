import BrokerCluster.Messaging.Server
import BrokerCluster.Proofs.Messaging.Refusals
import BrokerCluster.Proofs.Wire.Lines

/-!
# Lines that a subscribed client sends

The session of a subscribed client listens to `stop` only. Whatever else the client sends
is as if it had never been sent: nobody gets other lines for it, and it changes nothing
that is stored. So a run is the same without it, and so are all bytes that come after it.
-/
namespace BrokerCluster.Messaging

namespace Service

variable {service : Service} {id : ClientId} {line : String}

/-- Whether the session of a client is subscribed and reads a line other than `stop`. -/
def passesOver (service : Service) (id : ClientId) (line : String) : Bool :=
  service.clients[id]?.any fun client =>
    client.reading && client.session.isSubscribed && !isStop line

/-- A line that is passed over changes nothing and is not answered. -/
theorem receive_of_passesOver (h : service.LetsGo []) (hpass : service.passesOver id line = true) :
    service.receive id line = (service, []) := by
  obtain ⟨client, hclient, hpass⟩ := (Option.any_eq_true _ _).1 hpass
  simp only [Bool.and_eq_true, Bool.not_eq_true'] at hpass
  obtain ⟨⟨hreading, hsub⟩, hline⟩ := hpass
  have hstays := h id client List.not_mem_nil hclient hreading
  have hsame : client.session.process service.registry line =
      { registry := service.registry, session := client.session } := by
    simp [Session.process, hsub, hline]
  have hprocess : (service.process id line).1 = service := by
    rw [process_eq hclient, hsame]
    exact updateSession_self hclient
  rw [receive_of_reading hclient hreading, hprocess, hsame]
  simp [answer, hstays]

theorem deliver_of_waits (hwaits : service.advance id = none) (steps : Nat) :
    deliver id steps service = (service, []) := by
  cases steps with
  | zero => rfl
  | succ steps => rw [deliver, hwaits]

/-- Where every subscription waits there is nothing to settle. -/
theorem settle_of_waits (hwaits : ∀ id, service.advance id = none) : service.settle = (service, []) := by
  have hall : ∀ ids, settleAll ids service = (service, []) := by
    intro ids
    induction ids with
    | nil => rfl
    | cons id rest ih =>
      rw [settleAll, deliver_of_waits (hwaits id)]
      simp only [ih, List.append_nil]
  exact hall _

/-- Whether an event is a line of a client that its session passes over. -/
def isPassedOver (service : Service) (id : ClientId) : Event → Bool
  | .line client text => client == id && service.passesOver id text
  | _ => false

/-- The events but for the lines of a client that its session would pass over. -/
def heeded (id : ClientId) : Service → List Event → List Event
  | _, [] => []
  | service, event :: rest =>
    let later := heeded id (service.handle event).1 rest
    if service.isPassedOver id event then later else event :: later

/-- No line of a client is passed over. -/
def HeedsAll (service : Service) (id : ClientId) (events : List Event) : Prop :=
  ∀ earlier event later, events = earlier ++ event :: later →
    (service.run earlier).1.isPassedOver id event = false

theorem handle_of_isPassedOver (h : service.LetsGo []) (hwaits : ∀ id, service.advance id = none)
    {event : Event} (hpass : service.isPassedOver id event = true) :
    service.handle event = (service, []) := by
  cases event with
  | line client text =>
    obtain ⟨hclient, hpass⟩ := Bool.and_eq_true_iff.1 hpass
    obtain rfl := beq_iff_eq.1 hclient
    have hreact : service.react (.line client text) = (service, []) := receive_of_passesOver h hpass
    rw [handle, hreact]
    simp only [settle_of_waits hwaits, List.append_nil]
  | connect => cases hpass
  | disconnect client => cases hpass

theorem letsGo_play (h : service.LetsGo []) (moves : List Move) : (service.play moves).1.LetsGo [] := by
  induction moves generalizing service with
  | nil => exact h
  | cons next rest ih => exact ih (letsGo_undergo h (.move next))

theorem letsGo_handle (h : service.LetsGo []) (event : Event) : (service.handle event).1.LetsGo [] := by
  obtain ⟨moves, -, hplay⟩ := exists_play_run service [event]
  have hmoves := letsGo_play h moves
  rw [hplay] at hmoves
  exact hmoves

theorem run_cons (service : Service) (event : Event) (rest : List Event) :
    service.run (event :: rest) = (((service.handle event).1.run rest).1,
      (service.handle event).2 ++ ((service.handle event).1.run rest).2) := rfl

/-- A run is the same without the lines of a client that are passed over. -/
theorem run_heeded (h : service.LetsGo []) (hwaits : ∀ id, service.advance id = none)
    (id : ClientId) (events : List Event) :
    service.run (heeded id service events) = service.run events := by
  induction events generalizing service with
  | nil => rfl
  | cons event rest ih =>
    have hrest := ih (letsGo_handle h event) fun other => advance_settle (service.react event).1 other
    rw [heeded]
    split
    · next hpass =>
      rw [handle_of_isPassedOver h hwaits hpass] at hrest ⊢
      rw [hrest, run_cons, handle_of_isPassedOver h hwaits hpass]
      rfl
    · rw [run_cons, run_cons, hrest]

theorem heedsAll_nil (service : Service) (id : ClientId) : service.HeedsAll id [] := by
  intro earlier event later hsplit
  cases earlier <;> cases hsplit

theorem HeedsAll.cons {event : Event} {rest : List Event}
    (hstays : service.isPassedOver id event = false)
    (hrest : (service.handle event).1.HeedsAll id rest) : service.HeedsAll id (event :: rest) := by
  intro earlier next later hsplit
  cases earlier with
  | nil =>
    obtain ⟨rfl, -⟩ := List.cons.inj hsplit
    exact hstays
  | cons first earlier =>
    obtain ⟨rfl, htail⟩ := List.cons.inj hsplit
    exact hrest earlier next later htail

/-- No more lines are passed over once those are left out. -/
theorem heedsAll_heeded (h : service.LetsGo []) (hwaits : ∀ id, service.advance id = none)
    (id : ClientId) (events : List Event) : service.HeedsAll id (heeded id service events) := by
  induction events generalizing service with
  | nil => exact heedsAll_nil service id
  | cons event rest ih =>
    have hrest := ih (letsGo_handle h event) fun other => advance_settle (service.react event).1 other
    rw [heeded]
    split
    · next hpass =>
      rw [handle_of_isPassedOver h hwaits hpass] at hrest ⊢
      exact hrest
    · next hstays => exact .cons (Bool.not_eq_true _ ▸ hstays) hrest

/-- Clients stay, and one that is not read any more stays unread. -/
def Keeps (before after : Service) : Prop :=
  ∀ (id : ClientId) (client : Client), before.clients[id]? = some client →
    ∃ later : Client, after.clients[id]? = some later ∧ (client.reading = false → later.reading = false)

theorem Keeps.refl (service : Service) : service.Keeps service :=
  fun _ client hclient => ⟨client, hclient, fun hleft => hleft⟩

theorem Keeps.trans {first second third : Service} (h : first.Keeps second) (h' : second.Keeps third) :
    first.Keeps third := by
  intro id client hclient
  obtain ⟨later, hlater, hleft⟩ := h id client hclient
  obtain ⟨last, hlast, hleft'⟩ := h' id later hlater
  exact ⟨last, hlast, fun hunread => hleft' (hleft hunread)⟩

theorem Keeps.length_le {before after : Service} (h : before.Keeps after) :
    before.clients.length ≤ after.clients.length := by
  by_contra hless
  obtain ⟨later, hlater, -⟩ := h after.clients.length _ (List.getElem?_eq_getElem (by omega))
  rw [List.getElem?_eq_none (Nat.le_refl _)] at hlater
  cases hlater

theorem keeps_updateClient (service : Service) (id : ClientId) {change : Client → Client}
    (hchange : ∀ client, client.reading = false → (change client).reading = false) :
    service.Keeps (service.updateClient id change) := by
  intro other client hclient
  refine ⟨if id = other then change client else client, ?_, fun hleft => ?_⟩
  · simp [updateClient, List.getElem?_modify, hclient]
  · split
    · exact hchange client hleft
    · exact hleft

theorem keeps_stop (service : Service) (id : ClientId) : service.Keeps (service.stop id) :=
  keeps_updateClient service id fun _ hleft => hleft

theorem keeps_disconnect (service : Service) (id : ClientId) : service.Keeps (service.disconnect id) :=
  (keeps_stop service id).trans (keeps_updateClient _ id fun _ _ => rfl)

theorem keeps_process (service : Service) (id : ClientId) (line : String) :
    service.Keeps (service.process id line).1 := by
  cases hclient : service.clients[id]? with
  | none =>
    rw [process_none hclient]
    exact .refl service
  | some client =>
    simp only [process_eq hclient]
    exact keeps_updateClient { service with registry := _ } id fun _ hleft => hleft

theorem keeps_receive (service : Service) (id : ClientId) (line : String) :
    service.Keeps (service.receive id line).1 := by
  have hprocess := keeps_process service id line
  rcases hreceive : service.receive id line with ⟨after, outputs⟩
  cases received_of_receive hreceive with
  | unread => exact .refl service
  | stays => exact hprocess
  | leaves => exact hprocess.trans (keeps_disconnect _ id)

theorem keeps_advanced {after : Service} {outputs : List Output}
    (h : Advanced service id after outputs) : service.Keeps after := by
  cases h with
  | announce => exact keeps_updateClient service id fun _ hleft => hleft
  | leave => exact keeps_stop service id
  | deliver => exact .refl service

theorem keeps_connect (service : Service) : service.Keeps service.connect.1 := by
  intro id client hclient
  obtain ⟨hbound, -⟩ := List.getElem?_eq_some_iff.1 hclient
  exact ⟨client, (List.getElem?_append_left hbound).trans hclient, fun hleft => hleft⟩

/-- Whatever happens, clients stay and nobody is read again. -/
theorem keeps_undergo (service : Service) (next : Happening) :
    service.Keeps (service.undergo next).1 := by
  cases next with
  | move next =>
    cases next with
    | event event =>
      cases event with
      | connect => exact keeps_connect service
      | line client text => exact keeps_receive service client text
      | disconnect client => exact keeps_disconnect service client
    | advance client =>
      simp only [undergo, move]
      cases ha : service.advance client with
      | none => exact .refl service
      | some result => exact keeps_advanced (advanced_of_advance ha)
  | hangUp client => exact keeps_updateClient service client fun _ hleft => hleft
  | shutdown => exact .refl service

/-- The session of a client does not read any more. -/
def HasLeft (service : Service) (id : ClientId) : Prop :=
  ∃ client, service.clients[id]? = some client ∧ client.reading = false

theorem HasLeft.mono {after : Service} (h : service.HasLeft id) (hkeeps : service.Keeps after) :
    after.HasLeft id := by
  obtain ⟨client, hclient, hunread⟩ := h
  obtain ⟨later, hlater, hleft⟩ := hkeeps id client hclient
  exact ⟨later, hlater, hleft hunread⟩

theorem hasLeft_disconnect (h : id < service.clients.length) : (service.disconnect id).HasLeft id := by
  have hclient := List.getElem?_eq_getElem h
  simp [HasLeft, disconnect, stop, updateSession, updateClient, hclient]

theorem HasLeft.passesOver (h : service.HasLeft id) (line : String) :
    service.passesOver id line = false := by
  obtain ⟨client, hclient, hleft⟩ := h
  simp [Service.passesOver, hclient, hleft]

end Service

/-- The bytes of a stream that stay. A mark for each of the first says so; the others stay too. -/
def pick : List Bool → List UInt8 → List UInt8
  | [], bytes => bytes
  | _ :: _, [] => []
  | mark :: marks, byte :: bytes => if mark then byte :: pick marks bytes else pick marks bytes

@[simp] theorem pick_empty (marks : List Bool) : pick marks [] = [] := by
  cases marks <;> rfl

theorem pick_append (marks : List Bool) (first second : List UInt8) :
    pick marks (first ++ second) = pick marks first ++ pick (marks.drop first.length) second := by
  induction first generalizing marks with
  | nil => rw [pick_empty, List.length_nil, List.drop_zero, List.nil_append, List.nil_append]
  | cons byte rest ih =>
    cases marks with
    | nil => simp [pick]
    | cons mark marks => cases mark <;> simp [pick, ih]

theorem pick_replicate (stays : Bool) (front rest : List UInt8) (marks : List Bool) :
    pick (List.replicate front.length stays ++ marks) (front ++ rest) =
      (if stays then front else []) ++ pick marks rest := by
  induction front with
  | nil => cases stays <;> rfl
  | cons byte front ih =>
    rw [List.length_cons, List.replicate_succ, List.cons_append, List.cons_append, pick, ih]
    cases stays <;> rfl

theorem pick_of_forall {marks : List Bool} (h : ∀ mark ∈ marks, mark = true) (bytes : List UInt8) :
    pick marks bytes = bytes := by
  induction bytes generalizing marks with
  | nil => exact pick_empty marks
  | cons byte rest ih =>
    cases marks with
    | nil => rfl
    | cons mark marks =>
      obtain ⟨rfl, hmarks⟩ := List.forall_mem_cons.1 h
      rw [pick, if_pos rfl, ih hmarks]

theorem pick_sublist (marks : List Bool) (bytes : List UInt8) : (pick marks bytes).Sublist bytes := by
  induction bytes generalizing marks with
  | nil => rw [pick_empty]
  | cons byte rest ih =>
    cases marks with
    | nil => exact .refl _
    | cons mark marks =>
      cases mark
      · exact (ih marks).cons byte
      · exact (ih marks).cons_cons byte

namespace Server

open Service Text Wire

variable {server : Server} {id : ClientId}

/-- The line that the session of a client is about to read, and how many bytes it takes. -/
def nextLine? (server : Server) (id : ClientId) : Option (String × Nat) := do
  let inbox ← server.inboxes[id]?
  match ← inbox.next? with
  | .line text rest => some (text, inbox.bytes.length - rest.length)
  | .ended | .fault _ => none

/-- Whether a step is one in which the session of a client reads a line and passes it over. -/
def isPassedOver (server : Server) (id : ClientId) : Step → Bool
  | .read client =>
    client == id && (server.nextLine? id).any fun (text, _) => server.service.passesOver id text
  | _ => false

/-- Marks for the bytes of a client that a step reads. -/
def readMarks (server : Server) (id : ClientId) (next : Step) : List Bool :=
  match next with
  | .read client =>
    if client = id then
      match server.nextLine? id with
      | some (text, size) => List.replicate size !server.service.passesOver id text
      | none => []
    else []
  | _ => []

/-- Marks for the bytes of a client, from the first that is not read yet to the last that is read in these
steps: those of a line that the session passes over do not stay. -/
def marks (id : ClientId) : Server → List Step → List Bool
  | _, [] => []
  | server, next :: rest => server.readMarks id next ++ marks id (server.step next).1 rest

/-- The step in which only the marked bytes of a client come. The first marks are for what is there. -/
def edit (server : Server) (id : ClientId) (marks : List Bool) : Step → Step
  | .send client bytes =>
    if client = id then
      match server.inboxes[id]? with
      | some inbox => .send client (pick (marks.drop inbox.bytes.length) bytes)
      | none => .send client bytes
    else .send client bytes
  | next => next

/-- The steps as they are if a client doesn't send the lines that its session would pass over. -/
def heeded (id : ClientId) : Server → List Step → List Step
  | _, [] => []
  | server, next :: rest =>
    let later := heeded id (server.step next).1 rest
    if server.isPassedOver id next then later
    else server.edit id (marks id (server.step next).1 rest) next :: later

def HeedsAll (server : Server) (id : ClientId) (steps : List Step) : Prop :=
  ∀ earlier next later, steps = earlier ++ next :: later →
    (server.play earlier).1.isPassedOver id next = false

/-- The server with the marked bytes in the inbox of a client. -/
def trim (server : Server) (id : ClientId) (marks : List Bool) : Server :=
  server.updateInbox id fun inbox => { inbox with bytes := pick marks inbox.bytes }

/-- When only the marked bytes are there and come, the step reads no line to be passed over, and it does
the same. -/
def Trims (server : Server) (id : ClientId) (later : List Bool) (next : Step) : Prop :=
  (server.trim id (server.readMarks id next ++ later)).isPassedOver id (server.edit id later next) =
      false ∧
    (server.trim id (server.readMarks id next ++ later)).step (server.edit id later next) =
      ((server.step next).1.trim id later, (server.step next).2)

theorem play_cons (server : Server) (next : Step) (rest : List Step) :
    server.play (next :: rest) =
      (((server.step next).1.play rest).1,
        (server.step next).2 ++ ((server.step next).1.play rest).2) := rfl

structure IsSound (server : Server) : Prop where
  letsGo : server.service.LetsGo []
  length_le : server.inboxes.length ≤ server.service.clients.length

theorem isSound_fresh : IsSound {} := ⟨letsGo_fresh, Nat.le_refl 0⟩

/-- What a step makes of the service is nothing or one of the things that can happen to it. -/
theorem service_step (server : Server) (next : Step) :
    (server.step next).1.service = server.service ∨
      ∃ happening, (server.step next).1.service = (server.service.undergo happening).1 := by
  cases next with
  | connect => exact .inr ⟨.move (.event .connect), rfl⟩
  | send client bytes => exact .inl rfl
  | finish client => exact .inl rfl
  | read client =>
    simp only [step]
    cases server.inboxes[client]?.bind Inbox.next? with
    | none => exact .inl rfl
    | some found =>
      cases found with
      | line text rest => exact .inr ⟨.move (.event (.line client text)), rfl⟩
      | ended => exact .inr ⟨.move (.event (.disconnect client)), rfl⟩
      | fault reason => exact .inr ⟨.move (.event (.disconnect client)), rfl⟩
  | disconnect client => exact .inr ⟨.move (.event (.disconnect client)), rfl⟩
  | hangUp client => exact .inr ⟨.hangUp client, rfl⟩
  | advance client => exact .inr ⟨.move (.advance client), rfl⟩
  | shutdown => exact .inr ⟨.shutdown, rfl⟩

theorem keeps_step (server : Server) (next : Step) :
    server.service.Keeps (server.step next).1.service := by
  rcases service_step server next with hsame | ⟨happening, hservice⟩
  · rw [hsame]
    exact .refl server.service
  · rw [hservice]
    exact keeps_undergo server.service happening

theorem letsGo_step (h : server.service.LetsGo []) (next : Step) :
    (server.step next).1.service.LetsGo [] := by
  rcases service_step server next with hsame | ⟨happening, hservice⟩
  · rwa [hsame]
  · rw [hservice]
    exact letsGo_undergo h happening

theorem IsSound.step (h : server.IsSound) (next : Step) : (server.step next).1.IsSound where
  letsGo := letsGo_step h.letsGo next
  length_le := by
    have hclients := (keeps_step server next).length_le
    have hlength := h.length_le
    cases next with
    | connect => simpa [Server.step, Service.connect] using hlength
    | read client =>
      have hsame : (server.step (.read client)).1.inboxes.length = server.inboxes.length := by
        simp only [Server.step]
        cases server.inboxes[client]?.bind Inbox.next? with
        | none => rfl
        | some found => cases found <;> simp [take, updateInbox]
      omega
    | send client bytes => simpa [Server.step, updateInbox] using hlength
    | finish client => simpa [Server.step, updateInbox] using hlength
    | disconnect client => exact Nat.le_trans hlength hclients
    | hangUp client => exact Nat.le_trans hlength hclients
    | advance client => exact Nat.le_trans hlength hclients
    | shutdown => exact hlength

theorem updateInbox_updateInbox (server : Server) (id : ClientId) (first later : Inbox → Inbox) :
    (server.updateInbox id first).updateInbox id later = server.updateInbox id (later ∘ first) := by
  simp only [updateInbox, List.modify_modify_eq]

theorem updateInbox_comm (server : Server) {id other : ClientId} (hne : id ≠ other)
    (first later : Inbox → Inbox) :
    (server.updateInbox id first).updateInbox other later =
      (server.updateInbox other later).updateInbox id first := by
  simp only [updateInbox, List.modify_modify_ne first later server.inboxes hne]

/-- What becomes of an inbox depends on what is in it, and nothing becomes of one that is not there. -/
theorem updateInbox_congr {first later : Inbox → Inbox}
    (h : ∀ inbox, server.inboxes[id]? = some inbox → first inbox = later inbox) :
    server.updateInbox id first = server.updateInbox id later := by
  refine congrArg (Server.mk server.service) (List.ext_getElem? fun i => ?_)
  rw [List.getElem?_modify, List.getElem?_modify]
  cases hinbox : server.inboxes[i]? with
  | none => rfl
  | some inbox =>
    by_cases hid : id = i
    · simp [hid, h inbox (hid ▸ hinbox)]
    · simp [hid]

theorem updateInbox_self {change : Inbox → Inbox}
    (h : ∀ inbox, server.inboxes[id]? = some inbox → change inbox = inbox) :
    server.updateInbox id change = server := by
  have hid : server.updateInbox id (fun inbox => inbox) = server := by
    refine congrArg (Server.mk server.service) (List.ext_getElem? fun i => ?_)
    rw [List.getElem?_modify]
    cases server.inboxes[i]? <;> simp
  exact (updateInbox_congr h).trans hid

theorem updateInbox_of_none (hinbox : server.inboxes[id]? = none) (change : Inbox → Inbox) :
    server.updateInbox id change = server :=
  updateInbox_self fun inbox hsome => by
    rw [hinbox] at hsome
    cases hsome

theorem trim_of_forall {later : List Bool} (h : ∀ mark ∈ later, mark = true) :
    server.trim id later = server :=
  updateInbox_self fun inbox _ => by rw [pick_of_forall h]

theorem trim_nil (server : Server) (id : ClientId) : server.trim id [] = server :=
  trim_of_forall (by simp)

/-- Nothing is taken out of the inbox of a new client, which is empty. -/
theorem step_connect_trim (later : List Bool) :
    (server.trim id later).step .connect =
      ((server.step .connect).1.trim id later, (server.step .connect).2) := by
  have hinboxes : (server.inboxes.modify id fun inbox => { inbox with bytes := pick later inbox.bytes }) ++
      [({} : Inbox)] = (server.inboxes ++ [({} : Inbox)]).modify id fun inbox =>
        { inbox with bytes := pick later inbox.bytes } := by
    refine List.ext_getElem? fun i => ?_
    rw [List.getElem?_modify, List.getElem?_append, List.getElem?_append, List.length_modify]
    split
    · exact List.getElem?_modify ..
    · cases hlast : [({} : Inbox)][i - server.inboxes.length]? with
      | none => rfl
      | some inbox =>
        obtain rfl : inbox = {} := List.mem_singleton.1 (List.mem_of_getElem? hlast)
        simp
  exact congrArg (fun inboxes => (Server.mk _ inboxes, _)) hinboxes

theorem edit_read (server : Server) (id : ClientId) (marks : List Bool) (client : ClientId) :
    server.edit id marks (.read client) = .read client := rfl

theorem exists_edit_send (server : Server) (id : ClientId) (marks : List Bool) (client : ClientId)
    (bytes : List UInt8) : ∃ edited, server.edit id marks (.send client bytes) = .send client edited := by
  simp only [edit]
  split
  · split
    · exact ⟨_, rfl⟩
    · exact ⟨bytes, rfl⟩
  · exact ⟨bytes, rfl⟩

theorem step_send_trim (client : ClientId) (bytes : List UInt8) (later : List Bool) :
    (server.trim id later).step (server.edit id later (.send client bytes)) =
      ((server.step (.send client bytes)).1.trim id later, []) := by
  by_cases hclient : client = id
  · subst hclient
    rw [edit, if_pos rfl]
    cases hinbox : server.inboxes[client]? with
    | none =>
      rw [trim, updateInbox_of_none hinbox]
      show (server.updateInbox client _, _) = ((server.updateInbox client _).updateInbox client _, _)
      rw [updateInbox_updateInbox, updateInbox_of_none hinbox, updateInbox_of_none hinbox]
    | some inbox =>
      refine congrArg (·, []) ((updateInbox_updateInbox ..).trans ?_)
      refine (updateInbox_congr fun other hother => ?_).trans (updateInbox_updateInbox ..).symm
      obtain rfl := Option.some.inj (hinbox.symm.trans hother)
      simp only [Function.comp_apply, pick_append]
  · rw [edit, if_neg hclient]
    exact congrArg (·, []) (updateInbox_comm server (Ne.symm hclient) _ _)

theorem step_finish_trim (client : ClientId) (later : List Bool) :
    (server.trim id later).step (.finish client) =
      ((server.step (.finish client)).1.trim id later, []) := by
  refine congrArg (·, []) ?_
  by_cases hclient : client = id
  · subst hclient
    show (server.updateInbox client _).updateInbox client _ =
      (server.updateInbox client _).updateInbox client _
    rw [updateInbox_updateInbox, updateInbox_updateInbox]
    rfl
  · exact updateInbox_comm server (Ne.symm hclient) _ _

theorem step_read_trim_of_ne {client : ClientId} (hne : client ≠ id) (later : List Bool) :
    (server.trim id later).step (.read client) =
      ((server.step (.read client)).1.trim id later, (server.step (.read client)).2) := by
  have hinbox : (server.trim id later).inboxes[client]? = server.inboxes[client]? :=
    List.getElem?_modify_ne _ _ (Ne.symm hne)
  simp only [step, hinbox]
  cases server.inboxes[client]?.bind Inbox.next? with
  | none => rfl
  | some found =>
    cases found with
    | line text rest =>
      exact congrArg (·, _) (updateInbox_comm { server with service := _ } (Ne.symm hne) _ _)
    | ended => rfl
    | fault reason => rfl

/-- With fewer bytes there is still nothing to read. -/
theorem next?_pick {inbox : Inbox} (h : inbox.next? = none) (marks : List Bool) :
    Inbox.next? { inbox with bytes := pick marks inbox.bytes } = none := by
  have hnone : (inbox.ended || hasLine inbox.bytes) = false := by
    by_contra hsome
    rw [Inbox.next?, if_pos (Bool.not_eq_false _ ▸ hsome)] at h
    cases h
  obtain ⟨hended, hline⟩ := Bool.or_eq_false_iff.1 hnone
  have hpicked : hasLine (pick marks inbox.bytes) = false := by
    by_contra hsome
    have hall := hasLine_of_sublist (pick_sublist marks inbox.bytes) (Bool.not_eq_false _ ▸ hsome)
    rw [hline] at hall
    cases hall
  simp [Inbox.next?, hended, hpicked]

/-- The bytes that a line takes, and what else is read if others come after them. -/
theorem exists_front_of_next? {inbox : Inbox} {text : String} {rest : List UInt8}
    (h : inbox.next? = some (.line text rest)) :
    ∃ front, inbox.bytes = front ++ rest ∧ ∀ marks, Inbox.next? { inbox with
      bytes := front ++ pick marks rest } = some (.line text (pick marks rest)) := by
  unfold Inbox.next? at h
  split at h
  · next hknown =>
    obtain ⟨front, hfront, hmore⟩ := exists_front_of_readLine (Option.some.inj h)
    refine ⟨front, hfront, fun marks => ?_⟩
    rcases hmore with rfl | hmore
    · rw [List.append_nil] at hfront
      simpa [Inbox.next?, ← hfront] using ⟨by simpa using hknown, Option.some.inj h⟩
    · obtain ⟨hline, hread⟩ := hmore (pick marks rest)
      simp [Inbox.next?, hline, hread]
  · cases h

theorem exists_next?_of_nextLine? {text : String} {size : Nat}
    (h : server.nextLine? id = some (text, size)) :
    ∃ inbox rest, server.inboxes[id]? = some inbox ∧ inbox.next? = some (.line text rest) := by
  obtain ⟨inbox, hinbox, hline⟩ := Option.bind_eq_some_iff.1 h
  obtain ⟨found, hnext, hfound⟩ := Option.bind_eq_some_iff.1 hline
  cases found with
  | line other rest =>
    obtain ⟨rfl, -⟩ := Prod.mk.inj (Option.some.inj hfound)
    exact ⟨inbox, rest, hinbox, hnext⟩
  | ended => cases hfound
  | fault reason => cases hfound

/-- Whether a line is passed over depends on what there is to read. -/
theorem isPassedOver_read (server : Server) (id : ClientId) :
    server.isPassedOver id (.read id) = (server.inboxes[id]?.bind Inbox.next?).any fun
      | .line text _ => server.service.passesOver id text
      | .ended | .fault _ => false := by
  simp only [isPassedOver, nextLine?, beq_self_eq_true, Bool.true_and]
  cases server.inboxes[id]? with
  | none => rfl
  | some inbox =>
    cases hnext : inbox.next? with
    | none => simp [hnext]
    | some found => cases found <;> simp [hnext]

theorem readMarks_append_pick {inbox : Inbox} (hinbox : server.inboxes[id]? = some inbox)
    {text : String} {front rest : List UInt8} (hnext : inbox.next? = some (.line text rest))
    (hfront : inbox.bytes = front ++ rest) (later : List Bool) :
    pick (server.readMarks id (.read id) ++ later) inbox.bytes =
      (if server.service.passesOver id text then [] else front) ++ pick later rest := by
  have hline : server.nextLine? id = some (text, front.length) := by
    simp [nextLine?, hinbox, hnext, hfront]
  rw [readMarks, if_pos rfl, hline, hfront, pick_replicate]
  cases server.service.passesOver id text <;> rfl

theorem marks_of_hasLeft (h : server.service.HasLeft id) (steps : List Step) :
    ∀ mark ∈ marks id server steps, mark = true := by
  induction steps generalizing server with
  | nil => simp [marks]
  | cons next rest ih =>
    intro mark hmark
    rcases List.mem_append.1 hmark with hnow | hlater
    · unfold readMarks at hnow
      split at hnow
      · split at hnow
        · split at hnow
          · rw [(List.mem_replicate.1 hnow).2, h.passesOver]
            rfl
          · cases hnow
        · cases hnow
      · cases hnow
    · exact ih (h.mono (keeps_step server next)) mark hlater

section Read

variable (later : List Bool) {inbox : Inbox} (hinbox : server.inboxes[id]? = some inbox)

include hinbox

/-- A session that ends reads no more, so all bytes stay that are there or will come. -/
theorem trim_of_end (h : server.IsSound) {found : LineRead}
    (hnext : inbox.next? = some found) (hend : ∀ text rest, found ≠ .line text rest)
    (hlater : (server.step (.read id)).1.service.HasLeft id → ∀ mark ∈ later, mark = true) :
    server.trim id (server.readMarks id (.read id) ++ later) = server ∧
      (server.step (.read id)).1.trim id later = (server.step (.read id)).1 := by
  have hmarks : server.readMarks id (.read id) = [] := by
    cases found with
    | line text rest => exact absurd rfl (hend text rest)
    | ended => simp [readMarks, nextLine?, hinbox, hnext]
    | fault reason => simp [readMarks, nextLine?, hinbox, hnext]
  have hstep : server.step (.read id) =
      ({ server with service := server.service.disconnect id }, []) := by
    cases found with
    | line text rest => exact absurd rfl (hend text rest)
    | ended => simp [step, hinbox, hnext, take]
    | fault reason => simp [step, hinbox, hnext, take]
  obtain ⟨hbound, -⟩ := List.getElem?_eq_some_iff.1 hinbox
  have hleft := hasLeft_disconnect (Nat.lt_of_lt_of_le hbound h.length_le)
  have hall : ∀ mark ∈ later, mark = true := hlater (hstep ▸ hleft)
  rw [hmarks, List.nil_append]
  exact ⟨trim_of_forall hall, trim_of_forall hall⟩

/-- A line that stays keeps all its bytes and can be read at the same moment. -/
theorem next?_trim_of_line {text : String} {rest : List UInt8}
    (hnext : inbox.next? = some (.line text rest)) (hpass : server.service.passesOver id text = false) :
    (server.trim id (server.readMarks id (.read id) ++ later)).inboxes[id]?.bind Inbox.next? =
      some (.line text (pick later rest)) := by
  obtain ⟨front, hfront, hmore⟩ := exists_front_of_next? hnext
  have hpicked := readMarks_append_pick hinbox hnext hfront later
  rw [hpass, if_neg Bool.false_ne_true] at hpicked
  have htrimmed : (server.trim id (server.readMarks id (.read id) ++ later)).inboxes[id]? =
      some { inbox with bytes := front ++ pick later rest } := by
    simp [trim, updateInbox, hinbox, hpicked]
  rw [htrimmed, Option.bind_some, hmore later]

/-- Fewer bytes do not make a line. -/
theorem next?_trim_of_nothing (hnext : inbox.next? = none) :
    (server.trim id later).inboxes[id]?.bind Inbox.next? = none := by
  have htrimmed : (server.trim id later).inboxes[id]? =
      some { inbox with bytes := pick later inbox.bytes } := by
    simp [trim, updateInbox, hinbox]
  rw [htrimmed, Option.bind_some, next?_pick hnext]

end Read

/-- A line that stays is read the same although bytes around it are gone. -/
theorem step_read_trim (h : server.IsSound) (later : List Bool)
    (hstays : server.isPassedOver id (.read id) = false)
    (hlater : (server.step (.read id)).1.service.HasLeft id → ∀ mark ∈ later, mark = true) :
    server.Trims id later (.read id) := by
  have hsame : server.trim id (server.readMarks id (.read id) ++ later) = server ∧
      (server.step (.read id)).1.trim id later = (server.step (.read id)).1 →
        server.Trims id later (.read id) := by
    rintro ⟨hbefore, hafter⟩
    rw [Trims, hbefore, hafter]
    exact ⟨hstays, rfl⟩
  cases hinbox : server.inboxes[id]? with
  | none =>
    have hstep : server.step (.read id) = (server, []) := by simp [step, hinbox]
    refine hsame ⟨updateInbox_of_none hinbox _, ?_⟩
    rw [hstep]
    exact updateInbox_of_none hinbox _
  | some inbox =>
    cases hnext : inbox.next? with
    | none =>
      have hmarks : server.readMarks id (.read id) = [] := by
        simp [readMarks, nextLine?, hinbox, hnext]
      have hstep : server.step (.read id) = (server, []) := by simp [step, hinbox, hnext]
      have htrimmed := next?_trim_of_nothing later hinbox hnext
      rw [Trims, hmarks, List.nil_append, edit_read, isPassedOver_read, htrimmed, hstep]
      refine ⟨rfl, ?_⟩
      rw [step, htrimmed]
      rfl
    | some found =>
      cases found with
      | line text rest =>
        have hpass : server.service.passesOver id text = false := by
          simpa [isPassedOver_read, hinbox, hnext] using hstays
        have htrimmed := next?_trim_of_line later hinbox hnext hpass
        have hstep : server.step (.read id) = server.take id (.line text rest) := by
          simp [step, hinbox, hnext]
        rw [Trims, edit_read, isPassedOver_read, htrimmed, hstep]
        refine ⟨hpass, ?_⟩
        rw [step, htrimmed]
        refine congrArg (·, (server.service.receive id text).2) ?_
        show (updateInbox { server with service := _ } id _).updateInbox id _ =
          (updateInbox { server with service := _ } id _).updateInbox id _
        rw [updateInbox_updateInbox, updateInbox_updateInbox]
        rfl
      | ended => exact hsame (trim_of_end later hinbox h hnext (by simp) hlater)
      | fault reason => exact hsame (trim_of_end later hinbox h hnext (by simp) hlater)

/-- **One step with fewer bytes.** A step that reads no line to be passed over does the same when the
bytes of such lines are not there, and then too it reads no line to be passed over. -/
theorem step_trim (h : server.IsSound) (later : List Bool) {next : Step}
    (hstays : server.isPassedOver id next = false)
    (hlater : (server.step next).1.service.HasLeft id → ∀ mark ∈ later, mark = true) :
    server.Trims id later next := by
  cases next with
  | connect => exact ⟨rfl, step_connect_trim later⟩
  | send client bytes =>
    refine ⟨?_, step_send_trim client bytes later⟩
    obtain ⟨edited, hedit⟩ := exists_edit_send server id later client bytes
    rw [hedit]
    rfl
  | finish client => exact ⟨rfl, step_finish_trim client later⟩
  | read client =>
    by_cases hclient : client = id
    · subst hclient
      exact step_read_trim h later hstays hlater
    · rw [Trims, readMarks, if_neg hclient, List.nil_append]
      refine ⟨?_, step_read_trim_of_ne hclient later⟩
      simp [edit_read, isPassedOver, hclient]
  | disconnect client => exact ⟨rfl, rfl⟩
  | hangUp client => exact ⟨rfl, rfl⟩
  | advance client => exact ⟨rfl, rfl⟩
  | shutdown => exact ⟨rfl, rfl⟩

/-- **One step less.** The step that reads a line to be passed over writes nothing, and all it does is to
take the bytes of that line, which are not there any more. -/
theorem step_of_isPassedOver (h : server.IsSound) (later : List Bool) {next : Step}
    (hpass : server.isPassedOver id next = true) :
    server.trim id (server.readMarks id next ++ later) = (server.step next).1.trim id later ∧
      (server.step next).2 = [] := by
  cases next with
  | read client =>
    obtain ⟨hclient, hpass⟩ := Bool.and_eq_true_iff.1 hpass
    obtain rfl := beq_iff_eq.1 hclient
    obtain ⟨⟨text, size⟩, hline, hpass : server.service.passesOver client text = true⟩ :=
      (Option.any_eq_true _ _).1 hpass
    obtain ⟨inbox, rest, hinbox, hnext⟩ := exists_next?_of_nextLine? hline
    obtain ⟨front, hfront, -⟩ := exists_front_of_next? hnext
    have hpicked := readMarks_append_pick hinbox hnext hfront later
    rw [hpass, if_pos rfl, List.nil_append] at hpicked
    have hstep : server.step (.read client) =
        (server.updateInbox client fun inbox => { inbox with bytes := rest }, []) := by
      simp [step, hinbox, hnext, take, receive_of_passesOver h.letsGo hpass]
    rw [hstep]
    refine ⟨?_, rfl⟩
    rw [trim, trim, updateInbox_updateInbox]
    refine updateInbox_congr fun other hother => ?_
    obtain rfl := Option.some.inj (hinbox.symm.trans hother)
    rw [hpicked]
    rfl
  | connect => cases hpass
  | send client bytes => cases hpass
  | finish client => cases hpass
  | disconnect client => cases hpass
  | hangUp client => cases hpass
  | advance client => cases hpass
  | shutdown => cases hpass

theorem heedsAll_nil (server : Server) (id : ClientId) : server.HeedsAll id [] := by
  intro earlier next later hsplit
  cases earlier <;> cases hsplit

theorem HeedsAll.cons {next : Step} {rest : List Step} (hstays : server.isPassedOver id next = false)
    (hrest : (server.step next).1.HeedsAll id rest) : server.HeedsAll id (next :: rest) := by
  intro earlier last later hsplit
  cases earlier with
  | nil =>
    obtain ⟨rfl, -⟩ := List.cons.inj hsplit
    exact hstays
  | cons first earlier =>
    obtain ⟨rfl, htail⟩ := List.cons.inj hsplit
    exact hrest earlier last later htail

/-- **A whole run** of the trimmed server does the same, and passes no line over. -/
theorem play_heeded_trim (h : server.IsSound) (id : ClientId) (steps : List Step) :
    (server.trim id (marks id server steps)).HeedsAll id (heeded id server steps) ∧
      (server.trim id (marks id server steps)).play (heeded id server steps) = server.play steps := by
  -- Bytes of a line that a later step passes over may have come already, so they are to be gone from the
  -- inbox with which the shorter run starts.
  induction steps generalizing server with
  | nil => exact ⟨heedsAll_nil _ id, congrArg (·, []) (trim_nil server id)⟩
  | cons next rest ih =>
    obtain ⟨hheeds, hplay⟩ := ih (h.step next)
    rw [heeded, marks]
    split
    · next hpass =>
      obtain ⟨htrim, hsilent⟩ := step_of_isPassedOver h (marks id (server.step next).1 rest) hpass
      rw [htrim, hplay, play_cons, hsilent]
      exact ⟨hheeds, rfl⟩
    · next hpass =>
      obtain ⟨hstays, hstep⟩ := step_trim h (marks id (server.step next).1 rest)
        (Bool.not_eq_true _ ▸ hpass) fun hleft => marks_of_hasLeft hleft rest
      constructor
      · apply HeedsAll.cons hstays
        rw [hstep]
        exact hheeds
      · rw [play_cons, hstep, hplay, play_cons]

/-- **Commands sent while subscribed leave no trace.** All lines that a session passes over can be left
out of what a client sends without any other difference: neither in what is written to any client and
noticed by the monitor, nor in what is stored at the end. This holds if each line is followed by the
deliveries it gives rise to, and for bytes that come and are read in any order. -/
theorem run_heeded_and_play_heeded (id : ClientId) :
    (∀ events, Service.HeedsAll {} id (Service.heeded id {} events) ∧
      Service.run {} (Service.heeded id {} events) = Service.run {} events) ∧
    ∀ steps, HeedsAll {} id (heeded id {} steps) ∧ play {} (heeded id {} steps) = play {} steps := by
  constructor
  · intro events
    have hwaits : ∀ id, advance {} id = none := fun _ => rfl
    exact ⟨heedsAll_heeded letsGo_fresh hwaits id events, run_heeded letsGo_fresh hwaits id events⟩
  · intro steps
    have htrim : trim {} id (marks id {} steps) = {} := updateInbox_of_none rfl _
    have hplay := play_heeded_trim isSound_fresh id steps
    rwa [htrim] at hplay

/-- A subscribed client sends `exit` in two pieces, then `stop`. Only `stop` is heeded. -/
example : heeded 0 {}
    [.connect, .send 0 (encode "exchange direct x\nqueue q\nsubscribe\nex"), .read 0, .read 0, .read 0,
      .send 0 (encode "it\nstop\n"), .read 0, .read 0] =
    [.connect, .send 0 (encode "exchange direct x\nqueue q\nsubscribe\n"), .read 0, .read 0, .read 0,
      .send 0 (encode "stop\n"), .read 0] := by
  decide +kernel

end Server

end BrokerCluster.Messaging
