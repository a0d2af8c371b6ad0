import BrokerCluster.Naming.Server
import BrokerCluster.Proofs.Messaging.Farewell
import BrokerCluster.Proofs.Naming.Resolution

/-!
# What `ok bye` means in the two services

The messaging service says `ok bye` to a client that it lets go. The name service says it
to every line that begins with the word `exit`, but lets the client go only if that word
is alone. A line with more words leaves everything as it was, and the session goes on.
-/
namespace BrokerCluster.Naming

open Text

theorem endsSession_iff {line : String} : endsSession line = true ↔ words line = ["exit"] := by
  rw [endsSession, beq_iff_eq]
  exact trim_eq_iff (by decide)

theorem ofLine_eq_exit_iff {line : String} :
    Request.ofLine line = .exit ↔ (words line).head? = some "exit" := by
  constructor
  · intro h
    unfold Request.ofLine at h
    split at h
    next => split at h <;> cases h
    next => split at h <;> cases h
    next => split at h <;> cases h
    next hwords => rw [hwords]; rfl
    next => cases h
  · intro h
    obtain ⟨arguments, hwords⟩ := List.head?_eq_some_iff.1 h
    simp [Request.ofLine, hwords]

theorem ne_bye_of_malformed {line reply : String} (h : Request.ofLine line = .malformed reply) :
    reply ≠ "ok bye" := by
  unfold Request.ofLine at h
  split at h
  all_goals
    try split at h
    all_goals
      cases h
      try decide

def Table.IsSound (table : Table) : Prop := ∀ entry ∈ table, IsWord entry.2

theorem Table.isSound_nil : Table.IsSound [] := List.forall_mem_nil _

theorem Table.isSound_filter {table : Table} (h : table.IsSound) (keep : String × String → Bool) :
    Table.IsSound (table.filter keep) := fun entry hentry => h entry (List.mem_of_mem_filter hentry)

theorem isSound_answerLine {table : Table} (h : table.IsSound) (line : String) :
    (answerLine table line).1.IsSound := by
  rw [answerLine]
  cases hrequest : Request.ofLine line with
  | register name address =>
    have hmem : address ∈ words line := by
      rw [ofLine_eq_register_iff.1 hrequest]
      simp
    exact List.forall_mem_cons.2 ⟨Wire.isWord_of_mem_words hmem, Table.isSound_filter h _⟩
  | unregister name => exact Table.isSound_filter h _
  | resolve | exit | malformed => exact h

theorem answerLine_of_exit {line : String} (h : (words line).head? = some "exit") (table : Table) :
    answerLine table line = (table, "ok bye") := by
  rw [answerLine, ofLine_eq_exit_iff.2 h]
  rfl

/-- As long as all addresses are words, only a line that begins with `exit` gets `ok bye`. -/
theorem head_eq_exit_of_bye {table : Table} (h : table.IsSound) {line : String}
    (hbye : (answerLine table line).2 = "ok bye") : (words line).head? = some "exit" := by
  rw [answerLine] at hbye
  cases hrequest : Request.ofLine line with
  | exit => exact ofLine_eq_exit_iff.1 hrequest
  | malformed reply =>
    rw [hrequest] at hbye
    exact absurd hbye (ne_bye_of_malformed hrequest)
  | register | unregister =>
    have hok : "ok" ≠ "ok bye" := by decide
    rw [hrequest] at hbye
    exact absurd hbye hok
  | resolve name =>
    rw [hrequest, answer] at hbye
    cases hfound : table.address? name with
    | none =>
      have hunknown : "error domain not found" ≠ "ok bye" := by decide
      rw [hfound] at hbye
      exact absurd hbye hunknown
    | some address =>
      -- An address is one word, and `ok bye` is two.
      obtain ⟨front, back, htable, -⟩ := List.lookup_eq_some_iff.1 hfound
      have hword : IsWord address := h (name, address) (by simp [htable])
      have hsame : address = "ok bye" := by rwa [hfound] at hbye
      rw [hsame] at hword
      exact absurd hword (by decide)

namespace Server

variable {server : Server} {id : ClientId} {line : String}

/-- After a line all is as it was, or the table is as answered and the session may be over. -/
theorem receive_cases (server : Server) (id : ClientId) (line : String) :
    let answered : Server := { server with table := (answerLine server.table line).1 }
    (server.receive id line).1 = server ∨ (server.receive id line).1 = answered ∨
      (server.receive id line).1 = answered.dismiss id := by
  unfold receive
  split
  · exact .inl rfl
  · split
    · dsimp only
      split
      · split
        · exact .inr (.inr rfl)
        · exact .inr (.inl rfl)
      · exact .inr (.inr rfl)
    · exact .inl rfl

theorem isSound_receive (h : server.table.IsSound) (id : ClientId) (line : String) :
    (server.receive id line).1.table.IsSound := by
  have hanswered := isSound_answerLine h line
  rcases receive_cases server id line with hafter | hafter | hafter
  · rwa [hafter]
  · rwa [hafter]
  · rwa [hafter]

theorem isSound_react (h : server.table.IsSound) (event : Event) :
    (server.react event).1.table.IsSound := by
  cases event with
  | line id text => exact isSound_receive h id text
  | connect | disconnect | hangUp => exact h

theorem run_eq_runAll (server : Server) (events : List Event) :
    server.run events = runAll react server events := by
  induction events generalizing server with
  | nil => rfl
  | cons event rest ih =>
    rw [runAll_cons, ← ih]
    rfl

theorem run_append (server : Server) (first later : List Event) :
    server.run (first ++ later) = (((server.run first).1.run later).1,
      (server.run first).2 ++ ((server.run first).1.run later).2) := by
  induction first generalizing server with
  | nil => rfl
  | cons event rest ih => simp only [List.cons_append, run, ih, List.append_assoc]

theorem isSound_run (h : server.table.IsSound) (events : List Event) :
    (server.run events).1.table.IsSound := by
  have hkeeps : ∀ (server : Server) (event : Event), server.table.IsSound →
      (server.react event).1.table.IsSound := fun _ event hsound => isSound_react hsound event
  rw [run_eq_runAll]
  exact left_runAll hkeeps h events

/-- A client that is still read and can be written to. -/
def Attends (server : Server) (id : ClientId) : Prop :=
  server.sessions[id]? = some { reading := true, writable := true }

theorem Attends.lt_length (h : server.Attends id) : id < server.sessions.length :=
  (List.getElem?_eq_some_iff.1 h).1

/-- A client that can be written to gets the answer to its line. -/
theorem receive_of_attends (h : server.Attends id) (line : String) :
    server.receive id line =
      let after := { server with table := (answerLine server.table line).1 }
      (if endsSession line then after.dismiss id else after,
        [(id, (answerLine server.table line).2)]) := by
  rw [Attends] at h
  simp only [receive, h, if_true]

/-- Whoever gets a reply attends, and the reply is the answer to the line. -/
theorem attends_of_mem {client : ClientId} {reply : String}
    (h : (client, reply) ∈ (server.receive id line).2) :
    server.Attends id ∧ client = id ∧ reply = (answerLine server.table line).2 := by
  cases hsession : server.sessions[id]? with
  | none =>
    simp only [receive, hsession] at h
    cases h
  | some found =>
    obtain ⟨reading, writable⟩ := found
    cases reading with
    | false =>
      simp only [receive, hsession] at h
      cases h
    | true =>
      cases writable with
      | false =>
        simp only [receive, hsession] at h
        cases h
      | true =>
        rw [receive_of_attends hsession] at h
        exact ⟨hsession, Prod.mk.inj (List.mem_singleton.1 h)⟩

/-- A client that is told `ok bye` is let go if the line was just `exit`; else nothing has changed. -/
theorem receive_of_bye (hsound : server.table.IsSound)
    (hbye : (id, "ok bye") ∈ (server.receive id line).2) :
    server.Attends id ∧ (words line).head? = some "exit" ∧
      (server.receive id line).1 =
        if words line = ["exit"] then server.dismiss id else server := by
  obtain ⟨hattends, -, hreply⟩ := attends_of_mem hbye
  have hexit := head_eq_exit_of_bye hsound hreply.symm
  refine ⟨hattends, hexit, ?_⟩
  rw [receive_of_attends hattends, answerLine_of_exit hexit]
  simp only [endsSession_iff]

/-- Whether it is a line of a client that comes. -/
def Event.isLineOf (id : ClientId) : Event → Bool
  | .line client _ => client == id
  | _ => false

/-- The session of a client does not read any more. -/
def HasLeft (id : ClientId) (server : Server) : Prop :=
  ∃ session, server.sessions[id]? = some session ∧ session.reading = false

theorem hasLeft_dismiss (h : id < server.sessions.length) : (server.dismiss id).HasLeft id :=
  ⟨{ reading := false, writable := false },
    by simp [dismiss, updateSession, List.getElem?_eq_getElem h], rfl⟩

theorem HasLeft.react_of_isLineOf (h : server.HasLeft id) {event : Event}
    (hevent : event.isLineOf id = true) : server.react event = (server, []) := by
  cases event with
  | line client text =>
    obtain rfl := beq_iff_eq.1 hevent
    obtain ⟨found, hfound, hleft⟩ := h
    simp [react, receive, hfound, hleft]
  | connect | disconnect | hangUp => cases hevent

theorem HasLeft.updateSession (h : server.HasLeft id) (other : ClientId) {change : Session → Session}
    (hchange : ∀ session, session.reading = false → (change session).reading = false) :
    (server.updateSession other change).HasLeft id := by
  obtain ⟨session, hsession, hleft⟩ := h
  refine ⟨if other = id then change session else session, ?_, ?_⟩
  · simp [Server.updateSession, List.getElem?_modify, hsession]
  · split
    · exact hchange session hleft
    · exact hleft

theorem HasLeft.dismiss (h : server.HasLeft id) (other : ClientId) :
    (server.dismiss other).HasLeft id := h.updateSession other fun _ _ => rfl

theorem HasLeft.receive (h : server.HasLeft id) (other : ClientId) (line : String) :
    (server.receive other line).1.HasLeft id := by
  have hanswered : HasLeft id { server with table := (answerLine server.table line).1 } := h
  rcases receive_cases server other line with hafter | hafter | hafter
  · rwa [hafter]
  · rwa [hafter]
  · rw [hafter]
    exact hanswered.dismiss other

theorem HasLeft.react (h : server.HasLeft id) (event : Event) : (server.react event).1.HasLeft id := by
  cases event with
  | connect =>
    obtain ⟨session, hsession, hleft⟩ := h
    obtain ⟨hbound, -⟩ := List.getElem?_eq_some_iff.1 hsession
    exact ⟨session, (List.getElem?_append_left hbound).trans hsession, hleft⟩
  | line other text => exact h.receive other text
  | disconnect other => exact h.dismiss other
  | hangUp other => exact h.updateSession other fun _ hleft => hleft

theorem HasLeft.run_lines (h : server.HasLeft id) (lines : List String) :
    server.run (lines.map (.line id)) = (server, []) := by
  have hkeeps : ∀ (server : Server) (event : Event), server.HasLeft id →
      (server.react event).1.HasLeft id := fun _ event hleft => hleft.react event
  have hnone : (lines.map (Event.line id)).filter (fun event => !event.isLineOf id) = [] := by
    simp [List.filter_eq_nil_iff, Event.isLineOf]
  rw [run_eq_runAll, ← runAll_filter hkeeps (fun _ _ hleft => hleft.react_of_isLineOf) h, hnone]
  rfl

/-- The lines of one client are answered as `answerLines` says. -/
theorem run_lines (h : server.Attends id) (lines : List String) :
    (server.run (lines.map (.line id))).1.table = (answerLines server.table lines).1 ∧
      (server.run (lines.map (.line id))).2 = (answerLines server.table lines).2.map (id, ·) := by
  induction lines generalizing server with
  | nil => exact ⟨rfl, rfl⟩
  | cons line rest ih =>
    let after : Server := { server with table := (answerLine server.table line).1 }
    have hrun : server.run ((line :: rest).map (.line id)) =
        (((server.receive id line).1.run (rest.map (.line id))).1,
          (server.receive id line).2 ++ ((server.receive id line).1.run (rest.map (.line id))).2) := rfl
    rw [hrun, receive_of_attends h, answerLines]
    dsimp only
    split
    · have hleft : (after.dismiss id).HasLeft id := hasLeft_dismiss h.lt_length
      rw [hleft.run_lines rest]
      exact ⟨rfl, rfl⟩
    · have hattends : after.Attends id := h
      obtain ⟨htable, houtputs⟩ := ih hattends
      exact ⟨htable, congrArg _ houtputs⟩

/-- **A connection on its own.** What `serve` makes of the bytes of a client is a run of the server
with that client, which sends its lines and is gone. -/
theorem serve_eq_run (table : Table) (input : List UInt8) :
    let events := .connect :: ((Wire.readLines input).1.map (Event.line 0) ++ [.disconnect 0])
    let after := run { table } events
    serve table input = (after.1.table, Wire.writeLines (after.2.map Prod.snd)) := by
  intro events after
  let connected : Server := { table, sessions := [{}] }
  let lines := (Wire.readLines input).1
  have hattends : connected.Attends 0 := rfl
  obtain ⟨htable, hreplies⟩ := run_lines hattends lines
  have hafter : after = ((connected.run (lines.map (.line 0))).1.dismiss 0,
      (0, banner) :: (connected.run (lines.map (.line 0))).2) := by
    have hrun : after = ((connected.run (lines.map (.line 0) ++ [.disconnect 0])).1,
        (0, banner) :: (connected.run (lines.map (.line 0) ++ [.disconnect 0])).2) := rfl
    rw [hrun, run_append]
    simp [run, react]
  have hsame : ((connected.run (lines.map (.line 0))).1.dismiss 0).table =
      (answerLines table lines).1 := htable
  rw [hafter, hsame, hreplies]
  simp [serve, lines, connected, Function.comp_def]

theorem sessionIsOver_dismiss (h : id < server.sessions.length) :
    SessionIsOver react (Event.isLineOf id) (.disconnect id) (server.dismiss id) := by
  have hagain : (server.dismiss id).dismiss id = server.dismiss id := by
    simp only [dismiss, updateSession, List.modify_modify_eq]
    rfl
  exact sessionIsOver_of_left (fun _ event hgone => hgone.react event)
    (fun _ _ hgone => hgone.react_of_isLineOf) (hasLeft_dismiss h) (congrArg (·, []) hagain)

/-- A session that goes on is not over: the next line is answered. -/
theorem Attends.not_sessionIsOver (h : server.Attends id) {ending : Event} :
    ¬ SessionIsOver react (Event.isLineOf id) ending server := by
  intro hover
  have hnext : server.receive id "exit" = (server, []) :=
    hover.unread [] (.line id "exit") (beq_self_eq_true id)
  rw [receive_of_attends h] at hnext
  cases (Prod.mk.inj hnext).2

end Server

end BrokerCluster.Naming

namespace BrokerCluster

/-- **What `ok bye` means.** In all runs of the messaging service the session of a client that is told
`ok bye` is over. In all runs of the name service the line began with the word `exit`; the session is
over exactly if that was its only word, and otherwise the line has changed nothing. -/
theorem sessionIsOver_iff_of_bye (id : Nat) (line : String) :
    (∀ before : List Messaging.Service.Happening,
      let service := (Messaging.Service.undergoAll {} before).1
      Messaging.Output.line id "ok bye" ∈ (service.receive id line).2 →
      SessionIsOver Messaging.Service.undergo (Messaging.Service.Happening.isLineOf id)
        (.move (.event (.disconnect id))) (service.receive id line).1) ∧
    (∀ before : List Naming.Server.Event,
      let server := (Naming.Server.run {} before).1
      (id, "ok bye") ∈ (server.receive id line).2 →
      (Text.words line).head? = some "exit" ∧
      (SessionIsOver Naming.Server.react (Naming.Server.Event.isLineOf id) (.disconnect id)
        (server.receive id line).1 ↔ Text.words line = ["exit"]) ∧
      (Text.words line ≠ ["exit"] → (server.receive id line).1 = server)) := by
  refine ⟨fun before hbye => Messaging.Service.sessionIsOver_of_bye hbye, ?_⟩
  intro before server hbye
  have hsound : server.table.IsSound := Naming.Server.isSound_run Naming.Table.isSound_nil before
  obtain ⟨hattends, hexit, hafter⟩ := Naming.Server.receive_of_bye hsound hbye
  rw [hafter]
  by_cases hone : Text.words line = ["exit"]
  · rw [if_pos hone]
    have hover := Naming.Server.sessionIsOver_dismiss hattends.lt_length
    exact ⟨hexit, iff_of_true hover hone, fun hmore => absurd hone hmore⟩
  · rw [if_neg hone]
    exact ⟨hexit, iff_of_false hattends.not_sessionIsOver hone, fun _ => rfl⟩

def oneClient : Messaging.Service := (Messaging.Service.undergoAll {} [.move (.event .connect)]).1

def oneNameClient : Naming.Server := (Naming.Server.run {} [.connect]).1

/-- A messaging client may say more than `exit`, a name client may not. -/
theorem sessionIsOver_of_exit :
    Messaging.Output.line 0 "ok bye" ∈ (oneClient.receive 0 "exit now").2 ∧
    SessionIsOver Messaging.Service.undergo (Messaging.Service.Happening.isLineOf 0)
      (.move (.event (.disconnect 0))) (oneClient.receive 0 "exit now").1 ∧
    (0, "ok bye") ∈ (oneNameClient.receive 0 " exit ").2 ∧
    SessionIsOver Naming.Server.react (Naming.Server.Event.isLineOf 0) (.disconnect 0)
      (oneNameClient.receive 0 " exit ").1 := by
  have hmessaging : Messaging.Output.line 0 "ok bye" ∈ (oneClient.receive 0 "exit now").2 := by
    decide +kernel
  have hnaming : (0, "ok bye") ∈ (oneNameClient.receive 0 " exit ").2 := by decide +kernel
  have hwords : Text.words " exit " = ["exit"] := by decide +kernel
  exact ⟨hmessaging, (sessionIsOver_iff_of_bye 0 "exit now").1 _ hmessaging, hnaming,
    ((sessionIsOver_iff_of_bye 0 " exit ").2 _ hnaming).2.1.2 hwords⟩

/-- The name service says `ok bye` and goes on: it takes up the next line of the same client, which
changes the table. -/
theorem exitNow_goes_on :
    (0, "ok bye") ∈ (oneNameClient.receive 0 "exit now").2 ∧
    ¬ SessionIsOver Naming.Server.react (Naming.Server.Event.isLineOf 0) (.disconnect 0)
      (oneNameClient.receive 0 "exit now").1 ∧
    Naming.Server.run {} [.connect, .line 0 "exit now", .line 0 "register a b:1"] =
      ({ table := [("a", "b:1")], sessions := [{}] },
        [(0, Naming.banner), (0, "ok bye"), (0, "ok")]) ∧
    Naming.Server.run {} [.connect, .line 0 "exit now", .disconnect 0] =
      ({ table := [], sessions := [{ reading := false, writable := false }] },
        [(0, Naming.banner), (0, "ok bye")]) ∧
    (Naming.serve [] (Text.encode "exit now\nregister a b:1\n")).1 = [("a", "b:1")] := by
  have hgoesOn : (oneNameClient.receive 0 "exit now").1.Attends 0 := by
    unfold Naming.Server.Attends
    decide +kernel
  exact ⟨by decide +kernel, hgoesOn.not_sessionIsOver, by decide +kernel, by decide +kernel,
    by decide +kernel⟩

end BrokerCluster
